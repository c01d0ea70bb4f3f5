import Tabletop.Proofs.Initiative.Settled

/-!
# Stored turn orders and kept ones

The commands of a session keep the turn order of each channel as a text and read it anew for every
command.  The same answers come about if each channel has a turn order of its own that is never
written down: an order that becomes empty is then replaced by a new one.

A JSON text that can be read holds integers of at most `maxWholeDigits` digits.  An order with a
longer one is stored and never read again, so every command on it is refused until the end of the
run, while an order in memory would go on.

## Main definitions

* `Session.onChannels` — a run of commands on stored turn orders.
* `Mirrors` — the stored orders are the texts of kept ones.
* `TurnOrder.single` — the order with one entry.

## Main results

* `onChannel_refines` — one command on a stored order does what it does to the order itself.
* `Mirrors.onChannels` — so does a run of commands, on each channel.
* `onChannels_refines` — **a run that starts without orders is a run of each channel on an order in
  memory**, as long as that is legible.
* `unreadable_after_long_value` — a value that is too long can be seen once and never again.
-/

namespace Tabletop

open Initiative

/-- Carries out commands on stored turn orders one after another. -/
def Session.onChannels (s : Session) :
    List (String × ChannelAction) → Game → List (String × Except Error ChannelAnswer) × Game
  | [], game => ([], game)
  | (channel, action) :: commands, game =>
    let (answer, game) := s.onChannel channel action game
    let (answers, game) := s.onChannels commands game
    ((channel, answer) :: answers, game)

namespace Initiative

/-! ### One command -/

theorem stored?_renew (o : TurnOrder) : o.renew.stored? = o.stored? := by
  unfold TurnOrder.renew
  split
  · next hsize =>
    rw [TurnOrder.stored?, TurnOrder.stored?, if_pos hsize, if_pos TurnOrder.size_empty]
  · rfl

theorem size_eq_zero_of_clear {o : TurnOrder} (h : o.clear.1 = false) : o.size = 0 := by
  have hempty : o.standings.toList.isEmpty = true := by
    rw [TurnOrder.clear, Bool.not_eq_false'] at h
    exact h
  exact List.length_eq_zero_iff.2 (List.isEmpty_iff.1 hempty)

section Step

variable {s : Session} {channel : String} {game : Game} {o : TurnOrder}

/-- What is stored for every channel if it is that of another order on one channel. -/
def storedWith (orders : Stored) (channel : String) (o : TurnOrder) (channel' : String) :
    Option String :=
  if channel = channel' then o.stored? else orders.get? channel'

theorem storedWith_of_stored? {orders : Stored} (h : orders.get? channel = o.stored?)
    (channel' : String) : storedWith orders channel o channel' = orders.get? channel' := by
  rw [storedWith]
  split
  · next heq => rw [← heq, h]
  · rfl

/-- A command on an order that cannot be read is refused, and changes nothing but the supply. -/
theorem onChannel_of_load_error
    (hload : load game.orders channel = .error TurnOrder.unreadable) (action : ChannelAction) :
    s.onChannel channel action game =
      ((settle s.source action game.supply).1.refusal,
        { game with supply := (settle s.source action game.supply).2 }) := by
  cases action with
  | roll words usual =>
    rw [Session.onChannel, Play.bind_apply, rollInto, Play.bind_apply, Play.ofCommand_apply, settle]
    rcases rollInitiative s.source words usual game.supply with ⟨e | r, supply⟩
    · rfl
    · have hload' : load { game with supply := supply }.orders channel =
          .error TurnOrder.unreadable := hload
      have hadd : addTo channel r.name r.value { game with supply := supply } =
          (.error TurnOrder.unreadable, { game with supply := supply }) :=
        bind_of_load_error hload' _
      simp only [Play.bind_apply, hadd]
      rfl
  | add name value =>
    rw [Session.onChannel, Play.map_apply, addTo, bind_of_load_error hload]
    rfl
  | remove name =>
    rw [Session.onChannel, Play.map_apply, removeFrom, bind_of_load_error hload]
    rfl
  | next =>
    rw [Session.onChannel, Play.map_apply, nextTurn, bind_of_load_error hload]
    rfl
  | clear =>
    rw [Session.onChannel, Play.map_apply, clearAll, bind_of_load_error hload]
    rfl
  | list =>
    rw [Session.onChannel, Play.map_apply, showSlots, bind_of_load_error hload]
    rfl

/-- One command on an order that can be read. -/
theorem onChannel_of_load_ok (hload : load game.orders channel = .ok o)
    (hstored : game.orders.get? channel = o.stored?) (hfresh : o.size = 0 → o = .empty)
    (action : ChannelAction) :
    (s.onChannel channel action game).1 = ((settle s.source action game.supply).1.act o).1 ∧
      (s.onChannel channel action game).2.supply = (settle s.source action game.supply).2 ∧
      ∀ channel', (s.onChannel channel action game).2.orders.get? channel' =
        storedWith game.orders channel ((settle s.source action game.supply).1.act o).2
          channel' := by
  have hsame := fun c => (storedWith_of_stored? hstored c).symm
  cases action with
  | roll words usual =>
    rw [Session.onChannel, Play.bind_apply, rollInto_apply hload, settle]
    rcases rollInitiative s.source words usual game.supply with ⟨e | r, supply⟩
    · exact ⟨rfl, rfl, hsame⟩
    · simp only [SettledAction.act]
      rcases o.add r.name r.value with e | ⟨e, o'⟩
      · exact ⟨rfl, rfl, hsame⟩
      · exact ⟨rfl, rfl, fun c => get?_save game.orders channel c o'⟩
  | add name value =>
    rw [Session.onChannel, Play.map_apply, addTo_apply hload, settle, SettledAction.act]
    rcases o.add name value with e | ⟨e, o'⟩
    · exact ⟨rfl, rfl, hsame⟩
    · exact ⟨rfl, rfl, fun c => get?_save game.orders channel c o'⟩
  | remove name =>
    rw [Session.onChannel, Play.map_apply, removeFrom_apply hload, settle, SettledAction.act]
    by_cases hsize : o.size = 0
    · rw [if_pos hsize, if_pos hsize]
      exact ⟨rfl, rfl, hsame⟩
    · rw [if_neg hsize, if_neg hsize]
      refine ⟨rfl, ?_, ?_⟩
      · split
        · rfl
        · rfl
      · intro c
        rw [storedWith, stored?_renew]
        cases hc : o.contains (Text.trim name) with
        | true =>
          rw [TurnOrder.remove_of_contains hc]
          exact get?_save game.orders channel c _
        | false =>
          rw [TurnOrder.remove_of_not_contains hc]
          exact hsame c
  | next =>
    rw [Session.onChannel, Play.map_apply, nextTurn_apply hload, settle, SettledAction.act]
    rcases o.advance with e | ⟨e, o'⟩
    · exact ⟨rfl, rfl, hsame⟩
    · exact ⟨rfl, rfl, fun c => get?_save game.orders channel c o'⟩
  | clear =>
    rw [Session.onChannel, Play.map_apply, clearAll_apply hload, settle, SettledAction.act]
    by_cases had : o.clear.1 = true
    · rw [if_pos had]
      exact ⟨rfl, rfl, fun c => game.orders.get?_erase channel c⟩
    · rw [if_neg had]
      -- There was nothing to drop, so the order was the new one already.
      obtain rfl := hfresh (size_eq_zero_of_clear (Bool.eq_false_iff.2 had))
      exact ⟨rfl, rfl, hsame⟩
  | list =>
    rw [Session.onChannel, Play.map_apply, showSlots_apply hload, settle, SettledAction.act]
    exact ⟨rfl, rfl, hsame⟩

/-- **One command on a stored order does what it does to the order itself**, and leaves the orders
of the other channels as they are. -/
theorem onChannel_refines (ho : Kept o) (hstored : game.orders.get? channel = o.stored?)
    (action : ChannelAction) :
    (s.onChannel channel action game).1 = ((settle s.source action game.supply).1.actRead o).1 ∧
      (s.onChannel channel action game).2.supply = (settle s.source action game.supply).2 ∧
      ∀ channel', (s.onChannel channel action game).2.orders.get? channel' =
        storedWith game.orders channel ((settle s.source action game.supply).1.actRead o).2
          channel' := by
  have hload := load_of_stored? ho hstored
  by_cases hlegible : o.Legible
  · rw [if_pos hlegible] at hload
    rw [SettledAction.actRead, if_pos hlegible]
    exact onChannel_of_load_ok hload hstored ho.fresh action
  · rw [if_neg hlegible] at hload
    rw [SettledAction.actRead, if_neg hlegible, onChannel_of_load_error hload]
    exact ⟨rfl, rfl, fun c => (storedWith_of_stored? hstored c).symm⟩

end Step

/-! ### Runs -/

/-- What is stored for each channel is the text of an order that commands build. -/
structure Mirrors (orders : String → TurnOrder) (game : Game) : Prop where
  kept : ∀ channel, Kept (orders channel)
  stored : ∀ channel, game.orders.get? channel = (orders channel).stored?

theorem mirrors_empty (cards : CardStore) (supply : Dice.Supply) :
    Mirrors (fun _ => .empty) ⟨cards, .empty, supply⟩ where
  kept := fun _ => kept_empty
  stored := fun channel => InsertionMap.get?_empty channel

/-- The orders of all channels after settled actions. -/
def ordersAfter (settled : List (String × SettledAction)) (orders : String → TurnOrder)
    (channel : String) : TurnOrder :=
  (actAll SettledAction.actRead (ofChannel channel settled) (orders channel)).2

theorem ordersAfter_singleton_self (channel : String) (action : SettledAction)
    (orders : String → TurnOrder) :
    ordersAfter [(channel, action)] orders channel = (action.actRead (orders channel)).2 := by
  rw [ordersAfter, ofChannel_cons_self]
  rfl

theorem ordersAfter_singleton_of_ne {channel channel' : String} (h : channel ≠ channel')
    (action : SettledAction) (orders : String → TurnOrder) :
    ordersAfter [(channel, action)] orders channel' = orders channel' := by
  rw [ordersAfter, ofChannel_cons_of_ne h]
  rfl

theorem ordersAfter_append (first second : List (String × SettledAction))
    (orders : String → TurnOrder) :
    ordersAfter (first ++ second) orders = ordersAfter second (ordersAfter first orders) := by
  funext channel
  rw [ordersAfter, ofChannel_append, actAll_append]
  rfl

theorem actAll_ofChannel_cons (channel channel' : String) (action : SettledAction)
    (settled : List (String × SettledAction)) (orders : String → TurnOrder) :
    (actAll SettledAction.actRead (ofChannel channel' ((channel, action) :: settled))
        (orders channel')).1 =
      (if channel = channel' then [(action.actRead (orders channel')).1] else []) ++
        (actAll SettledAction.actRead (ofChannel channel' settled)
          (ordersAfter [(channel, action)] orders channel')).1 := by
  by_cases h : channel = channel'
  · obtain rfl := h
    rw [if_pos rfl, ofChannel_cons_self, actAll_cons, ordersAfter_singleton_self]
    rfl
  · rw [if_neg h, ofChannel_cons_of_ne h, ordersAfter_singleton_of_ne h]
    rfl

section Run

variable {s : Session} {orders : String → TurnOrder} {game : Game}

/-- One command keeps the stored orders the texts of kept ones. -/
theorem Mirrors.onChannel (h : Mirrors orders game) (channel : String) (action : ChannelAction) :
    Mirrors (ordersAfter [(channel, (settle s.source action game.supply).1)] orders)
      (s.onChannel channel action game).2 := by
  have hstep :=
    (onChannel_refines (s := s) (h.kept channel) (h.stored channel) action).2.2
  refine ⟨?_, ?_⟩
  · intro channel'
    by_cases heq : channel = channel'
    · obtain rfl := heq
      rw [ordersAfter_singleton_self]
      exact (h.kept channel).actRead _
    · rw [ordersAfter_singleton_of_ne heq]
      exact h.kept channel'
  · intro channel'
    rw [hstep, storedWith]
    by_cases heq : channel = channel'
    · obtain rfl := heq
      rw [if_pos rfl, ordersAfter_singleton_self]
    · rw [if_neg heq, ordersAfter_singleton_of_ne heq]
      exact h.stored channel'

/-- **A run of commands on stored orders is a run of each channel on an order of its own.** -/
theorem Mirrors.onChannels (h : Mirrors orders game) (commands : List (String × ChannelAction)) :
    (∀ channel, ofChannel channel (s.onChannels commands game).1 =
        (actAll SettledAction.actRead
          (ofChannel channel (settleAll s.source commands game.supply).1) (orders channel)).1) ∧
      (s.onChannels commands game).2.supply = (settleAll s.source commands game.supply).2 ∧
      Mirrors (ordersAfter (settleAll s.source commands game.supply).1 orders)
        (s.onChannels commands game).2 := by
  induction commands generalizing orders game with
  | nil => exact ⟨fun _ => rfl, rfl, h⟩
  | cons command commands ih =>
    obtain ⟨channel, action⟩ := command
    obtain ⟨hanswer, hsupply, -⟩ :=
      onChannel_refines (s := s) (h.kept channel) (h.stored channel) action
    obtain ⟨hanswers, hlast, hmirrors⟩ := ih (h.onChannel (s := s) channel action)
    rw [hsupply] at hanswers hlast hmirrors
    rw [settleAll_cons]
    refine ⟨?_, hlast, ?_⟩
    · intro channel'
      rw [actAll_ofChannel_cons, ← hanswers channel']
      by_cases heq : channel = channel'
      · obtain rfl := heq
        rw [if_pos rfl, ← hanswer]
        exact ofChannel_cons_self channel _ _
      · rw [if_neg heq]
        exact ofChannel_cons_of_ne heq _ _
    · rw [← ordersAfter_append] at hmirrors
      exact hmirrors

end Run

/-! ### A first entry -/

/-- The smallest integer that is too long. -/
theorem not_isShort_ten_pow : ¬Json.IsShort (10 ^ Json.maxWholeDigits) := by
  rw [Json.isShort_iff, Int.natAbs_pow]
  simp

section First

variable {name : String} {value : Int}

/-- The order with one entry, which has the first rank. -/
def TurnOrder.single (name : String) (value : Int) : TurnOrder :=
  (TurnOrder.empty.put name value).2

theorem TurnOrder.entries_single : (single name value).entries = [⟨name, value, 0⟩] := rfl

theorem TurnOrder.slots_single :
    (single name value).slots = [⟨0, ⟨name, value, 0⟩, true⟩] := by
  rw [slots, display, entries_single, List.mergeSort_singleton]
  rfl

theorem TurnOrder.not_legible_single (h : ¬Json.IsShort value) : ¬(single name value).Legible :=
  fun hlegible => h (hlegible.1 ⟨name, value, 0⟩ List.mem_cons_self).1

/-- The first entry of an order is shown alone. -/
theorem act_add_empty (h : TurnOrder.readName name = .ok name) :
    (SettledAction.add name value).act .empty =
      (.ok (.slots [⟨0, ⟨name, value, 0⟩, true⟩]), TurnOrder.single name value) := by
  rw [SettledAction.act, TurnOrder.add, h]
  show (Except.ok (ChannelAnswer.slots (TurnOrder.single name value).slots), _) = _
  rw [TurnOrder.slots_single]
  rfl

end First

/-! ### Runs from the start -/

section Start

variable (s : Session) (cards : CardStore) (supply : Dice.Supply)
  (commands : List (String × ChannelAction)) (channel : String)

/-- A channel gets the answers that it gets alone. -/
theorem answers_onChannels :
    ofChannel channel (s.onChannels commands ⟨cards, .empty, supply⟩).1 =
      (alone s.source commands supply channel).1 :=
  ((mirrors_empty cards supply).onChannels commands).1 channel

/-- The text of the order that a channel builds alone is stored for it. -/
theorem stored_onChannels :
    (s.onChannels commands ⟨cards, .empty, supply⟩).2.orders.get? channel =
      (alone s.source commands supply channel).2.stored? :=
  ((mirrors_empty cards supply).onChannels commands).2.2.stored channel

end Start

/-- **A run of commands that starts without orders is a run of each channel on an order that it
keeps in memory**, as long as no number of that order is too long for a JSON text.  The answers on
the channel are those that it would get from the order in memory; after the run, and so after each
command of it, the text of that order is stored if it has entries, and nothing otherwise.  Once a
number of the order is too long, all commands on the channel are refused, for that reason or because
their own dice fail, and what is stored stays.  No number becomes too long if the values that are
added are short and the commands not too many.

The dice of all channels fall in the order of the commands, and a command changes nothing that is
stored for another channel, whatever the numbers are. -/
theorem onChannels_refines (s : Session) (commands : List (String × ChannelAction))
    (cards : CardStore) (supply : Dice.Supply) :
    (∀ channel, StaysLegible s.source commands supply channel →
        ofChannel channel (s.onChannels commands ⟨cards, .empty, supply⟩).1 =
            (inMemory s.source commands supply channel).1 ∧
          (s.onChannels commands ⟨cards, .empty, supply⟩).2.orders.get? channel =
            (inMemory s.source commands supply channel).2.stored?) ∧
      (∀ channel more, StaysLegible s.source commands supply channel →
        ¬(inMemory s.source commands supply channel).2.Legible →
          ofChannel channel (s.onChannels (commands ++ more) ⟨cards, .empty, supply⟩).1 =
              (inMemory s.source commands supply channel).1 ++
                (ofChannel channel
                  (settleAll s.source more (settleAll s.source commands supply).2).1).map
                    SettledAction.refusal ∧
            (s.onChannels (commands ++ more) ⟨cards, .empty, supply⟩).2.orders.get? channel =
              (inMemory s.source commands supply channel).2.stored?) ∧
      (∀ channel, s.source.IsShort → (∀ action ∈ ofChannel channel commands, action.IsShort) →
        Json.IsShort (ofChannel channel commands).length →
          StaysLegible s.source commands supply channel) ∧
      (s.onChannels commands ⟨cards, .empty, supply⟩).2.supply =
        (settleAll s.source commands supply).2 ∧
      ∀ channel action channel', channel' ≠ channel →
        (s.onChannels (commands ++ [(channel, action)]) ⟨cards, .empty, supply⟩).2.orders.get?
            channel' =
          (s.onChannels commands ⟨cards, .empty, supply⟩).2.orders.get? channel' := by
  refine ⟨?_, ?_, ?_, ((mirrors_empty cards supply).onChannels commands).2.1, ?_⟩
  · intro channel hstays
    rw [answers_onChannels, stored_onChannels, alone_eq_inMemory hstays]
    exact ⟨rfl, rfl⟩
  · intro channel more hstays hlong
    rw [answers_onChannels, stored_onChannels, alone_append hstays hlong]
    exact ⟨rfl, rfl⟩
  · intro channel hsource hcommands hcount
    exact staysLegible_of_isShort hsource hcommands hcount supply
  · intro channel action channel' hne
    rw [stored_onChannels, stored_onChannels, alone_append_of_ne commands hne.symm action]

/-- Two channels side by side.  On the first one the only entry is removed again; on the second one
a value is too long to be read again. -/
theorem onChannels_refines_side_by_side :
    let commands : List (String × ChannelAction) :=
      [("c", .add "A" 5), ("d", .add "B" (10 ^ Json.maxWholeDigits)), ("c", .remove "A"),
        ("d", .list), ("c", .next)]
    let run := Session.onChannels ⟨.evaluator, .rule0, 100⟩ commands
      ⟨.empty, .empty, .ofList []⟩
    ofChannel "c" run.1 = [.ok (.slots [⟨0, ⟨"A", 5, 0⟩, true⟩]), .ok (.removed true),
        .error .emptyOrder] ∧
      run.2.orders.get? "c" = none ∧
      ofChannel "d" run.1 = [.ok (.slots [⟨0, ⟨"B", 10 ^ Json.maxWholeDigits, 0⟩, true⟩]),
        .error TurnOrder.unreadable] ∧
      run.2.orders.get? "d" = (TurnOrder.single "B" (10 ^ Json.maxWholeDigits)).stored? := by
  obtain ⟨value, hvalue, hlong⟩ : ∃ value, value = 10 ^ Json.maxWholeDigits ∧ ¬Json.IsShort value :=
    ⟨_, rfl, not_isShort_ten_pow⟩
  rw [← hvalue]
  intro commands run
  -- The first channel stays legible as a whole.
  obtain ⟨hmemory, -, hshort, -⟩ :=
    onChannels_refines ⟨.evaluator, .rule0, 100⟩ commands .empty (.ofList [])
  have hc : ofChannel "c" commands = [.add "A" 5, .remove "A", .next] := rfl
  have hstays := hshort "c" isShort_evaluator
  rw [hc] at hstays
  obtain ⟨hanswers, hstored⟩ := hmemory "c" (hstays (by decide) (by decide))
  have hremoved : inMemory .evaluator commands (.ofList []) "c" =
      actAll SettledAction.act [.add "A" 5, .remove "A", .next] .empty := rfl
  rw [hremoved] at hanswers hstored
  -- The second one is legible until the value is added.
  obtain ⟨-, hrefused, -⟩ :=
    onChannels_refines ⟨.evaluator, .rule0, 100⟩ (commands.take 2) .empty (.ofList [])
  have hempty : (inMemory .evaluator [("c", .add "A" 5)] (.ofList []) "d").2.Legible := by decide
  have hbefore : StaysLegible .evaluator (commands.take 2) (.ofList []) "d" := by
    refine staysLegible_concat_iff.2 ⟨staysLegible_concat_iff.2 ⟨staysLegible_nil, ?_⟩, ?_⟩
    · decide
    · exact fun _ => hempty
  have hsingle : inMemory .evaluator (commands.take 2) (.ofList []) "d" =
      ([.ok (.slots [⟨0, ⟨"B", value, 0⟩, true⟩])], TurnOrder.single "B" value) := by
    have hname : TurnOrder.readName "B" = .ok "B" := by decide
    show actAll SettledAction.act [.add "B" value] .empty = _
    rw [actAll_cons, act_add_empty hname]
    rfl
  have hafter := hrefused "d" (commands.drop 2) hbefore
  rw [hsingle] at hafter
  obtain ⟨hanswers', hstored'⟩ := hafter (TurnOrder.not_legible_single hlong)
  exact ⟨hanswers.trans (by decide +kernel), hstored.trans (by decide +kernel), hanswers',
    hstored'⟩

/-- **A value that is too long can be seen once and never again**, while an order that is kept in
memory goes on to show it. -/
theorem unreadable_after_long_value :
    let commands : List (String × ChannelAction) :=
      [("c", .add "A" (10 ^ Json.maxWholeDigits)), ("c", .list)]
    let shown := ChannelAnswer.slots [⟨0, ⟨"A", 10 ^ Json.maxWholeDigits, 0⟩, true⟩]
    ofChannel "c" (Session.onChannels ⟨.evaluator, .rule0, 100⟩ commands
        ⟨.empty, .empty, .ofList []⟩).1 = [.ok shown, .error TurnOrder.unreadable] ∧
      (inMemory .evaluator commands (.ofList []) "c").1 = [.ok shown, .ok shown] := by
  obtain ⟨value, hvalue, hlong⟩ : ∃ value, value = 10 ^ Json.maxWholeDigits ∧ ¬Json.IsShort value :=
    ⟨_, rfl, not_isShort_ten_pow⟩
  rw [← hvalue]
  intro commands shown
  have hname : TurnOrder.readName "A" = .ok "A" := by decide
  have hempty : TurnOrder.empty.Legible := by decide
  constructor
  · rw [answers_onChannels]
    show (actAll SettledAction.actRead [.add "A" value, .list] .empty).1 = _
    rw [actAll_cons, actAll_cons, SettledAction.actRead, if_pos hempty,
      act_add_empty hname, SettledAction.actRead, if_neg (TurnOrder.not_legible_single hlong)]
    rfl
  · show (actAll SettledAction.act [.add "A" value, .list] .empty).1 = _
    rw [actAll_cons, actAll_cons, act_add_empty hname, SettledAction.act, TurnOrder.slots_single]
    rfl

end Initiative

end Tabletop
