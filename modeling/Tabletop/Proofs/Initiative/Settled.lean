import Tabletop.Proofs.Dice.Roll
import Tabletop.Proofs.Initiative.Channels
import Tabletop.Session

/-!
# Turn orders that are kept in memory

The dice of a roll fall before the order of the channel is read, so all dice of a run can be thrown
in the order of the commands before any turn order is touched.  What is left of each command is
a `SettledAction`, and it concerns the turn order of one channel only.

A settled action may work on an order that is kept in memory.  An order that is stored as a text
and read anew does the same, as long as it is `Legible`; from then on every action on it is refused.
It stays legible if the values that are added to it are short and the commands on it are not too
many for the numbers of a JSON text.

## Main definitions

* `SettledAction`, `settle`, `settleAll` — actions whose dice have fallen.
* `SettledAction.act`, `SettledAction.actRead` — an action on an order in memory, and on one that is
  read anew.
* `inMemory`, `alone` — the actions of a run on an order that one channel has for itself.
* `StaysLegible` — whether the order in memory is legible before each command on its channel.

## Main results

* `SettledAction.act_cases` — what an action does to an order.
* `Kept.act` — an action keeps an order ranked, and new if it has no entries.
* `alone_eq_inMemory` — **an order that stays legible need not be stored.**
* `alone_append` — **an order that is legible no more is refused until the end of the run.**
* `staysLegible_of_isShort` — an order stays legible if its values are short and its commands not
  too many.
-/

namespace Tabletop

open Initiative

/-- What concerns one channel. -/
def ofChannel {α : Type} (channel : String) (l : List (String × α)) : List α :=
  (l.filter fun p => p.1 = channel).map Prod.snd

theorem ofChannel_cons_self {α : Type} (channel : String) (a : α) (l : List (String × α)) :
    ofChannel channel ((channel, a) :: l) = a :: ofChannel channel l := by
  rw [ofChannel, List.filter_cons_of_pos (by exact decide_eq_true rfl)]
  rfl

theorem ofChannel_cons_of_ne {α : Type} {channel channel' : String} (h : channel' ≠ channel)
    (a : α) (l : List (String × α)) :
    ofChannel channel ((channel', a) :: l) = ofChannel channel l := by
  rw [ofChannel, List.filter_cons_of_neg (by simpa using h)]
  rfl

theorem ofChannel_append {α : Type} (channel : String) (l₁ l₂ : List (String × α)) :
    ofChannel channel (l₁ ++ l₂) = ofChannel channel l₁ ++ ofChannel channel l₂ := by
  rw [ofChannel, List.filter_append, List.map_append]
  rfl

/-- The values that an action adds are short. -/
def ChannelAction.IsShort : ChannelAction → Prop
  | .add _ value => Json.IsShort value
  | _ => True

instance : (action : ChannelAction) → Decidable action.IsShort
  | .add _ value => inferInstanceAs (Decidable (Json.IsShort value))
  | .roll _ _ | .remove _ | .next | .clear | .list => isTrue trivial

/-- The totals of a source are short. -/
def Dice.Source.IsShort (source : Dice.Source) : Prop :=
  ∀ expression usual supply r,
    (source.roll expression usual supply).1 = .ok r → Json.IsShort r.total

namespace Initiative

/-! ### Actions -/

/-- An action on a turn order whose dice have fallen. -/
inductive SettledAction where
  /-- Adds what was rolled, unless nothing could be rolled. -/
  | rolled (result : Except Error InitiativeRoll)
  | add (name : String) (value : Int)
  | remove (name : String)
  | next
  | clear
  | list

/-- Throws the dice of an action. -/
def settle (source : Dice.Source) : ChannelAction → Dice.Supply → SettledAction × Dice.Supply
  | .roll words usual, supply =>
    (.rolled (rollInitiative source words usual supply).1,
      (rollInitiative source words usual supply).2)
  | .add name value, supply => (.add name value, supply)
  | .remove name, supply => (.remove name, supply)
  | .next, supply => (.next, supply)
  | .clear, supply => (.clear, supply)
  | .list, supply => (.list, supply)

/-- Throws the dice of all commands of a run, one command after another. -/
def settleAll (source : Dice.Source) :
    List (String × ChannelAction) → Dice.Supply → List (String × SettledAction) × Dice.Supply
  | [], supply => ([], supply)
  | (channel, action) :: commands, supply =>
    let (settled, supply) := settle source action supply
    let (rest, supply) := settleAll source commands supply
    ((channel, settled) :: rest, supply)

/-- A new order in the place of one without entries. -/
def TurnOrder.renew (o : TurnOrder) : TurnOrder := if o.size = 0 then .empty else o

/-- What a settled action does to a turn order, and its answer. -/
def SettledAction.act : SettledAction → TurnOrder → Except Error ChannelAnswer × TurnOrder
  | .rolled (.error e), o => (.error e, o)
  | .rolled (.ok r), o =>
    match o.add r.name r.value with
    | .ok (_, o') => (.ok (.rolled r o'.slots), o')
    | .error e => (.error e, o)
  | .add name value, o =>
    match o.add name value with
    | .ok (_, o') => (.ok (.slots o'.slots), o')
    | .error e => (.error e, o)
  | .remove name, o =>
    if o.size = 0 then (.error .emptyOrder, o)
    else (.ok (.removed (o.remove name).1), (o.remove name).2.renew)
  | .next, o =>
    match o.advance with
    | .ok (e, o') => (.ok (.entry e), o')
    | .error e => (.error e, o)
  | .clear, o => (.ok (.removed o.clear.1), o.clear.2)
  | .list, o => (.ok (.slots o.slots), o)

/-- The answer to a settled action if the order cannot be read. -/
def SettledAction.refusal : SettledAction → Except Error ChannelAnswer
  | .rolled (.error e) => .error e
  | _ => .error TurnOrder.unreadable

/-- What a settled action does to a turn order that is read anew. -/
def SettledAction.actRead (action : SettledAction) (o : TurnOrder) :
    Except Error ChannelAnswer × TurnOrder :=
  if o.Legible then action.act o else (action.refusal, o)

/-- Settled actions one after another, each of them acting in the given way, and their answers. -/
def actAll (act : SettledAction → TurnOrder → Except Error ChannelAnswer × TurnOrder) :
    List SettledAction → TurnOrder → List (Except Error ChannelAnswer) × TurnOrder
  | [], o => ([], o)
  | action :: actions, o =>
    let (answer, o) := act action o
    let (answers, o) := actAll act actions o
    (answer :: answers, o)

theorem settleAll_cons (source : Dice.Source) (channel : String) (action : ChannelAction)
    (commands : List (String × ChannelAction)) (supply : Dice.Supply) :
    settleAll source ((channel, action) :: commands) supply =
      ((channel, (settle source action supply).1) ::
          (settleAll source commands (settle source action supply).2).1,
        (settleAll source commands (settle source action supply).2).2) := rfl

theorem settleAll_append (source : Dice.Source) (first second : List (String × ChannelAction))
    (supply : Dice.Supply) :
    settleAll source (first ++ second) supply =
      ((settleAll source first supply).1 ++
          (settleAll source second (settleAll source first supply).2).1,
        (settleAll source second (settleAll source first supply).2).2) := by
  induction first generalizing supply with
  | nil => rfl
  | cons command first ih =>
    obtain ⟨channel, action⟩ := command
    rw [List.cons_append, settleAll_cons, settleAll_cons, ih, List.cons_append]

section ActAll

variable (act : SettledAction → TurnOrder → Except Error ChannelAnswer × TurnOrder)

theorem actAll_cons (action : SettledAction) (actions : List SettledAction) (o : TurnOrder) :
    actAll act (action :: actions) o =
      ((act action o).1 :: (actAll act actions (act action o).2).1,
        (actAll act actions (act action o).2).2) := rfl

theorem actAll_append (first second : List SettledAction) (o : TurnOrder) :
    actAll act (first ++ second) o =
      ((actAll act first o).1 ++ (actAll act second (actAll act first o).2).1,
        (actAll act second (actAll act first o).2).2) := by
  induction first generalizing o with
  | nil => rfl
  | cons action first ih =>
    rw [List.cons_append, actAll_cons, actAll_cons, ih, List.cons_append]

end ActAll

/-! ### One action -/

/-- The value that a settled action adds is short. -/
def SettledAction.IsShort : SettledAction → Prop
  | .rolled (.ok r) => Json.IsShort r.value
  | .add _ value => Json.IsShort value
  | _ => True

/-- **What an action does to an order**: nothing, or one of the operations on orders. -/
theorem SettledAction.act_cases (action : SettledAction) (o : TurnOrder) :
    (action.act o).2 = o ∨ (action.act o).2 = .empty ∨
      (∃ name, (action.act o).2 = (o.remove name).2.renew) ∨
      (∃ e, o.advance = .ok (e, (action.act o).2)) ∨
      ∃ name value e, o.add name value = .ok (e, (action.act o).2) ∧
        (action.IsShort → Json.IsShort value) := by
  cases action with
  | rolled result =>
    rcases result with e | r
    · exact Or.inl rfl
    · rw [act]
      rcases h : o.add r.name r.value with e | ⟨e, o'⟩
      · exact Or.inl rfl
      · exact Or.inr (Or.inr (Or.inr (Or.inr ⟨r.name, r.value, e, h, id⟩)))
  | add name value =>
    rw [act]
    rcases h : o.add name value with e | ⟨e, o'⟩
    · exact Or.inl rfl
    · exact Or.inr (Or.inr (Or.inr (Or.inr ⟨name, value, e, h, id⟩)))
  | remove name =>
    rw [act]
    split
    · exact Or.inl rfl
    · exact Or.inr (Or.inr (Or.inl ⟨name, rfl⟩))
  | next =>
    rw [act]
    rcases h : o.advance with e | ⟨e, o'⟩
    · exact Or.inl rfl
    · exact Or.inr (Or.inr (Or.inr (Or.inl ⟨e, rfl⟩)))
  | clear => exact Or.inr (Or.inl rfl)
  | list => exact Or.inl rfl

/-! ### Kept orders -/

theorem size_pos_of_add {o o' : TurnOrder} {name : String} {value : Int} {e : Entry}
    (h : o.add name value = .ok (e, o')) : 0 < o'.size := by
  obtain ⟨-, hput⟩ := TurnOrder.add_eq_ok h
  have hpos := TurnOrder.size_put_pos o (Text.trim name) value
  rw [hput] at hpos
  exact hpos

theorem Kept.add {o o' : TurnOrder} (ho : Kept o) {name : String} {value : Int} {e : Entry}
    (h : o.add name value = .ok (e, o')) : Kept o' where
  ranked := ho.ranked.add h
  fresh := fun hzero => absurd hzero (Nat.ne_of_gt (size_pos_of_add h))

theorem Kept.renew_remove {o : TurnOrder} (ho : Kept o) (name : String) :
    Kept (o.remove name).2.renew := by
  unfold TurnOrder.renew
  split
  · exact kept_empty
  · next hsize => exact ⟨ho.ranked.remove name, fun hzero => absurd hzero hsize⟩

theorem Kept.advance {o o' : TurnOrder} (ho : Kept o) {e : Entry}
    (h : o.advance = .ok (e, o')) : Kept o' := by
  have hranked := ho.ranked.advance h
  obtain ⟨hpos, rfl⟩ := TurnOrder.advance_eq_ok h
  exact ⟨hranked, fun hzero => absurd hzero (Nat.ne_of_gt hpos)⟩

/-- **An action keeps an order ranked, and new if it has no entries.** -/
theorem Kept.act {o : TurnOrder} (ho : Kept o) (action : SettledAction) :
    Kept (action.act o).2 := by
  rcases action.act_cases o with h | h | ⟨name, h⟩ | ⟨e, h⟩ | ⟨name, value, e, h, -⟩
  · rw [h]
    exact ho
  · rw [h]
    exact kept_empty
  · rw [h]
    exact ho.renew_remove name
  · exact ho.advance h
  · exact ho.add h

theorem Kept.actRead {o : TurnOrder} (ho : Kept o) (action : SettledAction) :
    Kept (action.actRead o).2 := by
  unfold SettledAction.actRead
  split
  · exact ho.act action
  · exact ho

/-! ### Channels on their own -/

/-- What the commands of a run do to an order that one channel has for itself and keeps in memory,
and the answers to them.  The dice are those of the whole run. -/
def inMemory (source : Dice.Source) (commands : List (String × ChannelAction))
    (supply : Dice.Supply) (channel : String) : List (Except Error ChannelAnswer) × TurnOrder :=
  actAll SettledAction.act (ofChannel channel (settleAll source commands supply).1) .empty

/-- The same, if the order is read anew for every command. -/
def alone (source : Dice.Source) (commands : List (String × ChannelAction)) (supply : Dice.Supply)
    (channel : String) : List (Except Error ChannelAnswer) × TurnOrder :=
  actAll SettledAction.actRead (ofChannel channel (settleAll source commands supply).1) .empty

section Channel

variable {source : Dice.Source} {supply : Dice.Supply} {channel : String}

/-- The last command of a run does nothing to the orders of other channels. -/
theorem alone_append_of_ne (commands : List (String × ChannelAction)) {channel' : String}
    (h : channel' ≠ channel) (action : ChannelAction) :
    (alone source (commands ++ [(channel', action)]) supply channel).2 =
      (alone source commands supply channel).2 := by
  rw [alone, alone, settleAll_append, settleAll_cons, ofChannel_append, ofChannel_cons_of_ne h,
    actAll_append]
  rfl

/-- Before each command of a run on a channel, the order that the channel keeps in memory is
legible. -/
def StaysLegible (source : Dice.Source) (commands : List (String × ChannelAction))
    (supply : Dice.Supply) (channel : String) : Prop :=
  ∀ done action rest, commands = done ++ (channel, action) :: rest →
    (inMemory source done supply channel).2.Legible

theorem staysLegible_nil : StaysLegible source [] supply channel :=
  fun _ _ _ h => absurd h.symm (List.append_ne_nil_of_right_ne_nil _ (List.cons_ne_nil _ _))

theorem staysLegible_concat_iff {commands : List (String × ChannelAction)}
    {command : String × ChannelAction} :
    StaysLegible source (commands ++ [command]) supply channel ↔
      StaysLegible source commands supply channel ∧
        (command.1 = channel → (inMemory source commands supply channel).2.Legible) := by
  constructor
  · intro h
    refine ⟨fun done action rest hparts => h done action (rest ++ [command]) ?_, ?_⟩
    · rw [hparts, List.append_assoc, List.cons_append]
    · rintro rfl
      exact h commands command.2 [] rfl
  · rintro ⟨hstays, hlegible⟩ done action rest hparts
    rcases List.eq_nil_or_concat' rest with rfl | ⟨rest, last, rfl⟩
    · obtain ⟨rfl, hcommand⟩ := List.append_inj' hparts rfl
      obtain rfl := (List.cons.inj hcommand).1
      exact hlegible rfl
    · rw [← List.cons_append, ← List.append_assoc] at hparts
      exact hstays done action rest (List.append_inj' hparts rfl).1

/-- **An order that stays legible need not be stored.** -/
theorem alone_eq_inMemory {commands : List (String × ChannelAction)}
    (h : StaysLegible source commands supply channel) :
    alone source commands supply channel = inMemory source commands supply channel := by
  induction commands using List.reverseRecOn with
  | nil => rfl
  | append_singleton commands command ih =>
    obtain ⟨hstays, hlegible⟩ := staysLegible_concat_iff.1 h
    have hbefore := ih hstays
    unfold alone inMemory at hbefore
    unfold inMemory at hlegible
    obtain ⟨channel', action⟩ := command
    rw [alone, inMemory, settleAll_append, ofChannel_append, actAll_append, actAll_append,
      hbefore, settleAll_cons]
    by_cases heq : channel' = channel
    · rw [heq, ofChannel_cons_self, actAll_cons, actAll_cons, SettledAction.actRead,
        if_pos (hlegible heq)]
      rfl
    · rw [ofChannel_cons_of_ne heq]
      rfl

/-- An order that cannot be read stays as it is, whatever is tried on it. -/
theorem actAll_actRead_of_not_legible {o : TurnOrder} (h : ¬o.Legible)
    (actions : List SettledAction) :
    actAll SettledAction.actRead actions o = (actions.map SettledAction.refusal, o) := by
  induction actions with
  | nil => rfl
  | cons action actions ih =>
    rw [actAll_cons, SettledAction.actRead, if_neg h, ih, List.map_cons]

/-- **An order that is legible no more is refused until the end of the run.** -/
theorem alone_append {commands : List (String × ChannelAction)}
    (h : StaysLegible source commands supply channel)
    (hlong : ¬(inMemory source commands supply channel).2.Legible)
    (more : List (String × ChannelAction)) :
    alone source (commands ++ more) supply channel =
      ((inMemory source commands supply channel).1 ++
          (ofChannel channel (settleAll source more (settleAll source commands supply).2).1).map
            SettledAction.refusal,
        (inMemory source commands supply channel).2) := by
  have hbefore := alone_eq_inMemory h
  unfold alone at hbefore
  rw [alone, settleAll_append, ofChannel_append, actAll_append, hbefore,
    actAll_actRead_of_not_legible hlong]

end Channel

/-! ### Short values -/

theorem isShort_numeral {text : String} {n : Nat} (h : numeral? text = some n) :
    Json.IsShort n := by
  unfold numeral? at h
  simp only [Bool.and_eq_true, Attribute.isNumeral, decide_eq_true_eq] at h
  split at h
  · next hdigits =>
    obtain rfl := Option.some.inj h
    have hlt := Text.numeralValue_lt text.toList
    have hpow : 10 ^ text.toList.length ≤ 10 ^ Dice.maxDigits :=
      Nat.pow_le_pow_right (by omega) hdigits.1.2
    have hnine : Json.IsShort (10 ^ Dice.maxDigits : Nat) := by decide
    exact hnine.of_natAbs_le (Nat.le_trans (Nat.le_of_lt hlt) hpow)
  · cases h

/-- A numeral has nine digits at most, so an initiative roll is short if the source is. -/
theorem isShort_rollInitiative {source : Dice.Source} (hsource : source.IsShort)
    {words : List String} {usual : String} {supply : Dice.Supply} {r : InitiativeRoll}
    (h : (rollInitiative source words usual supply).1 = .ok r) : Json.IsShort r.value := by
  unfold rollInitiative at h
  rcases hwords : readWords words usual with ⟨expression, name⟩
  simp only [hwords] at h
  rcases hnumeral : numeral? expression with _ | n
  · simp only [hnumeral] at h
    rcases hroll : source.roll expression initiativeFaces supply with ⟨f | roll, supply'⟩
    · simp only [bind, ExceptT.bind, ExceptT.mk, StateT.bind, Command.ofRoll, hroll] at h
      cases h
    · simp only [bind, ExceptT.bind, ExceptT.mk, StateT.bind, Command.ofRoll, hroll] at h
      obtain rfl := Except.ok.inj h
      exact hsource expression initiativeFaces supply roll (by rw [hroll])
  · simp only [hnumeral] at h
    obtain rfl := Except.ok.inj h
    exact isShort_numeral hnumeral

theorem isShort_settle {source : Dice.Source} (hsource : source.IsShort) {action : ChannelAction}
    (haction : action.IsShort) (supply : Dice.Supply) :
    (settle source action supply).1.IsShort := by
  cases action with
  | roll words usual =>
    show (SettledAction.rolled (rollInitiative source words usual supply).1).IsShort
    rcases hroll : (rollInitiative source words usual supply).1 with e | r
    · trivial
    · exact isShort_rollInitiative hsource hroll
  | add name value => exact haction
  | remove | next | clear | list => trivial

/-- An order after so many actions with short values. -/
structure Brief (count : Nat) (o : TurnOrder) : Prop where
  short : ∀ e ∈ o.entries, Json.IsShort e.value
  nextRank_le : o.nextRank ≤ count

theorem brief_empty (count : Nat) : Brief count .empty where
  short := fun _ h => by cases h
  nextRank_le := Nat.zero_le count

theorem Brief.succ {count : Nat} {o : TurnOrder} (h : Brief count o) : Brief (count + 1) o :=
  ⟨h.short, Nat.le_succ_of_le h.nextRank_le⟩

theorem Brief.add {count : Nat} {o o' : TurnOrder} (ho : Brief count o) {name : String}
    {value : Int} (hvalue : Json.IsShort value) {e : Entry}
    (h : o.add name value = .ok (e, o')) : Brief (count + 1) o' := by
  obtain ⟨-, hput⟩ := TurnOrder.add_eq_ok h
  obtain rfl : (o.put (Text.trim name) value).2 = o' := by rw [hput]
  refine ⟨?_, Nat.le_trans (TurnOrder.nextRank_put_le o (Text.trim name) value)
    (Nat.succ_le_succ ho.nextRank_le)⟩
  intro d hd
  rcases TurnOrder.mem_entries_put hd with rfl | hold
  · rw [TurnOrder.fst_put]
    exact hvalue
  · exact ho.short d hold

theorem Brief.renew_remove {count : Nat} {o : TurnOrder} (ho : Brief count o) (name : String) :
    Brief count (o.remove name).2.renew := by
  unfold TurnOrder.renew
  split
  · exact brief_empty count
  · refine ⟨fun e he => ho.short e ((o.entries_remove_sublist name).subset he), ?_⟩
    rw [TurnOrder.nextRank_remove]
    exact ho.nextRank_le

theorem Brief.advance {count : Nat} {o o' : TurnOrder} (ho : Brief count o) {e : Entry}
    (h : o.advance = .ok (e, o')) : Brief count o' := by
  obtain ⟨-, rfl⟩ := TurnOrder.advance_eq_ok h
  exact ⟨ho.short, ho.nextRank_le⟩

/-- **An action gives one rank at most, and adds a short value if any.** -/
theorem Brief.act {count : Nat} {o : TurnOrder} (ho : Brief count o) {action : SettledAction}
    (haction : action.IsShort) : Brief (count + 1) (action.act o).2 := by
  rcases action.act_cases o with h | h | ⟨name, h⟩ | ⟨e, h⟩ | ⟨name, value, e, h, hvalue⟩
  · rw [h]
    exact ho.succ
  · rw [h]
    exact brief_empty (count + 1)
  · rw [h]
    exact (ho.renew_remove name).succ
  · exact (ho.advance h).succ
  · exact ho.add (hvalue haction) h

theorem Brief.actAll {count : Nat} {o : TurnOrder} (hkept : Kept o) (ho : Brief count o)
    {actions : List SettledAction} (hactions : ∀ action ∈ actions, action.IsShort) :
    Kept (actAll SettledAction.act actions o).2 ∧
      Brief (count + actions.length) (actAll SettledAction.act actions o).2 := by
  induction actions generalizing count o with
  | nil => exact ⟨hkept, ho⟩
  | cons action actions ih =>
    rw [List.forall_mem_cons] at hactions
    rw [actAll_cons, List.length_cons, Nat.add_comm actions.length, ← Nat.add_assoc]
    exact ih (hkept.act action) (ho.act hactions.1) hactions.2

section Legible

variable {source : Dice.Source} {commands : List (String × ChannelAction)} {channel : String}

/-- What is settled for a channel is short if its commands are. -/
theorem isShort_settleAll (hsource : source.IsShort)
    (hcommands : ∀ action ∈ ofChannel channel commands, action.IsShort) (supply : Dice.Supply) :
    ∀ action ∈ ofChannel channel (settleAll source commands supply).1, action.IsShort := by
  induction commands generalizing supply with
  | nil => exact List.forall_mem_nil _
  | cons command commands ih =>
    obtain ⟨channel', action⟩ := command
    rw [settleAll_cons]
    by_cases heq : channel' = channel
    · rw [heq, ofChannel_cons_self, List.forall_mem_cons] at hcommands ⊢
      exact ⟨isShort_settle hsource hcommands.1 supply, ih hcommands.2 _⟩
    · rw [ofChannel_cons_of_ne heq] at hcommands ⊢
      exact ih hcommands _

theorem length_settleAll (source : Dice.Source) (commands : List (String × ChannelAction))
    (supply : Dice.Supply) (channel : String) :
    (ofChannel channel (settleAll source commands supply).1).length =
      (ofChannel channel commands).length := by
  induction commands generalizing supply with
  | nil => rfl
  | cons command commands ih =>
    obtain ⟨channel', action⟩ := command
    rw [settleAll_cons]
    by_cases heq : channel' = channel
    · rw [heq, ofChannel_cons_self, ofChannel_cons_self, List.length_cons, List.length_cons, ih]
    · rw [ofChannel_cons_of_ne heq, ofChannel_cons_of_ne heq, ih]

/-- An order is legible if its values are short and its commands not too many. -/
theorem legible_inMemory (hsource : source.IsShort)
    (hcommands : ∀ action ∈ ofChannel channel commands, action.IsShort)
    (hcount : Json.IsShort (ofChannel channel commands).length) (supply : Dice.Supply) :
    (inMemory source commands supply channel).2.Legible := by
  have hactions := isShort_settleAll hsource hcommands supply
  obtain ⟨hkept, hbrief⟩ := (brief_empty 0).actAll kept_empty hactions
  rw [Nat.zero_add, length_settleAll] at hbrief
  exact hkept.ranked.legible hbrief.short (hcount.of_natAbs_le hbrief.nextRank_le)

/-- **An order stays legible if its values are short and its commands not too many.** -/
theorem staysLegible_of_isShort (hsource : source.IsShort)
    (hcommands : ∀ action ∈ ofChannel channel commands, action.IsShort)
    (hcount : Json.IsShort (ofChannel channel commands).length) (supply : Dice.Supply) :
    StaysLegible source commands supply channel := by
  intro done action rest hparts
  rw [hparts, ofChannel_append] at hcommands hcount
  refine legible_inMemory hsource (fun a ha => hcommands a (List.mem_append_left _ ha))
    (hcount.of_natAbs_le ?_) supply
  rw [List.length_append]
  exact Nat.le_add_right _ _

end Legible

/-- The totals of expressions are bounded, so they are short. -/
theorem isShort_evaluator : Dice.Source.evaluator.IsShort := by
  intro expression usual supply r h
  have hle := Dice.natAbs_total_le (Prod.ext h rfl : Dice.roll expression usual supply = (.ok r, _))
  have hmax : Json.IsShort (Dice.maxTotal : Nat) := by decide
  exact hmax.of_natAbs_le hle

end Initiative

end Tabletop
