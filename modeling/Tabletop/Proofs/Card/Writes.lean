import Tabletop.Proofs.Attribute.Application
import Tabletop.Proofs.Check.Commitment
import Tabletop.Session

/-!
# What commands write on cards

A command writes to one card at most, and each of its writes is one that the card takes.  From this
alone it follows that no card ever holds more attributes than it may, that attributes are never
lost, and that all other cards stay as they are.  The answer to a command tells what it has written.

## Main definitions

* `CardStore.Writes` — writes to one card, each of which it takes.
* `CardAction.target` — the card that a command is about.
* `written` — what a command has written, as its answer tells.

## Main results

* `Writes.keys_kept`, `Writes.size_le`, `Writes.attributes_of_ne`, `Writes.forall_keys` — what
  writes do to the cards.
* `Writes.eq_of_get?_eq` — writes after which all values are as before have changed nothing.
* `carryOut_writes`, `run_writes` — the writes of a directive and of a check.
* `onCard_writes` — **a command writes what its answer tells, to its card.**
* `onCard_check_cases` — what a command for a check does.
* `mem_keys_of_written` — only writing and directives add attributes.
-/

namespace Tabletop

open Attribute Check

/-! ### Writes to one card -/

/-- Cards come from others by writes to one of them, each of which it takes. -/
inductive CardStore.Writes (card : String) (cap : Int) :
    List (String × Int) → CardStore → CardStore → Prop
  /-- Nothing is written. -/
  | nil (store : CardStore) : Writes card cap [] store store
  /-- An attribute is written before all others. -/
  | cons {store store' : CardStore} {name : String} {value : Int} {more : List (String × Int)}
      (haccepts : store.accepts card name cap = true)
      (h : Writes card cap more (store.write card name value) store') :
      Writes card cap ((name, value) :: more) store store'

namespace CardStore

/-- An attribute that is written stays in its place, or comes last. -/
theorem keys_kept_write (store : CardStore) (card name : String) (value : Int) :
    (store.attributes card).keys <+: ((store.write card name value).attributes card).keys := by
  rw [attributes_write_self, InsertionMap.keys_put]
  split
  · exact List.prefix_rfl
  · exact List.prefix_append _ _

/-- A card that takes an attribute does not hold more than it may afterwards. -/
theorem size_write_le {store : CardStore} {card name : String} {cap : Int}
    (haccepts : store.accepts card name cap = true)
    (hsize : (store.attributes card).size ≤ cap.toNat) (value : Int) :
    ((store.write card name value).attributes card).size ≤ cap.toNat := by
  rw [attributes_write_self, InsertionMap.size_put]
  split
  · exact hsize
  · next habsent =>
    rw [accepts, Bool.and_eq_true, Bool.or_eq_true, decide_eq_true_eq] at haccepts
    rcases haccepts.2 with hthere | hroom
    · exact absurd hthere habsent
    · omega

namespace Writes

variable {card : String} {cap : Int} {ws : List (String × Int)} {store store' : CardStore}

/-- **No attribute is lost**, and new ones come last. -/
theorem keys_kept (h : Writes card cap ws store store') :
    (store.attributes card).keys <+: (store'.attributes card).keys := by
  induction h with
  | nil store => exact List.prefix_rfl
  | cons haccepts h ih => exact (keys_kept_write _ _ _ _).trans ih

/-- **No card holds more attributes than it may.** -/
theorem size_le (h : Writes card cap ws store store')
    (hsize : (store.attributes card).size ≤ cap.toNat) :
    (store'.attributes card).size ≤ cap.toNat := by
  induction h with
  | nil store => exact hsize
  | cons haccepts h ih => exact ih (size_write_le haccepts hsize _)

/-- **All other cards stay as they are.** -/
theorem attributes_of_ne (h : Writes card cap ws store store') {card' : String}
    (hne : card' ≠ card) : store'.attributes card' = store.attributes card' := by
  induction h with
  | nil store => rfl
  | cons haccepts h ih => rw [ih, attributes_write_of_ne _ hne.symm]

/-- Writing to attributes that are there adds none. -/
theorem keys_eq (h : Writes card cap ws store store')
    (hthere : ∀ w ∈ ws, w.1 ∈ (store.attributes card).keys) :
    (store'.attributes card).keys = (store.attributes card).keys := by
  induction h with
  | nil store => rfl
  | @cons store store' name value more haccepts h ih =>
    rw [List.forall_mem_cons] at hthere
    have hkeys : ((store.write card name value).attributes card).keys =
        (store.attributes card).keys := by
      rw [attributes_write_self, InsertionMap.keys_put, if_pos hthere.1]
    rw [ih (by rw [hkeys]; exact hthere.2), hkeys]

/-- Writes do not make a store read-only. -/
theorem readOnly_eq (h : Writes card cap ws store store') : store'.readOnly = store.readOnly := by
  induction h with
  | nil store => rfl
  | cons haccepts h ih => exact ih

/-- Writing to a card that is listed lists no other card. -/
theorem keys_cards_eq (h : Writes card cap ws store store') (hcard : card ∈ store.cards.keys) :
    store'.cards.keys = store.cards.keys := by
  induction h with
  | nil store => rfl
  | @cons store store' name value more haccepts h ih =>
    have hkeys : (store.write card name value).cards.keys = store.cards.keys := by
      rw [write, InsertionMap.keys_put, if_pos hcard]
    rw [ih (hkeys ▸ hcard), hkeys]

/-- What is written is on the card afterwards. -/
theorem mem_keys (h : Writes card cap ws store store') {w : String × Int} (hw : w ∈ ws) :
    w.1 ∈ (store'.attributes card).keys := by
  induction h with
  | nil store => cases hw
  | @cons store store' name value more haccepts h ih =>
    rcases List.mem_cons.1 hw with rfl | hw
    · apply h.keys_kept.subset
      rw [attributes_write_self, ← InsertionMap.contains_iff_mem_keys, InsertionMap.contains_put,
        decide_eq_true rfl]
      rfl
    · exact ih hw

/-- **Writes after which all values are as before** have changed nothing. -/
theorem eq_of_get?_eq (h : Writes card cap ws store store')
    (hget : ∀ name, store'.get? card name = store.get? card name) : store' = store := by
  have hmem : ∀ name,
      name ∈ (store'.attributes card).keys → name ∈ (store.attributes card).keys := by
    intro name
    rw [mem_keys_iff, mem_keys_iff, hget name]
    exact id
  have hthere : ∀ w ∈ ws, w.1 ∈ (store.attributes card).keys := fun w hw => hmem _ (h.mem_keys hw)
  have hattributes : ∀ card', store'.attributes card' = store.attributes card' := by
    intro card'
    by_cases hcard : card' = card
    · subst hcard
      exact InsertionMap.ext_get? (h.keys_eq hthere) hget
    · exact h.attributes_of_ne hcard
  have hcards : store'.cards.keys = store.cards.keys := by
    rcases ws with _ | ⟨w, more⟩
    · cases h
      rfl
    · exact h.keys_cards_eq (mem_keys_cards (hthere w List.mem_cons_self))
  exact ext_attributes h.readOnly_eq hcards hattributes

/-- A value on the card was there before, or it is one of those that were written. -/
theorem get?_eq_some (h : Writes card cap ws store store') {name : String} {value : Int}
    (hvalue : store'.get? card name = some value) :
    store.get? card name = some value ∨ (name, value) ∈ ws := by
  induction h with
  | nil store => exact Or.inl hvalue
  | @cons store store' name' value' more haccepts h ih =>
    rcases ih hvalue with hold | hnew
    · rw [get?_write] at hold
      split at hold
      · next hsame =>
        rw [← hsame.2, ← Option.some.inj hold]
        exact Or.inr List.mem_cons_self
      · exact Or.inl hold
    · exact Or.inr (List.mem_cons_of_mem _ hnew)

/-- What holds of the names on all cards and of those that are written holds of all names
afterwards. -/
theorem forall_keys {P : String → Prop} (h : Writes card cap ws store store')
    (hws : ∀ w ∈ ws, P w.1) (hstore : ∀ card', ∀ name ∈ (store.attributes card').keys, P name)
    (card' : String) : ∀ name ∈ (store'.attributes card').keys, P name := by
  intro name hname
  by_cases hcard : card' = card
  · -- A value on the card that was written to was there before, or it is one of those written.
    subst hcard
    obtain ⟨value, hvalue⟩ := Option.ne_none_iff_exists'.1 (mem_keys_iff.1 hname)
    rcases h.get?_eq_some hvalue with hold | hnew
    · apply hstore card' name
      rw [mem_keys_iff, hold]
      exact Option.some_ne_none value
    · exact hws (name, value) hnew
  · rw [h.attributes_of_ne hcard] at hname
    exact hstore card' name hname

/-- A value that is written if the card takes it. -/
theorem of_set (store : CardStore) (card name : String) (value cap : Int) :
    Writes card cap (if (store.set card name value cap).1 then [(name, value)] else []) store
      (store.set card name value cap).2 := by
  rcases haccepts : store.accepts card name cap with _ | _
  · rw [set_of_not_accepts haccepts]
    exact nil store
  · rw [set_of_accepts haccepts]
    exact cons haccepts (nil _)

end Writes

end CardStore

open CardStore

/-! ### Directives and checks -/

/-- The values that were stored by the changes of a list. -/
def Attribute.storedValues (changes : List Change) : List (String × Int) :=
  (changes.filter Change.stored).map fun c => (c.operation.name, c.newValue)

/-- **A directive** writes the values of the changes that it reports as stored. -/
theorem Attribute.carryOut_writes (card : String) (cap : Int) (rs : List Rolled)
    (store : CardStore) :
    Writes card cap (storedValues (carryOut card cap rs store).1) store
      (carryOut card cap rs store).2 := by
  induction rs generalizing store with
  | nil => exact .nil store
  | cons r rs ih =>
    have hstored := stored_carryOutOne card cap r store
    have hcards := carryOutOne_cards card cap r store
    rw [carryOut_cons]
    rcases haccepts : store.accepts card r.operation.name cap with _ | _
    · rw [haccepts] at hstored
      rw [Change.redo, hstored, if_neg Bool.false_ne_true] at hcards
      rw [storedValues, List.filter_cons_of_neg (by rw [hstored]; exact Bool.false_ne_true), hcards]
      exact ih store
    · have hname : (carryOutOne card cap r store).1.operation.name = r.operation.name := rfl
      rw [haccepts] at hstored
      rw [Change.redo, hstored, if_pos rfl, hname] at hcards
      rw [storedValues, List.filter_cons_of_pos hstored, List.map_cons, hname]
      apply Writes.cons haccepts
      rw [← hcards]
      exact ih _

/-- What a check has written to an attribute. -/
def Check.Outcome.written (name : String) (o : Outcome) : List (String × Int) :=
  if o.committed then [(name, o.newValue)] else []

/-- **A check** writes the value that it reports as committed. -/
theorem Check.run_writes {setting : Setting} {variety : Variety} {request : Request}
    {game game' : Game} {o : Outcome} (h : run setting variety request game = (.ok o, game')) :
    Writes request.card setting.cap (o.written (setting.aliases.normalize request.name)) game.cards
      game'.cards := by
  obtain ⟨-, -, hwritten⟩ := run_eq_ok h
  split at hwritten
  · obtain ⟨hcommitted, hcards⟩ := Prod.mk.inj hwritten
    rw [Outcome.written, hcommitted, hcards]
    exact Writes.of_set _ _ _ _ _
  · obtain ⟨hcommitted, hcards⟩ := Prod.mk.inj hwritten
    rw [Outcome.written, hcommitted, hcards]
    exact Writes.nil _

/-- A check only writes to an attribute that is there. -/
theorem Check.mem_keys_of_written {setting : Setting} {variety : Variety} {request : Request}
    {game game' : Game} {o : Outcome} (h : run setting variety request game = (.ok o, game')) :
    ∀ w ∈ o.written (setting.aliases.normalize request.name),
      w.1 ∈ (game.cards.attributes request.card).keys := by
  obtain ⟨-, hreference, hwritten⟩ := run_eq_ok h
  intro w hw
  rw [Outcome.written] at hw
  split at hw
  · next hcommitted =>
    obtain ⟨hexplicit, -, -⟩ := (cards_of_written hreference hwritten).1.1 hcommitted
    rw [List.mem_singleton.1 hw, mem_keys_iff]
    rcases hreference with hgiven | ⟨-, hfound⟩
    · rw [hexplicit] at hgiven
      cases hgiven
    · rw [hfound]
      exact Option.some_ne_none _
  · cases hw

/-! ### Commands -/

namespace CardAction

/-- The card that a command is about: the one that a directive names, or else the given one. -/
def target (card : String) : CardAction → String
  | directive text => (readDirective .builtIn text).card.getD card
  | _ => card

/-- The attribute that a command is about, if it is about one. -/
def attribute? : CardAction → Option String
  | set name _ => some name
  | get name => some name
  | sanityCheck _ => some (AliasTable.builtIn.normalize sanity)
  | growthCheck words => words.head?.map AliasTable.builtIn.normalize
  | _ => none

/-- The check that a command asks for, if it is one. -/
def check? (card : String) : CardAction → Option (Variety × Except Error Request)
  | sanityCheck words => some (.sanity, sanityRequest card words)
  | growthCheck words => some (.growth, growthRequest card words)
  | _ => none

/-- Whether a command adds no attribute to a card. -/
def addsNone : CardAction → Bool
  | set _ _ => false
  | directive _ => false
  | _ => true

end CardAction

/-- What a command has written, as its answer tells. -/
def written (action : CardAction) : Except Error CardAnswer → List (String × Int)
  | .ok (.written true) =>
    match action with
    | .set name value => [(name, value)]
    | _ => []
  | .ok (.report r) => storedValues r.changes
  | .ok (.check o) => (action.attribute?.map o.written).getD []
  | _ => []

section Commands

variable (s : Session) (game : Game)

section Checks

variable {card : String} {action : CardAction} {variety : Variety}

/-- The request of a check is about the card and the attribute that the command is about. -/
theorem request_of_check? {request : Request}
    (h : action.check? card = some (variety, .ok request)) :
    request.card = card ∧
      action.attribute? = some (AliasTable.builtIn.normalize request.name) := by
  cases action with
  | sanityCheck words =>
    obtain ⟨-, hrequest⟩ := Prod.mk.inj (Option.some.inj h)
    obtain ⟨hcard, hname, -⟩ := sanityRequest_eq_ok hrequest
    rw [hname]
    exact ⟨hcard, rfl⟩
  | growthCheck words =>
    obtain ⟨-, hrequest⟩ := Prod.mk.inj (Option.some.inj h)
    obtain ⟨hcard, hname, -⟩ := growthRequest_eq_ok hrequest
    rw [CardAction.attribute?, hname]
    exact ⟨hcard, rfl⟩
  | set | get | directive | list | pool => cases h

/-- Reads a request and runs its check. -/
def Session.answerCheck (s : Session) (variety : Variety) (read : Except Error Request) :
    Play CardAnswer := do
  let request ← ExceptT.mk (pure read)
  .check <$> run s.checkSetting variety request

theorem answerCheck_error (variety : Variety) (e : Error) :
    s.answerCheck variety (.error e) game = (.error e, game) := by
  rw [Session.answerCheck, Play.bind_apply, Play.ofExcept_apply]

theorem answerCheck_ok (variety : Variety) (request : Request) :
    s.answerCheck variety (.ok request) game =
      ((run s.checkSetting variety request game).1.map .check,
        (run s.checkSetting variety request game).2) := by
  rw [Session.answerCheck, Play.bind_apply, Play.ofExcept_apply]
  exact Play.map_apply _ _ _

/-- A check is run once its request has been read. -/
theorem onCard_of_check? {read : Except Error Request}
    (h : action.check? card = some (variety, read)) :
    s.onCard card action = s.answerCheck variety read := by
  cases action with
  | sanityCheck words =>
    obtain ⟨rfl, rfl⟩ := Prod.mk.inj (Option.some.inj h)
    rfl
  | growthCheck words =>
    obtain ⟨rfl, rfl⟩ := Prod.mk.inj (Option.some.inj h)
    rfl
  | set | get | directive | list | pool => cases h

/-- **A check is refused and changes no card**, or it has run and tells what it has written. -/
theorem onCard_check_cases {read : Except Error Request}
    (h : action.check? card = some (variety, read)) :
    (written action (s.onCard card action game).1 = [] ∧
        (s.onCard card action game).2.cards = game.cards) ∨
      ∃ request o, read = .ok request ∧
        run s.checkSetting variety request game = (.ok o, (s.onCard card action game).2) ∧
        written action (s.onCard card action game).1 =
          o.written (s.checkSetting.aliases.normalize request.name) := by
  rw [onCard_of_check? s h]
  rcases read with e | request
  · rw [answerCheck_error]
    exact Or.inl ⟨rfl, rfl⟩
  rw [answerCheck_ok]
  rcases hrun : run s.checkSetting variety request game with ⟨e | o, game'⟩
  · exact Or.inl ⟨rfl, (run_eq_error hrun).1⟩
  · refine Or.inr ⟨request, o, rfl, hrun, ?_⟩
    show (action.attribute?.map o.written).getD [] = _
    rw [(request_of_check? h).2]
    rfl

/-- A check writes the value that it reports, to an attribute that is there. -/
theorem onCard_check_writes {read : Except Error Request}
    (h : action.check? card = some (variety, read)) :
    Writes card s.cap (written action (s.onCard card action game).1) game.cards
        (s.onCard card action game).2.cards ∧
      ∀ w ∈ written action (s.onCard card action game).1,
        w.1 ∈ (game.cards.attributes card).keys := by
  rcases onCard_check_cases s game h with ⟨hwritten, hcards⟩ | ⟨request, o, rfl, hrun, hwritten⟩
  · rw [hwritten, hcards]
    exact ⟨Writes.nil _, List.forall_mem_nil _⟩
  · obtain ⟨rfl, -⟩ := request_of_check? h
    rw [hwritten]
    exact ⟨run_writes hrun, Check.mem_keys_of_written hrun⟩

end Checks

/-- A dice pool writes nothing. -/
theorem onCard_pool (card text : String) :
    written (.pool text) (s.onCard card (.pool text) game).1 = [] ∧
      (s.onCard card (.pool text) game).2.cards = game.cards := by
  rw [Session.onCard, Play.bind_apply, Play.get_apply]
  simp only [Play.map_apply, Play.ofCommand_apply]
  rcases (Pool.resolve s.source .builtIn (game.cards.attributes card).toList text
    game.supply).1 with e | o
  · exact ⟨rfl, trivial⟩
  · exact ⟨rfl, trivial⟩

/-- **A command writes what its answer tells**, to the card that it is about, and that card takes
each of the values. -/
theorem onCard_writes (card : String) (action : CardAction) :
    Writes (action.target card) s.cap (written action (s.onCard card action game).1) game.cards
      (s.onCard card action game).2.cards := by
  cases action with
  | set name value =>
    rw [Session.onCard, Play.map_apply, Play.onCards_apply]
    have hset := Writes.of_set game.cards card name value s.cap
    rcases haccepted : (game.cards.set card name value s.cap).1 with _ | _
    · rw [haccepted] at hset
      exact hset
    · rw [haccepted] at hset
      exact hset
  | get name => exact Writes.nil game.cards
  | list => exact Writes.nil game.cards
  | directive text =>
    rw [Session.onCard, Play.map_apply]
    rcases happly : applyText s.source .builtIn s.cap card text game with ⟨e | report, game'⟩
    · show Writes _ _ [] game.cards game'.cards
      rw [applyText_eq_error happly]
      exact Writes.nil _
    · obtain ⟨rs, -, rfl, hcards⟩ := applyText_eq_ok happly
      show Writes _ _ (storedValues _) game.cards game'.cards
      rw [hcards]
      exact carryOut_writes _ _ _ _
  | pool text =>
    obtain ⟨hwritten, hcards⟩ := onCard_pool s game card text
    rw [hwritten, hcards]
    exact Writes.nil game.cards
  | sanityCheck words => exact (onCard_check_writes s game rfl).1
  | growthCheck words => exact (onCard_check_writes s game rfl).1

/-- **Only writing and directives add attributes**: all other commands write to attributes that are
there. -/
theorem mem_keys_of_written {card : String} {action : CardAction} (hnone : action.addsNone = true) :
    ∀ w ∈ written action (s.onCard card action game).1,
      w.1 ∈ (game.cards.attributes (action.target card)).keys := by
  cases action with
  | set name value => cases hnone
  | directive text => cases hnone
  | get name => exact List.forall_mem_nil _
  | list => exact List.forall_mem_nil _
  | pool text =>
    rw [(onCard_pool s game card text).1]
    exact List.forall_mem_nil _
  | sanityCheck words => exact (onCard_check_writes s game rfl).2
  | growthCheck words => exact (onCard_check_writes s game rfl).2

end Commands

end Tabletop
