import Tabletop.Proofs.Card.Names
import Tabletop.Proofs.Card.Readable
import Tabletop.Proofs.Card.Session
import Tabletop.Proofs.Pool.Reading

/-!
# The name of an attribute as the text of a pool

A card tells names apart by case, and pools do not: the values of a card are gathered under their
folded names.  There the name of an attribute comes before all spellings of others, and of two
attributes whose names differ in case only the later one comes first.  So the name of an attribute
as the text of a pool stands for the last attribute on the card that is called so in any case, and
for the attribute itself if no later one is.

Directives give names of letters, so none of these names is of the short form, and nothing but the
digits of the value is left to be rolled.

## Main results

* `onCards_named` — after a run of directives and checks all names on cards are those of directives.
* `get?_spellings_append` — the last attribute that is called so stands for its folded name.
* `substitute_name` — a text that is a folded name on the card is replaced as a whole.
* `readSpec_name` — **a stored name gives the pool of the last attribute with this name in any
  case.**
* `name_of_later` — two attributes that differ in case, where the first one cannot be named.
-/

namespace Tabletop

open Text Attribute CardStore

/-! ### The names on cards -/

/-- All attributes of all cards have names that directives give. -/
def CardStore.IsNamed (store : CardStore) : Prop :=
  ∀ card, ∀ name ∈ (store.attributes card).keys, IsDirectiveName name

section Named

variable {s : Session} {game : Game}

/-- **One command** but the bare writing of a value brings names of directives only. -/
theorem onCard_named {card : String} {action : CardAction}
    (hset : ∀ name value, action ≠ .set name value) (hgame : game.cards.IsNamed) :
    (s.onCard card action game).2.cards.IsNamed := by
  refine (onCard_writes s game card action).forall_keys ?_ hgame
  intro w hw
  cases action with
  | set name value => exact absurd rfl (hset name value)
  | directive text =>
    rw [Session.onCard, Play.map_apply] at hw
    rcases happly : applyText s.source .builtIn s.cap card text game with ⟨e | report, game'⟩
    · rw [happly] at hw
      cases hw
    · rw [happly] at hw
      obtain ⟨rs, hrolls, rfl, -⟩ := applyText_eq_ok happly
      obtain ⟨op, hop, hname⟩ := name_of_mem_storedValues hw
      rw [rollAmounts_operation hrolls] at hop
      exact ⟨text, op, hop, hname⟩
  | get | list | pool | sanityCheck | growthCheck =>
    exact hgame _ _ (mem_keys_of_written s game rfl w hw)

/-- **A run of commands** but bare writing brings names of directives only. -/
theorem onCards_named {commands : List (String × CardAction)}
    (hset : ∀ card name value, (card, CardAction.set name value) ∉ commands)
    (hgame : game.cards.IsNamed) : (s.onCards commands game).2.cards.IsNamed := by
  induction commands generalizing game with
  | nil => exact hgame
  | cons command commands ih =>
    obtain ⟨card, action⟩ := command
    rw [onCards_cons]
    apply ih fun card' name value hmem => hset card' name value (List.mem_cons_of_mem _ hmem)
    apply onCard_named _ hgame
    rintro name value rfl
    exact hset card name value List.mem_cons_self

end Named

namespace Pool

/-! ### The last attribute that is called so -/

section Last

variable {a : String × Int} {k : String} {v : Int} {m : InsertionMap String Int}

/-- The aliases of an attribute do not come before a value that is there. -/
theorem get?_addSpellings_of_put (h : (m.put (casefold a.1) a.2).get? k = some v) :
    (addSpellings m a).get? k = some v := by
  rw [addSpellings, get?_foldl_putNew, h]
  split
  · rfl
  · rfl

theorem get?_addSpellings_self (m : InsertionMap String Int) (a : String × Int) :
    (addSpellings m a).get? (casefold a.1) = some a.2 := by
  apply get?_addSpellings_of_put
  rw [InsertionMap.get?_put, if_pos rfl]

theorem get?_foldl_addSpellings_of_ne {attributes : List (String × Int)}
    (hne : ∀ a ∈ attributes, casefold a.1 ≠ k) (h : m.get? k = some v) :
    (attributes.foldl addSpellings m).get? k = some v := by
  induction attributes generalizing m with
  | nil => exact h
  | cons a attributes ih =>
    rw [List.forall_mem_cons] at hne
    apply ih hne.2
    apply get?_addSpellings_of_put
    rw [InsertionMap.get?_put, if_neg hne.1, h]

/-- **The last attribute that is called so** stands for its folded name, whatever comes before. -/
theorem get?_spellings_append {before after : List (String × Int)}
    (hlast : ∀ b ∈ after, casefold b.1 ≠ casefold a.1) :
    (spellings .builtIn (before ++ a :: after)).get? (casefold a.1) = some a.2 := by
  rw [spellings_eq_foldl, List.foldl_append, List.foldl_cons]
  exact get?_foldl_addSpellings_of_ne hlast (get?_addSpellings_self _ a)

end Last

/-! ### Texts that are names -/

section Names

variable {attributes : List (String × Int)} (hnames : ∀ a ∈ attributes, isName a.1.toList = true)

theorem isName_casefold {name : String} (h : isName name.toList = true) :
    isName (casefold name).toList = true := by
  obtain ⟨hne, hletters⟩ := isName_iff.1 h
  rw [toList_casefold hletters]
  refine isName_iff.2 ⟨fun hnil => hne (List.map_eq_nil_iff.1 hnil), ?_⟩
  intro c hc
  obtain ⟨c', hc', rfl⟩ := List.mem_map.1 hc
  exact (isNameChar_toLower c').trans (hletters c' hc')

include hnames in
/-- What stands for values of a card with such names are names. -/
theorem isName_of_mem_longestFirst {name : List Char}
    (h : name ∈ longestFirst (spellings .builtIn attributes).keys) : isName name = true := by
  obtain ⟨k, hk, rfl⟩ := mem_longestFirst.1 h
  obtain ⟨a, ha, hka⟩ := exists_of_mem_keys hk
  rcases List.mem_cons.1 hka with rfl | halias
  · exact isName_casefold (hnames a ha)
  · obtain ⟨s, hs, rfl⟩ := List.mem_map.1 halias
    have hkey := isKey_of_mem_builtIn (AliasTable.mem_spellingsFor.1 hs)
    exact isName_casefold (isName_iff.2 ⟨hkey.ne_nil, hkey.letters⟩)

include hnames in
/-- **A name that stands for a value is replaced as a whole**, whatever else stands for values. -/
theorem substitute_name {text : String} (htext : isName text.toList = true) {v : Int}
    (hvalue : (spellings .builtIn attributes).get? (casefold text) = some v) :
    substitute .builtIn attributes text = intText v := by
  have hne : ∀ name ∈ longestFirst (spellings .builtIn attributes).keys, name ≠ [] :=
    fun _ h => (isName_iff.1 (isName_of_mem_longestFirst hnames h)).1
  have hmem : text.toList.map Char.toLower ∈ longestFirst (spellings .builtIn attributes).keys := by
    refine mem_longestFirst.2 ⟨casefold text, ?_, toList_casefold (isName_iff.1 htext).2⟩
    rw [← InsertionMap.contains_iff_mem_keys, InsertionMap.contains, hvalue]
    rfl
  -- Of the spellings that match, only the whole text is long enough to come first.
  have hmatch := firstMatch?_spelling (pairwise_longestFirst _)
    (fun _ h => (isName_iff.1 (isName_of_mem_longestFirst hnames h)).2)
    (isName_iff.1 htext).2 hmem ends_nil
  rw [List.append_nil] at hmatch
  have hreplaced : replacement (spellings .builtIn attributes) text.toList =
      (intText v).toList := by
    rw [replacement, String.ofList_toList, hvalue]
  have hchars : substituteChars (spellings .builtIn attributes)
      (longestFirst (spellings .builtIn attributes).keys) text.toList = (intText v).toList := by
    rw [substituteChars_eq hne, hmatch]
    simp only [hreplaced, substituteChars_nil hne, List.append_nil]
  rw [substitute]
  simp only [hchars, String.ofList_toList]

/-- A name has no blanks. -/
theorem dropBlanks_of_isName {text : String} (htext : isName text.toList = true) :
    dropBlanks text.toList = text.toList := by
  refine List.filter_eq_self.2 fun c hc => ?_
  rw [isBlank_eq_false_of_isNameChar ((isName_iff.1 htext).2 c hc)]
  rfl

/-- A name is not of the short form. -/
theorem shortForm?_of_isName {text : String} (htext : isName text.toList = true) :
    shortForm? text.toList = none := by
  refine shortForm?_eq_none (Or.inl fun c hc => ?_)
  exact isDigit_eq_false_of_isNameChar ((isName_iff.1 htext).2 c (List.mem_of_mem_head? hc))

include hnames in
/-- **The pool of a name** has as many dice as the value that the name stands for. -/
theorem readSpec_of_name {text : String} (htext : isName text.toList = true) {v : Int}
    (hvalue : (spellings .builtIn attributes).get? (casefold text) = some v) (hlow : 1 ≤ v)
    (hhigh : v ≤ 100) (dice : Dice.Supply) :
    ∃ spec, readSpec .evaluator .builtIn attributes text dice = (.ok spec, dice) ∧
      (spec.count : Int) = v ∧ spec.threshold = 8 := by
  obtain ⟨n, rfl⟩ := Int.eq_ofNat_of_zero_le (Int.le_trans (by decide) hlow)
  have hblanks := dropBlanks_of_isName htext
  have hne : dropBlanks text.toList ≠ [] := by
    rw [hblanks]
    exact (isName_iff.1 htext).1
  have hshort : shortForm? (dropBlanks text.toList) = none := by
    rw [hblanks]
    exact shortForm?_of_isName htext
  have hresidual : substitute .builtIn attributes (String.ofList (dropBlanks text.toList)) =
      String.ofList (digitsOf n) := by
    rw [hblanks, String.ofList_toList, substitute_name hnames htext hvalue, ← String.toList_inj,
      String.toList_ofList]
    exact toList_intText_natCast n
  have hread := readSpec_digits hne hshort hresidual (digitsOf_ne_nil n)
    (fun _ => isDigit_of_mem_digitsOf) dice
  have hlength : (digitsOf n).length ≤ Dice.maxDigits :=
    (Nat.length_toDigits_le_iff (by decide) (by decide)).2 (by rw [Dice.maxDigits]; omega)
  have hcount : minPoolDice ≤ n ∧ n ≤ maxPoolDice := by
    rw [minPoolDice, maxPoolDice]
    omega
  have hmake : Spec.make n successFrom = .ok ⟨n, successFrom, hcount, by decide⟩ :=
    Spec.make_eq_ok_iff.2 ⟨rfl, rfl⟩
  rw [if_pos hlength, numeralValue_digitsOf, hmake] at hread
  exact ⟨_, hread, rfl, rfl⟩

end Names

/-! ### Cards of a session -/

section Session

variable {s : Session} {orders : InsertionMap String String} {supply : Dice.Supply}
  {commands : List (String × CardAction)}
  (hset : ∀ card name value, (card, CardAction.set name value) ∉ commands)
include hset

/-- After a run of directives and checks that starts without cards all names are names. -/
theorem isName_of_mem_keys_cardsAfter {card name : String}
    (h : name ∈ ((s.cardsAfter orders supply commands).attributes card).keys) :
    isName name.toList = true := by
  have hempty : CardStore.empty.IsNamed := by
    intro card' name' hname'
    cases hname'
  exact (onCards_named hset hempty card name h).isName

/-- **A stored name gives the pool of the last attribute with this name in any case.**  In a session
of directives and checks that starts without cards, take an attribute on a card with a value from
one to a hundred, such that no attribute behind it on the card has the same name in another case.
Its name, and each name on the card that differs from it in case only, as the text of a pool gives a
pool of as many dice as the value, with a threshold of eight, and takes no dice, whatever other
attributes are on the card and in whichever order they came. -/
theorem readSpec_name {card name : String} {value : Int} {before after : List (String × Int)}
    (hcard : ((s.cardsAfter orders supply commands).attributes card).toList =
      before ++ (name, value) :: after)
    (hlast : ∀ a ∈ after, casefold a.1 ≠ casefold name) (hlow : 1 ≤ value) (hhigh : value ≤ 100)
    {text : String} (htext : text ∈ ((s.cardsAfter orders supply commands).attributes card).keys)
    (hcase : casefold text = casefold name) (dice : Dice.Supply) :
    ∃ spec,
      readSpec .evaluator .builtIn ((s.cardsAfter orders supply commands).attributes card).toList
          text dice = (.ok spec, dice) ∧
        (spec.count : Int) = value ∧ spec.threshold = 8 := by
  have hnames : ∀ a ∈ ((s.cardsAfter orders supply commands).attributes card).toList,
      isName a.1.toList = true :=
    fun a ha => isName_of_mem_keys_cardsAfter hset (List.mem_map_of_mem ha)
  have hvalue := @get?_spellings_append (name, value) before after hlast
  rw [← hcard, ← hcase] at hvalue
  exact readSpec_of_name hnames (isName_of_mem_keys_cardsAfter hset htext) hvalue hlow hhigh dice

end Session

/-- A card after a directive with two names that differ in case. -/
def twoCases : Attributes :=
  (Session.cardsAfter ⟨.evaluator, .rule0, 100⟩ .empty (.ofList [])
    [("c", .directive "Foo 5 foo 7")]).attributes "c"

/-- The card tells the two names apart. -/
theorem toList_twoCases : twoCases.toList = [("Foo", 5), ("foo", 7)] := by
  have hread : readDirective .builtIn "Foo 5 foo 7" =
      ⟨none, [⟨"Foo", .set, .literal 5⟩, ⟨"foo", .set, .literal 7⟩]⟩ := by
    rw [builtIn_eq]
    decide +kernel
  have happly : applyText .evaluator .builtIn 100 "c" "Foo 5 foo 7" =
      applyTo .evaluator 100 "c" [⟨"Foo", .set, .literal 5⟩, ⟨"foo", .set, .literal 7⟩] := by
    rw [applyText, hread]
    rfl
  rw [twoCases, Session.cardsAfter, onCards_cons, Session.onCard, happly]
  rfl

theorem casefold_twoCases : casefold "Foo" = casefold "foo" := by decide +kernel

/-- Either name gives the value of the later one. -/
theorem readSpec_name_later :
    ∃ spec,
      readSpec .evaluator .builtIn twoCases.toList "Foo" (.ofList []) = (.ok spec, .ofList []) ∧
        (spec.count : Int) = 7 ∧ spec.threshold = 8 := by
  have hset : ∀ card name value,
      (card, CardAction.set name value) ∉ [("c", CardAction.directive "Foo 5 foo 7")] := by
    intro card name value hmem
    cases List.mem_singleton.1 hmem
  have hmem : "Foo" ∈ twoCases.keys := by
    rw [InsertionMap.keys, toList_twoCases]
    decide
  have hcard : twoCases.toList = [("Foo", 5)] ++ ("foo", 7) :: [] := toList_twoCases
  rw [twoCases] at hmem hcard ⊢
  exact readSpec_name hset hcard (List.forall_mem_nil _) (by decide) (by decide) hmem
    casefold_twoCases (.ofList [])

/-- **An attribute cannot be named if a later one differs from it in case only.**  The first of the
two has five dice, and its name gives seven. -/
theorem name_of_later :
    ("Foo", 5) ∈ twoCases.toList ∧
      ∃ spec,
        readSpec .evaluator .builtIn twoCases.toList "Foo" (.ofList []) = (.ok spec, .ofList []) ∧
          spec.count = 7 := by
  rw [toList_twoCases]
  have hnames : ∀ a ∈ [("Foo", (5 : Int)), ("foo", 7)], isName a.1.toList = true := by decide
  have hvalue : (spellings .builtIn [("Foo", 5), ("foo", 7)]).get? (casefold "Foo") = some 7 := by
    rw [casefold_twoCases]
    exact @get?_spellings_append ("foo", 7) [("Foo", 5)] [] (List.forall_mem_nil _)
  have hname : isName "Foo".toList = true := by decide
  obtain ⟨spec, hread, hcount, -⟩ :=
    readSpec_of_name hnames hname hvalue (by decide) (by decide) (.ofList [])
  exact ⟨List.mem_cons_self, spec, hread, Int.ofNat.inj hcount⟩

end Pool

end Tabletop
