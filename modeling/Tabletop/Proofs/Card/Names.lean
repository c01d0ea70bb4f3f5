import Tabletop.Proofs.Attribute.Canonical
import Tabletop.Proofs.Card.Writes
import Tabletop.Proofs.Pool.Spellings

/-!
# One attribute, one name

Commands name attributes in any spelling, and a table of spellings says which attribute is meant.
Whatever reaches the cards goes through the table first: the names in directives, however they are
written, and the name that a check is about.  So if the table makes a canonical form of each name,
a card holds each attribute under its canonical form only, and it does not matter in which of its
spellings an attribute is named.

## Main definitions

* `NamingCommand` — directives and checks, which name attributes.
* `CardStore.IsCanonical` — all attributes are there under their canonical names.
* `NamingCommand.Respells` — two commands that differ only in how they spell attributes.

## Main results

* `Writes.isCanonical` — writes under canonical names.
* `NamingCommand.run_isCanonical`, `NamingCommand.runAll_isCanonical` — **names on cards are
  canonical**, after one command and after many.
* `NamingCommand.run_respelled`, `NamingCommand.runAll_respelled` — **the spelling does not
  matter**.
* `one_name_for_each_attribute` — the two together, for tables whose entries do not meet.
-/

namespace Tabletop

open Attribute Check CardStore

/-- A command that names attributes, together with what it is run with. -/
inductive NamingCommand where
  /-- Applies a directive. -/
  | directive (source : Dice.Source) (cap : Int) (card text : String)
  /-- Runs a check. -/
  | check (source : Dice.Source) (rule : HouseRule) (cap : Int) (variety : Variety)
    (request : Request)

namespace NamingCommand

/-- Runs a command by a table of spellings. -/
def run (table : AliasTable) : NamingCommand → Play CardAnswer
  | directive source cap card text => .report <$> applyText source table cap card text
  | check source rule cap variety request =>
    .check <$> Check.run ⟨source, table, rule, cap⟩ variety request

/-- Runs commands by the same table one after another. -/
def runAll (table : AliasTable) : List NamingCommand → Game → List (Except Error CardAnswer) × Game
  | [], game => ([], game)
  | command :: commands, game =>
    let (answer, game) := command.run table game
    let (answers, game) := runAll table commands game
    (answer :: answers, game)

theorem runAll_cons (table : AliasTable) (command : NamingCommand) (commands : List NamingCommand)
    (game : Game) :
    runAll table (command :: commands) game =
      ((command.run table game).1 :: (runAll table commands (command.run table game).2).1,
        (runAll table commands (command.run table game).2).2) := rfl

end NamingCommand

/-! ### Canonical names -/

/-- All attributes of all cards are there under their canonical names. -/
def CardStore.IsCanonical (table : AliasTable) (store : CardStore) : Prop :=
  ∀ card, ∀ name ∈ (store.attributes card).keys, table.normalize name = name

/-- Writes under canonical names leave all names canonical. -/
theorem CardStore.Writes.isCanonical {table : AliasTable} {card : String} {cap : Int}
    {ws : List (String × Int)} {store store' : CardStore} (h : Writes card cap ws store store')
    (hws : ∀ w ∈ ws, table.normalize w.1 = w.1) (hstore : store.IsCanonical table) :
    store'.IsCanonical table :=
  h.forall_keys hws hstore

/-- The values that a directive stores are of attributes that its operations name. -/
theorem Attribute.name_of_mem_storedValues {card : String} {cap : Int} {rs : List Rolled}
    {store : CardStore} {w : String × Int}
    (hw : w ∈ storedValues (carryOut card cap rs store).1) :
    ∃ op ∈ rs.map Rolled.operation, op.name = w.1 := by
  obtain ⟨c, hc, rfl⟩ := List.mem_map.1 hw
  have hrolled := List.mem_map_of_mem (f := Change.rolled) (List.mem_filter.1 hc).1
  rw [carryOut_rolled] at hrolled
  exact ⟨c.operation, List.mem_map_of_mem (f := Rolled.operation) hrolled, rfl⟩

namespace NamingCommand

section Canonical

variable {table : AliasTable} (htable : ∀ name, table.normalize (table.normalize name) =
  table.normalize name)
include htable

/-- **One command** leaves all names canonical. -/
theorem run_isCanonical (command : NamingCommand) {game : Game}
    (hgame : game.cards.IsCanonical table) :
    (command.run table game).2.cards.IsCanonical table := by
  cases command with
  | directive source cap card text =>
    rw [run, Play.map_apply]
    rcases happly : applyText source table cap card text game with ⟨e | report, game'⟩
    · show game'.cards.IsCanonical table
      rwa [applyText_eq_error happly]
    obtain ⟨rs, hrolls, -, hcards⟩ := applyText_eq_ok happly
    show game'.cards.IsCanonical table
    rw [hcards]
    refine (carryOut_writes _ _ _ _).isCanonical ?_ hgame
    intro w hw
    obtain ⟨op, hop, hname⟩ := name_of_mem_storedValues hw
    -- Whichever way the name was written, the table was asked for it.
    rw [rollAmounts_operation hrolls, readDirective_eq_map] at hop
    obtain ⟨written, -, rfl⟩ := List.mem_map.1 hop
    rw [← hname]
    exact htable written.name
  | check source rule cap variety request =>
    rw [run, Play.map_apply]
    rcases hrun : Check.run ⟨source, table, rule, cap⟩ variety request game with ⟨e | o, game'⟩
    · show game'.cards.IsCanonical table
      rwa [(run_eq_error hrun).1]
    show game'.cards.IsCanonical table
    refine (run_writes hrun).isCanonical ?_ hgame
    -- A check writes under one name at most, and the table was asked for it.
    intro w hw
    rw [Outcome.written] at hw
    split at hw
    · rw [List.mem_singleton.1 hw]
      exact htable request.name
    · cases hw

/-- **A run of commands** leaves all names canonical. -/
theorem runAll_isCanonical (commands : List NamingCommand) {game : Game}
    (hgame : game.cards.IsCanonical table) :
    (runAll table commands game).2.cards.IsCanonical table := by
  induction commands generalizing game with
  | nil => exact hgame
  | cons command commands ih => exact ih (run_isCanonical htable command hgame)

end Canonical

/-! ### Respelled commands -/

/-- Two commands that differ in nothing but how they spell attributes: two checks that name the same
attribute, or two texts of which both say the same about the same attributes. -/
inductive Respells (table : AliasTable) : NamingCommand → NamingCommand → Prop
  /-- All spellings are kept. -/
  | refl (command : NamingCommand) : Respells table command command
  /-- A text names the same attributes in other spellings. -/
  | directive (source : Dice.Source) (cap : Int) (card : String) {text text' : String}
      (hcard : (readDirective .asWritten text).card = (readDirective .asWritten text').card)
      (hoperations : List.Forall₂
        (fun op op' => table.normalize op.name = table.normalize op'.name ∧ op.kind = op'.kind ∧
          op.amount = op'.amount)
        (readDirective .asWritten text).operations (readDirective .asWritten text').operations)
      (hne : (readDirective .asWritten text).operations ≠ []) :
      Respells table (directive source cap card text) (directive source cap card text')
  /-- A check is about the same attribute in another spelling. -/
  | check (source : Dice.Source) (rule : HouseRule) (cap : Int) (variety : Variety)
      (request : Request) {name : String}
      (hname : table.normalize request.name = table.normalize name) :
      Respells table (check source rule cap variety request)
        (check source rule cap variety { request with name := name })

end NamingCommand

/-- A check asks for the canonical form of the name that it is given, and for nothing else in it. -/
theorem Check.run_respelled {setting : Setting} {variety : Variety} {request : Request}
    {name : String}
    (hname : setting.aliases.normalize request.name = setting.aliases.normalize name) :
    Check.run setting variety request =
      Check.run setting variety { request with name := name } := by
  have hstake : variety.stake { request with name := name } = variety.stake request := by
    cases variety with
    | sanity => rfl
    | growth => rfl
  have hfind : findReference variety { request with name := name } =
      findReference variety request := rfl
  have hcommit : commit setting { request with name := name } = commit setting request := rfl
  funext game
  rw [run_apply, run_apply, hname, hstake, hfind, hcommit]

namespace NamingCommand

section Respelled

variable {table : AliasTable}

/-- **One command** does the same in any spelling. -/
theorem run_respelled {command command' : NamingCommand} (h : Respells table command command') :
    command.run table = command'.run table := by
  cases h with
  | refl => rfl
  | @directive source cap card text text' hcard hoperations hne =>
    have hmap : (readDirective .asWritten text).operations.map (Operation.canonical table) =
        (readDirective .asWritten text').operations.map (Operation.canonical table) := by
      rw [← List.forall₂_eq_eq_eq, List.forall₂_map_left_iff, List.forall₂_map_right_iff]
      refine hoperations.imp ?_
      rintro op op' ⟨hname, hkind, hamount⟩
      rw [Operation.canonical, Operation.canonical, hname, hkind, hamount]
    have hread : readDirective table text = readDirective table text' := by
      rw [readDirective_eq_map table text, readDirective_eq_map table text', hcard, hmap]
    have hsome : ¬(readDirective table text').operations.isEmpty = true := by
      rw [← hread, readDirective_eq_map, List.isEmpty_iff, List.map_eq_nil_iff]
      exact hne
    -- The texts differ, but only a text that says nothing is ever quoted.
    rw [run, run, applyText, applyText, hread]
    simp only [if_neg hsome]
  | check source rule cap variety request hname =>
    rw [run, run, Check.run_respelled hname]

/-- **A run of commands** does the same in any spellings. -/
theorem runAll_respelled {commands commands' : List NamingCommand}
    (h : List.Forall₂ (Respells table) commands commands') (game : Game) :
    runAll table commands game = runAll table commands' game := by
  induction h generalizing game with
  | nil => rfl
  | cons hcommand _ ih => rw [runAll_cons, runAll_cons, run_respelled hcommand, ih]

end Respelled

end NamingCommand

/-! ### Tables whose entries do not meet -/

/-- **One attribute, one name.**  Take a table whose canonical names and their spellings do not meet
in lower case and have no blanks around them.  The canonical form of a name is canonical, and a name
is in the table exactly if what it is looked up under is a spelling of its canonical form.  After
any run of directives and checks that starts without cards, each attribute on a card is there under
its canonical name, and under none of the other spellings that the table has for it.  And if the
attributes in these commands are named in other spellings, all answers and the whole game stay the
same. -/
theorem one_name_for_each_attribute {entries : List (String × List String)}
    (h : AliasTable.Separate entries) :
    let table := AliasTable.build entries
    (∀ name, table.normalize (table.normalize name) = table.normalize name) ∧
      (∀ name, table.knows name = true ↔
        AliasTable.key name ∈ table.spellingsFor (table.normalize name)) ∧
      (∀ commands orders supply card,
        let cards := (NamingCommand.runAll table commands ⟨.empty, orders, supply⟩).2.cards
        ∀ name ∈ (cards.attributes card).keys, table.normalize name = name ∧
          ∀ canonical, AliasTable.key name ∈ table.spellingsFor canonical → name = canonical) ∧
      ∀ commands commands', List.Forall₂ (NamingCommand.Respells table) commands commands' →
        ∀ game, NamingCommand.runAll table commands game =
          NamingCommand.runAll table commands' game := by
  intro table
  refine ⟨h.normalize_normalize, table.knows_iff_mem_spellingsFor, ?_, ?_⟩
  · intro commands orders supply card cards name hname
    have hempty : CardStore.empty.IsCanonical table := by
      intro card' name' hname'
      cases hname'
    have hcanonical : table.normalize name = name :=
      NamingCommand.runAll_isCanonical h.normalize_normalize commands hempty card name hname
    refine ⟨hcanonical, ?_⟩
    intro canonical hspelling
    rw [AliasTable.mem_spellingsFor, ← InsertionMap.get?_eq_some_iff] at hspelling
    rw [← hcanonical, AliasTable.normalize, hspelling, Option.getD_some]
  · intro commands commands' hrespells game
    exact NamingCommand.runAll_respelled hrespells game

/-- The spellings of the usual attributes do not meet. -/
theorem separate_builtInNames : AliasTable.Separate AliasTable.builtInNames where
  apart := by
    have hapart : ∀ e ∈ AliasTable.builtInNames, ∀ e' ∈ AliasTable.builtInNames, e.1 ≠ e'.1 →
        ∀ s ∈ e.1 :: e.2, s ∉ e'.1 :: e'.2 := by decide +kernel
    intro e he e' he' hne s hs s' hs'
    rw [Pool.lower_eq_self (Pool.isKey_of_mem_builtInNames he hs),
      Pool.lower_eq_self (Pool.isKey_of_mem_builtInNames he' hs')]
    rintro rfl
    exact hapart e he e' he' hne s hs hs'
  trimmed := by
    have htrimmed : ∀ e ∈ AliasTable.builtInNames, ∀ s ∈ e.1 :: e.2, Text.trim s = s := by
      decide +kernel
    intro e he s hs
    rw [Pool.lower_eq_self (Pool.isKey_of_mem_builtInNames he hs)]
    exact htrimmed e he s hs

/-- Hit points are set and then grow, named once as `hp` and once as `HP`. -/
def hitPoints : List NamingCommand :=
  [.directive .evaluator 100 "c" "hp 5",
    .check .evaluator .rule0 100 .growth ⟨"c", "HP", none, "", .growth none⟩]

/-- The same with names in the script of the usual attributes. -/
def hitPointsInScript : List NamingCommand :=
  [.directive .evaluator 100 "c" "生命值 5",
    .check .evaluator .rule0 100 .growth ⟨"c", "生命", none, "", .growth none⟩]

/-- By the usual table it does not matter how hit points are spelled. -/
theorem one_name_for_each_attribute_hit_points :
    AliasTable.Separate AliasTable.builtInNames ∧
      List.Forall₂ (NamingCommand.Respells .builtIn) hitPoints hitPointsInScript ∧
      NamingCommand.runAll .builtIn hitPoints ⟨.empty, .empty, .ofList [50]⟩ =
        NamingCommand.runAll .builtIn hitPointsInScript ⟨.empty, .empty, .ofList [50]⟩ := by
  have hread : readDirective .asWritten "hp 5" = ⟨none, [⟨"hp", .set, .literal 5⟩]⟩ := by
    decide +kernel
  have hread' : readDirective .asWritten "生命值 5" = ⟨none, [⟨"生命值", .set, .literal 5⟩]⟩ := by
    decide +kernel
  have hnames : AliasTable.builtIn.normalize "hp" = AliasTable.builtIn.normalize "生命值" ∧
      AliasTable.builtIn.normalize "HP" = AliasTable.builtIn.normalize "生命" := by
    rw [Pool.builtIn_eq]
    decide +kernel
  have hrespells : List.Forall₂ (NamingCommand.Respells .builtIn) hitPoints hitPointsInScript := by
    refine .cons (.directive .evaluator 100 "c" ?_ ?_ ?_)
      (.cons (.check .evaluator .rule0 100 .growth _ hnames.2) .nil)
    · rw [hread, hread']
    · rw [hread, hread']
      exact .cons ⟨hnames.1, rfl, rfl⟩ .nil
    · rw [hread]
      exact List.cons_ne_nil _ _
  exact ⟨separate_builtInNames, hrespells,
    (one_name_for_each_attribute separate_builtInNames).2.2.2 _ _ hrespells _⟩

end Tabletop
