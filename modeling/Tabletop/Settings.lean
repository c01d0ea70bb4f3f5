import Tabletop.Check.Level
import Tabletop.Row.Field
import Tabletop.Text.Lowercase

/-!
# Settings

A game is set up by a few named values: where cards and turn orders are kept, how many attributes a
card may hold, the house rule, and how much is logged.  They come from variables, whose names are
caseless and start with a common word, or from a list of values.

## Main definitions

* `Settings` — the values.
* `Settings.ofMembers`, `Settings.ofVariables` — reading them.
* `Settings.isRemote`, `Settings.remote` — whether the tables of a remote service are used.
* `Settings.logThreshold` — the number of the least level that is logged.
-/

namespace Tabletop

open Json Row Check

/-- How a game is set up. -/
structure Settings where
  /-- The address of the remote service. -/
  remoteUrl : Option String
  /-- The key for the remote service. -/
  remoteKey : Option String
  /-- The number of attributes that a card may hold. -/
  cap : Int
  /-- The house rule. -/
  rule : HouseRule
  /-- Whether everything is logged. -/
  debug : Bool
  /-- The name of the least level that is logged. -/
  logLevel : String
  deriving DecidableEq, Repr

/-- Why there is no remote service. -/
inductive RemoteFault where
  /-- The address or the key is missing or empty. -/
  | notConfigured
  deriving DecidableEq, Repr

/-- The wording of the absence of a remote service. -/
def RemoteFault.message : RemoteFault → String
  | notConfigured =>
      "Supabase is not configured; set DICEKEEPER_SUPABASE_URL and " ++
        "DICEKEEPER_SUPABASE_ANON_KEY."

namespace Settings

/-! ### Reading -/

/-- A text that may be absent. -/
def readOptionalText : Value → Except FaultKind (Option String)
  | .null => .ok none
  | v => (readText 0 none v).map some

/-- The words for truth values, in small letters. -/
def truthWords : List (String × Bool) :=
  [("0", false), ("off", false), ("f", false), ("false", false), ("n", false), ("no", false),
   ("1", true), ("on", true), ("t", true), ("true", true), ("y", true), ("yes", true)]

/-- A truth value, or a word for one in any case. -/
def readTruth : Value → Except FaultKind Bool
  | .bool b => .ok b
  | .string s =>
    match truthWords.find? fun w => w.1.toList == s.toList.map Char.toLower with
    | some w => .ok w.2
    | none => .error .truthParsing
  | _ => .error .truthParsing

/-- The number of a house rule. -/
def readRuleNumber (v : Value) : Except FaultKind HouseRule := do
  let n ← readBetween 0 5 v
  match HouseRule.ofInt? n with
  | some rule => .ok rule
  | none => .error .tooLarge

/-- Reads settings; what is left out has its usual value. -/
def ofMembers (members : List (String × Value)) : Checked Settings :=
  (both
    (both
      (both
        (both
          (both (optional none readOptionalText members "supabase_url")
            (optional none readOptionalText members "supabase_anon_key"))
          (optional 100 (readAtLeast 1) members "max_attributes_per_card"))
        (optional .rule0 readRuleNumber members "coc_rule"))
      (optional false readTruth members "debug"))
    (optional "INFO" (readText 0 none) members "log_level")).map
    fun (((((url, key), cap), rule), debug), level) => ⟨url, key, cap, rule, debug, level⟩

/-- The word that the names of variables start with, in small letters. -/
def variableStart : List Char := "dicekeeper_".toList

/-- The setting that the variable of a name is for, if it is for one. -/
def settingName? (name : String) : Option String :=
  let cs := (Text.lower name).toList
  if variableStart.isPrefixOf cs then some (String.ofList (cs.drop variableStart.length))
  else none

/-- Reads settings from variables; of variables that differ only in case the last one counts. -/
def ofVariables (assigned : List (String × String)) : Checked Settings :=
  ofMembers
    (InsertionMap.ofList
      (assigned.filterMap fun v => (settingName? v.1).map fun name => (name, .string v.2))).toList

/-! ### Meaning -/

/-- Whether a text is there and not empty. -/
def isGiven (s : Option String) : Bool := !(s.getD "").isEmpty

/-- Whether cards and turn orders are kept by the remote service. -/
def isRemote (s : Settings) : Bool := isGiven s.remoteUrl && isGiven s.remoteKey

/-- The address and the key of the remote service. -/
def remote (s : Settings) : Except RemoteFault (String × String) :=
  if s.isRemote then .ok (s.remoteUrl.getD "", s.remoteKey.getD "") else .error .notConfigured

/-- The capital of a letter, as far as it is one of the plain capitals. -/
def plainCapital (c : Char) : Char :=
  if c = 'ı' then 'I' else if c = 'ſ' then 'S' else c.toUpper

/-- The names of levels with their numbers. -/
def levels : List (String × Nat) :=
  [("NOTSET", 0), ("DEBUG", 10), ("INFO", 20), ("WARNING", 30), ("WARN", 30), ("ERROR", 40),
   ("CRITICAL", 50), ("FATAL", 50)]

/-- The number of the usual level. -/
def usualLevel : Nat := 20

/-- The number of the level for logging everything. -/
def debugLevel : Nat := 10

/-- The number of a level whose name is given in any case. -/
def levelNumber (name : String) : Nat :=
  match levels.find? fun l => l.1.toList == name.toList.map plainCapital with
  | some l => l.2
  | none => usualLevel

/-- The number of the least level that is logged. -/
def logThreshold (s : Settings) : Nat := if s.debug then debugLevel else levelNumber s.logLevel

end Settings

end Tabletop
