/-
  VersionedStore.CommandLine

  The command line.  Options stand before or after the name of the scenario; the
  two that concern the database are known in both places, and the one after the
  name counts.  An option takes its value from the next argument or after an
  equals sign, and may be given once in each place.

  A command line that does not make sense ends with code 2, a scenario that
  fails with code 1.
-/
import VersionedStore.Scenario

namespace VersionedStore

namespace CommandLine

-- ============================================================================
-- Values
-- ============================================================================

/-- An integer with an optional sign. -/
def integer? (s : String) : Option Int :=
  match s.toList with
  | '-' :: cs => (Decimal.digits? cs).map fun n => -(n : Int)
  | '+' :: cs => (Decimal.digits? cs).map Int.ofNat
  | cs => (Decimal.digits? cs).map Int.ofNat

/-- A count: a number of 64 bits, without a minus sign even if it is zero. -/
def count? (s : String) : Option Nat := do
  let n ← integer? s
  if s.toList.head? = some '-' then none else (uint64? n).map UInt64.toNat

/-- A bound on attempts: a number of 32 bits. -/
def bound? (s : String) : Option UInt32 := do
  uint32? (← integer? s)

/-- A signed amount of 64 bits. -/
def amount? (s : String) : Option Int64 := do
  int64? (← integer? s)

-- ============================================================================
-- Options
-- ============================================================================

/-- An option with a value. -/
structure Choice where
  name : String
  /-- Whether a value is acceptable. -/
  accepts : String → Bool
  /-- Whether the next argument is the value also if it looks like an option. -/
  anyNext : Bool

/-- A path. -/
def configChoice : Choice := ⟨"config", (· ≠ ""), false⟩

/-- The bound on attempts. -/
def maxAttemptsChoice : Choice := ⟨"max-attempts", fun s => (bound? s).isSome, false⟩

/-- The options that are known in both places. -/
def commonChoices : List Choice := [configChoice, maxAttemptsChoice]

/-- A count of some kind. -/
def countChoice (name : String) : Choice := ⟨name, fun s => (count? s).isSome, false⟩

/-- The place of the product. -/
def productChoice : Choice := countChoice "product"

/-- The number of writers or workers. -/
def writersChoice : Choice := countChoice "writers"

/-- The number of updates of each worker. -/
def roundsChoice : Choice := countChoice "rounds"

/-- The amount that each update adds. -/
def deltaChoice : Choice := ⟨"delta", fun s => (amount? s).isSome, true⟩

/-- Options that were given, with their values. -/
abbrev Given := List (String × String)

/-- The value of an option that was given. -/
def Given.value? {α : Type} (given : Given) (choice : Choice) (read : String → Option α) :
    Option α :=
  (given.lookup choice.name).bind read

/-- Why there is nothing to run. -/
inductive Stop where
  /-- Help or the version was asked for. -/
  | shown
  /-- The command line does not make sense. -/
  | usage
deriving DecidableEq, Repr

/-- Whether an argument looks like an option; a single hyphen does not. -/
def looksLikeOption (s : String) : Bool :=
  s.startsWith "-" && s ≠ "-"

/-- The name of an option and the value after an equals sign. -/
def splitOption (s : String) : String × Option String :=
  let cs := s.toList.drop 2
  match cs.dropWhile (· ≠ '=') with
  | _ :: value => (String.ofList (cs.takeWhile (· ≠ '=')), some (String.ofList value))
  | [] => (String.ofList cs, none)

/-- Note the value of an option that was not given before. -/
def note (choice : Choice) (value : String) (given : Given) : Except Stop Given :=
  if choice.accepts value ∧ (given.lookup choice.name).isNone then
    .ok ((choice.name, value) :: given)
  else .error .usage

/-- The options up to the first argument that is none, and the arguments from there on. -/
def readOptions (choices : List Choice) (versioned : Bool) :
    List String → Given → Except Stop (Given × List String)
  | [], given => .ok (given, [])
  | arg :: args, given =>
    if arg = "--" then if args.isEmpty then .ok (given, []) else .error .usage
    else if arg.startsWith "--" then
      match splitOption arg with
      | (name, attached) =>
        match choices.find? (·.name = name), attached, args with
        | some choice, some value, args => do
          readOptions choices versioned args (← note choice value given)
        | some choice, none, value :: args =>
          if choice.anyNext || !looksLikeOption value then do
            readOptions choices versioned args (← note choice value given)
          else .error .usage
        | some _, none, [] => .error .usage
        | none, none, _ =>
          if name = "help" ∨ (versioned ∧ name = "version") then .error .shown
          else .error .usage
        | none, some _, _ => .error .usage
    else if looksLikeOption arg then
      match arg.toList with
      | _ :: 'h' :: _ => .error .shown
      | _ :: 'V' :: _ => .error (if versioned then .shown else .usage)
      | _ => .error .usage
    else .ok (given, arg :: args)

-- ============================================================================
-- The whole line
-- ============================================================================

/-- A kind of scenario: its name, its options, and the scenario that they describe. -/
structure Command where
  name : String
  choices : List Choice
  scenario : Given → Scenario

/-- The kinds of scenarios. -/
def commands : List Command := [
  ⟨"seed", [], fun _ => .seed⟩,
  ⟨"simulate", [productChoice, writersChoice], fun given =>
    .simulate ((given.value? productChoice count?).getD 1)
      ((given.value? writersChoice count?).getD 5)⟩,
  ⟨"storm", [productChoice, writersChoice, roundsChoice, deltaChoice], fun given =>
    .storm ((given.value? productChoice count?).getD 1) ((given.value? writersChoice count?).getD 8)
      ((given.value? roundsChoice count?).getD 10) ((given.value? deltaChoice amount?).getD (-1))⟩]

/-- What a command line asks for. -/
structure Invocation where
  /-- The file with the configuration. -/
  config : Option String
  maxAttempts : Option UInt32
  scenario : Scenario
deriving DecidableEq, Repr

/-- Help on commands: all names have to be known. -/
def helpOn : List String → Stop
  | [] => .shown
  | [name] => if name = "help" ∨ commands.any (·.name = name) then .shown else .usage
  | _ => .usage

/-- What the arguments ask for. -/
def parse (args : List String) : Except Stop Invocation := do
  let (before, args) ← readOptions commonChoices true args []
  match args with
  | [] => .error .usage
  | name :: args =>
    match commands.find? (·.name = name) with
    | none => .error (if name = "help" then helpOn args else .usage)
    | some command =>
      let (after, args) ← readOptions (commonChoices ++ command.choices) false args []
      if !args.isEmpty then .error .usage
      let given := after ++ before
      return {
        config := given.value? configChoice some
        maxAttempts := given.value? maxAttemptsChoice bound?
        scenario := command.scenario given }

-- ============================================================================
-- Running
-- ============================================================================

/-- What a run leaves behind. -/
structure Outcome where
  code : UInt32
  /-- The text for standard output. -/
  out : String
  /-- The text for standard error. -/
  err : String
deriving DecidableEq, Repr

/-- The command line in a few words. -/
def usageText : String :=
  "usage: [--config FILE] [--max-attempts N] seed | simulate [--product N] [--writers N]"
    ++ " | storm [--product N] [--writers N] [--rounds N] [--delta N]"

/-- The outcome of a command line that has nothing to run. -/
def Stop.outcome : Stop → Outcome
  | .shown => ⟨0, usageText ++ "\n", ""⟩
  | .usage => ⟨2, "", usageText ++ "\n"⟩

/-- The settings that a command line makes on top of a configuration. -/
def Invocation.settings (inv : Invocation) : List Setting :=
  .catalog :: (inv.maxAttempts.map Setting.maxAttempts).toList

/-- The configuration that a command line works with, given what its file holds. -/
def Invocation.configuration (inv : Invocation) (content : Except FileError ByteArray) :
    Except Failure Config := do
  let c ←
    match inv.config with
    | some path => Config.ofFile path content
    | none => .ok .default
  return c.setAll inv.settings

/-- The database that a command line works with, given what its file holds. -/
def Invocation.database {σ : Type} (inv : Invocation) (content : Except FileError ByteArray)
    (around : Update.Surroundings σ) : Except Failure (Database σ) := do
  Database.ofConfig (← inv.configuration content) around

/-- Run a scenario on the database of a command line. -/
def Invocation.run {σ : Type} (inv : Invocation) (content : Except FileError ByteArray)
    (around : Update.Surroundings σ) : StateM σ Outcome := do
  let failed (message : String) : Outcome := ⟨1, "", "Error: " ++ message ++ "\n"⟩
  match inv.database content around with
  | .error failure => return failed failure.message
  | .ok db =>
    match ← (inv.scenario.run db).run with
    | .ok report => return ⟨0, report.pretty ++ "\n", ""⟩
    | .error error => return failed error.message

end CommandLine

end VersionedStore
