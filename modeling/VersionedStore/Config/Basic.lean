/-
  VersionedStore.Config.Basic

  The configuration of a database, what is checked about it, and the rules that
  it describes.  The required names are kept as they were given; `constraints`
  takes each of them once.
-/
import VersionedStore.Constraints
import VersionedStore.Document.Error
import VersionedStore.Update.Request

namespace VersionedStore

open Update

/-- How often and how soon to try again. -/
structure RetryConfig where
  maxAttempts : UInt32
  backoffMillis : UInt64
deriving DecidableEq, Repr

/-- Three attempts without a wait. -/
def RetryConfig.default : RetryConfig := ⟨RetryPolicy.defaultMaxAttempts, 0⟩

/-- The configuration of a database. -/
structure Config where
  retry : RetryConfig
  /-- The least integer of each field. -/
  minimums : Std.ExtTreeMap String Int64
  /-- Names of the fields that every record has. -/
  required : List String
deriving DecidableEq

/-- Why a configuration is refused. -/
inductive ConfigError where
  /-- The text is not TOML. -/
  | malformed
  /-- The text is TOML, but its content is not a configuration. -/
  | content (error : DecodeError)
  | noAttempts
  | blankName (name : String)
  /-- The configuration in a file is refused. -/
  | inFile (path : String) (error : ConfigError)
deriving DecidableEq, Repr

/-- The wording of a refusal. -/
def ConfigError.message : ConfigError → String
  | malformed => "TOML syntax"
  | content error => "TOML " ++ (error.message Decimal.Layout.positional).getD "syntax"
  | noAttempts => "retry.max_attempts must be at least 1"
  | blankName name => "required field name " ++ Text.quote name ++ " is blank"
  | inFile path error => path ++ ": " ++ error.message

namespace Config

/-- The configuration in which nothing is set. -/
def default : Config := ⟨.default, ∅, []⟩

instance : Inhabited Config := ⟨default⟩

/-- What is wrong with a configuration: no attempts, else the first blank name. -/
def fault? (c : Config) : Option ConfigError :=
  if c.retry.maxAttempts = 0 then some .noAttempts
  else (c.required.find? Text.isBlankText).map .blankName

/-- Accept a configuration, or tell what is wrong with it. -/
def validate (c : Config) : Except ConfigError Config :=
  match c.fault? with
  | some error => .error error
  | none => .ok c

/-- How often and how soon updates are tried again. -/
def policy (c : Config) : RetryPolicy :=
  ⟨c.retry.maxAttempts, .ofMillis c.retry.backoffMillis⟩

/-- The conditions on fields. -/
def constraints (c : Config) : Constraints :=
  let withMinimums := c.minimums.toList.foldl (fun k (field, least) => k.min field least) ∅
  c.required.foldl Constraints.require withMinimums

/-- The rules that requests are run under. -/
def rules (c : Config) : Rules :=
  ⟨c.policy, c.constraints⟩

end Config

end VersionedStore
