/-
  VersionedStore.Config.Setting

  Settings that are made one after the other on top of a configuration.  A later
  bound, wait or minimum takes the place of an earlier one; a name that is
  required already is not added again.
-/
import VersionedStore.Catalog
import VersionedStore.Config.Basic

namespace VersionedStore

/-- One setting. -/
inductive Setting where
  | maxAttempts (n : UInt32)
  /-- The wait between attempts, in whole milliseconds. -/
  | backoff (wait : Duration)
  | minimum (field : String) (least : Int64)
  | require (field : String)
  /-- The conditions that products satisfy. -/
  | catalog
deriving DecidableEq, Repr

namespace Config

/-- Keep an integer field from falling below a bound. -/
def min (c : Config) (field : String) (least : Int64) : Config :=
  { c with minimums := c.minimums.insert field least }

/-- Require a field, unless it is required already. -/
def require (c : Config) (field : String) : Config :=
  if field ∈ c.required then c else { c with required := c.required ++ [field] }

/-- Make one setting. -/
def set (c : Config) : Setting → Config
  | .maxAttempts n => { c with retry := { c.retry with maxAttempts := n } }
  | .backoff wait => { c with retry := { c.retry with backoffMillis := wait.wholeMillis } }
  | .minimum field least => c.min field least
  | .require field => c.require field
  | .catalog =>
    let c := Catalog.minimums.foldl (fun c (field, least) => c.min field least) c
    Catalog.required.foldl require c

/-- Make settings one after the other. -/
def setAll (c : Config) (settings : List Setting) : Config :=
  settings.foldl set c

end Config

end VersionedStore
