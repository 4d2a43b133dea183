/-
  VersionedStore.Codec.Config

  Configurations as JSON and TOML.  Every part may be left out, and names that
  are not known are refused.
-/
import VersionedStore.Codec.Rules
import VersionedStore.Config.Basic

namespace VersionedStore

namespace RetryConfig

/-- The retry part as a JSON object. -/
def toJson (c : RetryConfig) : Json :=
  .object [("max_attempts", .ofNat c.maxAttempts.toNat),
    ("backoff_ms", .ofNat c.backoffMillis.toNat)]

/-- How the retry part is read. -/
def shape : Shape RetryConfig where
  name := "RetryConfig"
  strict := true
  fields := [
    .of "max_attempts" Document.uint32 (fun maxAttempts c => { c with maxAttempts }) true,
    .of "backoff_ms" Document.uint64 (fun backoffMillis c => { c with backoffMillis }) true]

/-- The retry part that a document stands for. -/
def ofDocument (surplus : Surplus) : Document → Decoded RetryConfig :=
  shape.read surplus .default

end RetryConfig

namespace Config

/-- The configuration as a JSON object. -/
def toJson (c : Config) : Json :=
  .object [("retry", c.retry.toJson), ("constraints", minimumsToJson c.minimums),
    ("required", namesToJson c.required)]

/-- How a configuration is read. -/
def shape (surplus : Surplus) : Shape Config where
  name := "Config"
  strict := true
  fields := [
    .of "retry" (RetryConfig.ofDocument surplus) (fun retry c => { c with retry }) true,
    .of "constraints" minimumsOfDocument (fun minimums c => { c with minimums }) true,
    .of "required" (Document.listOf Document.text) (fun required c => { c with required }) true]

/-- The configuration that a document stands for. -/
def ofDocument (surplus : Surplus) : Document → Decoded Config :=
  (shape surplus).read surplus default

end Config

end VersionedStore
