/-
  VersionedStore.Config.Source

  Configurations from TOML text and from the content of a file.  A configuration
  that is refused because of a file says which.
-/
import VersionedStore.Codec.Config
import VersionedStore.Failure
import VersionedStore.Toml.Reader

namespace VersionedStore.Config

/-- The configuration in a TOML text. -/
def ofToml (text : String) : Except ConfigError Config :=
  match Toml.read text with
  | none => .error .malformed
  | some d =>
    match ofDocument .ignored d with
    | .error error => .error (.content error)
    | .ok c => c.validate

/-- The configuration in a file, given its path and what it holds. -/
def ofFile (path : String) : Except FileError ByteArray → Except Failure Config
  | .error error => .error (.file error)
  | .ok bytes =>
    match String.fromUTF8? bytes with
    | none => .error (.file .notText)
    | some text =>
      match ofToml text with
      | .ok c => .ok c
      | .error error => .error (.config (.inFile path error))

end VersionedStore.Config
