/-
  VersionedStore.Main

  The program: it reads the configuration file that the command line names and
  takes the time of the records from the clock.
-/
import Std.Time.DateTime.Timestamp
import VersionedStore.CommandLine

open VersionedStore

/-- The failure of a read as the system words it. -/
def fileErrorOf : IO.Error → FileError
  | .noFileOrDirectory .. => .absent
  | .permissionDenied _ code details | .resourceExhausted _ code details
  | .inappropriateType _ code details | .invalidArgument _ code details
  | .noSuchThing _ code details | .otherError code details =>
    .other (details ++ " (os error " ++ toString code ++ ")")
  | e => .other (toString e)

/-- What a file holds. -/
def contentOf (path : String) : IO (Except FileError ByteArray) := do
  try
    return .ok (← IO.FS.readBinFile path)
  catch e =>
    return .error (fileErrorOf e)

/-- The time in nanoseconds since the start of 1970. -/
def currentTime : IO Nat := do
  let now ← Std.Time.Timestamp.now
  return now.toNanosecondsSinceUnixEpoch.val.toNat

/-- Run the command line, and end with its code. -/
def main (args : List String) : IO UInt32 := do
  let outcome ←
    match CommandLine.parse args with
    | .error stop => pure stop.outcome
    | .ok invocation =>
      let content ←
        match invocation.config with
        | some path => contentOf path
        | none => pure (.ok .empty)
      let world := World.startingAt (← currentTime)
      pure (invocation.run content World.surroundings world).1
  IO.print outcome.out
  IO.eprint outcome.err
  return outcome.code
