/-
  VersionedStore.Nanos

  The units of time, in nanoseconds.
-/

namespace VersionedStore

/-- The nanoseconds in a microsecond. -/
def nanosPerMicro : Nat := 1000

/-- The nanoseconds in a millisecond. -/
def nanosPerMilli : Nat := 1000000

/-- The nanoseconds in a second. -/
def nanosPerSecond : Nat := 1000000000

end VersionedStore
