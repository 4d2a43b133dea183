/-
  VersionedStore.Duration

  Spans of time to the nanosecond, with as many seconds as 64 bits can count.
  Configuration and JSON hold a span as whole milliseconds; `wholeMillis` rounds
  down to them and stops at the largest 64-bit count, `ofMillis` goes back.
-/
import VersionedStore.Decimal.Digits
import VersionedStore.Nanos

namespace VersionedStore

/-- A span of time. -/
structure Duration where
  /-- Its length in nanoseconds. -/
  nanoseconds : Nat
  lt_limit : nanoseconds < UInt64.size * nanosPerSecond
deriving DecidableEq, Repr

namespace Duration

@[ext]
theorem ext {d e : Duration} (h : d.nanoseconds = e.nanoseconds) : d = e := by
  cases d; cases e; simp_all

/-- No time at all. -/
def zero : Duration := ⟨0, by decide⟩

instance : Inhabited Duration := ⟨zero⟩

/-- A number of units that are no longer than a second. -/
def ofCount (n : UInt64) (length : Nat) (h : length ≤ nanosPerSecond) : Duration :=
  ⟨n.toNat * length,
    Nat.lt_of_le_of_lt (Nat.mul_le_mul_left _ h)
      (Nat.mul_lt_mul_of_pos_right n.toNat_lt_size (by decide))⟩

/-- A number of milliseconds. -/
def ofMillis (n : UInt64) : Duration :=
  ofCount n nanosPerMilli (by decide)

/-- A number of microseconds. -/
def ofMicros (n : UInt64) : Duration :=
  ofCount n nanosPerMicro (by decide)

/-- A number of seconds and a fraction of one in nanoseconds. -/
def ofParts (seconds : UInt64) (nanoseconds : Fin nanosPerSecond) : Duration :=
  ⟨seconds.toNat * nanosPerSecond + nanoseconds, by
    have hseconds := Nat.mul_le_mul_right nanosPerSecond (Nat.succ_le_of_lt seconds.toNat_lt_size)
    rw [Nat.succ_mul] at hseconds
    have := nanoseconds.isLt
    omega⟩

/-- The whole milliseconds in a span, as far as 64 bits go. -/
def wholeMillis (d : Duration) : UInt64 :=
  UInt64.ofNat (min (d.nanoseconds / nanosPerMilli) (UInt64.size - 1))

/-- Whether the span is empty. -/
def isZero (d : Duration) : Bool :=
  d.nanoseconds == 0

-- ============================================================================
-- Text
-- ============================================================================

/-- A unit of time: its name, and how many decimals nanoseconds have in it. -/
structure Unit where
  name : String
  places : Nat

/-- The length of a unit in nanoseconds. -/
def Unit.length (u : Unit) : Nat :=
  power 10 u.places

/-- The units in which spans are shown, the longest first. -/
def units : List Unit := [⟨"s", 9⟩, ⟨"ms", 6⟩, ⟨"µs", 3⟩]

/-- The longest unit that fits at least once, else the nanosecond. -/
def unit (d : Duration) : Unit :=
  (units.find? fun u => u.length ≤ d.nanoseconds).getD ⟨"ns", 0⟩

/-- The span in its unit, with as many decimals as it needs. -/
def text (d : Duration) : String :=
  let u := d.unit
  let part := Decimal.stripZeros u.places (d.nanoseconds % u.length)
  let decimals :=
    if part.1 = 0 then [] else '.' :: Decimal.padded (u.places - part.2) part.1
  String.ofList (Decimal.digits (d.nanoseconds / u.length) ++ decimals) ++ u.name

-- ============================================================================
-- Laws
-- ============================================================================

theorem toNat_wholeMillis (d : Duration) :
    d.wholeMillis.toNat = min (d.nanoseconds / nanosPerMilli) (UInt64.size - 1) := by
  have h : min (d.nanoseconds / nanosPerMilli) (UInt64.size - 1) < UInt64.size := by
    have : UInt64.size = 18446744073709551616 := rfl
    omega
  exact UInt64.toNat_ofNat_of_lt' h

theorem wholeMillis_ofMillis (n : UInt64) : (ofMillis n).wholeMillis = n := by
  apply UInt64.toNat_inj.1
  have hlt := n.toNat_lt_size
  have hdiv : n.toNat * nanosPerMilli / nanosPerMilli = n.toNat :=
    Nat.mul_div_cancel _ (by decide)
  rw [toNat_wholeMillis, ofMillis, ofCount, hdiv]
  omega

example : text ⟨1500000000, by decide⟩ = "1.5s" := by decide +kernel
example : text ⟨999999, by decide⟩ = "999.999µs" := by decide +kernel

end Duration

end VersionedStore
