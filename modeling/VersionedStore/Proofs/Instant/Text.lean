/-
  VersionedStore.Proofs.Instant.Text

  The text of an instant reads back as the instant.

  Every part of the text is a numeral that ends where the next mark stands, so the
  lenient reader finds the part that was written.  The parts are those of an
  `Ordinary` instant: its day is in the calendar, and only the last second of a
  minute is a leap second.  No text names any other instant, as a time zone is
  ahead of UTC by whole minutes (`ordinary_of_ofText`).
-/
import VersionedStore.Instant.Written
import VersionedStore.Proofs.Document.Decode
import VersionedStore.Proofs.Instant.Calendar
import VersionedStore.Proofs.Token.Grammar

namespace VersionedStore.Instant

open Decimal (IsNumeral padded isDigit)

variable {cs rest : List Char}

/-- Whether the calendar has the day of an instant, and it is a leap second only at the end of
    a minute. -/
structure Ordinary (t : Instant) : Prop where
  first_le : Date.firstYear ≤ t.date.year
  le_last : t.date.year ≤ Date.lastYear
  leap : t.nanoseconds < nanosPerSecond ∨ t.secondOfDay % 60 = 59

/-- A clock that counts nanoseconds from 1970 in 64 bits shows nothing but ordinary instants. -/
theorem ordinary_ofNanoseconds {n : Nat} (h : n < 2 ^ 64) : (ofNanoseconds n).Ordinary := by
  have hsecond : nanosPerSecond = 1000000000 := rfl
  have hday : secondsPerDay = 86400 := rfl
  obtain ⟨hfirst, hlast⟩ := Date.year_mem_of_dayNumber
    (n := (ofNanoseconds n).seconds / secondsPerDay)
    (by simp only [ofNanoseconds, hsecond, hday]; omega)
    (by simp only [ofNanoseconds, hsecond, hday]; omega)
  exact ⟨hfirst, hlast, .inl (Nat.mod_lt n (by decide))⟩

-- ============================================================================
-- Parts of the text
-- ============================================================================

/-- A part that is read, and then what is made of it. -/
theorem ok_then {α β : Type} {x : Except Fault α} {a : α} {f : α → Except Fault β} {b : β}
    (hx : x = .ok a) (hf : f a = .ok b) : (x >>= f) = .ok b :=
  except_bind_eq_ok_iff.2 ⟨a, hx, hf⟩

/-- A numeral is read up to its end, or up to the most digits that are allowed. -/
theorem number_append (most : Option Nat) {ds : List Char} (rest : List Char)
    (hds : IsNumeral ds) (hmost : ∀ m ∈ most, ds.length ≤ m)
    (hend : most = some ds.length ∨ ∀ c ∈ rest.head?, isDigit c = false)
    (hvalue : Decimal.value ds < 2 ^ 63) :
    number most (ds ++ rest) = .ok (Decimal.value ds, rest) := by
  obtain ⟨hne, hdigits⟩ := hds
  have hle : ds.length ≤ most.getD (ds ++ rest).length := by
    cases most with
    | none => simp
    | some m => exact hmost m rfl
  have htake : ((ds ++ rest).take (most.getD (ds ++ rest).length)).takeWhile isDigit = ds := by
    rw [List.take_append, List.take_of_length_le hle, List.takeWhile_append_of_pos hdigits]
    rcases hend with rfl | hend
    · rw [Option.getD_some, Nat.sub_self, List.take_zero, List.takeWhile_nil, List.append_nil]
    · cases rest with
      | nil => simp
      | cons c rest =>
        cases most.getD (ds ++ c :: rest).length - ds.length with
        | zero => simp
        | succ k => simp [hend c rfl]
  have hword : (int64? (Decimal.value ds)).isNone = false := by
    rw [Option.isNone_eq_false_iff, Option.isSome_iff_ne_none, ne_eq, int64?_eq_none_iff]
    have hmin : Int64.minValue.toInt = -2 ^ 63 := rfl
    have hmax : Int64.maxValue.toInt = 2 ^ 63 - 1 := rfl
    omega
  have hfull : (ds ++ rest).isEmpty = false := by simp [hne]
  have hds : ds.isEmpty = false := by simp [hne]
  rw [number]
  simp only [htake, hfull, hds, hword, Bool.false_eq_true, if_false, List.drop_left]

theorem number_padded (most : Option Nat) {width n : Nat} (rest : List Char)
    (hmost : ∀ m ∈ most, (padded width n).length ≤ m)
    (hend : most = some (padded width n).length ∨ ∀ c ∈ rest.head?, isDigit c = false)
    (h : n < 2 ^ 63) : number most (padded width n ++ rest) = .ok (n, rest) := by
  have hnumber := number_append most rest (Decimal.isNumeral_padded width n) hmost hend
    (by rwa [Decimal.value_padded])
  rwa [Decimal.value_padded] at hnumber

/-- A numeral of the most digits that are allowed is read whatever follows it. -/
theorem number_full {width n : Nat} (rest : List Char) (hwidth : 0 < width) (hlt : n < 10 ^ width)
    (h : n < 2 ^ 63) : number (some width) (padded width n ++ rest) = .ok (n, rest) := by
  have hlength : (padded width n).length = width := Decimal.length_padded hwidth hlt
  refine number_padded (some width) rest ?_ (.inl (by rw [hlength])) h
  rintro m ⟨⟩
  exact Nat.le_of_eq hlength

/-- What does not start with a blank has none to be passed over. -/
theorem trimStart_cons {c : Char} (h : Text.isBlank c = false) :
    Text.trimStart (c :: cs) = c :: cs := by
  simp [Text.trimStart, h]

theorem trimStart_numeral {ds : List Char} (hds : IsNumeral ds) :
    Text.trimStart (ds ++ rest) = ds ++ rest := by
  obtain ⟨c, cs, rfl⟩ := List.exists_cons_of_ne_nil hds.1
  exact trimStart_cons (Text.isBlank_of_isDigit (hds.2 c (List.mem_cons_self ..)))

theorem mark_cons {c : Char} (h : Text.isBlank c = false) : mark c (c :: rest) = .ok rest := by
  rw [mark, trimStart_cons h]
  exact if_pos rfl

/-- Two digits are read as their number. -/
theorem bounded_padded {least greatest n : Nat} (hleast : least ≤ n) (hgreatest : n ≤ greatest)
    (h : n < 100) : bounded least greatest (padded 2 n ++ rest) = .ok (n, rest) := by
  rw [bounded, trimStart_numeral (Decimal.isNumeral_padded 2 n),
    number_full rest (by decide) h (by omega)]
  exact if_pos ⟨hleast, hgreatest⟩

theorem inRange_ok {y : Int} (h : -0x80000000 ≤ y ∧ y < 0x80000000) (rest : List Char) :
    (if -0x80000000 ≤ y ∧ y < 0x80000000 then .ok (y, rest) else .error .outOfRange :
      Except Fault (Int × List Char)) = .ok (y, rest) :=
  if_pos h

theorem year_unsigned {n : Nat} (h : n ≤ 9999) :
    year (padded 4 n ++ rest) = .ok ((n : Int), rest) := by
  have hnumeral := Decimal.isNumeral_padded 4 n
  have hnumber := number_full rest (show 0 < 4 by decide) (show n < 10 ^ 4 by omega) (by omega)
  obtain ⟨c, ds, hcons⟩ := List.exists_cons_of_ne_nil hnumeral.1
  have hdigit := hnumeral.2 c (hcons ▸ List.mem_cons_self ..)
  rw [year, trimStart_numeral hnumeral]
  rw [hcons] at hnumber ⊢
  split
  next heq =>
    rw [(List.cons.inj heq).1] at hdigit
    contradiction
  next heq =>
    rw [(List.cons.inj heq).1] at hdigit
    contradiction
  next => exact ok_then hnumber (ok_then rfl (inRange_ok ⟨by omega, by omega⟩ _))

theorem year_signed {y : Int} (h : -0x80000000 ≤ y ∧ y < 0x80000000) :
    year ((if y < 0 then '-' else '+') :: (padded 4 y.natAbs ++ '-' :: rest)) =
      .ok (y, '-' :: rest) := by
  have hnumber : number none (padded 4 y.natAbs ++ '-' :: rest) = .ok (y.natAbs, '-' :: rest) :=
    number_padded none _ (fun m hm => by contradiction)
      (.inr fun c hc => by rw [← Option.some.inj hc]; rfl) (by omega)
  by_cases hneg : y < 0
  · have hvalue : -(y.natAbs : Int) = y := by omega
    rw [if_pos hneg, year, trimStart_cons (by decide)]
    refine ok_then (a := (y, '-' :: rest)) (ok_then hnumber ?_) (inRange_ok h _)
    exact congrArg (fun z => Except.ok (z, '-' :: rest)) hvalue
  · have hvalue : (y.natAbs : Int) = y := by omega
    rw [if_neg hneg, year, trimStart_cons (by decide)]
    refine ok_then (a := (y, '-' :: rest)) (ok_then hnumber ?_) (inRange_ok h _)
    exact congrArg (fun z => Except.ok (z, '-' :: rest)) hvalue

/-- The year is read with its sign, if it has one. -/
theorem year_yearText {y : Int} (h : -0x80000000 ≤ y ∧ y < 0x80000000) :
    year (yearText y ++ '-' :: rest) = .ok (y, '-' :: rest) := by
  rw [yearText]
  split
  next hshort =>
    have hvalue : (y.toNat : Int) = y := Int.toNat_of_nonneg hshort.1
    rw [year_unsigned (by omega), hvalue]
  next => exact year_signed h

theorem decimals_padded {k n : Nat} (hk : 0 < k ∧ k ≤ 9) (h : n < 10 ^ k) :
    decimals ('.' :: padded k n ++ 'Z' :: rest) = .ok (n * 10 ^ (9 - k), 'Z' :: rest) := by
  have hlength : (padded k n).length = k := Decimal.length_padded hk.1 h
  have hsmall : n < 10 ^ 9 := Nat.lt_of_lt_of_le h (Nat.pow_le_pow_right (by decide) hk.2)
  have hnumber : number (some 9) (padded k n ++ 'Z' :: rest) = .ok (n, 'Z' :: rest) :=
    number_padded (some 9) _ (by rintro m ⟨⟩; exact hlength.symm ▸ hk.2)
      (.inr fun c hc => by rw [← Option.some.inj hc]; rfl) (by omega)
  rw [List.cons_append, decimals]
  simp only [hnumber, bind, Except.bind]
  have hwidth : (padded k n ++ 'Z' :: rest).length - ('Z' :: rest).length = k := by
    rw [List.length_append, hlength]
    omega
  rw [hwidth]
  rfl

/-- The decimals of a second are read as nanoseconds. -/
theorem decimals_fractionText {n : Nat} (h : n < nanosPerSecond) :
    decimals (fractionText n ++ 'Z' :: rest) = .ok (n, 'Z' :: rest) := by
  have hmilli : nanosPerMilli = 10 ^ 6 := rfl
  have hmicro : nanosPerMicro = 10 ^ 3 := rfl
  have hsecond : nanosPerSecond = 10 ^ 9 := rfl
  rw [hsecond] at h
  rw [fractionText, hmilli, hmicro]
  split
  next hzero =>
    subst hzero
    rfl
  next =>
    split
    next hexact =>
      rw [decimals_padded (by decide) (by omega)]
      congr 2
      omega
    next =>
      split
      next hexact =>
        rw [decimals_padded (by decide) (by omega)]
        congr 2
        omega
      next =>
        rw [decimals_padded (by decide) (by omega)]
        simp

theorem separator_cons (rest : List Char) : separator ('T' :: rest) = .ok rest := rfl

theorem zone_cons (rest : List Char) : zone (Text.trimStart ('Z' :: rest)) = .ok (0, rest) := by
  rw [trimStart_cons (by decide)]
  rfl

-- ============================================================================
-- The whole text
-- ============================================================================

theorem secondOfDay_lt (t : Instant) : t.secondOfDay < 86400 := by
  have hlt := Int.emod_lt_of_pos t.seconds (show (0 : Int) < secondsPerDay by decide)
  have hday : (secondsPerDay : Int) = 86400 := rfl
  rw [secondOfDay]
  omega

/-- The second as it is written has the leap second in it. -/
theorem second_le {t : Instant} (h : t.Ordinary) :
    t.secondOfDay % 60 + t.nanoseconds / nanosPerSecond ≤ 60 ∧
      (t.secondOfDay % 60 + t.nanoseconds / nanosPerSecond) / 60 =
        t.nanoseconds / nanosPerSecond := by
  have hlt := t.lt_two_seconds
  have hnanos : nanosPerSecond = 1000000000 := rfl
  rw [hnanos] at hlt ⊢
  rcases h.leap with hordinary | hleap
  · rw [hnanos] at hordinary
    omega
  · omega

/-- The seconds of an instant add up from its day and its time of day. -/
theorem seconds_eq (t : Instant) :
    t.date.dayNumber * secondsPerDay + t.secondOfDay = t.seconds := by
  have hnonneg := Int.emod_nonneg t.seconds (show (secondsPerDay : Int) ≠ 0 by decide)
  have hsum := Int.mul_ediv_add_emod t.seconds secondsPerDay
  rw [date, Date.dayNumber_ofDayNumber, secondOfDay, Int.toNat_of_nonneg hnonneg, Int.mul_comm]
  exact hsum

/-- The text of an ordinary instant reads back as the instant. -/
theorem ofText_text {t : Instant} (h : t.Ordinary) : ofText t.text = .ok t := by
  have hseconds := t.seconds_eq
  have hlt := t.secondOfDay_lt
  obtain ⟨hsecond, hleap⟩ := second_le h
  have hvalid := Date.isValid_ofDayNumber h.first_le h.le_last
  have hdate : t.date.isValid = true := hvalid
  simp only [Date.isValid, Bool.and_eq_true, decide_eq_true_eq] at hvalid
  obtain ⟨⟨⟨⟨⟨hfirst, hlast⟩, hmonth⟩, hmonth'⟩, hday⟩, hday'⟩ := hvalid
  have hlongest := Nat.le_trans hday' (Date.daysInMonth_le _ _)
  have hfirstYear : Date.firstYear = -262143 := rfl
  have hlastYear : Date.lastYear = 262142 := rfl
  rw [← date] at hfirst hlast hmonth hmonth' hday hlongest
  rw [ofText, text, String.toList_ofList]
  simp only [List.append_assoc, List.cons_append]
  refine ok_then (year_yearText ⟨by omega, by omega⟩) ?_
  refine ok_then (mark_cons (by decide)) ?_
  refine ok_then (bounded_padded hmonth hmonth' (by omega)) ?_
  refine ok_then (mark_cons (by decide)) ?_
  refine ok_then (bounded_padded hday hlongest (by omega)) ?_
  refine ok_then (separator_cons _) ?_
  refine ok_then (bounded_padded (Nat.zero_le _) (by omega) (by omega)) ?_
  refine ok_then (mark_cons (by decide)) ?_
  refine ok_then (bounded_padded (Nat.zero_le _) (by omega) (by omega)) ?_
  refine ok_then (mark_cons (by decide)) ?_
  refine ok_then (bounded_padded (Nat.zero_le _) hsecond (by omega)) ?_
  refine ok_then (decimals_fractionText (Nat.mod_lt _ (by decide))) ?_
  refine ok_then (zone_cons _) ?_
  have hsum : t.secondOfDay / 3600 * 3600 + t.secondOfDay / 60 % 60 * 60 +
      (t.secondOfDay % 60 + t.nanoseconds / nanosPerSecond) -
      (t.secondOfDay % 60 + t.nanoseconds / nanosPerSecond) / 60 = t.secondOfDay := by
    rw [hleap]
    omega
  have htotal : t.nanoseconds % nanosPerSecond +
      (t.secondOfDay % 60 + t.nanoseconds / nanosPerSecond) / 60 * nanosPerSecond =
        t.nanoseconds := by
    rw [hleap]
    exact Nat.mod_add_div' _ _
  have hparts : Date.mk t.date.year t.date.month t.date.day = t.date := rfl
  have hyear : ¬ ((Date.ofDayNumber (t.seconds / secondsPerDay)).year < Date.firstYear ∨
      Date.lastYear < (Date.ofDayNumber (t.seconds / secondsPerDay)).year) := by
    rw [not_or, Int.not_lt, Int.not_lt]
    exact ⟨hfirst, hlast⟩
  dsimp only
  rw [hsum, htotal, hparts, hdate, hseconds, Int.sub_zero, if_neg hyear, dif_pos t.lt_two_seconds]
  rfl

-- ============================================================================
-- The instants that a text names
-- ============================================================================

/-- A number is what stands in front of the rest. -/
theorem exists_of_number {most : Option Nat} {n : Nat} (h : number most cs = .ok (n, rest)) :
    ∃ ds, cs = ds ++ rest ∧ (∀ c ∈ ds, isDigit c = true) ∧ Decimal.value ds = n ∧
      ∀ m ∈ most, ds.length ≤ m := by
  rw [number] at h
  split at h
  next => contradiction
  split at h
  next => contradiction
  split at h
  next => contradiction
  obtain ⟨hn, hrest⟩ := Prod.mk.inj (Except.ok.inj h)
  have hprefix := (List.takeWhile_prefix isDigit).trans
    (List.take_prefix (most.getD cs.length) cs)
  refine ⟨_, ?_, ?_, hn, ?_⟩
  · rw [← hrest]
    exact (List.prefix_iff_eq_append.1 hprefix).symm
  · exact List.all_eq_true.1 List.all_takeWhile
  · rintro m rfl
    exact Nat.le_trans (List.takeWhile_prefix isDigit).length_le (List.length_take_le ..)

theorem le_of_bounded {least greatest n : Nat} (h : bounded least greatest cs = .ok (n, rest)) :
    n ≤ greatest := by
  obtain ⟨⟨m, tail⟩, -, h⟩ := except_bind_eq_ok_iff.1 h
  dsimp only at h
  split at h
  next hrange =>
    obtain ⟨rfl, -⟩ := Prod.mk.inj (Except.ok.inj h)
    exact hrange.2
  next => contradiction

/-- Decimals are short of a second. -/
theorem lt_of_decimals {n : Nat} (h : decimals cs = .ok (n, rest)) : n < nanosPerSecond := by
  unfold decimals at h
  split at h
  next cs =>
    obtain ⟨⟨m, tail⟩, hnumber, h⟩ := except_bind_eq_ok_iff.1 h
    obtain ⟨ds, rfl, hdigits, rfl, hmost⟩ := exists_of_number hnumber
    obtain ⟨rfl, -⟩ := Prod.mk.inj (Except.ok.inj h)
    have hwidth : (ds ++ tail).length - tail.length = ds.length := by
      rw [List.length_append, Nat.add_sub_cancel]
    have hle : ds.length ≤ 9 := hmost 9 rfl
    calc Decimal.value ds * power 10 (9 - ((ds ++ tail).length - tail.length))
        < 10 ^ ds.length * power 10 (9 - ds.length) := by
          rw [hwidth]
          exact Nat.mul_lt_mul_of_pos_right (Decimal.value_lt hdigits) (power_pos (by decide) _)
      _ = power 10 (ds.length + (9 - ds.length)) := (power_add 10 _ _).symm
      _ = nanosPerSecond := by rw [Nat.add_sub_cancel' hle]; rfl
  next =>
    obtain ⟨rfl, -⟩ := Prod.mk.inj (Except.ok.inj h)
    decide

theorem dvd_of_zoneTime {n : Nat} (h : zoneTime cs = .ok (n, rest)) : 60 ∣ n := by
  obtain ⟨⟨⟨h₁, h₂⟩, tail⟩, -, h⟩ := except_bind_eq_ok_iff.1 h
  obtain ⟨⟨⟨m₁, m₂⟩, tail'⟩, -, h⟩ := except_bind_eq_ok_iff.1 h
  dsimp only at h
  split at h
  next =>
    obtain ⟨rfl, -⟩ := Prod.mk.inj (Except.ok.inj h)
    omega
  next => contradiction

/-- A time zone is whole minutes ahead of UTC. -/
theorem dvd_of_zone {offset : Int} (h : zone cs = .ok (offset, rest)) : (60 : Int) ∣ offset := by
  have htime : ∀ {cs : List Char} {f : Nat × List Char → Except Fault (Int × List Char)},
      (∀ n cs, 60 ∣ n → f (n, cs) = .ok (offset, rest) → (60 : Int) ∣ offset) →
      (zoneTime cs >>= f) = .ok (offset, rest) → (60 : Int) ∣ offset := by
    intro cs f hf h
    obtain ⟨⟨n, tail⟩, hn, h⟩ := except_bind_eq_ok_iff.1 h
    exact hf n tail (dvd_of_zoneTime hn) h
  have hahead : ∀ {x : Int} {cs : List Char}, (60 : Int) ∣ x →
      Except.ok (x, cs) = (.ok (offset, rest) : Except Fault _) → (60 : Int) ∣ offset :=
    fun hx h => (Prod.mk.inj (Except.ok.inj h)).1 ▸ hx
  unfold zone at h
  split at h
  next => contradiction
  next => exact hahead (Int.dvd_zero 60) h
  next => exact hahead (Int.dvd_zero 60) h
  next => exact htime (fun n _ hn => hahead (Int.natCast_dvd_natCast.2 hn)) h
  next => exact htime (fun n _ hn => hahead (Int.dvd_neg.2 (Int.natCast_dvd_natCast.2 hn))) h
  next => exact htime (fun n _ hn => hahead (Int.dvd_neg.2 (Int.natCast_dvd_natCast.2 hn))) h
  next =>
    split at h
    next => exact hahead (Int.dvd_zero 60) h
    next => contradiction

/-- A text names no instant but an ordinary one. -/
theorem ordinary_of_ofText {s : String} {t : Instant} (h : ofText s = .ok t) : t.Ordinary := by
  obtain ⟨⟨year, cs⟩, -, h⟩ := except_bind_eq_ok_iff.1 h
  obtain ⟨cs, -, h⟩ := except_bind_eq_ok_iff.1 h
  obtain ⟨⟨month, cs⟩, -, h⟩ := except_bind_eq_ok_iff.1 h
  obtain ⟨cs, -, h⟩ := except_bind_eq_ok_iff.1 h
  obtain ⟨⟨day, cs⟩, -, h⟩ := except_bind_eq_ok_iff.1 h
  obtain ⟨cs, -, h⟩ := except_bind_eq_ok_iff.1 h
  obtain ⟨⟨hour, cs⟩, -, h⟩ := except_bind_eq_ok_iff.1 h
  obtain ⟨cs, -, h⟩ := except_bind_eq_ok_iff.1 h
  obtain ⟨⟨minute, cs⟩, -, h⟩ := except_bind_eq_ok_iff.1 h
  obtain ⟨cs, -, h⟩ := except_bind_eq_ok_iff.1 h
  obtain ⟨⟨second, cs⟩, hsecond, h⟩ := except_bind_eq_ok_iff.1 h
  obtain ⟨⟨nanoseconds, cs⟩, hnanos, h⟩ := except_bind_eq_ok_iff.1 h
  obtain ⟨⟨offset, cs⟩, hzone, h⟩ := except_bind_eq_ok_iff.1 h
  have hle := le_of_bounded hsecond
  have hlt := lt_of_decimals hnanos
  have hdvd := dvd_of_zone hzone
  dsimp only at h
  split at h
  next => contradiction
  split at h
  next => contradiction
  split at h
  next => contradiction
  next hyear =>
    split at h
    next =>
      rw [not_or, Int.not_lt, Int.not_lt] at hyear
      obtain rfl := Except.ok.inj h
      refine ⟨hyear.1, hyear.2, ?_⟩
      rcases Nat.lt_or_ge second 60 with hordinary | hleap
      · left
        dsimp only
        rw [Nat.div_eq_of_lt hordinary]
        omega
      · right
        obtain rfl : second = 60 := by omega
        have hday : secondsPerDay = 86400 := rfl
        rw [secondOfDay, hday]
        dsimp only
        omega
    next => contradiction

/-- The text of an instant names it just if the instant is ordinary. -/
theorem ofText_text_iff {t : Instant} : ofText t.text = .ok t ↔ t.Ordinary :=
  ⟨ordinary_of_ofText, ofText_text⟩

/-- Ordinary instants read back from what is written for them. -/
def Codec.Lawful [Codec] : Prop :=
  ∀ t : Instant, t.Ordinary → Codec.read (Codec.write t) = .ok t

theorem Codec.lawful_rfc3339 : Codec.Lawful :=
  fun _ => ofText_text_iff.2

end VersionedStore.Instant
