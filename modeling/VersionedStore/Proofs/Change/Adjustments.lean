/-
  VersionedStore.Proofs.Change.Adjustments

  Adjustments that are made one after the other.

  What an adjustment meets is decided by the fields at the start and by the exact sum
  of what was added to its field before: `Blocked` says in these terms why it cannot be
  made.  The invariant of a run is `Adds`: every field that was adjusted holds its start
  plus the exact sum, and all else is as it was.  It does not mention the order of the
  adjustments (`Adds.perm`), so two orders that both succeed come to the same fields; the
  sums on the way do depend on it, but for adjustments of fields that are all distinct
  (`unblocked_iff_of_nodup`).
-/
import Mathlib.Algebra.BigOperators.Group.List.Basic
import Mathlib.Algebra.Ring.Int.Defs
import VersionedStore.Proofs.Change.Sequence

namespace VersionedStore
namespace Adjustment

-- ============================================================================
-- Sums
-- ============================================================================

/-- The exact sum of what adjustments add to a field. -/
def total (adjustments : List Adjustment) (field : String) : Int :=
  ((adjustments.filter (·.field = field)).map (·.delta.toInt)).sum

theorem total_nil (field : String) : total [] field = 0 := rfl

theorem total_concat_self (adjustments : List Adjustment) (a : Adjustment) :
    total (adjustments ++ [a]) a.field = total adjustments a.field + a.delta.toInt := by
  simp [total, List.filter_append]

theorem total_concat_of_ne (adjustments : List Adjustment) {a : Adjustment} {field : String}
    (h : a.field ≠ field) : total (adjustments ++ [a]) field = total adjustments field := by
  simp [total, List.filter_append, h]

theorem total_eq_zero {adjustments : List Adjustment} {field : String}
    (h : ∀ a ∈ adjustments, a.field ≠ field) : total adjustments field = 0 := by
  have hnone : adjustments.filter (·.field = field) = [] := by simpa using h
  rw [total, hnone]
  rfl

theorem total_perm {first second : List Adjustment} (h : first.Perm second) (field : String) :
    total first field = total second field :=
  ((h.filter _).map _).sum_eq

-- ============================================================================
-- What comes of a run
-- ============================================================================

/-- Every field that was adjusted holds its start plus the exact sum, and all else is as it was. -/
structure Adds (start : Fields) (adjustments : List Adjustment) (out : Fields) : Prop where
  adjusted : ∀ a ∈ adjustments, ∃ n m, start.get? a.field = some (.int n) ∧
    out.get? a.field = some (.int m) ∧ m.toInt = n.toInt + total adjustments a.field
  others : ∀ name, (∀ a ∈ adjustments, a.field ≠ name) → out.get? name = start.get? name
  names : ∀ name, out.contains name = start.contains name

variable {start mid out : Fields} {adjustments before : List Adjustment} {a : Adjustment}
  {v : Violation}

theorem Adds.nil (start : Fields) : Adds start [] start where
  adjusted _ h := absurd h List.not_mem_nil
  others _ _ := rfl
  names _ := rfl

/-- An integer has moved by the exact sum, which is zero if it was not adjusted. -/
theorem Adds.int (h : Adds start adjustments out) {name : String} {n : Int64}
    (hn : start.get? name = some (.int n)) :
    ∃ m, out.get? name = some (.int m) ∧ m.toInt = n.toInt + total adjustments name := by
  by_cases hadjusted : ∃ a ∈ adjustments, a.field = name
  · obtain ⟨a, ha, rfl⟩ := hadjusted
    obtain ⟨n', m, hn', hm, hsum⟩ := h.adjusted a ha
    rw [hn] at hn'
    cases hn'
    exact ⟨m, hm, hsum⟩
  · have hothers : ∀ a ∈ adjustments, a.field ≠ name := by simpa using hadjusted
    refine ⟨n, (h.others name hothers).trans hn, ?_⟩
    rw [total_eq_zero hothers, Int.add_zero]

/-- What is no integer was not adjusted. -/
theorem Adds.eq_of_not_int (h : Adds start adjustments out) {name : String}
    (hint : ∀ n, start.get? name ≠ some (.int n)) : out.get? name = start.get? name := by
  refine h.others name fun a ha => ?_
  rintro rfl
  obtain ⟨n, -, hn, -⟩ := h.adjusted a ha
  exact hint n hn

/-- What adjustments come to is the same in any order. -/
theorem Adds.perm (h : Adds start adjustments out) {reordered : List Adjustment}
    (hperm : adjustments.Perm reordered) : Adds start reordered out where
  adjusted a ha := by
    rw [← total_perm hperm]
    exact h.adjusted a (hperm.mem_iff.2 ha)
  others name hothers := h.others name fun a ha => hothers a (hperm.mem_iff.1 ha)
  names := h.names

theorem Adds.eq {out' : Fields} (h : Adds start adjustments out)
    (h' : Adds start adjustments out') : out = out' := by
  ext1 name
  by_cases hint : ∃ n, start.get? name = some (.int n)
  · obtain ⟨n, hn⟩ := hint
    obtain ⟨m, hm, hsum⟩ := h.int hn
    obtain ⟨m', hm', hsum'⟩ := h'.int hn
    rw [hm, hm', Int64.toInt_inj.1 (hsum.trans hsum'.symm)]
  · have hnone : ∀ n, start.get? name ≠ some (.int n) := not_exists.1 hint
    rw [h.eq_of_not_int hnone, h'.eq_of_not_int hnone]

-- ============================================================================
-- One adjustment
-- ============================================================================

/-- Why an adjustment cannot be made after others: its field is absent at the start, or holds no
    integer, or the exact sum leaves the range of integers. -/
inductive Blocked (start : Fields) (before : List Adjustment) (a : Adjustment) :
    Violation → Prop where
  | missing (hget : start.get? a.field = none) :
      Blocked start before a (.missingField a.field)
  | mistyped {v : Value} (hget : start.get? a.field = some v) (hint : ∀ n, v ≠ .int n) :
      Blocked start before a (.wrongType a.field "Int" v.typeName)
  | overflow {n : Int64} (hget : start.get? a.field = some (.int n))
      (hrange : n.toInt + total before a.field + a.delta.toInt < Int64.minValue.toInt ∨
        Int64.maxValue.toInt < n.toInt + total before a.field + a.delta.toInt) :
      Blocked start before a (.overflow a.field a.delta)

/-- An adjustment fails just if it is blocked where it stands. -/
theorem apply_eq_error_iff {current : Fields} :
    a.apply current = .error v ↔ Blocked current [] a v := by
  constructor
  · intro h
    unfold apply at h
    split at h
    next hget =>
      obtain rfl := Except.error.inj h
      exact .missing hget
    next n hget =>
      split at h
      next => contradiction
      next hsum =>
        obtain rfl := Except.error.inj h
        refine .overflow hget ?_
        rw [total_nil, Int.add_zero]
        exact sum?_eq_none_iff.1 hsum
    next w hint hget =>
      obtain rfl := Except.error.inj h
      exact .mistyped hget fun n heq => hint n heq
  · intro h
    unfold apply
    cases h with
    | missing hget => rw [hget]
    | @mistyped w hget hint =>
      rw [hget]
      cases w with
      | int n => exact absurd rfl (hint n)
      | null | bool | float | string => rfl
    | overflow hget hrange =>
      rw [total_nil, Int.add_zero] at hrange
      rw [hget]
      dsimp only
      rw [sum?_eq_none_iff.2 hrange]

/-- What an adjustment makes of fields that hold an integer: the exact sum takes its place. -/
theorem apply_eq_ok {current fields : Fields} {n : Int64}
    (hn : current.get? a.field = some (.int n)) (h : a.apply current = .ok fields) :
    ∃ m : Int64, m.toInt = n.toInt + a.delta.toInt ∧ fields = current.insert a.field (.int m) := by
  unfold apply at h
  rw [hn] at h
  dsimp only at h
  split at h
  next m hsum =>
    obtain rfl := Except.ok.inj h
    exact ⟨m, (sum?_eq_some_iff.1 hsum).symm, rfl⟩
  next => contradiction

theorem blocked_iff_of_int {n : Int64} (hn : start.get? a.field = some (.int n)) :
    Blocked start before a v ↔
      (n.toInt + total before a.field + a.delta.toInt < Int64.minValue.toInt ∨
        Int64.maxValue.toInt < n.toInt + total before a.field + a.delta.toInt) ∧
      v = .overflow a.field a.delta := by
  constructor
  · rintro (hget | ⟨hget, hint⟩ | ⟨hget, hrange⟩) <;> rw [hn] at hget
    · contradiction
    · exact absurd (Option.some.inj hget).symm (hint n)
    · cases hget
      exact ⟨hrange, rfl⟩
  · rintro ⟨hrange, rfl⟩
    exact .overflow hn hrange

/-- Where there is no integer, an adjustment is blocked whatever came before. -/
theorem Blocked.of_not_int (h : Blocked start before a v)
    (hint : ∀ n, start.get? a.field ≠ some (.int n)) (hget : mid.get? a.field = start.get? a.field)
    (before' : List Adjustment) : Blocked mid before' a v := by
  cases h with
  | missing hmissing => exact .missing (hget.trans hmissing)
  | mistyped hfound htype => exact .mistyped (hget.trans hfound) htype
  | overflow hfound => exact absurd hfound (hint _)

/-- What blocks an adjustment in the middle of a run is told by the start of the run. -/
theorem Adds.blocked_iff (h : Adds start before mid) :
    Blocked mid [] a v ↔ Blocked start before a v := by
  by_cases hint : ∃ n, start.get? a.field = some (.int n)
  · obtain ⟨n, hn⟩ := hint
    obtain ⟨m, hm, hsum⟩ := h.int hn
    rw [blocked_iff_of_int hn, blocked_iff_of_int hm, total_nil, Int.add_zero, hsum]
  · have hstart : ∀ n, start.get? a.field ≠ some (.int n) := not_exists.1 hint
    have hget := h.eq_of_not_int hstart
    exact ⟨fun hblocked => hblocked.of_not_int (hget ▸ hstart) hget.symm before,
      fun hblocked => hblocked.of_not_int hstart hget []⟩

/-- One more adjustment that is not blocked. -/
theorem Adds.step (h : Adds start before mid) (hfree : ∀ v, ¬Blocked start before a v) :
    ∃ out, a.apply mid = .ok out ∧ Adds start (before ++ [a]) out := by
  cases happly : a.apply mid with
  | error v => exact absurd (h.blocked_iff.1 (apply_eq_error_iff.1 happly)) (hfree v)
  | ok out =>
    have hint : ∃ n, start.get? a.field = some (.int n) := by
      by_contra hnone
      cases hget : start.get? a.field with
      | none => exact hfree _ (.missing hget)
      | some w => exact hfree _ (.mistyped hget fun n heq => hnone ⟨n, heq ▸ hget⟩)
    obtain ⟨n, hn⟩ := hint
    obtain ⟨m, hm, hsum⟩ := h.int hn
    obtain ⟨k, hk, rfl⟩ := apply_eq_ok hm happly
    refine ⟨_, rfl, ?_, fun name hothers => ?_, fun name => ?_⟩
    · intro b hb
      by_cases hfield : b.field = a.field
      · refine ⟨n, k, hfield ▸ hn, ?_, ?_⟩
        · rw [Fields.get?_insert, if_pos hfield.symm]
        · rw [hfield, total_concat_self, hk, hsum, Int.add_assoc]
      · have hbefore : b ∈ before := by
          rcases List.mem_append.1 hb with hb | hb
          · exact hb
          · exact absurd (congrArg field (List.mem_singleton.1 hb)) hfield
        rw [total_concat_of_ne before (Ne.symm hfield), Fields.get?_insert,
          if_neg (Ne.symm hfield)]
        exact h.adjusted b hbefore
    · have hne : a.field ≠ name := hothers a (List.mem_append_right _ List.mem_cons_self)
      rw [Fields.get?_insert, if_neg hne]
      exact h.others name fun b hb => hothers b (List.mem_append_left _ hb)
    · rw [← h.names, Fields.contains_eq_isSome, Fields.contains_eq_isSome, Fields.get?_insert]
      split
      next heq => rw [← heq, hm]; rfl
      next => rfl

-- ============================================================================
-- Runs
-- ============================================================================

/-- No adjustment is blocked after those before it. -/
def Unblocked (start : Fields) (adjustments : List Adjustment) : Prop :=
  ∀ before a after, adjustments = before ++ a :: after → ∀ v, ¬Blocked start before a v

/-- Why the first adjustment that is blocked is so. -/
def FirstBlocked (start : Fields) (adjustments : List Adjustment) (v : Violation) : Prop :=
  ∃ before a after, adjustments = before ++ a :: after ∧ Unblocked start before ∧
    Blocked start before a v

theorem unblocked_concat : Unblocked start (adjustments ++ [a]) ↔
    Unblocked start adjustments ∧ ∀ v, ¬Blocked start adjustments a v := by
  constructor
  · intro h
    refine ⟨fun before b after hsplit => h before b (after ++ [a]) ?_, h adjustments a [] rfl⟩
    rw [hsplit, List.append_assoc, List.cons_append]
  · rintro ⟨hbefore, hlast⟩ before b after hsplit
    rcases List.eq_nil_or_concat after with rfl | ⟨init, last, rfl⟩
    · obtain ⟨rfl, hb⟩ := List.append_inj' hsplit rfl
      obtain rfl := List.singleton_inj.1 hb
      exact hlast
    · rw [List.concat_eq_append, ← List.cons_append, ← List.append_assoc] at hsplit
      exact hbefore before b init (List.append_inj' hsplit rfl).1

theorem applyAll_of_unblocked (h : Unblocked start adjustments) :
    ∃ out, Change.applyAll (adjustments.map .adjust) start = .ok out ∧
      Adds start adjustments out := by
  induction adjustments using List.reverseRecOn with
  | nil => exact ⟨start, rfl, .nil start⟩
  | append_singleton adjustments a ih =>
    obtain ⟨hbefore, hlast⟩ := unblocked_concat.1 h
    obtain ⟨mid, hmid, hadds⟩ := ih hbefore
    obtain ⟨out, happly, hout⟩ := hadds.step hlast
    refine ⟨out, ?_, hout⟩
    rw [List.map_append, List.map_singleton, Change.applyAll_concat_of_ok hmid]
    exact happly

theorem applyAll_of_firstBlocked (h : FirstBlocked start adjustments v) :
    Change.applyAll (adjustments.map .adjust) start = .error v := by
  obtain ⟨before, a, after, rfl, hbefore, hblocked⟩ := h
  obtain ⟨mid, hmid, hadds⟩ := applyAll_of_unblocked hbefore
  have happly : a.apply mid = .error v := apply_eq_error_iff.2 (hadds.blocked_iff.2 hblocked)
  rw [List.map_append, Change.applyAll_append_of_ok hmid, List.map_cons, Change.applyAll,
    List.foldlM_cons, Change.apply, happly]
  rfl

/-- A run comes to its end or to an adjustment that is blocked. -/
theorem unblocked_or_firstBlocked (start : Fields) (adjustments : List Adjustment) :
    Unblocked start adjustments ∨ ∃ v, FirstBlocked start adjustments v := by
  induction adjustments using List.reverseRecOn with
  | nil => exact .inl fun before a after hsplit => by simp at hsplit
  | append_singleton adjustments a ih =>
    rcases ih with hbefore | ⟨v, before, b, after, rfl, hbefore, hblocked⟩
    · by_cases hlast : ∃ v, Blocked start adjustments a v
      · obtain ⟨v, hv⟩ := hlast
        exact .inr ⟨v, adjustments, a, [], rfl, hbefore, hv⟩
      · exact .inl (unblocked_concat.2 ⟨hbefore, not_exists.1 hlast⟩)
    · refine .inr ⟨v, before, b, after ++ [a], ?_, hbefore, hblocked⟩
      rw [List.append_assoc, List.cons_append]

theorem applyAll_eq_error_iff :
    Change.applyAll (adjustments.map .adjust) start = .error v ↔
      FirstBlocked start adjustments v := by
  refine ⟨fun h => ?_, applyAll_of_firstBlocked⟩
  rcases unblocked_or_firstBlocked start adjustments with hfree | ⟨w, hw⟩
  · obtain ⟨out, hout, -⟩ := applyAll_of_unblocked hfree
    rw [hout] at h
    contradiction
  · rw [applyAll_of_firstBlocked hw] at h
    rwa [← Except.error.inj h]

theorem applyAll_eq_ok_iff :
    Change.applyAll (adjustments.map .adjust) start = .ok out ↔
      Unblocked start adjustments ∧ Adds start adjustments out := by
  constructor
  · intro h
    rcases unblocked_or_firstBlocked start adjustments with hfree | ⟨w, hw⟩
    · obtain ⟨out', hout', hadds⟩ := applyAll_of_unblocked hfree
      rw [h] at hout'
      exact ⟨hfree, Except.ok.inj hout' ▸ hadds⟩
    · rw [applyAll_of_firstBlocked hw] at h
      contradiction
  · rintro ⟨hfree, hadds⟩
    obtain ⟨out', hout', hadds'⟩ := applyAll_of_unblocked hfree
    rw [hout', hadds.eq hadds']

-- ============================================================================
-- Distinct fields
-- ============================================================================

theorem Blocked.congr (h : Blocked start before a v) {before' : List Adjustment}
    (htotal : total before a.field = total before' a.field) : Blocked start before' a v := by
  cases h with
  | missing hget => exact .missing hget
  | mistyped hget hint => exact .mistyped hget hint
  | overflow hget hrange => exact .overflow hget (htotal ▸ hrange)

/-- Adjustments of distinct fields are blocked where they would be alone, or not at all. -/
theorem unblocked_iff_of_nodup (h : (adjustments.map field).Nodup) :
    Unblocked start adjustments ↔ ∀ a ∈ adjustments, ∀ v, ¬Blocked start [] a v := by
  have hfresh : ∀ before a after, adjustments = before ++ a :: after →
      total before a.field = total [] a.field := by
    rintro before a after rfl
    rw [List.map_append, List.map_cons, List.nodup_append] at h
    refine total_eq_zero fun b hb => ?_
    exact h.2.2 _ (List.mem_map_of_mem hb) _ List.mem_cons_self
  constructor
  · intro hfree a ha v hblocked
    obtain ⟨before, after, hsplit⟩ := List.append_of_mem ha
    exact hfree before a after hsplit v (hblocked.congr (hfresh before a after hsplit).symm)
  · intro hfree before a after hsplit v hblocked
    have ha : a ∈ adjustments := hsplit ▸ List.mem_append_right _ List.mem_cons_self
    exact hfree a ha v (hblocked.congr (hfresh before a after hsplit))

theorem exists_applyAll_iff : (∃ out, Change.applyAll (adjustments.map .adjust) start = .ok out) ↔
    Unblocked start adjustments := by
  constructor
  · rintro ⟨out, hout⟩
    exact (applyAll_eq_ok_iff.1 hout).1
  · intro hfree
    obtain ⟨out, hout, -⟩ := applyAll_of_unblocked hfree
    exact ⟨out, hout⟩

/-- Adjustments of distinct fields succeed in one order just if they do in another. -/
theorem exists_applyAll_perm_iff (h : (adjustments.map field).Nodup) {second : List Adjustment}
    (hperm : adjustments.Perm second) :
    (∃ out, Change.applyAll (adjustments.map .adjust) start = .ok out) ↔
      ∃ out, Change.applyAll (second.map .adjust) start = .ok out := by
  have hsecond : (second.map field).Nodup := (hperm.map field).nodup_iff.1 h
  rw [exists_applyAll_iff, exists_applyAll_iff, unblocked_iff_of_nodup h,
    unblocked_iff_of_nodup hsecond]
  simp only [hperm.mem_iff]

-- ============================================================================
-- What adjustments come to
-- ============================================================================

/-- How adjustments that are made one after the other add up. -/
structure Accumulates (start : Fields) (adjustments : List Adjustment) : Prop where
  /-- They all succeed just if none is blocked, and come to the exact sums. -/
  success : ∀ out, Change.applyAll (adjustments.map .adjust) start = .ok out ↔
    Unblocked start adjustments ∧ Adds start adjustments out
  /-- They fail just for what blocks the first of them that is blocked. -/
  failure : ∀ v, Change.applyAll (adjustments.map .adjust) start = .error v ↔
    FirstBlocked start adjustments v
  reordered : ∀ second, adjustments.Perm second → ∀ out out',
    Change.applyAll (adjustments.map .adjust) start = .ok out →
      Change.applyAll (second.map .adjust) start = .ok out' → out = out'
  distinct : (adjustments.map field).Nodup → ∀ second, adjustments.Perm second →
    ((∃ out, Change.applyAll (adjustments.map .adjust) start = .ok out) ↔
      ∃ out, Change.applyAll (second.map .adjust) start = .ok out)

/-- Whatever adjustments are made one after the other, and to whatever fields, they add up exactly
    or fail at the first that is blocked. -/
theorem accumulates (start : Fields) (adjustments : List Adjustment) :
    Accumulates start adjustments where
  success _ := applyAll_eq_ok_iff
  failure _ := applyAll_eq_error_iff
  reordered second hperm out out' hout hout' := by
    have hadds := (applyAll_eq_ok_iff.1 hout).2.perm hperm
    exact hadds.eq (applyAll_eq_ok_iff.1 hout').2
  distinct h _ hperm := exists_applyAll_perm_iff h hperm

/-- Of two orders one may succeed and the other fail, where a sum on the way is out of range. -/
example :
    let brim : Fields := .ofList [("stock", .int 9223372036854775806)]
    Change.applyAll [.adjust ⟨"stock", -2⟩, .adjust ⟨"stock", 2⟩] brim = .ok brim ∧
      Change.applyAll [.adjust ⟨"stock", 2⟩, .adjust ⟨"stock", -2⟩] brim
        = .error (.overflow "stock" 2) :=
  ⟨rfl, rfl⟩

end Adjustment
end VersionedStore
