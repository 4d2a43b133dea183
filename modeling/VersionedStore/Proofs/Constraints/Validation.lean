/-
  VersionedStore.Proofs.Constraints.Validation

  What a check of fields decides, and which violation it reports.

  `violation?_eq_some_iff` characterises the first violation of given constraints.
  Constraints come about by adding conditions one after the other, where a later
  minimum takes the place of an earlier one of the same field, and a field that is
  required twice keeps its first place.  `verdict_addAll` says what the check makes
  of the result, in terms of the conditions that were added and nothing else.

  What carries the step from the conditions to the lists that are looked at is
  `find?_required_addAll`: a name that was left out as a repetition is never the
  first one missing.
-/
import Mathlib.Data.List.Basic
import Mathlib.Data.List.Induction
import VersionedStore.Constraints
import VersionedStore.Proofs.Maps

namespace VersionedStore

namespace Fields

/-- A field is there and not null. -/
def Supplies (fields : Fields) (field : String) : Prop :=
  ∃ v, fields.get? field = some v ∧ v ≠ .null

/-- A field is absent, null, or an integer that is not below a bound. -/
def Respects (fields : Fields) (field : String) (least : Int64) : Prop :=
  ∀ v, fields.get? field = some v → v = .null ∨ ∃ n, v = .int n ∧ least ≤ n

end Fields

namespace Constraints

variable {c : Constraints} {fields : Fields}

-- ============================================================================
-- One condition
-- ============================================================================

theorem isPresent_iff {field : String} : isPresent fields field = true ↔ fields.Supplies field := by
  simp [isPresent, Fields.Supplies, Option.any_eq_true, ← Bool.not_eq_true, Value.isNull_iff]

theorem belowMinimum?_eq_none_iff {field : String} {least : Int64} :
    belowMinimum? fields field least = none ↔ fields.Respects field least := by
  unfold belowMinimum? Fields.Respects
  cases hget : fields.get? field with
  | none => simp
  | some v => cases v <;> simp [Int64.le_iff_toInt_le]

/-- A field that breaks its minimum is an integer below it, or of another type. -/
theorem belowMinimum?_eq_some_iff {field : String} {least : Int64} {v : Violation} :
    belowMinimum? fields field least = some v ↔
      (∃ n, fields.get? field = some (.int n) ∧ n < least ∧ v = .belowMinimum field n least) ∨
        ∃ w, fields.get? field = some w ∧ w ≠ .null ∧ (∀ n, w ≠ .int n) ∧
          v = .wrongType field Value.intType w.typeName := by
  unfold belowMinimum?
  cases hget : fields.get? field with
  | none => simp
  | some w => cases w <;> simp [Int64.lt_iff_toInt_lt, eq_comm]

-- ============================================================================
-- The first violation
-- ============================================================================

theorem validate_eq_error_iff {v : Violation} :
    c.validate fields = .error v ↔ c.violation? fields = some v := by
  unfold validate
  cases c.violation? fields <;> simp

theorem violation?_eq_some_iff {v : Violation} :
    c.violation? fields = some v ↔
      (∃ field, (c.required.find? fun name => !isPresent fields name) = some field ∧
        v = .missingField field) ∨
      (c.required.find? fun name => !isPresent fields name) = none ∧
        (c.minimums.toList.findSome? fun (field, least) => belowMinimum? fields field least)
          = some v := by
  unfold violation?
  cases c.required.find? fun name => !isPresent fields name <;> simp [eq_comm]

theorem mem_minimums_iff {field : String} {least : Int64} :
    (field, least) ∈ c.minimums.toList ↔ c.minimum? field = some least :=
  Std.ExtTreeMap.mem_toList_iff_getElem?_eq_some

/-- Fields are acceptable exactly if every required field is there and no field breaks its
    minimum. -/
theorem validate_eq_ok_iff : c.validate fields = .ok () ↔
    (∀ field ∈ c.required, fields.Supplies field) ∧
      ∀ field least, c.minimum? field = some least → fields.Respects field least := by
  have hvalidate : c.validate fields = .ok () ↔ c.violation? fields = none := by
    unfold validate
    cases c.violation? fields <;> simp
  rw [hvalidate, violation?]
  cases hmissing : c.required.find? fun field => !isPresent fields field with
  | some field =>
    have hfield := List.find?_some hmissing
    simp only [reduceCtorEq, false_iff, not_and]
    intro hsupplied
    rw [isPresent_iff.2 (hsupplied field (List.mem_of_find?_eq_some hmissing))] at hfield
    contradiction
  | none =>
    rw [List.find?_eq_none] at hmissing
    rw [List.findSome?_eq_none_iff]
    constructor
    · intro hbelow
      refine ⟨fun field hfield => ?_, fun field least hleast => ?_⟩
      · exact isPresent_iff.1 (by simpa using hmissing field hfield)
      · exact belowMinimum?_eq_none_iff.1 (hbelow (field, least) (mem_minimums_iff.2 hleast))
    · rintro ⟨-, hrespected⟩ ⟨field, least⟩ hmem
      exact belowMinimum?_eq_none_iff.2 (hrespected field least (mem_minimums_iff.1 hmem))

/-- An acceptable integer is not below the minimum of its field. -/
theorem minimum_le (h : c.validate fields = .ok ()) {field : String} {least n : Int64}
    (hleast : c.minimum? field = some least) (hn : fields.get? field = some (.int n)) :
    least ≤ n := by
  rcases (validate_eq_ok_iff.1 h).2 field least hleast _ hn with hnull | ⟨m, hm, hle⟩
  · contradiction
  · cases hm
    exact hle

/-- The minimum that is reported is that of the least name whose minimum is not respected. -/
theorem findSome?_minimums_eq_some_iff {v : Violation} :
    (c.minimums.toList.findSome? fun (field, least) => belowMinimum? fields field least) = some v ↔
      ∃ field least, c.minimum? field = some least ∧
        belowMinimum? fields field least = some v ∧
        ∀ other m, other < field → c.minimum? other = some m → fields.Respects other m := by
  have hsorted := pairwise_toList c.minimums
  rw [List.findSome?_eq_some_iff]
  constructor
  · rintro ⟨before, ⟨field, least⟩, after, hsplit, hbroken, hbefore⟩
    rw [hsplit, List.pairwise_append, List.pairwise_cons] at hsorted
    obtain ⟨-, ⟨hafter, -⟩, -⟩ := hsorted
    refine ⟨field, least, ?_, hbroken, fun other m hlt hm => ?_⟩
    · rw [← mem_minimums_iff, hsplit]
      exact List.mem_append_right _ List.mem_cons_self
    · rw [← mem_minimums_iff, hsplit, List.mem_append, List.mem_cons] at hm
      rcases hm with hm | heq | hm
      · exact belowMinimum?_eq_none_iff.1 (hbefore _ hm)
      · obtain rfl := congrArg Prod.fst heq
        exact absurd hlt (String.lt_irrefl _)
      · exact absurd (String.lt_trans hlt (hafter _ hm)) (String.lt_irrefl _)
  · rintro ⟨field, least, hleast, hbroken, hfirst⟩
    obtain ⟨before, after, hsplit⟩ := List.append_of_mem (mem_minimums_iff.2 hleast)
    refine ⟨before, (field, least), after, hsplit, hbroken, fun (other, m) hm => ?_⟩
    have hlisted : (other, m) ∈ c.minimums.toList := hsplit ▸ List.mem_append_left _ hm
    rw [hsplit, List.pairwise_append] at hsorted
    refine belowMinimum?_eq_none_iff.2 (hfirst other m ?_ (mem_minimums_iff.1 hlisted))
    exact hsorted.2.2 _ hm _ List.mem_cons_self

-- ============================================================================
-- Conditions that are added one after the other
-- ============================================================================

/-- A condition, as it is added to others. -/
inductive Condition where
  | minimum (field : String) (least : Int64)
  | require (field : String)
deriving DecidableEq, Repr

/-- The name of a required field that is not there. -/
def Condition.missing? (fields : Fields) : Condition → Option String
  | .require field => if isPresent fields field then none else some field
  | .minimum .. => none

/-- Add a condition. -/
def add (c : Constraints) : Condition → Constraints
  | .minimum field least => c.min field least
  | .require field => c.require field

/-- Add conditions one after the other. -/
def addAll (c : Constraints) (conditions : List Condition) : Constraints :=
  conditions.foldl add c

theorem addAll_concat (c : Constraints) (conditions : List Condition) (condition : Condition) :
    c.addAll (conditions ++ [condition]) = (c.addAll conditions).add condition := by
  rw [addAll, List.foldl_append]
  rfl

theorem minimum?_empty (field : String) : (∅ : Constraints).minimum? field = none :=
  Std.ExtTreeMap.getElem?_empty

theorem minimum?_min (c : Constraints) (field : String) (least : Int64) (other : String) :
    (c.min field least).minimum? other
      = if field = other then some least else c.minimum? other := by
  simp [min, minimum?, Std.ExtTreeMap.getElem?_insert]

theorem minimum?_require (c : Constraints) (field other : String) :
    (c.require field).minimum? other = c.minimum? other := by
  unfold require
  split <;> rfl

theorem mem_required_require {field other : String} :
    other ∈ (c.require field).required ↔ other ∈ c.required ∨ other = field := by
  unfold require
  split
  next h =>
    refine ⟨.inl, fun hother => ?_⟩
    rcases hother with hother | rfl
    · exact hother
    · exact h
  next => simp

theorem mem_required_addAll {conditions : List Condition} {field : String} :
    field ∈ (addAll ∅ conditions).required ↔ .require field ∈ conditions := by
  induction conditions using List.reverseRecOn with
  | nil => exact iff_of_false List.not_mem_nil List.not_mem_nil
  | append_singleton conditions condition ih =>
    rw [addAll_concat, List.mem_append, List.mem_singleton, ← ih]
    cases condition with
    | minimum => simp [add, min]
    | require name => simp [add, mem_required_require]

/-- A field that is required again is not the first one missing. -/
theorem find?_required_require (c : Constraints) (fields : Fields) (field : String) :
    ((c.require field).required.find? fun name => !isPresent fields name)
      = (c.required.find? fun name => !isPresent fields name).or
          ((Condition.require field).missing? fields) := by
  unfold require
  split
  next hmem =>
    cases hfind : c.required.find? fun name => !isPresent fields name with
    | some name => rfl
    | none =>
      have hpresent : isPresent fields field = true := by
        simpa using List.find?_eq_none.1 hfind field hmem
      rw [Option.none_or, Condition.missing?, if_pos hpresent]
  next =>
    rw [List.find?_append, List.find?_singleton, Condition.missing?]
    cases isPresent fields field <;> rfl

/-- The first name of the list that is missing is the one that was required first. -/
theorem find?_required_addAll (conditions : List Condition) (fields : Fields) :
    ((addAll ∅ conditions).required.find? fun name => !isPresent fields name)
      = conditions.findSome? (·.missing? fields) := by
  induction conditions using List.reverseRecOn with
  | nil => rfl
  | append_singleton conditions condition ih =>
    rw [addAll_concat, List.findSome?_append, List.findSome?_singleton, ← ih]
    cases condition with
    | minimum field least => rw [Condition.missing?, Option.or_none, add, min]
    | require field => rw [add, find?_required_require]

-- ============================================================================
-- What the check makes of conditions
-- ============================================================================

/-- The bound of the last minimum of a field. -/
def LastMinimum (conditions : List Condition) (field : String) (least : Int64) : Prop :=
  ∃ before after, conditions = before ++ .minimum field least :: after ∧
    ∀ other, .minimum field other ∉ after

theorem lastMinimum_concat {conditions : List Condition} {condition : Condition} {field : String}
    {least : Int64} :
    LastMinimum (conditions ++ [condition]) field least ↔
      condition = .minimum field least ∨
        (∀ other, condition ≠ .minimum field other) ∧ LastMinimum conditions field least := by
  constructor
  · rintro ⟨before, after, hsplit, hafter⟩
    rcases List.eq_nil_or_concat' after with rfl | ⟨init, last, rfl⟩
    · exact .inl (List.singleton_inj.1 (List.append_inj_right' hsplit rfl))
    · rw [← List.cons_append, ← List.append_assoc] at hsplit
      obtain ⟨hinit, hlast⟩ := List.append_inj' hsplit rfl
      obtain rfl := List.singleton_inj.1 hlast
      refine .inr ⟨fun other heq => hafter other ?_, before, init, hinit, fun other hmem => ?_⟩
      · rw [← heq]
        exact List.mem_append_right _ (List.mem_singleton_self _)
      · exact hafter other (List.mem_append_left _ hmem)
  · rintro (rfl | ⟨hne, before, after, rfl, hafter⟩)
    · exact ⟨conditions, [], rfl, fun _ => List.not_mem_nil⟩
    · refine ⟨before, after ++ [condition], by simp, fun other hmem => ?_⟩
      rcases List.mem_append.1 hmem with hmem | hmem
      · exact hafter other hmem
      · exact hne other (List.mem_singleton.1 hmem).symm

theorem minimum?_addAll {conditions : List Condition} {field : String} {least : Int64} :
    (addAll ∅ conditions).minimum? field = some least ↔ LastMinimum conditions field least := by
  induction conditions using List.reverseRecOn with
  | nil =>
    refine iff_of_false ?_ ?_
    · rw [addAll, List.foldl_nil, minimum?_empty]
      exact nofun
    · rintro ⟨before, after, hsplit, -⟩
      simp at hsplit
  | append_singleton conditions condition ih =>
    rw [addAll_concat, lastMinimum_concat, ← ih]
    cases condition with
    | require name => simp [add, minimum?_require]
    | minimum name n =>
      rw [add, minimum?_min]
      by_cases hname : name = field <;> simp [hname]

/-- All conditions hold. -/
structure Met (conditions : List Condition) (fields : Fields) : Prop where
  supplied : ∀ field, .require field ∈ conditions → fields.Supplies field
  respected : ∀ field least, LastMinimum conditions field least → fields.Respects field least

/-- A violation is the one that is to be reported: the required field that was required first, and
    only if there is none the least name of a field that does not respect its minimum. -/
inductive FirstBroken (conditions : List Condition) (fields : Fields) : Violation → Prop where
  | missing {before after : List Condition} {field : String}
      (hsplit : conditions = before ++ .require field :: after)
      (hbefore : ∀ earlier, .require earlier ∈ before → fields.Supplies earlier)
      (hmissing : ¬fields.Supplies field) :
      FirstBroken conditions fields (.missingField field)
  | below {field : String} {least n : Int64}
      (hsupplied : ∀ name, .require name ∈ conditions → fields.Supplies name)
      (hleast : LastMinimum conditions field least)
      (hfirst : ∀ other m, other < field → LastMinimum conditions other m →
        fields.Respects other m)
      (hget : fields.get? field = some (.int n)) (hlt : n < least) :
      FirstBroken conditions fields (.belowMinimum field n least)
  | mistyped {field : String} {least : Int64} {v : Value}
      (hsupplied : ∀ name, .require name ∈ conditions → fields.Supplies name)
      (hleast : LastMinimum conditions field least)
      (hfirst : ∀ other m, other < field → LastMinimum conditions other m →
        fields.Respects other m)
      (hget : fields.get? field = some v) (hnull : v ≠ .null) (hint : ∀ n, v ≠ .int n) :
      FirstBroken conditions fields (.wrongType field "Int" v.typeName)

theorem findSome?_missing_eq_none_iff {conditions : List Condition} :
    conditions.findSome? (·.missing? fields) = none ↔
      ∀ name, .require name ∈ conditions → fields.Supplies name := by
  rw [List.findSome?_eq_none_iff]
  constructor
  · intro h name hname
    have hnone := h _ hname
    rw [Condition.missing?] at hnone
    split at hnone
    next hpresent => exact isPresent_iff.1 hpresent
    next => contradiction
  · rintro h (⟨field, least⟩ | name) hmem
    · rfl
    · rw [Condition.missing?, if_pos (isPresent_iff.2 (h name hmem))]

theorem findSome?_missing_eq_some_iff {conditions : List Condition} {field : String} :
    conditions.findSome? (·.missing? fields) = some field ↔
      ∃ before after, conditions = before ++ .require field :: after ∧
        (∀ earlier, .require earlier ∈ before → fields.Supplies earlier) ∧
        ¬fields.Supplies field := by
  rw [List.findSome?_eq_some_iff]
  constructor
  · rintro ⟨before, condition, after, hsplit, hmissing, hbefore⟩
    have hsupplied := findSome?_missing_eq_none_iff.1 (List.findSome?_eq_none_iff.2 hbefore)
    cases condition with
    | minimum => contradiction
    | require name =>
      rw [Condition.missing?] at hmissing
      split at hmissing
      next => contradiction
      next hpresent =>
        obtain rfl := Option.some.inj hmissing
        exact ⟨before, after, hsplit, hsupplied, mt isPresent_iff.2 hpresent⟩
  · rintro ⟨before, after, hsplit, hbefore, hmissing⟩
    refine ⟨before, .require field, after, hsplit, ?_, ?_⟩
    · rw [Condition.missing?, if_neg (mt isPresent_iff.1 hmissing)]
    · exact List.findSome?_eq_none_iff.1 (findSome?_missing_eq_none_iff.2 hbefore)

theorem validate_addAll_eq_ok_iff {conditions : List Condition} :
    (addAll ∅ conditions).validate fields = .ok () ↔ Met conditions fields := by
  rw [validate_eq_ok_iff]
  constructor
  · rintro ⟨hsupplied, hrespected⟩
    refine ⟨fun field hfield => ?_, fun field least hleast => ?_⟩
    · exact hsupplied field (mem_required_addAll.2 hfield)
    · exact hrespected field least (minimum?_addAll.2 hleast)
  · rintro ⟨hsupplied, hrespected⟩
    refine ⟨fun field hfield => ?_, fun field least hleast => ?_⟩
    · exact hsupplied field (mem_required_addAll.1 hfield)
    · exact hrespected field least (minimum?_addAll.1 hleast)

theorem validate_addAll_eq_error_iff {conditions : List Condition} {v : Violation} :
    (addAll ∅ conditions).validate fields = .error v ↔ FirstBroken conditions fields v := by
  rw [validate_eq_error_iff, violation?_eq_some_iff, find?_required_addAll,
    findSome?_minimums_eq_some_iff, findSome?_missing_eq_none_iff]
  simp only [findSome?_missing_eq_some_iff, minimum?_addAll, belowMinimum?_eq_some_iff]
  constructor
  · rintro (⟨field, ⟨before, after, hsplit, hbefore, hmissing⟩, rfl⟩ |
      ⟨hsupplied, field, least, hleast, ⟨n, hget, hlt, rfl⟩ | ⟨w, hget, hnull, hint, rfl⟩, hfirst⟩)
    · exact .missing hsplit hbefore hmissing
    · exact .below hsupplied hleast hfirst hget hlt
    · exact .mistyped hsupplied hleast hfirst hget hnull hint
  · rintro (⟨hsplit, hbefore, hmissing⟩ | ⟨hsupplied, hleast, hfirst, hget, hlt⟩ |
      ⟨hsupplied, hleast, hfirst, hget, hnull, hint⟩)
    · exact .inl ⟨_, ⟨_, _, hsplit, hbefore, hmissing⟩, rfl⟩
    · exact .inr ⟨hsupplied, _, _, hleast, .inl ⟨_, hget, hlt, rfl⟩, hfirst⟩
    · exact .inr ⟨hsupplied, _, _, hleast, .inr ⟨_, hget, hnull, hint, rfl⟩, hfirst⟩

/-- Fields are accepted exactly if all conditions hold, and are refused for a violation exactly if
    it is the first. -/
theorem verdict_addAll (conditions : List Condition) (fields : Fields) :
    ((addAll ∅ conditions).validate fields = .ok () ↔ Met conditions fields) ∧
      ∀ v, (addAll ∅ conditions).validate fields = .error v ↔ FirstBroken conditions fields v :=
  ⟨validate_addAll_eq_ok_iff, fun _ => validate_addAll_eq_error_iff⟩

end Constraints
end VersionedStore
