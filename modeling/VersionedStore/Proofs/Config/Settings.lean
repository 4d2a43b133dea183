/-
  VersionedStore.Proofs.Config.Settings

  What settings on top of a configuration come to.

  A configuration keeps the names that it requires as they were given, repetitions
  included, and its rules take each of them once; a setting adds a name only if it
  is not there.  So a name may be left out at either of two places.  That both leave
  the same rules, down to the order of the names, rests on `mem_required_constraints`:
  the rules require a name just if the configuration does.

  One setting is `constraints_set`, settings one after the other are
  `constraints_setAll`, and what comes of opening the result is `ofConfig_setAll`.
-/
import Mathlib.Data.List.TakeWhile
import VersionedStore.Database
import VersionedStore.Proofs.Constraints.Validation
import VersionedStore.Proofs.Maps

namespace VersionedStore

/-- A text holds nothing but blanks just if nothing is left of it between them. -/
theorem Text.isBlankText_iff {s : String} : isBlankText s = true ↔ trim s.toList = [] := by
  rw [isBlankText, List.all_eq_true]
  constructor
  · intro hall
    rw [trim, trimStart, List.dropWhile_eq_nil_iff.2 hall]
    rfl
  · intro htrim c hc
    obtain ⟨front, hfront, hstart⟩ := exists_trimStart s.toList
    obtain ⟨back, hback, hend⟩ := exists_trimEnd (trimStart s.toList)
    rw [← trim, htrim, List.nil_append] at hend
    rw [hstart, hend] at hc
    exact (List.mem_append.1 hc).elim (hfront c) (hback c)

-- ============================================================================
-- Conditions in a row
-- ============================================================================

namespace Constraints

theorem foldl_min (l : List (String × Int64)) (c : Constraints) :
    l.foldl (fun k (field, least) => k.min field least) c
      = { c with minimums := c.minimums.insertMany l } := by
  induction l generalizing c with
  | nil => rw [List.foldl_nil, Std.ExtTreeMap.insertMany_nil]
  | cons entry l ih =>
    rw [List.foldl_cons, ih, Std.ExtTreeMap.insertMany_cons]
    rfl

theorem require_of_mem {c : Constraints} {field : String} (h : field ∈ c.required) :
    c.require field = c :=
  if_pos h

theorem require_of_not_mem {c : Constraints} {field : String} (h : field ∉ c.required) :
    c.require field = { c with required := c.required ++ [field] } :=
  if_neg h

theorem min_require (c : Constraints) (field : String) (least : Int64) (name : String) :
    (c.min field least).require name = (c.require name).min field least := by
  by_cases hname : name ∈ c.required
  · rw [require_of_mem hname, require_of_mem (c := c.min field least) hname]
  · rw [require_of_not_mem hname, require_of_not_mem (c := c.min field least) hname]
    rfl

/-- A minimum may as well be set after names are required. -/
theorem foldl_require_min (names : List String) (c : Constraints) (field : String)
    (least : Int64) : names.foldl require (c.min field least)
      = (names.foldl require c).min field least := by
  induction names generalizing c with
  | nil => rfl
  | cons name names ih => rw [List.foldl_cons, min_require, ih, List.foldl_cons]

theorem minimums_foldl_require (fields : List String) (c : Constraints) :
    (fields.foldl require c).minimums = c.minimums := by
  induction fields generalizing c with
  | nil => rfl
  | cons field fields ih =>
    rw [List.foldl_cons, ih, require]
    split <;> rfl

theorem mem_required_foldl_require {fields : List String} {c : Constraints} {field : String} :
    field ∈ (fields.foldl require c).required ↔ field ∈ c.required ∨ field ∈ fields := by
  induction fields generalizing c with
  | nil => simp
  | cons name fields ih => rw [List.foldl_cons, ih, mem_required_require, List.mem_cons, or_assoc]

theorem addAll_append (c : Constraints) (first second : List Condition) :
    c.addAll (first ++ second) = (c.addAll first).addAll second :=
  List.foldl_append

end Constraints

/-- The conditions that a setting adds, those of products one by one. -/
def Setting.conditions : Setting → List Constraints.Condition
  | .maxAttempts _ | .backoff _ => []
  | .minimum field least => [.minimum field least]
  | .require field => [.require field]
  | .catalog =>
    Catalog.minimums.map (fun (field, least) => .minimum field least)
      ++ Catalog.required.map .require

-- ============================================================================
-- The rules of a configuration
-- ============================================================================

namespace Config

theorem constraints_eq (c : Config) :
    c.constraints = c.required.foldl Constraints.require ⟨c.minimums, []⟩ := by
  have hminimums : (∅ : Std.ExtTreeMap String Int64).insertMany c.minimums.toList = c.minimums :=
    Std.ExtTreeMap.ofList_eq_insertMany_empty.symm.trans (ofList_toList c.minimums)
  rw [constraints, Constraints.foldl_min]
  exact congrArg (fun m => c.required.foldl Constraints.require ⟨m, []⟩) hminimums

/-- The minimums of a configuration are those of its rules. -/
theorem minimums_constraints (c : Config) : c.constraints.minimums = c.minimums := by
  rw [constraints_eq, Constraints.minimums_foldl_require]

theorem mem_required_constraints {c : Config} {field : String} :
    field ∈ c.constraints.required ↔ field ∈ c.required := by
  rw [constraints_eq, Constraints.mem_required_foldl_require]
  exact or_iff_right List.not_mem_nil

-- ============================================================================
-- The rules of a configuration with settings on top
-- ============================================================================

theorem constraints_min (c : Config) (field : String) (least : Int64) :
    (c.min field least).constraints = c.constraints.min field least := by
  rw [constraints_eq, constraints_eq]
  exact Constraints.foldl_require_min c.required ⟨c.minimums, []⟩ field least

theorem constraints_require (c : Config) (field : String) :
    (c.require field).constraints = c.constraints.require field := by
  by_cases hfield : field ∈ c.required
  · rw [require, if_pos hfield,
      Constraints.require_of_mem (mem_required_constraints.2 hfield)]
  · rw [require, if_neg hfield, constraints_eq, constraints_eq]
    exact List.foldl_append

theorem constraints_foldl_min (l : List (String × Int64)) (c : Config) :
    (l.foldl (fun c (field, least) => c.min field least) c).constraints
      = c.constraints.addAll (l.map fun (field, least) => .minimum field least) := by
  induction l generalizing c with
  | nil => rfl
  | cons entry l ih =>
    rw [List.foldl_cons, ih, constraints_min]
    rfl

theorem constraints_foldl_require (names : List String) (c : Config) :
    (names.foldl require c).constraints
      = c.constraints.addAll (names.map .require) := by
  induction names generalizing c with
  | nil => rfl
  | cons name names ih =>
    rw [List.foldl_cons, ih, constraints_require]
    rfl

/-- A setting adds its conditions to the rules. -/
theorem constraints_set (c : Config) (setting : Setting) :
    (c.set setting).constraints = c.constraints.addAll setting.conditions := by
  cases setting with
  | maxAttempts n => rfl
  | backoff wait => rfl
  | minimum field least => exact c.constraints_min field least
  | require field => exact c.constraints_require field
  | catalog =>
    rw [set, constraints_foldl_require, constraints_foldl_min, Setting.conditions,
      Constraints.addAll_append]

theorem constraints_setAll (c : Config) (settings : List Setting) :
    (c.setAll settings).constraints
      = c.constraints.addAll (settings.flatMap Setting.conditions) := by
  induction settings generalizing c with
  | nil => rfl
  | cons setting settings ih =>
    rw [List.flatMap_cons, Constraints.addAll_append, ← constraints_set, ← ih]
    rfl

-- ============================================================================
-- What comes of opening it
-- ============================================================================

/-- Nothing is wrong with a configuration that grants an attempt and requires no blank name. -/
theorem fault?_eq_none_iff {c : Config} : c.fault? = none ↔
    c.retry.maxAttempts ≠ 0 ∧ ∀ name ∈ c.required, Text.trim name.toList ≠ [] := by
  unfold fault?
  split
  next hzero => exact iff_of_false nofun fun h => h.1 hzero
  next hattempts =>
    rw [Option.map_eq_none_iff, List.find?_eq_none, and_iff_right hattempts]
    simp only [Text.isBlankText_iff]

end Config

namespace Database

variable {σ : Type} {c : Config} {around : Update.Surroundings σ} {db : Database σ}

theorem ofConfig_eq_ok_iff :
    ofConfig c around = .ok db ↔ c.fault? = none ∧ db = ⟨c.rules, around⟩ := by
  unfold ofConfig Config.validate
  cases c.fault? <;> simp [eq_comm]

theorem ofConfig_eq_ok (h : ofConfig c around = .ok db) :
    db = ⟨c.rules, around⟩ ∧ 0 < c.retry.maxAttempts.toNat := by
  obtain ⟨hfault, rfl⟩ := ofConfig_eq_ok_iff.1 h
  refine ⟨rfl, Nat.pos_of_ne_zero fun hzero => ?_⟩
  exact (Config.fault?_eq_none_iff.1 hfault).1 (UInt32.toNat.inj hzero)

theorem exists_ofConfig_eq_error_iff :
    (∃ failure, ofConfig c around = .error failure) ↔ c.fault? ≠ none := by
  unfold ofConfig Config.validate
  cases c.fault? <;> simp

/-- A configuration with settings on top can be opened just if it grants an attempt and requires no
    blank name.  The database then works under the rules that the configuration describes by
    itself, with the conditions of the settings added one after the other. -/
theorem ofConfig_setAll (c : Config) (settings : List Setting)
    (around : Update.Surroundings σ) :
    (∀ db, ofConfig (c.setAll settings) around = .ok db ↔
      ((c.setAll settings).retry.maxAttempts ≠ 0 ∧
        ∀ name ∈ (c.setAll settings).required, Text.trim name.toList ≠ []) ∧
      db = ⟨⟨(c.setAll settings).policy,
        c.constraints.addAll (settings.flatMap Setting.conditions)⟩, around⟩) ∧
    ((∃ failure, ofConfig (c.setAll settings) around = .error failure) ↔
      (c.setAll settings).retry.maxAttempts = 0 ∨
        ∃ name ∈ (c.setAll settings).required, Text.trim name.toList = []) := by
  refine ⟨fun db => ?_, ?_⟩
  · rw [ofConfig_eq_ok_iff, Config.fault?_eq_none_iff, Config.rules, Config.constraints_setAll]
  · rw [exists_ofConfig_eq_error_iff, ne_eq, Config.fault?_eq_none_iff, not_and_or, not_not]
    simp only [not_forall, not_not, exists_prop]

end Database

/-- Names that were there twice, or are required again, keep their first place. -/
example :
    (Config.setAll ⟨.default, ∅, ["shelf", "name", "shelf"]⟩
        [.require "name", .catalog, .minimum "stock" 3, .require "row"]).constraints
      = ⟨(∅ : Std.ExtTreeMap String Int64).insert "stock" 3,
        ["shelf", "name", "category", "row"]⟩ := by
  decide

end VersionedStore
