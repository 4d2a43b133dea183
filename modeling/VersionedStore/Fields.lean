/-
  VersionedStore.Fields

  The fields of a record: a finite map from names to values, in the order of the
  code points of the names.  The map is seen through `get?`, which decides
  equality (`Fields.ext`); each operation has one lemma that says what it does
  to `get?`.
-/
import Std.Data.ExtTreeMap
import VersionedStore.Value

namespace VersionedStore

/-- Named values, in the order of their names. -/
structure Fields where
  entries : Std.ExtTreeMap String Value
deriving DecidableEq

namespace Fields

instance : EmptyCollection Fields := ⟨⟨∅⟩⟩

instance : Inhabited Fields := ⟨∅⟩

/-- The value of a field, if it is there. -/
def get? (fs : Fields) (name : String) : Option Value :=
  fs.entries[name]?

/-- The integer in a field, if it is there and holds one. -/
def int? (fs : Fields) (name : String) : Option Int64 :=
  (fs.get? name).bind Value.int?

/-- The string in a field, if it is there and holds one. -/
def string? (fs : Fields) (name : String) : Option String :=
  (fs.get? name).bind Value.string?

/-- Whether a field is there. -/
def contains (fs : Fields) (name : String) : Bool :=
  fs.entries.contains name

/-- The fields with one of them set. -/
def insert (fs : Fields) (name : String) (v : Value) : Fields :=
  ⟨fs.entries.insert name v⟩

/-- The fields without one of them. -/
def erase (fs : Fields) (name : String) : Fields :=
  ⟨fs.entries.erase name⟩

/-- The fields of both sides; the second side wins where both name a field. -/
def merge (base patch : Fields) : Fields :=
  ⟨base.entries ∪ patch.entries⟩

/-- The names and values in the order of the names. -/
def toList (fs : Fields) : List (String × Value) :=
  fs.entries.toList

/-- The fields in a list; the last value of a name wins. -/
def ofList (l : List (String × Value)) : Fields :=
  ⟨.ofList l⟩

/-- How many fields there are. -/
def size (fs : Fields) : Nat :=
  fs.entries.size

/-- Whether there are no fields. -/
def isEmpty (fs : Fields) : Bool :=
  fs.entries.isEmpty

/-- Equality in which floats are compared by value. -/
def agrees (fs gs : Fields) : Bool :=
  fs.size == gs.size && fs.toList.all fun (name, v) => (gs.get? name).any v.agrees

-- ============================================================================
-- The view through `get?`
-- ============================================================================

@[ext]
theorem ext {fs gs : Fields} (h : ∀ name, fs.get? name = gs.get? name) : fs = gs := by
  cases fs; cases gs
  exact congrArg _ (Std.ExtTreeMap.ext_getElem? h)

@[simp]
theorem get?_empty (name : String) : (∅ : Fields).get? name = none :=
  Std.ExtTreeMap.getElem?_empty

@[simp]
theorem get?_insert (fs : Fields) (name : String) (v : Value) (other : String) :
    (fs.insert name v).get? other = if name = other then some v else fs.get? other := by
  simp [get?, insert, Std.ExtTreeMap.getElem?_insert]

@[simp]
theorem get?_merge (base patch : Fields) (name : String) :
    (base.merge patch).get? name = (patch.get? name).or (base.get? name) := by
  simp [get?, merge, Std.ExtTreeMap.getElem?_union]

theorem contains_eq_isSome (fs : Fields) (name : String) :
    fs.contains name = (fs.get? name).isSome := by
  simp [contains, get?]

theorem mem_toList_iff {fs : Fields} {name : String} {v : Value} :
    (name, v) ∈ fs.toList ↔ fs.get? name = some v :=
  Std.ExtTreeMap.mem_toList_iff_getElem?_eq_some

/-- The names are listed once each, in ascending order. -/
theorem ordered_toList (fs : Fields) : fs.toList.Pairwise fun a b => a.1 < b.1 := by
  refine List.Pairwise.imp ?_ (Std.ExtTreeMap.ordered_keys_toList (t := fs.entries))
  intro a b h
  exact compareOfLessAndEq_eq_lt.1 h

end Fields

end VersionedStore
