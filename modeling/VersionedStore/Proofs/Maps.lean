/-
  VersionedStore.Proofs.Maps

  Maps by name: the order of names, what is listed of maps, and what a list makes of
  them.
-/
import Std.Data.ExtTreeMap

namespace VersionedStore

/-- The code points of a name. -/
def codePoints (name : String) : List Nat :=
  name.toList.map Char.toNat

/-- Names are in the order of their code points. -/
theorem lt_iff_codePoints {a b : String} : a < b ↔ codePoints a < codePoints b := by
  have hchars : ∀ cs ds : List Char, cs < ds ↔ cs.map Char.toNat < ds.map Char.toNat := by
    intro cs
    induction cs with
    | nil => intro ds; cases ds <;> simp
    | cons c cs ih =>
      intro ds
      cases ds with
      | nil => simp
      | cons d ds =>
        rw [List.map_cons, List.map_cons, List.cons_lt_cons_iff, List.cons_lt_cons_iff, ih,
          Char.toNat_inj]
        rfl
  exact String.lt_iff.trans (hchars a.toList b.toList)

variable {α : Type}

theorem getElem?_ofList_iff_of_distinct {l : List (String × α)}
    (h : l.Pairwise fun a b => a.1 ≠ b.1) {name : String} {a : α} :
    (Std.ExtTreeMap.ofList l : Std.ExtTreeMap String α)[name]? = some a ↔ (name, a) ∈ l := by
  have hdistinct : l.Pairwise fun a b => ¬ compare a.1 b.1 = .eq :=
    h.imp fun hne heq => hne (Std.LawfulEqOrd.eq_of_compare heq)
  have hmem : ∀ {b}, (name, b) ∈ l →
      (Std.ExtTreeMap.ofList l : Std.ExtTreeMap String α)[name]? = some b :=
    fun hb => Std.ExtTreeMap.getElem?_ofList_of_mem Std.ReflOrd.compare_self hdistinct hb
  refine ⟨fun hget => ?_, hmem⟩
  by_cases hname : (l.map Prod.fst).contains name = true
  · obtain ⟨⟨_, b⟩, hb, rfl⟩ := List.mem_map.1 (List.contains_iff_mem.1 hname)
    have hsame := (hmem hb).symm.trans hget
    rwa [← Option.some.inj hsame]
  · rw [Std.ExtTreeMap.getElem?_ofList_of_contains_eq_false (by simpa using hname)] at hget
    contradiction

theorem distinct_of_ascending {l : List (String × α)} (h : l.Pairwise fun a b => a.1 < b.1) :
    l.Pairwise fun a b => a.1 ≠ b.1 := by
  refine h.imp fun {a b} hlt heq => ?_
  rw [heq] at hlt
  exact String.lt_irrefl _ hlt

theorem getElem?_ofList_iff {l : List (String × α)} (h : l.Pairwise fun a b => a.1 < b.1)
    {name : String} {a : α} :
    (Std.ExtTreeMap.ofList l : Std.ExtTreeMap String α)[name]? = some a ↔ (name, a) ∈ l :=
  getElem?_ofList_iff_of_distinct (distinct_of_ascending h)

theorem pairwise_toList (m : Std.ExtTreeMap String α) :
    m.toList.Pairwise fun a b => a.1 < b.1 := by
  refine List.Pairwise.imp ?_ (Std.ExtTreeMap.ordered_keys_toList (t := m))
  intro a b h
  exact compareOfLessAndEq_eq_lt.1 h

theorem ofList_toList (m : Std.ExtTreeMap String α) :
    (Std.ExtTreeMap.ofList m.toList : Std.ExtTreeMap String α) = m := by
  refine Std.ExtTreeMap.ext_getElem? fun name => Option.ext fun a => ?_
  rw [getElem?_ofList_iff (pairwise_toList m), Std.ExtTreeMap.mem_toList_iff_getElem?_eq_some]

end VersionedStore
