/-
  VersionedStore.Proofs.Change.Sequence

  Changes that are made one after the other, and the one change that snapshot
  changes come to.

  A patch lays its fields over those that are there, and laying fields over others
  is associative (`Fields.merge_assoc`).  So patches run together into one, and all
  that comes before the last replacement is lost: `exists_collapsesTo` finds the one
  change by the changes alone, and `applyAll_of_collapsesTo` says that it does what
  they do to every record.
-/
import Mathlib.Data.List.Induction
import VersionedStore.Change
import VersionedStore.Proofs.Maps

namespace VersionedStore

-- ============================================================================
-- Fields laid over others
-- ============================================================================

namespace Fields

/-- Set fields one after the other. -/
def setAll (base : Fields) (entries : List (String × Value)) : Fields :=
  entries.foldl (fun fields (name, v) => fields.insert name v) base

theorem setAll_cons (base : Fields) (entry : String × Value) (entries : List (String × Value)) :
    base.setAll (entry :: entries) = (base.insert entry.1 entry.2).setAll entries := rfl

theorem get?_setAll_of_not_mem {entries : List (String × Value)} {name : String}
    (h : ∀ v, (name, v) ∉ entries) (base : Fields) :
    (base.setAll entries).get? name = base.get? name := by
  induction entries generalizing base with
  | nil => rfl
  | cons entry entries ih =>
    have hne : entry.1 ≠ name := by
      rintro rfl
      exact h entry.2 List.mem_cons_self
    rw [setAll_cons, ih fun v hv => h v (List.mem_cons_of_mem entry hv), get?_insert, if_neg hne]

/-- The value that is listed for a name is set, if no name is listed twice. -/
theorem get?_setAll_of_mem {entries : List (String × Value)} {name : String} {v : Value}
    (hdistinct : entries.Pairwise fun a b => a.1 ≠ b.1) (h : (name, v) ∈ entries) (base : Fields) :
    (base.setAll entries).get? name = some v := by
  induction entries generalizing base with
  | nil => contradiction
  | cons entry entries ih =>
    obtain ⟨hfirst, hrest⟩ := List.pairwise_cons.1 hdistinct
    rw [setAll_cons]
    rcases List.mem_cons.1 h with rfl | hmem
    · -- nothing that is set later takes the place of the first
      have hlater : ∀ w, (name, w) ∉ entries := fun w hw => hfirst _ hw rfl
      rw [get?_setAll_of_not_mem hlater, get?_insert, if_pos rfl]
    · exact ih hrest hmem _

/-- Laying fields over others sets them one after the other. -/
theorem merge_eq_setAll (base patch : Fields) : base.merge patch = base.setAll patch.toList := by
  have hdistinct := distinct_of_ascending patch.ordered_toList
  ext1 name
  rw [get?_merge]
  cases hpatch : patch.get? name with
  | some v =>
    rw [get?_setAll_of_mem hdistinct (mem_toList_iff.2 hpatch)]
    rfl
  | none =>
    have hunlisted : ∀ v, (name, v) ∉ patch.toList := by
      intro v hv
      rw [mem_toList_iff.1 hv] at hpatch
      contradiction
    rw [get?_setAll_of_not_mem hunlisted]
    rfl

theorem merge_assoc (a b c : Fields) : (a.merge b).merge c = a.merge (b.merge c) := by
  ext1 name
  simp only [get?_merge, Option.or_assoc]

instance : Std.Associative merge := ⟨merge_assoc⟩

theorem merge_self (a : Fields) : a.merge a = a := by
  ext1 name
  rw [get?_merge, Option.or_self]

theorem merge_empty (a : Fields) : a.merge ∅ = a := by
  ext1 name
  rw [get?_merge, get?_empty, Option.none_or]

theorem empty_merge (a : Fields) : (∅ : Fields).merge a = a := by
  ext1 name
  rw [get?_merge, get?_empty, Option.or_none]

/-- Laying fields over others, one field at a time: both sides' names are there, each with the value
    of the last side that has it. -/
structure IsOverlay (overlay : Fields → Fields → Fields) : Prop where
  steps : ∀ base patch, overlay base patch = base.setAll patch.toList
  later : ∀ base patch name v, patch.get? name = some v → (overlay base patch).get? name = some v
  earlier : ∀ base patch name, patch.get? name = none →
    (overlay base patch).get? name = base.get? name
  names : ∀ base patch name, (overlay base patch).contains name = true ↔
    base.contains name = true ∨ patch.contains name = true
  assoc : ∀ a b c, overlay (overlay a b) c = overlay a (overlay b c)
  self : ∀ a, overlay a a = a
  onto_empty : ∀ a, overlay ∅ a = a
  with_empty : ∀ a, overlay a ∅ = a

theorem isOverlay_merge : IsOverlay merge where
  steps := merge_eq_setAll
  later base patch name v h := by rw [get?_merge, h, Option.some_or]
  earlier base patch name h := by rw [get?_merge, h, Option.none_or]
  names base patch name := by
    rw [contains_eq_isSome, contains_eq_isSome, contains_eq_isSome, get?_merge, Option.isSome_or,
      Bool.or_eq_true, or_comm]
  assoc := merge_assoc
  self := merge_self
  onto_empty := empty_merge
  with_empty := merge_empty

-- ============================================================================
-- Listings
-- ============================================================================

/-- A listing of fields: every name that is there once, with its value, in strictly ascending order
    of the code points. -/
structure Listing (fields : Fields) (entries : List (String × Value)) : Prop where
  ascending : entries.Pairwise fun a b => codePoints a.1 < codePoints b.1
  listed : ∀ name v, (name, v) ∈ entries ↔ fields.get? name = some v

theorem listing_toList (fields : Fields) : fields.Listing fields.toList where
  ascending := fields.ordered_toList.imp fun h => lt_iff_codePoints.1 h
  listed _ _ := mem_toList_iff

end Fields

-- ============================================================================
-- Changes one after the other
-- ============================================================================

namespace Change

/-- Apply changes, one after the other. -/
def applyAll (changes : List Change) (fields : Fields) : Except Violation Fields :=
  changes.foldlM (fun current change => change.apply current) fields

theorem applyAll_append (first second : List Change) (fields : Fields) :
    applyAll (first ++ second) fields = (applyAll first fields >>= applyAll second) :=
  List.foldlM_append

theorem applyAll_append_of_ok {first : List Change} {fields between : Fields}
    (h : applyAll first fields = .ok between) (second : List Change) :
    applyAll (first ++ second) fields = applyAll second between := by
  rw [applyAll_append, h]
  rfl

theorem applyAll_concat_of_ok {changes : List Change} {fields between : Fields}
    (h : applyAll changes fields = .ok between) (change : Change) :
    applyAll (changes ++ [change]) fields = change.apply between := by
  rw [applyAll_append_of_ok h, applyAll, List.foldlM_cons]
  exact bind_pure _

/-- Patches make their fields lie over those that were there, one after the other. -/
theorem applyAll_patches (patches : List Fields) (fields : Fields) :
    applyAll (patches.map .patch) fields = .ok (patches.foldl Fields.merge fields) := by
  induction patches generalizing fields with
  | nil => rfl
  | cons patch patches ih => exact ih (fields.merge patch)

/-- Snapshot changes can be applied to whatever is there. -/
theorem exists_applyAll_of_snapshots {changes : List Change}
    (h : ∀ c ∈ changes, c.isRetryable = false) (fields : Fields) :
    ∃ out, applyAll changes fields = .ok out := by
  induction changes generalizing fields with
  | nil => exact ⟨fields, rfl⟩
  | cons change changes ih =>
    obtain ⟨hchange, hrest⟩ := List.forall_mem_cons.1 h
    cases change with
    | replace new => exact ih hrest new
    | patch new => exact ih hrest (fields.merge new)
    | adjust a => contradiction

-- ============================================================================
-- Snapshot changes
-- ============================================================================

/-- The one change that snapshot changes come to: a replacement by the last one's fields, with the
    patches after it laid over them in order, or if there is none a patch with all patches laid over
    each other in order. -/
inductive CollapsesTo : List Change → Change → Prop where
  | replace {before : List Change} {fields : Fields} {patches : List Fields}
      (hbefore : ∀ c ∈ before, c.isRetryable = false) :
      CollapsesTo (before ++ .replace fields :: patches.map .patch)
        (.replace (patches.foldl Fields.merge fields))
  | patch (first : Fields) (rest : List Fields) :
      CollapsesTo ((first :: rest).map .patch) (.patch (rest.foldl Fields.merge first))

/-- A patch that follows runs together with what was there last. -/
theorem CollapsesTo.concat {changes : List Change} {change : Change}
    (h : CollapsesTo changes change) (last : Fields) :
    ∃ change', CollapsesTo (changes ++ [.patch last]) change' := by
  cases h with
  | @replace before fields patches hbefore =>
    refine ⟨.replace ((patches ++ [last]).foldl Fields.merge fields), ?_⟩
    have hsplit : before ++ .replace fields :: patches.map .patch ++ [.patch last]
        = before ++ Change.replace fields :: (patches ++ [last]).map .patch := by simp
    rw [hsplit]
    exact .replace hbefore
  | patch first rest =>
    refine ⟨.patch ((rest ++ [last]).foldl Fields.merge first), ?_⟩
    have hsplit : (first :: rest).map Change.patch ++ [.patch last]
        = (first :: (rest ++ [last])).map .patch := by simp
    rw [hsplit]
    exact .patch first (rest ++ [last])

theorem exists_collapsesTo {changes : List Change} (hne : changes ≠ [])
    (h : ∀ c ∈ changes, c.isRetryable = false) : ∃ change, CollapsesTo changes change := by
  induction changes using List.reverseRecOn with
  | nil => contradiction
  | append_singleton changes last ih =>
    obtain ⟨hbefore, hlast⟩ := List.forall_mem_append.1 h
    cases last with
    | replace fields =>
      have hcollapses : CollapsesTo (changes ++ .replace fields :: ([] : List Fields).map .patch)
          (.replace fields) := .replace hbefore
      exact ⟨_, hcollapses⟩
    | patch fields =>
      by_cases hempty : changes = []
      · subst hempty
        exact ⟨_, .patch fields []⟩
      · obtain ⟨change, hchange⟩ := ih hempty hbefore
        exact hchange.concat fields
    | adjust a => exact nomatch hlast _ List.mem_cons_self

theorem applyAll_of_collapsesTo {changes : List Change} {change : Change}
    (h : CollapsesTo changes change) (fields : Fields) :
    applyAll changes fields = change.apply fields := by
  cases h with
  | @replace before new patches hbefore =>
    obtain ⟨between, hbetween⟩ := exists_applyAll_of_snapshots hbefore fields
    rw [applyAll_append_of_ok hbetween]
    exact applyAll_patches patches new
  | patch first rest =>
    have hassoc : rest.foldl Fields.merge (fields.merge first)
        = fields.merge (rest.foldl Fields.merge first) :=
      List.foldl_assoc
    rw [applyAll_patches, List.foldl_cons, hassoc]
    rfl

/-- Snapshot changes do to every record what the one change does that they come to, where patches
    are laid over what is there name by name, and the result lists every name once and in order. -/
theorem snapshots_collapse : Fields.IsOverlay Fields.merge ∧
    ∀ changes : List Change, changes ≠ [] → (∀ c ∈ changes, c.isRetryable = false) →
      ∃ change, CollapsesTo changes change ∧ ∀ fields, ∃ out,
        applyAll changes fields = .ok out ∧ change.apply fields = .ok out ∧
          out.Listing out.toList := by
  refine ⟨Fields.isOverlay_merge, fun changes hne hsnapshots => ?_⟩
  obtain ⟨change, hchange⟩ := exists_collapsesTo hne hsnapshots
  refine ⟨change, hchange, fun fields => ?_⟩
  obtain ⟨out, hout⟩ := exists_applyAll_of_snapshots hsnapshots fields
  exact ⟨out, hout, applyAll_of_collapsesTo hchange fields ▸ hout, out.listing_toList⟩

/-- What a replacement does not name is gone, and the last of two patches to one name wins. -/
theorem snapshots_collapse_replaced :
    let stocked : Fields := .ofList [("name", .string "Lamp"), ("stock", .int 3)]
    let changes : List Change := [.patch (.ofList [("row", .int 1)]),
      .replace (.ofList [("name", .string "Hub")]), .patch (.ofList [("stock", .int 5)]),
      .patch (.ofList [("name", .null), ("stock", .int 4)])]
    changes ≠ [] ∧ (∀ c ∈ changes, c.isRetryable = false) ∧
      ∃ change, CollapsesTo changes change ∧
        change.apply stocked = .ok (.ofList [("stock", .int 4), ("name", .null)]) := by
  intro stocked changes
  have hne : changes ≠ [] := by decide
  have hsnapshots : ∀ c ∈ changes, c.isRetryable = false := by decide
  obtain ⟨change, hchange, happly⟩ := snapshots_collapse.2 changes hne hsnapshots
  obtain ⟨out, hall, hone, -⟩ := happly stocked
  have hfields : ((Fields.ofList [("name", .string "Hub")]).merge
      (.ofList [("stock", .int 5)])).merge (.ofList [("name", .null), ("stock", .int 4)])
        = .ofList [("stock", .int 4), ("name", .null)] := congrArg Fields.mk (by decide)
  have hvalue : applyAll changes stocked = .ok (.ofList [("stock", .int 4), ("name", .null)]) :=
    congrArg Except.ok hfields
  exact ⟨hne, hsnapshots, change, hchange, hone.trans (hall.symm.trans hvalue)⟩

end Change
end VersionedStore
