/-
  VersionedStore.Proofs.Database.Seeding

  What the database of a command line holds once the sample products were
  created.

  Ids are never handed out twice, so creations leave alone what is live
  (`Store.Keeps`), and after the seeding every product is live as it was created
  (`holds_of_mapM`).
-/
import VersionedStore.Proofs.Database.Preset
import VersionedStore.Proofs.Database.Validity

namespace VersionedStore

-- ============================================================================
-- Creations leave what is live alone
-- ============================================================================

namespace Store

/-- No counter goes back, and the records under ids that were handed out stay as they are. -/
structure Keeps (s s' : Store) : Prop where
  lastVersion_le : s.lastVersion.toNat ≤ s'.lastVersion.toNat
  lastId_le : s.lastId.toNat ≤ s'.lastId.toNat
  get?_eq : ∀ id : RecordId, id.raw.toNat ≤ s.lastId.toNat → s'.get? id = s.get? id

theorem Keeps.refl (s : Store) : s.Keeps s :=
  ⟨Nat.le_refl _, Nat.le_refl _, fun _ _ => rfl⟩

theorem Keeps.trans {s t u : Store} (h : s.Keeps t) (h' : t.Keeps u) : s.Keeps u where
  lastVersion_le := Nat.le_trans h.lastVersion_le h'.lastVersion_le
  lastId_le := Nat.le_trans h.lastId_le h'.lastId_le
  get?_eq id hid := by
    rw [h'.get?_eq id (Nat.le_trans hid h.lastId_le), h.get?_eq id hid]

/-- A record is live as it is, under an id and at a version that were handed out. -/
structure Holds (s : Store) (r : Record) : Prop where
  live : s.get? r.id = some r
  version_le : r.version.raw.toNat ≤ s.lastVersion.toNat
  id_le : r.id.raw.toNat ≤ s.lastId.toNat

theorem Holds.mono {s t : Store} {r : Record} (h : s.Holds r) (hkeeps : s.Keeps t) :
    t.Holds r where
  live := (hkeeps.get?_eq r.id h.id_le).trans h.live
  version_le := Nat.le_trans h.version_le hkeeps.lastVersion_le
  id_le := Nat.le_trans h.id_le hkeeps.lastId_le

variable {now : Instant} {fields : Fields} {s s' : Store} {answer : Except StoreError Record}

theorem Created.keeps (h : Created now fields s answer s') : s.Keeps s' := by
  cases h with
  | unnamed => exact .refl s
  | unstamped hid =>
    have hnext := toNat_nextNumber? hid
    exact ⟨Nat.le_refl _, by dsimp only; omega, fun _ _ => rfl⟩
  | @entered i n hid hversion =>
    have hi := toNat_nextNumber? hid
    have hn := toNat_nextNumber? hversion
    refine ⟨by change _ ≤ n.toNat; omega, by change _ ≤ i.toNat; omega, fun id hle => ?_⟩
    rw [get?_enter, if_neg]
    · rfl
    · rintro rfl
      have hle' : i.toNat ≤ s.lastId.toNat := hle
      omega

theorem Created.holds {r : Record} (h : Created now fields s (.ok r) s') :
    s'.Holds r ∧ r.fields = fields := by
  cases h with
  | entered hid hversion =>
    refine ⟨⟨?_, Nat.le_refl _, Nat.le_refl _⟩, rfl⟩
    rw [get?_enter, if_pos rfl]

end Store

-- ============================================================================
-- The seeding
-- ============================================================================

namespace Database

open Update

variable {rules : Rules} {w w' : World}

/-- A creation that succeeds leaves the record live, with the fields that were checked. -/
theorem holds_of_create {fields : Fields} {r : Record}
    (h : (create ⟨rules, World.surroundings⟩ fields).run w = (.ok r, w')) :
    w.store.Keeps w'.store ∧ w'.store.Holds r ∧ rules.constraints.Admits r := by
  rw [create_run] at h
  split at h
  next hvalid =>
    have hcreated := Store.create_created w.instant fields w.store
    have hcreate : World.records.create fields w
        = ((Store.create w.instant fields w.store).1,
          { w with store := (Store.create w.instant fields w.store).2 }) := rfl
    rw [hcreate] at h
    generalize (Store.create w.instant fields w.store).1 = answer,
      (Store.create w.instant fields w.store).2 = s at hcreated h
    cases answer with
    | error e => cases h
    | ok q =>
      cases h
      obtain ⟨hholds, hfields⟩ := hcreated.holds
      refine ⟨hcreated.keeps, hholds, ?_⟩
      rw [Constraints.Admits, hfields]
      exact hvalid
  next => cases h

/-- All products that were created are live as they were created. -/
theorem holds_of_mapM {list : List Fields} {rs : List Record}
    (h : (list.mapM (create ⟨rules, World.surroundings⟩)).run w = (.ok rs, w')) :
    w.store.Keeps w'.store ∧ ∀ r ∈ rs, w'.store.Holds r ∧ rules.constraints.Admits r := by
  induction list generalizing rs w with
  | nil =>
    obtain ⟨hrs, rfl⟩ := Prod.mk.inj h
    obtain rfl := Except.ok.inj hrs
    exact ⟨.refl _, fun _ hr => (List.not_mem_nil hr).elim⟩
  | cons fields list ih =>
    rw [List.mapM_cons, run_bind_eq_ok_iff] at h
    obtain ⟨first, v, hfirst, hrest⟩ := h
    rw [run_bind_eq_ok_iff] at hrest
    obtain ⟨rest, v', hrest, hpure⟩ := hrest
    cases hpure
    obtain ⟨hkeeps, hholds, hadmits⟩ := holds_of_create hfirst
    obtain ⟨hkeeps', hothers⟩ := ih hrest
    refine ⟨hkeeps.trans hkeeps', fun r hr => ?_⟩
    rcases List.mem_cons.1 hr with rfl | hr
    · exact ⟨hholds.mono hkeeps', hadmits⟩
    · exact hothers r hr

end Database

end VersionedStore
