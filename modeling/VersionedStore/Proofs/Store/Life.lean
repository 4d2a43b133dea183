/-
  VersionedStore.Proofs.Store.Life

  What becomes of one record while clients act on the store.

  A record is absent, then live at versions that only grow, and after a removal
  absent for good (`Later`, `Lifespan`).  So a version that a write or a removal
  has consumed is never current again, and nobody else can consume it.
-/
import Mathlib.Data.List.Chain
import VersionedStore.Proofs.Store.Tokens

namespace VersionedStore

/-- What the state of a record may be later, once the record was created. -/
inductive Later : Option Record → Option Record → Prop where
  | same {o : Option Record} : Later o o
  | newer {r q : Record} (hlt : r.version.raw < q.version.raw) : Later (some r) (some q)
  | removed {r : Record} : Later (some r) none

/-- A record that was removed does not come back. -/
theorem Later.eq_none {o : Option Record} (h : Later none o) : o = none := by
  cases h
  rfl

namespace Traffic

variable {t t' : Traffic} {a : Action}

theorem Sound.born_of_get? (hs : t.Sound) {id : RecordId} {r : Record}
    (hr : t.store.get? id = some r) : t.Born id := by
  obtain ⟨rfl, l, hl, rfl⟩ := hs.live hr
  exact hs.links_born l hl

theorem Sound.version_le (hs : t.Sound) {id : RecordId} {r : Record}
    (hr : t.store.get? id = some r) : r.version.raw.toNat ≤ t.store.lastVersion.toNat := by
  obtain ⟨-, l, hl, rfl⟩ := hs.live hr
  exact hs.links_le l hl

/-- A version that was just handed out is newer than that of any live record. -/
theorem Sound.lt_of_nextNumber? (hs : t.Sound) {id : RecordId} {r : Record} {n : UInt64}
    (hr : t.store.get? id = some r) (hnext : nextNumber? t.store.lastVersion = some n) :
    r.version.raw < n := by
  have hn := Store.toNat_nextNumber? hnext
  have hle := hs.version_le hr
  rw [UInt64.lt_iff_toNat_lt]
  omega

theorem Sound.later_effect (hs : t.Sound) (h : t.Effect t' a) {id : RecordId}
    (hborn : t.Born id) : Later (t.store.get? id) (t'.store.get? id) := by
  cases h with
  | quiet _ _ _ _ _ hget | stamps _ _ _ _ _ hget =>
    rw [hget]
    exact .same
  | enters _ _ _ _ _ hget hwaiting =>
    rw [hget]
    split
    next hid => exact absurd (hid ▸ hborn) (hs.not_born hwaiting)
    next => exact .same
  | writes _ _ _ _ _ hget hnext hcurrent =>
    rw [hget]
    split
    next hid =>
      rw [← hid, (hs.live hcurrent).1, hcurrent]
      exact .newer (hs.lt_of_nextNumber? hcurrent hnext)
    next => exact .same
  | removes _ _ _ _ _ hget hcurrent =>
    rw [hget]
    split
    next hid =>
      rw [← hid, hcurrent]
      exact .removed
    next => exact .same

theorem Sound.later_step (hs : t.Sound) (a : Action) {id : RecordId} (hborn : t.Born id) :
    Later (t.store.get? id) ((t.step a).store.get? id) :=
  hs.later_effect (t.step_moves a).effect hborn

theorem born_step (t : Traffic) (a : Action) {id : RecordId} (hborn : t.Born id) :
    (t.step a).Born id :=
  (t.step_moves a).effect.born hborn

-- ============================================================================
-- The states of one record
-- ============================================================================

/-- The states of a record before, between and after steps. -/
def statesOf (t : Traffic) (id : RecordId) : List Action → List (Option Record)
  | [] => [t.store.get? id]
  | a :: rest => t.store.get? id :: (t.step a).statesOf id rest

/-- A record is absent, then live at versions that grow with each write, and absent for good
    once it was removed. -/
def Lifespan (removals : List (Nat × Record)) (states : List (Option Record)) : Prop :=
  ∃ (before after : Nat) (live : List Record),
    states = List.replicate before none ++ live.map some ++ List.replicate after none ∧
      live.IsChain (fun r q => r = q ∨ r.version.raw < q.version.raw) ∧
      (0 < after → ∃ client, ∃ r ∈ live.getLast?, (client, r) ∈ removals)

theorem Effect.removals_subset (h : t.Effect t' a) {x : Nat × Record} (hx : x ∈ t.removals) :
    x ∈ t'.removals := by
  cases h with
  | quiet _ _ _ _ hremovals | stamps _ _ _ _ hremovals | enters _ _ _ _ hremovals
  | writes _ _ _ _ hremovals => rwa [hremovals]
  | removes _ _ _ _ hremovals =>
    rw [hremovals]
    exact List.mem_append_left _ hx

theorem removals_after (actions : List Action) {x : Nat × Record} (hx : x ∈ t.removals) :
    x ∈ (t.after actions).removals :=
  after_invariant (fun t a hx => (t.step_moves a).effect.removals_subset hx) hx actions

/-- A record goes only by a removal, which is logged. -/
theorem Effect.removal_of_gone (h : t.Effect t' a) {id : RecordId} {r : Record}
    (hr : t.store.get? id = some r) (hgone : t'.store.get? id = none) :
    ∃ client, (client, r) ∈ t'.removals := by
  cases h with
  | quiet _ _ _ _ _ hget | stamps _ _ _ _ _ hget =>
    rw [hget, hr] at hgone
    contradiction
  | enters _ _ _ _ _ hget | writes _ _ _ _ _ hget =>
    rw [hget, hr] at hgone
    split at hgone <;> contradiction
  | @removes client m current _ _ _ _ hremovals hget hcurrent =>
    rw [hget] at hgone
    split at hgone
    next hid =>
      rw [hid, hr] at hcurrent
      obtain rfl := Option.some.inj hcurrent
      exact ⟨client, by rw [hremovals]; exact List.mem_concat_self ..⟩
    next =>
      rw [hr] at hgone
      contradiction

theorem Sound.statesOf_of_none (hs : t.Sound) {id : RecordId} (hborn : t.Born id)
    (hgone : t.store.get? id = none) (actions : List Action) :
    t.statesOf id actions = List.replicate (actions.length + 1) none := by
  induction actions generalizing t with
  | nil => simp [statesOf, hgone]
  | cons a rest ih =>
    have hlater := hs.later_step a hborn
    rw [hgone] at hlater
    rw [statesOf, hgone, ih (hs.step a) (t.born_step a hborn) hlater.eq_none]
    rfl

theorem Sound.statesOf_of_some (hs : t.Sound) {id : RecordId} {r : Record}
    (hr : t.store.get? id = some r) (actions : List Action) :
    ∃ (live : List Record) (after : Nat),
      t.statesOf id actions = (r :: live).map some ++ List.replicate after none ∧
        (r :: live).IsChain (fun r q => r = q ∨ r.version.raw < q.version.raw) ∧
        (0 < after → ∃ client, ∃ q ∈ (r :: live).getLast?,
          (client, q) ∈ (t.after actions).removals) := by
  induction actions generalizing t r with
  | nil => exact ⟨[], 0, by simp [statesOf, hr], List.isChain_singleton _, by simp⟩
  | cons a rest ih =>
    have hborn := hs.born_of_get? hr
    have hlater := hs.later_step a hborn
    rw [hr] at hlater
    cases hnext : (t.step a).store.get? id with
    | none =>
      obtain ⟨client, hclient⟩ := (t.step_moves a).effect.removal_of_gone hr hnext
      refine ⟨[], rest.length + 1, ?_, List.isChain_singleton _, fun _ => ?_⟩
      · rw [statesOf, hr, (hs.step a).statesOf_of_none (t.born_step a hborn) hnext]
        rfl
      · exact ⟨client, r, rfl, removals_after rest hclient⟩
    | some q =>
      rw [hnext] at hlater
      have hrq : r = q ∨ r.version.raw < q.version.raw := by
        cases hlater with
        | same => exact .inl rfl
        | newer hlt => exact .inr hlt
      obtain ⟨live, after, hstates, hchain, hremoved⟩ := ih (hs.step a) hnext
      refine ⟨q :: live, after, ?_, List.isChain_cons_cons.2 ⟨hrq, hchain⟩, fun hafter => ?_⟩
      · rw [statesOf, hr, hstates]
        rfl
      · obtain ⟨client, o, ho, hmem⟩ := hremoved hafter
        exact ⟨client, o, by rwa [List.getLast?_cons_cons], hmem⟩

theorem Sound.lifespan (hs : t.Sound) (id : RecordId) (actions : List Action) :
    Lifespan (t.after actions).removals (t.statesOf id actions) := by
  induction actions generalizing t with
  | nil =>
    cases hget : t.store.get? id with
    | none => exact ⟨1, 0, [], by simp [statesOf, hget], .nil, by simp⟩
    | some r => exact ⟨0, 0, [r], by simp [statesOf, hget], List.isChain_singleton _, by simp⟩
  | cons a rest ih =>
    cases hget : t.store.get? id with
    | none =>
      obtain ⟨before, after, live, hstates, hchain, hremoved⟩ := ih (hs.step a)
      refine ⟨before + 1, after, live, ?_, hchain, hremoved⟩
      rw [statesOf, hget, hstates]
      rfl
    | some r =>
      obtain ⟨live, after, hstates, hchain, hremoved⟩ := hs.statesOf_of_some hget (a :: rest)
      exact ⟨0, after, r :: live, by simpa using hstates, hchain, hremoved⟩

-- ============================================================================
-- Ids and versions are handed out once
-- ============================================================================

/-- Ids and versions are handed out once, under creations that are under way. -/
structure Distinct (t : Traffic) : Prop where
  /-- Every record that is live is among the states that were committed. -/
  committed : ∀ id r, t.store.get? id = some r → ∃ l ∈ t.links, l.record = r
  /-- No two states that were ever committed carry the same version. -/
  versions : t.links.Pairwise fun l m => l.record.version ≠ m.record.version
  /-- No two creations were given the same id. -/
  ids : ∀ i j id, t.idOf i = some id → t.idOf j = some id → i = j
  /-- A record that is about to be entered finds its place vacant. -/
  vacant : ∀ k r, t.pendingOf k = some r → t.store.get? r.id = none
  id_le : ∀ k id, t.idOf k = some id → id.raw ≤ t.store.lastId
  pending_le : ∀ k r, t.pendingOf k = some r → r.version.raw ≤ t.store.lastVersion
  live_le : ∀ id r, t.store.get? id = some r →
    r.id = id ∧ id.raw ≤ t.store.lastId ∧ r.version.raw ≤ t.store.lastVersion

theorem Sound.distinct (hs : t.Sound) : t.Distinct where
  committed _ _ hr := (hs.live hr).2
  versions := hs.links_ne
  ids _ _ _ := hs.id_inj
  vacant k r hpending := by
    rw [Option.eq_none_iff_forall_ne_some]
    intro q hq
    exact hs.not_born hpending (hs.born_of_get? hq)
  id_le k id hid := UInt64.le_iff_toNat_le.2 (hs.id_le hid)
  pending_le k r hr := UInt64.le_iff_toNat_le.2 (hs.pending_le hr)
  live_le id r hr := by
    obtain ⟨k, q, hq, hid⟩ := hs.born_of_get? hr
    have hk := idOf_of_enteredOf hq
    rw [hid] at hk
    exact ⟨(hs.live hr).1, UInt64.le_iff_toNat_le.2 (hs.id_le hk),
      UInt64.le_iff_toNat_le.2 (hs.version_le hr)⟩

/-- However the steps of creations, writes and removals interleave, ids and versions are handed
    out once, no creation overwrites a record, and every record has one lifespan. -/
theorem run_distinct (actions : List Action) :
    (run actions).Distinct ∧
      ∀ id, Lifespan (run actions).removals (start.statesOf id actions) :=
  ⟨(sound_run actions).distinct, fun id => sound_start.lifespan id actions⟩

end Traffic
end VersionedStore
