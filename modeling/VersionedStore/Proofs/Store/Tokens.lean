/-
  VersionedStore.Proofs.Store.Tokens

  Ids and versions are handed out once, however the steps of clients interleave.

  A creation holds an id, and then a version, before its record is in the store,
  so the invariant `Sound` speaks of creations under way, of live records and of
  everything that was ever committed at once.
-/
import VersionedStore.Proofs.Store.Traffic

namespace VersionedStore
namespace Traffic

/-- The ids and versions that are in use are distinct, and the counters are at or past them. -/
structure Sound (t : Traffic) : Prop where
  id_le : ∀ {k : Nat} {id : RecordId}, t.idOf k = some id → id.raw.toNat ≤ t.store.lastId.toNat
  id_inj : ∀ {i j : Nat} {id : RecordId}, t.idOf i = some id → t.idOf j = some id → i = j
  pending_le : ∀ {k : Nat} {r : Record}, t.pendingOf k = some r →
    r.version.raw.toNat ≤ t.store.lastVersion.toNat
  pending_inj : ∀ {i j : Nat} {r q : Record}, t.pendingOf i = some r → t.pendingOf j = some q →
    r.version = q.version → i = j
  /-- A version that waits to be entered was not committed yet. -/
  pending_ne : ∀ {k : Nat} {r : Record}, t.pendingOf k = some r →
    ∀ l ∈ t.links, l.record.version ≠ r.version
  links_le : ∀ l ∈ t.links, l.record.version.raw.toNat ≤ t.store.lastVersion.toNat
  links_ne : t.links.Pairwise fun l m => l.record.version ≠ m.record.version
  links_born : ∀ l ∈ t.links, t.Born l.record.id
  /-- Live records are under their own ids and were committed. -/
  live : ∀ {id : RecordId} {r : Record}, t.store.get? id = some r →
    r.id = id ∧ ∃ l ∈ t.links, l.record = r

variable {t t' : Traffic} {a : Action}

theorem sound_start : start.Sound where
  id_le h := by simp [start, idOf] at h
  id_inj h := by simp [start, idOf] at h
  pending_le h := by simp [start, pendingOf] at h
  pending_inj h := by simp [start, pendingOf] at h
  pending_ne h := by simp [start, pendingOf] at h
  links_le l h := by simp [start, links] at h
  links_ne := List.Pairwise.nil
  links_born l h := by simp [start, links] at h
  live h := by
    have hempty : start.store.records = ∅ := rfl
    rw [Store.get?, hempty, Std.ExtTreeMap.getElem?_empty] at h
    contradiction

-- ============================================================================
-- Ids
-- ============================================================================

theorem idOf_of_pendingOf {k : Nat} {r : Record} (h : t.pendingOf k = some r) :
    t.idOf k = some r.id := by
  obtain ⟨⟨fields, stage⟩, hc, hstage⟩ := Option.bind_eq_some_iff.1 h
  cases stage <;> simp_all [idOf, Stage.pending?, Stage.id?]

theorem idOf_of_enteredOf {k : Nat} {r : Record} (h : t.enteredOf k = some r) :
    t.idOf k = some r.id := by
  obtain ⟨⟨fields, stage⟩, hc, hstage⟩ := Option.bind_eq_some_iff.1 h
  cases stage <;> simp_all [idOf, Stage.entered?, Stage.id?]

/-- A record that waits to be entered has an id of which no record was entered. -/
theorem Sound.not_born (hs : t.Sound) {k : Nat} {r : Record} (hpending : t.pendingOf k = some r) :
    ¬t.Born r.id := by
  rintro ⟨j, q, hq, hid⟩
  have hk := idOf_of_pendingOf hpending
  have hj := idOf_of_enteredOf hq
  rw [hid] at hj
  obtain rfl := hs.id_inj hk hj
  obtain ⟨⟨fields, stage⟩, hc, hstage⟩ := Option.bind_eq_some_iff.1 hpending
  cases stage <;> simp_all [enteredOf, Stage.pending?, Stage.entered?]

theorem Sound.id_le_moves (hs : t.Sound) (h : t.Moves a t') {k : Nat} {id : RecordId}
    (hid : t'.idOf k = some id) : id.raw.toNat ≤ t'.store.lastId.toNat := by
  rcases h.idOf with ⟨hsame, hlast⟩ | ⟨i, n, -, hnext, hlast, hidOf⟩
  · rw [hlast]
    exact hs.id_le (hsame k ▸ hid)
  · have hn := Store.toNat_nextNumber? hnext
    rw [hidOf] at hid
    rw [hlast]
    split at hid
    · obtain rfl := Option.some.inj hid
      exact Nat.le_refl _
    · have hle := hs.id_le hid
      omega

theorem Sound.id_inj_moves (hs : t.Sound) (h : t.Moves a t') {i j : Nat} {id : RecordId}
    (hi : t'.idOf i = some id) (hj : t'.idOf j = some id) : i = j := by
  rcases h.idOf with ⟨hsame, -⟩ | ⟨k, n, -, hnext, -, hidOf⟩
  · exact hs.id_inj (hsame i ▸ hi) (hsame j ▸ hj)
  · -- the new id is past all that were handed out before
    have hfresh : ∀ l, t.idOf l ≠ some ⟨n⟩ := by
      intro l hl
      have hn := Store.toNat_nextNumber? hnext
      have hle := hs.id_le hl
      simp only at hle
      omega
    rw [hidOf] at hi hj
    split at hi <;> split at hj
    next hik hjk => exact hik.trans hjk.symm
    next => exact absurd (hj.trans hi.symm) (hfresh j)
    next => exact absurd (hi.trans hj.symm) (hfresh i)
    next => exact hs.id_inj hi hj

-- ============================================================================
-- Versions
-- ============================================================================

/-- The counter of versions never goes back. -/
theorem Effect.lastVersion_le (h : t.Effect t' a) :
    t.store.lastVersion.toNat ≤ t'.store.lastVersion.toNat := by
  cases h with
  | quiet hlast | enters hlast | removes hlast => exact Nat.le_of_eq (by rw [hlast])
  | stamps hlast _ _ _ _ _ hnext | writes hlast _ _ _ _ _ hnext =>
    have hn := Store.toNat_nextNumber? hnext
    rw [hlast]
    omega

/-- Records that were entered stay so. -/
theorem Effect.born (h : t.Effect t' a) {id : RecordId} (hborn : t.Born id) : t'.Born id := by
  obtain ⟨k, r, hr, hid⟩ := hborn
  refine ⟨k, r, ?_, hid⟩
  cases h with
  | quiet _ _ _ hentered | stamps _ _ _ hentered | writes _ _ _ hentered
  | removes _ _ _ hentered => rw [hentered, hr]
  | @enters j _ _ _ _ _ hentered _ _ _ hnew =>
    have hj : k ≠ j := by
      rintro rfl
      rw [hnew] at hr
      contradiction
    rw [hentered, if_neg hj, hr]

/-- What was committed stays committed. -/
theorem Effect.links_subset (h : t.Effect t' a) {l : Link} (hl : l ∈ t.links) : l ∈ t'.links := by
  cases h with
  | quiet _ hlinks | stamps _ hlinks | removes _ hlinks => rwa [hlinks]
  | enters _ hlinks | writes _ hlinks =>
    rw [hlinks]
    exact List.mem_append_left _ hl

/-- A number that was just handed out is past a number that the counter was at or past. -/
theorem ne_of_nextNumber? {last n m : UInt64} (hnext : nextNumber? last = some n)
    (hle : m.toNat ≤ last.toNat) : m ≠ n := by
  rintro rfl
  have hn := Store.toNat_nextNumber? hnext
  omega

theorem Sound.pending_le_effect (hs : t.Sound) (h : t.Effect t' a) {k : Nat} {r : Record}
    (hr : t'.pendingOf k = some r) : r.version.raw.toNat ≤ t'.store.lastVersion.toNat := by
  have hold : t.pendingOf k = some r → r.version.raw.toNat ≤ t'.store.lastVersion.toNat :=
    fun hpending => Nat.le_trans (hs.pending_le hpending) h.lastVersion_le
  cases h with
  | quiet _ _ hpending | writes _ _ hpending | removes _ _ hpending => exact hold (hpending k ▸ hr)
  | stamps hlast _ hpending =>
    rw [hpending] at hr
    split at hr
    · obtain rfl := Option.some.inj hr
      exact Nat.le_of_eq (by rw [hlast])
    · exact hold hr
  | enters _ _ hpending =>
    rw [hpending] at hr
    split at hr
    · contradiction
    · exact hold hr

theorem Sound.pending_inj_effect (hs : t.Sound) (h : t.Effect t' a) {i j : Nat} {r q : Record}
    (hr : t'.pendingOf i = some r) (hq : t'.pendingOf j = some q)
    (hversion : r.version = q.version) : i = j := by
  cases h with
  | quiet _ _ hpending | writes _ _ hpending | removes _ _ hpending =>
    exact hs.pending_inj (hpending i ▸ hr) (hpending j ▸ hq) hversion
  | @stamps k _ p _ _ hpending _ _ _ hnext =>
    have hfresh : ∀ {l : Nat} {o : Record}, t.pendingOf l = some o → o.version ≠ p.version :=
      fun ho heq => ne_of_nextNumber? hnext (hs.pending_le ho) (congrArg Version.raw heq)
    rw [hpending] at hr hq
    split at hr <;> split at hq
    next hi hj => exact hi.trans hj.symm
    next =>
      obtain rfl := Option.some.inj hr
      exact absurd hversion.symm (hfresh hq)
    next =>
      obtain rfl := Option.some.inj hq
      exact absurd hversion (hfresh hr)
    next => exact hs.pending_inj hr hq hversion
  | enters _ _ hpending =>
    rw [hpending] at hr hq
    split at hr <;> split at hq
    · contradiction
    · contradiction
    · contradiction
    · exact hs.pending_inj hr hq hversion

theorem Sound.pending_ne_effect (hs : t.Sound) (h : t.Effect t' a) {k : Nat} {r : Record}
    (hr : t'.pendingOf k = some r) : ∀ l ∈ t'.links, l.record.version ≠ r.version := by
  intro l hl
  cases h with
  | quiet _ hlinks hpending | removes _ hlinks hpending =>
    exact hs.pending_ne (hpending k ▸ hr) l (hlinks ▸ hl)
  | stamps _ hlinks hpending _ _ _ hnext =>
    rw [hpending] at hr
    rw [hlinks] at hl
    split at hr
    · obtain rfl := Option.some.inj hr
      exact fun heq => ne_of_nextNumber? hnext (hs.links_le l hl) (congrArg Version.raw heq)
    · exact hs.pending_ne hr l hl
  | enters _ hlinks hpending _ _ _ hwaiting =>
    rw [hpending] at hr
    split at hr
    next => contradiction
    next hk =>
      rw [hlinks, List.mem_append, List.mem_singleton] at hl
      rcases hl with hl | rfl
      · exact hs.pending_ne hr l hl
      · exact fun heq => hk (hs.pending_inj hr hwaiting heq.symm)
  | writes _ hlinks hpending _ _ _ hnext =>
    have hr' := hpending k ▸ hr
    rw [hlinks, List.mem_append, List.mem_singleton] at hl
    rcases hl with hl | rfl
    · exact hs.pending_ne hr' l hl
    · exact fun heq => ne_of_nextNumber? hnext (hs.pending_le hr') (congrArg Version.raw heq.symm)

/-- What a step adds to the links, if anything: a version that was not committed before. -/
theorem Sound.links_effect (hs : t.Sound) (h : t.Effect t' a) :
    t'.links = t.links ∨ ∃ l, t'.links = t.links ++ [l] ∧
      (∀ m ∈ t.links, m.record.version ≠ l.record.version) ∧
      l.record.version.raw.toNat ≤ t'.store.lastVersion.toNat ∧ t'.Born l.record.id := by
  have hborn : ∀ {id}, t.Born id → t'.Born id := h.born
  cases h with
  | quiet _ hlinks | stamps _ hlinks | removes _ hlinks => exact .inl hlinks
  | @enters k _ r hlast hlinks _ hentered _ _ hwaiting =>
    refine .inr ⟨_, hlinks, hs.pending_ne hwaiting, ?_, k, r, by rw [hentered, if_pos rfl], rfl⟩
    rw [hlast]
    exact hs.pending_le hwaiting
  | writes hlast hlinks _ _ _ _ hnext hcurrent _ _ hsuccessor =>
    refine .inr ⟨_, hlinks, fun l hl heq => ?_, Nat.le_of_eq (by rw [hlast]), ?_⟩
    · exact ne_of_nextNumber? hnext (hs.links_le l hl) (congrArg Version.raw heq)
    · obtain ⟨-, l, hl, rfl⟩ := hs.live hcurrent
      rw [hsuccessor]
      exact hborn (hs.links_born l hl)

theorem Sound.live_effect (hs : t.Sound) (h : t.Effect t' a) {id : RecordId} {r : Record}
    (hr : t'.store.get? id = some r) : r.id = id ∧ ∃ l ∈ t'.links, l.record = r := by
  have hsubset : ∀ l ∈ t.links, l ∈ t'.links := fun l => h.links_subset
  have hold : t.store.get? id = some r → r.id = id ∧ ∃ l ∈ t'.links, l.record = r := by
    intro hget
    obtain ⟨hid, l, hl, hrecord⟩ := hs.live hget
    exact ⟨hid, l, hsubset l hl, hrecord⟩
  cases h with
  | quiet _ _ _ _ _ hget | stamps _ _ _ _ _ hget => exact hold (hget id ▸ hr)
  | removes _ _ _ _ _ hget =>
    rw [hget] at hr
    split at hr
    · contradiction
    · exact hold hr
  | enters _ hlinks _ _ _ hget =>
    rw [hget] at hr
    split at hr
    next hid =>
      obtain rfl := Option.some.inj hr
      exact ⟨hid, _, by rw [hlinks]; exact List.mem_concat_self .., rfl⟩
    next => exact hold hr
  | writes _ hlinks _ _ _ hget _ _ _ _ hsuccessor =>
    rw [hget] at hr
    split at hr
    next hid =>
      obtain rfl := Option.some.inj hr
      refine ⟨?_, _, by rw [hlinks]; exact List.mem_concat_self .., rfl⟩
      rw [hsuccessor]
      exact hid
    next => exact hold hr

-- ============================================================================
-- Runs
-- ============================================================================

theorem Sound.step (hs : t.Sound) (a : Action) : (t.step a).Sound := by
  have hmoves := t.step_moves a
  have heffect := hmoves.effect
  have hlinks := hs.links_effect heffect
  exact {
    id_le := hs.id_le_moves hmoves
    id_inj := hs.id_inj_moves hmoves
    pending_le := hs.pending_le_effect heffect
    pending_inj := hs.pending_inj_effect heffect
    pending_ne := hs.pending_ne_effect heffect
    links_le := by
      intro l hl
      have hold : ∀ l ∈ t.links, _ :=
        fun l hl => Nat.le_trans (hs.links_le l hl) heffect.lastVersion_le
      rcases hlinks with hsame | ⟨m, happend, -, hle, -⟩
      · exact hold l (hsame ▸ hl)
      · rw [happend, List.mem_append, List.mem_singleton] at hl
        rcases hl with hl | rfl
        · exact hold l hl
        · exact hle
    links_ne := by
      rcases hlinks with hsame | ⟨m, happend, hne, -, -⟩
      · rw [hsame]
        exact hs.links_ne
      · rw [happend, List.pairwise_append]
        refine ⟨hs.links_ne, List.pairwise_singleton _ _, fun l hl o ho => ?_⟩
        rw [List.mem_singleton.1 ho]
        exact hne l hl
    links_born := by
      intro l hl
      rcases hlinks with hsame | ⟨m, happend, -, -, hborn⟩
      · exact heffect.born (hs.links_born l (hsame ▸ hl))
      · rw [happend, List.mem_append, List.mem_singleton] at hl
        rcases hl with hl | rfl
        · exact heffect.born (hs.links_born l hl)
        · exact hborn
    live := hs.live_effect heffect }

theorem Sound.after (hs : t.Sound) (actions : List Action) : (t.after actions).Sound :=
  after_invariant (fun _ a hs => hs.step a) hs actions

theorem sound_run (actions : List Action) : (run actions).Sound :=
  sound_start.after actions

end Traffic
end VersionedStore
