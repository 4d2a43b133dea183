/-
  VersionedStore.Proofs.Store.Ledger

  Who committed which state, and how the states of a record are linked up.

  The links of one record form a chain that starts with its creation and goes on
  with writes of clients.  Its last link is the live record or, after a removal,
  the record that was removed (`Ledger`).
-/
import Mathlib.Data.List.Nodup
import VersionedStore.Proofs.Store.Life

namespace VersionedStore
namespace Traffic

variable {t t' : Traffic} {a : Action}

/-- The states that someone committed. -/
def ownedBy (t : Traffic) (owner : Owner) : List Link :=
  t.links.filter (·.owner = owner)

/-- The removals of one client. -/
def removedBy (t : Traffic) (client : Nat) : List (Nat × Record) :=
  t.removals.filter (·.1 = client)

/-- The last state of a record that was committed. -/
def lastOf (t : Traffic) (id : RecordId) : Option Record :=
  (t.chain id).getLast?.map (·.record)

/-- A chain starts with a creation and goes on with writes of clients. -/
def Rooted (t : Traffic) (chain : List Link) : Prop :=
  ∃ k r rest, chain = ⟨.creation k, r⟩ :: rest ∧ t.enteredOf k = some r ∧
    ∀ l ∈ rest, ∃ client, l.owner = .client client

/-- The links of a store tell whole lives of records. -/
structure Ledger (t : Traffic) : Prop where
  sound : t.Sound
  last_live : ∀ {id : RecordId} {r : Record}, t.store.get? id = some r → t.lastOf id = some r
  last_removed : ∀ {client : Nat} {r : Record}, (client, r) ∈ t.removals →
    t.store.get? r.id = none ∧ t.lastOf r.id = some r
  /-- A record that has states and is not live was removed. -/
  gone : ∀ {id : RecordId}, t.chain id ≠ [] → t.store.get? id = none →
    ∃ client r, (client, r) ∈ t.removals ∧ r.id = id
  rooted : ∀ id, t.chain id = [] ∨ t.Rooted (t.chain id)
  entered_owned : ∀ k, t.ownedBy (.creation k) = ((t.enteredOf k).map (⟨.creation k, ·⟩)).toList
  /-- Creations enter the fields that they were asked for. -/
  fields_kept : ∀ {k : Nat} {c : Creation} {r : Record}, t.creations k = some c →
    c.stage.pending? = some r ∨ c.stage.entered? = some r → r.fields = c.fields

-- ============================================================================
-- Chains and owners after one more link
-- ============================================================================

theorem chain_append {l : Link} (hlinks : t'.links = t.links ++ [l]) (id : RecordId) :
    t'.chain id = if l.record.id = id then t.chain id ++ [l] else t.chain id := by
  rw [chain, chain, hlinks, List.filter_append]
  by_cases hid : l.record.id = id <;> simp [hid]

theorem ownedBy_append {l : Link} (hlinks : t'.links = t.links ++ [l]) (owner : Owner) :
    t'.ownedBy owner = if l.owner = owner then t.ownedBy owner ++ [l] else t.ownedBy owner := by
  rw [ownedBy, ownedBy, hlinks, List.filter_append]
  by_cases howner : l.owner = owner <;> simp [howner]

theorem lastOf_append {l : Link} (hlinks : t'.links = t.links ++ [l]) (id : RecordId) :
    t'.lastOf id = if l.record.id = id then some l.record else t.lastOf id := by
  rw [lastOf, lastOf, chain_append hlinks]
  split
  · rw [List.getLast?_concat]
    rfl
  · rfl

theorem removedBy_append {client : Nat} {r : Record}
    (hremovals : t'.removals = t.removals ++ [(client, r)]) (other : Nat) :
    t'.removedBy other
      = if client = other then t.removedBy other ++ [(client, r)] else t.removedBy other := by
  rw [removedBy, removedBy, hremovals, List.filter_append]
  by_cases hclient : client = other <;> simp [hclient]

theorem removedBy_of_removals (hremovals : t'.removals = t.removals) (client : Nat) :
    t'.removedBy client = t.removedBy client := by
  rw [removedBy, removedBy, hremovals]

theorem ownedBy_of_links (hlinks : t'.links = t.links) (owner : Owner) :
    t'.ownedBy owner = t.ownedBy owner := by
  rw [ownedBy, ownedBy, hlinks]

theorem chain_of_links (hlinks : t'.links = t.links) (id : RecordId) :
    t'.chain id = t.chain id := by
  rw [chain, chain, hlinks]

theorem lastOf_of_links (hlinks : t'.links = t.links) (id : RecordId) :
    t'.lastOf id = t.lastOf id := by
  rw [lastOf, lastOf, chain_of_links hlinks]

theorem mem_of_lastOf {id : RecordId} {r : Record} (h : t.lastOf id = some r) :
    ∃ l ∈ t.links, l.record = r ∧ r.id = id := by
  obtain ⟨l, hl, rfl⟩ := Option.map_eq_some_iff.1 h
  have hmem := List.mem_of_getLast? hl
  rw [chain, List.mem_filter, decide_eq_true_iff] at hmem
  exact ⟨l, hmem.1, rfl, hmem.2⟩

/-- A record that was never entered has no states. -/
theorem Sound.chain_of_not_born (hs : t.Sound) {id : RecordId} (hborn : ¬t.Born id) :
    t.chain id = [] := by
  rw [List.eq_nil_iff_forall_not_mem]
  intro l hl
  rw [chain, List.mem_filter, decide_eq_true_iff] at hl
  obtain ⟨hmem, rfl⟩ := hl
  exact hborn (hs.links_born l hmem)

/-- Only a client's own steps add to what it has committed. -/
theorem Effect.ownedBy_client (h : t.Effect t' a) {client : Nat}
    (hother : ∀ m, a ≠ .mutate client m) :
    t'.ownedBy (.client client) = t.ownedBy (.client client) := by
  cases h with
  | quiet _ hlinks | stamps _ hlinks | removes _ hlinks => exact ownedBy_of_links hlinks _
  | enters _ hlinks => rw [ownedBy_append hlinks, if_neg (by simp)]
  | @writes j m _ _ _ _ _ hlinks =>
    rw [ownedBy_append hlinks, if_neg]
    intro howner
    obtain rfl := Owner.client.inj howner
    exact hother m rfl

/-- Only a client's own steps add to what it has removed. -/
theorem Effect.removedBy (h : t.Effect t' a) {client : Nat}
    (hother : ∀ m, a ≠ .mutate client m) : t'.removedBy client = t.removedBy client := by
  cases h with
  | quiet _ _ _ _ hremovals | stamps _ _ _ _ hremovals | enters _ _ _ _ hremovals
  | writes _ _ _ _ hremovals => exact removedBy_of_removals hremovals client
  | @removes j m current _ _ _ _ hremovals =>
    have hne : j ≠ client := by
      rintro rfl
      exact hother m rfl
    rw [removedBy_append hremovals, if_neg hne]

-- ============================================================================
-- Writes and removals, by their answers
-- ============================================================================

/-- A state that was committed; it may have been written over or removed since. -/
def Past (t : Traffic) (r : Record) : Prop :=
  ∃ l ∈ t.links, l.record = r

/-- What a client is told of a write or a removal, and what becomes of the links. -/
inductive Told (t : Traffic) (client : Nat) (m : Mutation) (t' : Traffic) :
    Except StoreError WriteOutcome → Prop where
  | refused {answer : Except StoreError WriteOutcome}
      (hlinks : t'.links = t.links) (hremovals : t'.removals = t.removals)
      (hno : ∀ r, answer ≠ .ok (.committed r))
      (hcurrent : ∀ r, answer = .ok (.versionMismatch r) → t.store.get? m.id = some r) :
      Told t client m t' answer
  | written {current next : Record} {now : Instant} {fields : Fields}
      (hdeed : m.deed = .write now fields)
      (hlinks : t'.links = t.links ++ [⟨.client client, next⟩])
      (hremovals : t'.removals = t.removals)
      (hcurrent : t.store.get? m.id = some current) (hversion : current.version = m.expected)
      (hid : next.id = current.id) (hfields : next.fields = fields) :
      Told t client m t' (.ok (.committed next))
  | removed {current : Record} (hdeed : m.deed = .delete)
      (hlinks : t'.links = t.links) (hremovals : t'.removals = t.removals ++ [(client, current)])
      (hcurrent : t.store.get? m.id = some current) (hversion : current.version = m.expected) :
      Told t client m t' (.ok (.committed current))

theorem told (t : Traffic) (client : Nat) (m : Mutation) :
    t.Told client m (t.step (.mutate client m)) (m.perform t.store).1 := by
  have hlog : (t.step (.mutate client m)).log
      = t.log ++ [.mutated client m (m.perform t.store).1] := rfl
  have houtcome := m.perform_outcome t.store
  generalize (m.perform t.store).1 = answer at hlog houtcome
  generalize t.step (.mutate client m) = t' at hlog
  generalize (m.perform t.store).2 = s at houtcome
  cases houtcome with
  | missing | spent =>
    refine .refused ?_ ?_ (by simp) (by simp)
    · simp [links, hlog, Entry.link?]
    · simp [removals, hlog, Entry.removal?]
  | stale hget =>
    refine .refused ?_ ?_ (by simp) fun r hr => ?_
    · simp [links, hlog, Entry.link?]
    · simp [removals, hlog, Entry.removal?]
    · obtain rfl : _ = r := by simpa using hr
      exact hget
  | written hget hversion hdeed =>
    obtain ⟨id, expected, deed⟩ := m
    subst hdeed
    refine .written rfl ?_ ?_ hget hversion rfl rfl
    · simp [links, hlog, Entry.link?]
    · simp [removals, hlog, Entry.removal?]
  | removed hget hversion hdeed =>
    obtain ⟨id, expected, deed⟩ := m
    subst hdeed
    refine .removed rfl ?_ ?_ hget hversion
    · simp [links, hlog, Entry.link?]
    · simp [removals, hlog, Entry.removal?]

/-- A write removes nothing. -/
theorem Told.removals_eq {client : Nat} {m : Mutation} {answer : Except StoreError WriteOutcome}
    (h : t.Told client m t' answer) (hdeed : m.deed ≠ .delete) : t'.removals = t.removals := by
  cases h with
  | refused _ hremovals | written _ _ hremovals => exact hremovals
  | removed hdelete => exact absurd hdelete hdeed

/-- A removal commits no state. -/
theorem Told.links_eq {client : Nat} {m : Mutation} {answer : Except StoreError WriteOutcome}
    (h : t.Told client m t' answer) (hdeed : m.deed = .delete) : t'.links = t.links := by
  cases h with
  | refused hlinks | removed _ hlinks => exact hlinks
  | written hwrite =>
    rw [hdeed] at hwrite
    contradiction

/-- A version belongs to one committed state. -/
theorem Sound.eq_of_version (hs : t.Sound) {r q : Record} (hr : t.Past r) (hq : t.Past q)
    (hversion : r.version = q.version) : r = q := by
  obtain ⟨l, hl, rfl⟩ := hr
  obtain ⟨m, hm, rfl⟩ := hq
  have hnodup : (t.links.map fun l => l.record.version).Nodup := List.pairwise_map.2 hs.links_ne
  rw [List.inj_on_of_nodup_map hnodup hl hm hversion]

theorem past_step (t : Traffic) (a : Action) {r : Record} (hr : t.Past r) :
    (t.step a).Past r := by
  obtain ⟨l, hl, hrecord⟩ := hr
  exact ⟨l, (t.step_moves a).effect.links_subset hl, hrecord⟩

/-- If everyone has committed one state at most, then no two states have one owner. -/
theorem nodup_owners (h : ∀ owner, (t.ownedBy owner).length ≤ 1) :
    (t.links.map (·.owner)).Nodup := by
  rw [List.nodup_iff_count_le_one]
  intro owner
  have hcount : (t.links.map (·.owner)).count owner = (t.ownedBy owner).length := by
    rw [List.count, List.countP_map, List.countP_eq_length_filter, ownedBy]
    congr 1
  rw [hcount]
  exact h owner

-- ============================================================================
-- What one step keeps
-- ============================================================================

theorem Ledger.last_live_effect (hl : t.Ledger) (h : t.Effect t' a) {id : RecordId} {r : Record}
    (hr : t'.store.get? id = some r) : t'.lastOf id = some r := by
  cases h with
  | quiet _ hlinks _ _ _ hget | stamps _ hlinks _ _ _ hget =>
    rw [lastOf_of_links hlinks]
    exact hl.last_live (hget id ▸ hr)
  | enters _ hlinks _ _ _ hget =>
    rw [hget] at hr
    rw [lastOf_append hlinks]
    split at hr
    next hid => rw [if_pos hid, hr]
    next hid =>
      rw [if_neg hid]
      exact hl.last_live hr
  | writes _ hlinks _ _ _ hget _ _ _ _ hsuccessor =>
    have hid := congrArg Record.id hsuccessor
    rw [hget] at hr
    rw [lastOf_append hlinks, hid]
    split at hr
    next hcurrent => rw [Record.successor, if_pos hcurrent, hr]
    next hcurrent =>
      rw [Record.successor, if_neg hcurrent]
      exact hl.last_live hr
  | removes _ hlinks _ _ _ hget =>
    rw [hget] at hr
    split at hr
    · contradiction
    · rw [lastOf_of_links hlinks]
      exact hl.last_live hr

theorem Ledger.last_removed_effect (hl : t.Ledger) (h : t.Effect t' a) {client : Nat} {r : Record}
    (hr : (client, r) ∈ t'.removals) :
    t'.store.get? r.id = none ∧ t'.lastOf r.id = some r := by
  cases h with
  | quiet _ hlinks _ _ hremovals hget | stamps _ hlinks _ _ hremovals hget =>
    rw [lastOf_of_links hlinks, hget]
    exact hl.last_removed (hremovals ▸ hr)
  | enters _ hlinks _ _ hremovals hget hwaiting =>
    obtain ⟨hgone, hlast⟩ := hl.last_removed (hremovals ▸ hr)
    obtain ⟨l, hmem, rfl, -⟩ := mem_of_lastOf hlast
    rw [hget, lastOf_append hlinks]
    split
    next hid => exact absurd (hid ▸ hl.sound.links_born l hmem) (hl.sound.not_born hwaiting)
    next => exact ⟨hgone, hlast⟩
  | @writes _ m current _ _ _ _ hlinks _ _ hremovals hget _ hcurrent _ _ hsuccessor =>
    obtain ⟨hgone, hlast⟩ := hl.last_removed (hremovals ▸ hr)
    have hne : current.id ≠ r.id := by
      intro hid
      rw [(hl.sound.live hcurrent).1] at hid
      rw [hid, hgone] at hcurrent
      contradiction
    have hid := congrArg Record.id hsuccessor
    rw [hget, lastOf_append hlinks, hid, Record.successor, if_neg hne, if_neg hne]
    exact ⟨hgone, hlast⟩
  | removes _ hlinks _ _ hremovals hget hcurrent =>
    rw [hremovals, List.mem_append, List.mem_singleton] at hr
    rw [hget, lastOf_of_links hlinks]
    rcases hr with hold | hnew
    · obtain ⟨hgone, hlast⟩ := hl.last_removed hold
      exact ⟨by split <;> trivial, hlast⟩
    · obtain ⟨-, rfl⟩ := Prod.mk.inj hnew
      have hid := (hl.sound.live hcurrent).1
      exact ⟨if_pos hid.symm, hid ▸ hl.last_live hcurrent⟩

/-- Only a record that is live afterwards is given a state. -/
theorem Effect.chain_of_gone (h : t.Effect t' a) {id : RecordId}
    (hgone : t'.store.get? id = none) : t'.chain id = t.chain id := by
  cases h with
  | quiet _ hlinks | stamps _ hlinks | removes _ hlinks => exact chain_of_links hlinks id
  | enters _ hlinks _ _ _ hget =>
    rw [hget] at hgone
    rw [chain_append hlinks]
    split at hgone
    next => contradiction
    next hid => rw [if_neg hid]
  | writes _ hlinks _ _ _ hget _ _ _ _ hsuccessor =>
    have hid := congrArg Record.id hsuccessor
    rw [hget] at hgone
    rw [chain_append hlinks, hid]
    split at hgone
    next => contradiction
    next hne => rw [Record.successor, if_neg hne]

theorem Ledger.gone_effect (hl : t.Ledger) (h : t.Effect t' a) {id : RecordId}
    (hchain : t'.chain id ≠ []) (hgone : t'.store.get? id = none) :
    ∃ client r, (client, r) ∈ t'.removals ∧ r.id = id := by
  cases hget : t.store.get? id with
  | some r =>
    obtain ⟨client, hmem⟩ := h.removal_of_gone hget hgone
    exact ⟨client, r, hmem, (hl.sound.live hget).1⟩
  | none =>
    rw [h.chain_of_gone hgone] at hchain
    obtain ⟨client, r, hmem, hid⟩ := hl.gone hchain hget
    exact ⟨client, r, h.removals_subset hmem, hid⟩

theorem Ledger.rooted_effect (hl : t.Ledger) (h : t.Effect t' a) (id : RecordId) :
    t'.chain id = [] ∨ t'.Rooted (t'.chain id) := by
  have hkeep : t'.chain id = t.chain id →
      (∀ k r, t.enteredOf k = some r → t'.enteredOf k = some r) →
      t'.chain id = [] ∨ t'.Rooted (t'.chain id) := by
    intro hchain hentered
    rw [hchain]
    rcases hl.rooted id with hnil | ⟨k, r, rest, hrest, hr, howners⟩
    · exact .inl hnil
    · exact .inr ⟨k, r, rest, hrest, hentered k r hr, howners⟩
  cases h with
  | quiet _ hlinks _ hentered | stamps _ hlinks _ hentered | removes _ hlinks _ hentered =>
    exact hkeep (chain_of_links hlinks id) fun k r hr => hentered k ▸ hr
  | @enters k _ r _ hlinks _ hentered _ _ hwaiting hnew =>
    have hchain := chain_append hlinks id
    split at hchain
    next hid =>
      have hempty := hl.sound.chain_of_not_born (hl.sound.not_born hwaiting)
      rw [← hid, hempty] at hchain
      rw [← hid, hchain]
      exact .inr ⟨k, r, [], rfl, by rw [hentered, if_pos rfl], by simp⟩
    next =>
      refine hkeep hchain fun j q hq => ?_
      have hj : j ≠ k := by
        rintro rfl
        rw [hnew] at hq
        contradiction
      rw [hentered, if_neg hj, hq]
  | @writes client m current next _ _ _ hlinks _ hentered _ _ _ hcurrent _ _ hsuccessor =>
    have hkeeps : ∀ k r, t.enteredOf k = some r → t'.enteredOf k = some r :=
      fun k r hr => hentered k ▸ hr
    have hchain := chain_append hlinks id
    split at hchain
    next hid =>
      -- a record that is live was committed, so its chain is not empty
      have hlive := hl.last_live hcurrent
      have hm : m.id = id := by
        rw [← hid, ← (hl.sound.live hcurrent).1, congrArg Record.id hsuccessor]
        rfl
      rcases hl.rooted id with hnil | ⟨k, r, rest, hrest, hr, howners⟩
      · rw [hm, lastOf, hnil] at hlive
        contradiction
      · refine .inr ⟨k, r, rest ++ [⟨.client client, next⟩], ?_, hkeeps k r hr, ?_⟩
        · rw [hchain, hrest]
          rfl
        · intro l hmem
          rw [List.mem_append, List.mem_singleton] at hmem
          rcases hmem with hmem | rfl
          · exact howners l hmem
          · exact ⟨client, rfl⟩
    next => exact hkeep hchain hkeeps

theorem Ledger.entered_owned_effect (hl : t.Ledger) (h : t.Effect t' a) (k : Nat) :
    t'.ownedBy (.creation k) = ((t'.enteredOf k).map (⟨.creation k, ·⟩)).toList := by
  cases h with
  | quiet _ hlinks _ hentered | stamps _ hlinks _ hentered | removes _ hlinks _ hentered =>
    rw [ownedBy_of_links hlinks, hentered]
    exact hl.entered_owned k
  | @enters j _ r _ hlinks _ hentered _ _ _ hnew =>
    rw [ownedBy_append hlinks, hentered, hl.entered_owned]
    by_cases hk : k = j
    · subst hk
      simp [hnew]
    · rw [if_neg (by simp [Ne.symm hk]), if_neg hk]
  | writes _ hlinks _ hentered =>
    rw [ownedBy_append hlinks, if_neg (by simp), hentered]
    exact hl.entered_owned k

theorem Ledger.fields_kept_moves (hl : t.Ledger) (h : t.Moves a t') {k : Nat} {c : Creation}
    {r : Record} (hc : t'.creations k = some c)
    (hr : c.stage.pending? = some r ∨ c.stage.entered? = some r) : r.fields = c.fields := by
  have hupdate : ∀ {j : Nat} {new : Creation},
      Function.update t.creations j (some new) k = some c →
      (new.stage.pending? = some r ∨ new.stage.entered? = some r → r.fields = new.fields) →
      r.fields = c.fields := by
    intro j new hnew hfields
    rw [Function.update_apply] at hnew
    split at hnew
    · obtain rfl := Option.some.inj hnew
      exact hfields hr
    · exact hl.fields_kept hnew hr
  cases h with
  | taken | rests | mutates => exact hl.fields_kept hc hr
  | asks | named | unnamed | unstamped =>
    exact hupdate hc fun hnone => by simp [Stage.pending?, Stage.entered?] at hnone
  | stamped =>
    refine hupdate hc fun hsome => ?_
    rcases hsome with hsome | hsome
    · obtain rfl := Option.some.inj hsome
      rfl
    · contradiction
  | enters hold =>
    refine hupdate hc fun hsome => ?_
    rcases hsome with hsome | hsome
    · contradiction
    · have hfields := hl.fields_kept hold (.inl hsome)
      exact hfields

-- ============================================================================
-- Runs
-- ============================================================================

/-- A step of a creation begins a chain, if it does anything to chains. -/
theorem Ledger.chain_creation (hl : t.Ledger) (ha : ∀ client m, a ≠ .mutate client m)
    (id : RecordId) : (t.step a).chain id = t.chain id ∨ ∃ l, (t.step a).chain id = [l] := by
  have heffect := (t.step_moves a).effect
  generalize t.step a = t' at heffect
  cases heffect with
  | quiet _ hlinks | stamps _ hlinks => exact .inl (chain_of_links hlinks id)
  | enters _ hlinks _ _ _ _ hwaiting =>
    have hchain := chain_append hlinks id
    split at hchain
    next hid =>
      rw [← hid, hl.sound.chain_of_not_born (hl.sound.not_born hwaiting)] at hchain
      exact .inr ⟨_, hid ▸ hchain⟩
    next => exact .inl hchain
  | @writes client m | @removes client m => exact absurd rfl (ha client m)

theorem ledger_start : start.Ledger where
  sound := sound_start
  last_live h := by
    obtain ⟨-, l, hl, -⟩ := sound_start.live h
    simp [start, links] at hl
  last_removed h := by simp [start, removals] at h
  gone h := absurd rfl h
  rooted _ := .inl rfl
  entered_owned _ := rfl
  fields_kept h := by simp [start] at h

theorem Ledger.step (hl : t.Ledger) (a : Action) : (t.step a).Ledger where
  sound := hl.sound.step a
  last_live := hl.last_live_effect (t.step_moves a).effect
  last_removed := hl.last_removed_effect (t.step_moves a).effect
  gone := hl.gone_effect (t.step_moves a).effect
  rooted := hl.rooted_effect (t.step_moves a).effect
  entered_owned := hl.entered_owned_effect (t.step_moves a).effect
  fields_kept := hl.fields_kept_moves (t.step_moves a)

end Traffic
end VersionedStore
