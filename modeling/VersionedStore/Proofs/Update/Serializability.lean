/-
  VersionedStore.Proofs.Update.Serializability

  However the steps of clients interleave, every record comes out as if the
  requests that were committed had been carried out one after the other.
-/
import VersionedStore.Proofs.Change.Sequence
import VersionedStore.Proofs.Update.Ties

namespace VersionedStore
namespace Update
namespace System

variable {ε : Type} {y : System ε}

/-- A request to change a record has ended well. -/
def Committed (y : System ε) (id : RecordId) (j : Nat) : Prop :=
  ∃ req rules done, y.jobs j = some (.update req rules (.finished (.ok done))) ∧ req.id = id

/-- Every record has one history, and everyone has the part in it that they were told. -/
structure Serializable (y : System ε) : Prop where
  /-- The history of a record is a chain: its creation, with the fields that were asked for,
      and commits that each make one request's change to the state before. -/
  chained : ∀ id, y.traffic.chain id = [] ∨ ∃ k c first rest,
    y.traffic.chain id = ⟨.creation k, first⟩ :: rest ∧
      y.traffic.creations k = some c ∧ c.stage = .entered first ∧ first.fields = c.fields ∧
      (y.traffic.chain id).IsChain (y.Follows id)
  created : ∀ k c r, y.traffic.creations k = some c → c.stage.answer? = some (.ok r) →
    y.traffic.ownedBy (.creation k) = [⟨.creation k, r⟩]
  /-- A request that ends well has committed one state, the one that it returns. -/
  committed : ∀ j req rules done,
    y.jobs j = some (.update req rules (.finished (.ok done))) →
      y.traffic.ownedBy (.client j) = [⟨.client j, done.record⟩] ∧ done.record.id = req.id
  /-- A request that fails, in whatever way, has committed nothing. -/
  failed : ∀ j req rules e, y.jobs j = some (.update req rules (.finished (.error e))) →
    y.traffic.ownedBy (.client j) = []
  disjoint : (y.traffic.links.map (·.owner)).Nodup
  /-- A removal that ends well returns the last state of the record, which is gone. -/
  removed : ∀ j id expected r, y.jobs j = some (.removal id expected (some (.ok r))) →
    r.id = id ∧ y.traffic.removedBy j = [(j, r)] ∧ y.traffic.lastOf id = some r ∧
      y.traffic.store.get? id = none ∧ y.traffic.ownedBy (.client j) = []
  kept : ∀ j id expected e, y.jobs j = some (.removal id expected (some (.error e))) →
    y.traffic.removedBy j = [] ∧ y.traffic.ownedBy (.client j) = []
  live : ∀ id r, y.traffic.store.get? id = some r → y.traffic.lastOf id = some r
  /-- The live records are just those that were created and that no removal has returned. -/
  lives : ∀ id, (∃ r, y.traffic.store.get? id = some r) ↔
    (∃ k c r, y.traffic.creations k = some c ∧ c.stage.answer? = some (.ok r) ∧ r.id = id) ∧
      ∀ j expected r, y.jobs j ≠ some (.removal id expected (some (.ok r)))
  /-- The fields of a live record are those of its creation, with the changes of just the
      requests that were committed to it applied one after the other, in commit order. -/
  serial : ∀ id r, y.traffic.store.get? id = some r →
    ∃ (k : Nat) (c : Creation) (js : List Nat), y.traffic.creations k = some c ∧
      (y.traffic.chain id).map (·.owner) = .creation k :: js.map .client ∧
      js.Nodup ∧ (∀ j, j ∈ js ↔ y.Committed id j) ∧
      Change.applyAll (js.filterMap fun j => (y.request? j).map (·.change)) c.fields
        = .ok r.fields

-- ============================================================================
-- Chains and their owners
-- ============================================================================

/-- The last fields of a chain are those of its first link, with the changes of the others
    applied one after the other. -/
theorem applyAll_of_isChain (y : System ε) (id : RecordId) (first : Link) (rest : List Link)
    (h : (first :: rest).IsChain (y.Follows id)) :
    ∃ js : List Nat, rest.map (·.owner) = js.map .client ∧
      ∀ last, (first :: rest).getLast? = some last →
        Change.applyAll (js.filterMap fun j => (y.request? j).map (·.change)) first.record.fields
          = .ok last.record.fields := by
  induction rest generalizing first with
  | nil =>
    refine ⟨[], rfl, fun last hlast => ?_⟩
    obtain rfl := Option.some.inj hlast
    rfl
  | cons m rest ih =>
    obtain ⟨⟨j, req, howner, hreq, -, happly⟩, hrest⟩ := List.isChain_cons_cons.1 h
    obtain ⟨js, howners, hlast⟩ := ih m hrest
    refine ⟨j :: js, ?_, fun last hgetLast => ?_⟩
    · rw [List.map_cons, List.map_cons, howner, howners]
    · rw [List.getLast?_cons_cons] at hgetLast
      have hchanges : (j :: js).filterMap (fun j => (y.request? j).map (·.change))
          = req.change :: js.filterMap fun j => (y.request? j).map (·.change) := by
        simp [hreq]
      rw [hchanges, Change.applyAll, List.foldlM_cons, happly]
      exact hlast last hgetLast

/-- The owners of a record's states, its creation apart, are the requests committed to it. -/
theorem Tied.owner_iff (h : y.Tied) {id : RecordId} {j : Nat} :
    (∃ l ∈ y.traffic.chain id, l.owner = .client j) ↔ y.Committed id j := by
  constructor
  · rintro ⟨l, hl, howner⟩
    rw [Traffic.chain, List.mem_filter, decide_eq_true_iff] at hl
    have hmem : l ∈ y.traffic.ownedBy (.client j) := by
      rw [Traffic.ownedBy, List.mem_filter, decide_eq_true_iff]
      exact ⟨hl.1, howner⟩
    cases hj : y.jobs j with
    | none =>
      rw [(h.vacant j hj).1] at hmem
      contradiction
    | some job =>
      rcases (h.jobs j job hj).owned with hnil | ⟨req, rules, done, rfl, hid, howned⟩
      · rw [hnil] at hmem
        contradiction
      · rw [howned, List.mem_singleton] at hmem
        refine ⟨req, rules, done, hj, ?_⟩
        rw [← hid, ← hl.2, hmem]
  · rintro ⟨req, rules, done, hj, rfl⟩
    obtain ⟨-, howned, hid⟩ := h.jobs j _ hj
    have hmem : ⟨.client j, done.record⟩ ∈ y.traffic.ownedBy (.client j) := by
      rw [howned]
      exact List.mem_singleton_self _
    rw [Traffic.ownedBy, List.mem_filter] at hmem
    refine ⟨⟨.client j, done.record⟩, ?_, rfl⟩
    rw [Traffic.chain, List.mem_filter, decide_eq_true_iff]
    exact ⟨hmem.1, hid⟩

theorem Tied.nodup_owners (h : y.Tied) : (y.traffic.links.map (·.owner)).Nodup := by
  refine Traffic.nodup_owners fun owner => ?_
  cases owner with
  | creation k =>
    rw [h.ledger.entered_owned]
    cases y.traffic.enteredOf k <;> simp
  | client j =>
    cases hj : y.jobs j with
    | none => simp [(h.vacant j hj).1]
    | some job =>
      rcases (h.jobs j job hj).owned with hnil | ⟨req, rules, done, -, -, howned⟩
      · simp [hnil]
      · simp [howned]

/-- A chain begins with its creation and the fields that were asked for. -/
theorem Tied.root (h : y.Tied) (id : RecordId) : y.traffic.chain id = [] ∨ ∃ k c first rest,
    y.traffic.chain id = ⟨.creation k, first⟩ :: rest ∧
      y.traffic.creations k = some c ∧ c.stage = .entered first ∧ first.fields = c.fields := by
  rcases h.ledger.rooted id with hnil | ⟨k, first, rest, hchain, hentered, -⟩
  · exact .inl hnil
  · obtain ⟨c, hc, hstage⟩ := Option.bind_eq_some_iff.1 hentered
    have hfields := h.ledger.fields_kept hc (.inr hstage)
    refine .inr ⟨k, c, first, rest, hchain, hc, ?_, hfields⟩
    obtain ⟨fields, stage⟩ := c
    cases stage <;> simp_all [Stage.entered?]

theorem Tied.serial (h : y.Tied) {id : RecordId} {r : Record}
    (hr : y.traffic.store.get? id = some r) :
    ∃ (k : Nat) (c : Creation) (js : List Nat), y.traffic.creations k = some c ∧
      (y.traffic.chain id).map (·.owner) = .creation k :: js.map .client ∧
      js.Nodup ∧ (∀ j, j ∈ js ↔ y.Committed id j) ∧
      Change.applyAll (js.filterMap fun j => (y.request? j).map (·.change)) c.fields
        = .ok r.fields := by
  obtain ⟨last, hlast, rfl⟩ := Option.map_eq_some_iff.1 (h.ledger.last_live hr)
  have hfollows := h.follows id
  rcases h.root id with hnil | ⟨k, c, first, rest, hchain, hc, hstage, hfields⟩
  · rw [hnil] at hlast
    contradiction
  · rw [hchain] at hfollows hlast
    obtain ⟨js, howners, hfold⟩ := applyAll_of_isChain y id _ rest hfollows
    have hmap : (y.traffic.chain id).map (·.owner) = .creation k :: js.map .client := by
      rw [hchain, List.map_cons, howners]
    refine ⟨k, c, js, hc, hmap, ?_, fun j => ?_, hfields ▸ hfold last hlast⟩
    · have hsublist : ((y.traffic.chain id).map (·.owner)).Sublist
          (y.traffic.links.map (·.owner)) := List.filter_sublist.map _
      have hnodup := h.nodup_owners.sublist hsublist
      rw [hmap, List.nodup_cons] at hnodup
      exact hnodup.2.of_map
    · rw [← h.owner_iff]
      have hmem : j ∈ js ↔ Owner.client j ∈ (y.traffic.chain id).map (·.owner) := by
        rw [hmap]
        simp
      rw [hmem, List.mem_map]

/-- What a creation that has ended well returns is a state of its record. -/
theorem Tied.owned_of_answer (h : y.Tied) {k : Nat} {c : Creation} {r : Record}
    (hc : y.traffic.creations k = some c) (hr : c.stage.answer? = some (.ok r)) :
    y.traffic.ownedBy (.creation k) = [⟨.creation k, r⟩] := by
  obtain ⟨fields, stage⟩ := c
  have hstage : stage = .entered r := by cases stage <;> simp_all [Stage.answer?]
  have hentered : y.traffic.enteredOf k = some r := by
    simp [Traffic.enteredOf, hc, hstage, Stage.entered?]
  rw [h.ledger.entered_owned, hentered]
  rfl

/-- A logged removal is that of the client that was told of it. -/
theorem Tied.removal_of_mem (h : y.Tied) {j : Nat} {r : Record}
    (hmem : (j, r) ∈ y.traffic.removals) :
    ∃ expected, y.jobs j = some (.removal r.id expected (some (.ok r))) := by
  have hremoved : (j, r) ∈ y.traffic.removedBy j :=
    List.mem_filter.2 ⟨hmem, decide_eq_true rfl⟩
  cases hj : y.jobs j with
  | none =>
    rw [(h.vacant j hj).2] at hremoved
    contradiction
  | some job =>
    have htied := h.jobs j job hj
    match job with
    | .update .. =>
      rw [htied.1] at hremoved
      contradiction
    | .removal _ _ none | .removal _ _ (some (.error _)) =>
      rw [htied.2] at hremoved
      contradiction
    | .removal id expected (some (.ok q)) =>
      obtain ⟨-, hsingle, hid⟩ := htied
      rw [hsingle, List.mem_singleton] at hremoved
      obtain rfl := (Prod.mk.inj hremoved).2
      exact ⟨expected, by rw [hid]⟩

/-- A removal that has ended well has removed the last state of its record. -/
theorem Tied.removed (h : y.Tied) {j : Nat} {id : RecordId} {expected : Version} {r : Record}
    (hj : y.jobs j = some (.removal id expected (some (.ok r)))) :
    y.traffic.store.get? id = none ∧ y.traffic.lastOf id = some r := by
  obtain ⟨-, hremoved, hid⟩ := h.jobs j _ hj
  have hmem : (j, r) ∈ y.traffic.removals := by
    have hsingle : (j, r) ∈ y.traffic.removedBy j := by
      rw [hremoved]
      exact List.mem_singleton_self _
    exact (List.mem_filter.1 hsingle).1
  exact hid ▸ h.ledger.last_removed hmem

theorem Tied.live_iff (h : y.Tied) (id : RecordId) :
    (∃ r, y.traffic.store.get? id = some r) ↔
      (∃ k c r, y.traffic.creations k = some c ∧ c.stage.answer? = some (.ok r) ∧ r.id = id) ∧
        ∀ j expected r, y.jobs j ≠ some (.removal id expected (some (.ok r))) := by
  constructor
  · rintro ⟨r, hr⟩
    refine ⟨?_, fun j expected q hj => ?_⟩
    · obtain ⟨k, first, hfirst, hid⟩ := h.ledger.sound.born_of_get? hr
      obtain ⟨c, hc, hentered⟩ := Option.bind_eq_some_iff.1 hfirst
      refine ⟨k, c, first, hc, ?_, hid⟩
      cases hstage : c.stage <;> simp_all [Stage.entered?, Stage.answer?]
    · rw [(h.removed hj).1] at hr
      contradiction
  · rintro ⟨⟨k, c, first, hc, hanswer, hid⟩, hkept⟩
    have hfirst : ⟨.creation k, first⟩ ∈ y.traffic.ownedBy (.creation k) := by
      rw [h.owned_of_answer hc hanswer]
      exact List.mem_singleton_self _
    have hchain : y.traffic.chain id ≠ [] :=
      List.ne_nil_of_mem (List.mem_filter.2 ⟨(List.mem_filter.1 hfirst).1, decide_eq_true hid⟩)
    cases hget : y.traffic.store.get? id with
    | some r => exact ⟨r, rfl⟩
    | none =>
      obtain ⟨j, r, hmem, rfl⟩ := h.ledger.gone hchain hget
      obtain ⟨expected, hj⟩ := h.removal_of_mem hmem
      exact absurd hj (hkept j expected r)

theorem Tied.serializable (h : y.Tied) : y.Serializable where
  chained id := by
    rcases h.root id with hnil | ⟨k, c, first, rest, hchain, hc, hstage, hfields⟩
    · exact .inl hnil
    · exact .inr ⟨k, c, first, rest, hchain, hc, hstage, hfields, h.follows id⟩
  created _ _ _ := h.owned_of_answer
  committed j req rules done hj := (h.jobs j _ hj).2
  failed j req rules e hj := (h.jobs j _ hj).2
  disjoint := h.nodup_owners
  removed j id expected r hj := by
    obtain ⟨hown, hremoved, hid⟩ := h.jobs j _ hj
    obtain ⟨hgone, hlast⟩ := h.removed hj
    exact ⟨hid, hremoved, hlast, hgone, hown⟩
  kept j id expected e hj := (h.jobs j _ hj).symm
  live _ _ := h.ledger.last_live
  lives := h.live_iff
  serial _ _ := h.serial

/-- However the steps of any number of clients interleave, with any requests and policies, and
    whatever the signals and the clock do, the histories of records are serial, and everyone
    has had the part in them that they were told. -/
theorem run_serializable (watch : Watch ε) (outside : ε) (events : List (Event ε)) :
    (run watch outside events).Serializable :=
  (tied_run watch outside events).serializable

/-- Two adjustments read the same state; the one that loses the race goes on from the other's. -/
example :
    let watch : Watch Unit := ⟨fun _ => pure false, pure 0, fun _ => pure (), none⟩
    let adjust (j : Nat) (delta : Int64) : Event Unit :=
      .request j (.adjust ⟨1⟩ "stock" delta) ⟨default, ∅⟩
    let work (j : Nat) : Event Unit := .work j default
    let y := run watch () [
      .ask 0 ((∅ : Fields).insert "stock" (.int 5)), .advance 0 default, .advance 0 default,
      .advance 0 default, adjust 1 3, adjust 2 4, work 1, work 2, work 1, work 2, work 1, work 2,
      work 1, work 2, work 2, work 2]
    (y.traffic.store.get? ⟨1⟩).bind (·.fields.get? "stock") = some (.int 12) := by
  decide

end System

end Update
end VersionedStore
