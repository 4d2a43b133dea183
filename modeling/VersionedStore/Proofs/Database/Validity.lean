/-
  VersionedStore.Proofs.Database.Validity

  Every record that a database holds or hands out is acceptable.

  Whether a record is acceptable is a matter of its fields alone, so what an order
  has come to know stays acceptable whatever others do, and only its own steps have
  to be looked at.  A candidate is checked when it is worked out, from a base that
  may be outdated by the time of the write; but what the write puts into the store
  is the candidate and nothing else.

  An operation that is run as a whole takes the steps of its order with nothing in
  between (`Usage.exists_operation`), so what holds of all runs holds of it.
-/
import VersionedStore.Proofs.Constraints.Validation
import VersionedStore.Proofs.Database.Operations
import VersionedStore.Proofs.Update.Clients

namespace VersionedStore

/-- The fields of a record are acceptable. -/
def Constraints.Admits (c : Constraints) (r : Record) : Prop :=
  c.validate r.fields = .ok ()

-- ============================================================================
-- The store
-- ============================================================================

variable {c : Constraints}

/-- All live records are acceptable. -/
def Store.Admitted (c : Constraints) (s : Store) : Prop :=
  ∀ id r, s.get? id = some r → c.Admits r

theorem Store.Admitted.enter {s : Store} (h : s.Admitted c) {r : Record} (hr : c.Admits r) :
    (Store.enter r s).2.Admitted c := by
  intro id q hq
  rw [Store.get?_enter] at hq
  split at hq
  · exact Option.some.inj hq ▸ hr
  · exact h id q hq

/-- A write of acceptable fields, or a removal, leaves the store acceptable, and so is the record
    in the answer. -/
theorem Mutation.Outcome.admitted {m : Mutation} {s s' : Store}
    {answer : Except StoreError WriteOutcome} (houtcome : m.Outcome s answer s')
    (h : s.Admitted c)
    (hdeed : ∀ now fields, m.deed = .write now fields → c.validate fields = .ok ()) :
    s'.Admitted c ∧ ∀ outcome, answer = .ok outcome → ∀ r, outcome.record? = some r →
      c.Admits r := by
  cases houtcome with
  | missing hget =>
    refine ⟨h, ?_⟩
    rintro outcome ⟨⟩ r hr
    contradiction
  | stale hget hne =>
    refine ⟨h, ?_⟩
    rintro outcome ⟨⟩ _ ⟨⟩
    exact h _ _ hget
  | spent => exact ⟨h, fun outcome houtcome => nomatch houtcome⟩
  | @written current now fields n hget hversion hwrite hnext =>
    have hnew : c.Admits (current.successor now fields ⟨n⟩) := hdeed now fields hwrite
    refine ⟨Store.Admitted.enter h hnew, ?_⟩
    rintro outcome ⟨⟩ r ⟨⟩
    exact hnew
  | @removed current hget hversion hdelete =>
    refine ⟨fun id q hq => ?_, ?_⟩
    · rw [Store.get?_erase] at hq
      split at hq
      · contradiction
      · exact h id q hq
    · rintro outcome ⟨⟩ _ ⟨⟩
      exact h _ _ hget

/-- A creation whose fields were accepted. -/
def Creation.Admitted (c : Constraints) (creation : Creation) : Prop :=
  c.validate creation.fields = .ok () ∧
    ∀ r, creation.stage.pending? = some r ∨ creation.stage.entered? = some r → c.Admits r

theorem Creation.Admitted.next {creation : Creation} {s : Store} (h : creation.Admitted c)
    (hs : s.Admitted c) (now : Instant) :
    (creation.next now s).1.Admitted c ∧ (creation.next now s).2.Admitted c := by
  obtain ⟨fields, stage⟩ := creation
  obtain ⟨hfields, hstage⟩ := h
  cases stage with
  | asked =>
    rw [Creation.next_asked]
    cases hnext : nextNumber? s.lastId with
    | none =>
      rw [Store.takeId_of_none hnext]
      exact ⟨⟨hfields, fun r hr => by rcases hr with hr | hr <;> cases hr⟩, hs⟩
    | some n =>
      rw [Store.takeId_of_some hnext]
      exact ⟨⟨hfields, fun r hr => by rcases hr with hr | hr <;> cases hr⟩, hs⟩
  | named id =>
    rw [Creation.next_named]
    cases hnext : nextNumber? s.lastVersion with
    | none =>
      rw [Store.takeVersion_of_none hnext]
      exact ⟨⟨hfields, fun r hr => by rcases hr with hr | hr <;> cases hr⟩, hs⟩
    | some n =>
      rw [Store.takeVersion_of_some hnext]
      refine ⟨⟨hfields, fun r hr => ?_⟩, hs⟩
      rcases hr with hr | hr <;> cases hr
      exact hfields
  | stamped r =>
    have hr : c.Admits r := hstage r (.inl rfl)
    refine ⟨⟨hfields, fun q hq => ?_⟩, Store.Admitted.enter hs hr⟩
    rcases hq with hq | hq <;> cases hq
    exact hr
  | entered r => exact ⟨⟨hfields, hstage⟩, hs⟩
  | refused id e => exact ⟨⟨hfields, hstage⟩, hs⟩

-- ============================================================================
-- Requests
-- ============================================================================

namespace Update

/-- What a request is about to write is acceptable, and so are the records that it has met or
    returns. -/
def Phase.Admitted (c : Constraints) : Phase → Prop
  | .entering | .reading => True
  | .ready a | .writing a => c.validate a.candidate = .ok ()
  | .waiting current _ _ | .rechecking current _ _ => c.Admits current
  | .finished (.ok done) => c.Admits done.record
  | .finished (.error e) => ∀ r, e.current? = some r → c.Admits r

namespace Request

variable {req : Request} {rules : Rules}

theorem admitted_prepare {base : Record} (h : rules.constraints.Admits base) (made left : Nat) :
    (req.prepare rules base made left).Admitted rules.constraints := by
  unfold prepare
  split
  next report hstale =>
    have hcurrent : report.current = base := by
      unfold stale? at hstale
      split at hstale
      next =>
        split at hstale
        next => contradiction
        next => rw [← Option.some.inj hstale]
      next => contradiction
    rintro r ⟨⟩
    rw [← hcurrent] at h
    exact h
  next =>
    split
    next => exact fun r hr => nomatch hr
    next hcandidate => exact (candidate_eq_ok_iff.1 hcandidate).2

theorem admitted_afterMismatch {a : Attempt} {current : Record}
    (h : rules.constraints.Admits current) :
    (req.afterMismatch rules a current).Admitted rules.constraints := by
  unfold afterMismatch
  split
  next =>
    rintro r ⟨⟩
    exact h
  next =>
    split
    next =>
      rintro r ⟨⟩
      exact h
    next =>
      split
      next => exact admitted_prepare h _ _
      next => exact h

theorem admitted_afterEntry (verdict : Option CancelReason) :
    (req.afterEntry verdict).Admitted c := by
  cases verdict with
  | none => exact trivial
  | some reason => exact fun r hr => nomatch hr

theorem admitted_afterRead {answer : Except StoreError (Option Record)}
    (h : ∀ base, answer = .ok (some base) → rules.constraints.Admits base) :
    (req.afterRead rules answer).Admitted rules.constraints := by
  match answer with
  | .error e => exact fun r hr => nomatch hr
  | .ok none => exact fun r hr => nomatch hr
  | .ok (some base) => exact admitted_prepare (h base rfl) _ _

theorem admitted_afterReady {a : Attempt} (h : (Phase.ready a).Admitted c)
    (verdict : Option CancelReason) : (req.afterReady a verdict).Admitted c := by
  cases verdict with
  | none => exact h
  | some reason => exact fun r hr => nomatch hr

theorem admitted_afterWrite {a : Attempt} {answer : Except StoreError WriteOutcome}
    (h : ∀ outcome, answer = .ok outcome → ∀ r, outcome.record? = some r →
      rules.constraints.Admits r) :
    (req.afterWrite rules a answer).Admitted rules.constraints := by
  match answer with
  | .error e => exact fun r hr => nomatch hr
  | .ok .notFound => exact fun r hr => nomatch hr
  | .ok (.committed r) => exact h _ rfl r rfl
  | .ok (.versionMismatch current) => exact admitted_afterMismatch (h _ rfl current rfl)

theorem admitted_afterWait {current : Record} (h : rules.constraints.Admits current)
    (made left : Nat) (outcome : Except ClockError (Option CancelReason)) :
    (req.afterWait rules current made left outcome).Admitted rules.constraints := by
  match outcome with
  | .error e => exact fun r hr => nomatch hr
  | .ok none => exact admitted_prepare h made left
  | .ok (some reason) => exact h

theorem admitted_afterRecheck {current : Record} (h : rules.constraints.Admits current)
    (made left : Nat) (verdict : Option CancelReason) :
    (req.afterRecheck rules current made left verdict).Admitted rules.constraints := by
  cases verdict with
  | none => exact admitted_prepare h made left
  | some reason => exact fun r hr => nomatch hr

/-- A step of a request keeps the store acceptable, and what the request knows. -/
theorem admitted_next {p : Phase} {w : World} (h : p.Admitted rules.constraints)
    (hw : w.store.Admitted rules.constraints) :
    (req.next rules World.surroundings p w).1.Admitted rules.constraints ∧
      (req.next rules World.surroundings p w).2.store.Admitted rules.constraints := by
  have hwatch : World.watch.Keeps fun w => w.store.Admitted rules.constraints :=
    ⟨fun _ _ h => h, fun _ h => h, fun _ _ h => h⟩
  cases p with
  | entering => exact ⟨admitted_afterEntry _, hwatch.poll req.guard w hw⟩
  | reading =>
    refine ⟨admitted_afterRead fun base hbase => ?_, hw⟩
    exact hw req.id base (Except.ok.inj hbase)
  | ready a => exact ⟨admitted_afterReady h _, hwatch.poll req.guard w hw⟩
  | writing a =>
    have houtcome := Mutation.perform_outcome
      ⟨req.id, a.expected, .write w.instant a.candidate⟩ w.store
    obtain ⟨hstore, hanswer⟩ := houtcome.admitted hw (by
      rintro now fields ⟨⟩
      exact h)
    exact ⟨admitted_afterWrite hanswer, hstore⟩
  | waiting current made left =>
    exact ⟨admitted_afterWait h made left _, hwatch.wait req.guard rules.policy.backoff w hw⟩
  | rechecking current made left =>
    exact ⟨admitted_afterRecheck h made left _, hwatch.poll req.guard w hw⟩
  | finished result => exact ⟨h, hw⟩

end Request

/-- A removal keeps the store acceptable, and so is the record in its answer. -/
theorem admitted_remove {w : World} (hw : w.store.Admitted c) (id : RecordId)
    (expected : Version) :
    (∀ r, (remove World.surroundings id expected w).1 = .ok r → c.Admits r) ∧
      (∀ e, (remove World.surroundings id expected w).1 = .error e →
        ∀ r, e.current? = some r → c.Admits r) ∧
      (remove World.surroundings id expected w).2.store.Admitted c := by
  obtain ⟨hstore, hanswer⟩ :=
    (Mutation.perform_outcome ⟨id, expected, .delete⟩ w.store).admitted hw (by
      rintro now fields ⟨⟩)
  have hremove : remove World.surroundings id expected w
      = (afterRemoval id expected (Mutation.perform ⟨id, expected, .delete⟩ w.store).1,
        { w with store := (Mutation.perform ⟨id, expected, .delete⟩ w.store).2 }) :=
    remove_eq World.surroundings id expected w
  rw [hremove]
  refine ⟨?_, ?_, hstore⟩
  all_goals generalize (Mutation.perform ⟨id, expected, .delete⟩ w.store).1 = answer at hanswer
  · intro r hr
    match answer with
    | .ok (.committed removed) =>
      obtain rfl := Except.ok.inj hr
      exact hanswer _ rfl removed rfl
  · intro e he r hr
    match answer with
    | .error failure =>
      cases he
      contradiction
    | .ok .notFound =>
      cases he
      contradiction
    | .ok (.versionMismatch current) =>
      cases he
      obtain rfl := Option.some.inj hr
      exact hanswer _ rfl current rfl

end Update

-- ============================================================================
-- Lists of answers
-- ============================================================================

/-- What a list comes to, each of its elements comes to. -/
theorem exists_of_mem_mapM {α β : Type} {f : α → Option β} {xs : List α} {ys : List β}
    (h : xs.mapM f = some ys) {y : β} (hy : y ∈ ys) : ∃ x ∈ xs, f x = some y := by
  induction xs generalizing ys with
  | nil =>
    obtain rfl := Option.some.inj h
    contradiction
  | cons x xs ih =>
    rw [List.mapM_cons] at h
    obtain ⟨first, hfirst, hbind⟩ := Option.bind_eq_some_iff.1 h
    obtain ⟨rest, hrest, hcons⟩ := Option.bind_eq_some_iff.1 hbind
    obtain rfl := Option.some.inj hcons
    rcases List.mem_cons.1 hy with rfl | hy
    · exact ⟨x, List.mem_cons_self, hfirst⟩
    · obtain ⟨x', hx', hvalue⟩ := ih hrest hy
      exact ⟨x', List.mem_cons_of_mem x hx', hvalue⟩

/-- If a list fails, one of its elements does. -/
theorem exists_error_of_mapM {ε α β : Type} {f : α → Except ε β} {xs : List α} {e : ε}
    (h : xs.mapM f = .error e) : ∃ x ∈ xs, f x = .error e := by
  induction xs with
  | nil => contradiction
  | cons x xs ih =>
    rw [List.mapM_cons] at h
    cases hx : f x with
    | error other =>
      rw [hx] at h
      obtain rfl := Except.error.inj h
      exact ⟨x, List.mem_cons_self, hx⟩
    | ok y =>
      rw [hx] at h
      cases hrest : xs.mapM f with
      | error other =>
        rw [hrest] at h
        obtain rfl := Except.error.inj h
        obtain ⟨x', hx', herror⟩ := ih hrest
        exact ⟨x', List.mem_cons_of_mem x hx', herror⟩
      | ok ys =>
        rw [hrest] at h
        contradiction

-- ============================================================================
-- Orders
-- ============================================================================

/-- A failure carries the record of the error that it amounts to. -/
theorem Failure.current?_ofUpdateError (e : Update.UpdateError) :
    (Failure.ofUpdateError e).current? = e.current? := by
  cases e <;> rfl

/-- What a writer is about to write is acceptable, and so is the record that its failure
    carries. -/
def Simulation.Writer.Admitted (c : Constraints) (w : Simulation.Writer) : Prop :=
  match w.stage with
  | .reading | .ready _ => True
  | .updating _ phase => phase.Admitted c
  | .done outcome => ∀ failure, outcome = .error failure → ∀ r, failure.current? = some r →
    c.Admits r

/-- A race does not fail for conflicts. -/
theorem Simulation.Race.current?_of_sighting {race : Simulation.Race} {writer : Nat}
    {result : Update.Result} {failure : Failure}
    (h : race.sighting writer result = .error failure) :
    failure.current? = none := by
  unfold sighting at h
  split at h
  next => contradiction
  next e =>
    dsimp only at h
    split at h
    next => contradiction
    next hconflict =>
      split at h
      next => contradiction
      next =>
        obtain rfl := Except.error.inj h
        simpa [Failure.isConflict, Failure.current?] using hconflict

theorem Simulation.Writer.Admitted.step {rules : Update.Rules} {race : Simulation.Race}
    {v : Simulation.Writer} {w : World} (h : v.Admitted rules.constraints)
    (hw : w.store.Admitted rules.constraints) :
    (v.step ⟨rules, World.surroundings⟩ race w).1.Admitted rules.constraints ∧
      (v.step ⟨rules, World.surroundings⟩ race w).2.store.Admitted rules.constraints := by
  obtain ⟨number, stage⟩ := v
  cases stage with
  | reading => exact ⟨trivial, hw⟩
  | ready seen =>
    refine ⟨?_, hw⟩
    match seen with
    | .error e =>
      rintro failure ⟨⟩ r hr
      contradiction
    | .ok none =>
      rintro failure ⟨⟩
    | .ok (some base) => exact trivial
  | updating request phase =>
    obtain ⟨hphase, hstore⟩ := @Update.Request.admitted_next request rules phase w h hw
    refine ⟨?_, hstore⟩
    change Simulation.Writer.Admitted rules.constraints ⟨number, race.proceed number request
      (request.next rules World.surroundings phase w).1⟩
    unfold Race.proceed
    split
    next result hresult =>
      intro failure hfailure r hr
      rw [Simulation.Race.current?_of_sighting hfailure] at hr
      contradiction
    next => exact hphase
  | done outcome => exact ⟨h, hw⟩

namespace Database

/-- The records that a reply carries. -/
def Reply.carried : Reply → List Record
  | .record r => [r]
  | .found r => r.toList
  | .records rs => rs
  | .committed done => [done.record]
  | .report _ => []

/-- The records that come with the outcome of an order: those of the reply, or the one that is
    attached to a conflict. -/
def Outcome.carried : Outcome → List Record
  | .ok reply => reply.carried
  | .error failure => failure.current?.toList

/-- What an order has come to know is acceptable, and so is what it is about to write. -/
def Progress.Admitted (c : Constraints) : Progress → Prop
  | .creating creation => creation.Admitted c
  | .getting _ | .listing | .deleting .. | .looking .. => True
  | .executing _ phase => phase.Admitted c
  | .seeding made creation _ => (∀ r ∈ made, c.Admits r) ∧ creation.Admitted c
  | .racing _ writers => ∀ v ∈ writers, v.Admitted c
  | .ended outcome => ∀ r ∈ Outcome.carried outcome, c.Admits r

namespace Progress

theorem admitted_answered {α : Type} {reply : α → Reply} {answer : Except StoreError α}
    (h : ∀ a, answer = .ok a → ∀ r ∈ (reply a).carried, c.Admits r) :
    (answered reply answer).Admitted c := by
  cases answer with
  | error e => exact fun r hr => nomatch hr
  | ok a => exact h a rfl

theorem admitted_resulted {α : Type} {reply : α → Reply} {result : Except Update.UpdateError α}
    (hok : ∀ a, result = .ok a → ∀ r ∈ (reply a).carried, c.Admits r)
    (herror : ∀ e, result = .error e → ∀ r, e.current? = some r → c.Admits r) :
    (resulted reply result).Admitted c := by
  cases result with
  | error e =>
    intro r hr
    rw [Outcome.carried, Option.mem_toList, Failure.current?_ofUpdateError] at hr
    exact herror e rfl r hr
  | ok a => exact hok a rfl

/-- A creation begins only with fields that are acceptable. -/
theorem admitted_accept {fields : Fields} {begun : Creation → Progress}
    (h : ∀ creation : Creation, creation.Admitted c → (begun creation).Admitted c) :
    (accept c fields begun).Admitted c := by
  unfold accept
  split
  next hvalid =>
    refine h _ ⟨hvalid, fun r hr => ?_⟩
    rcases hr with hr | hr <;> cases hr
  next => exact fun r hr => nomatch hr

theorem admitted_seed {made : List Record} (hmade : ∀ r ∈ made, c.Admits r) (left : List Fields) :
    (seed c made left).Admitted c := by
  cases left with
  | nil => exact hmade
  | cons fields left =>
    have hbegun : ∀ creation : Creation, creation.Admitted c →
        (Progress.seeding made creation left).Admitted c :=
      fun _ hcreation => ⟨hmade, hcreation⟩
    exact admitted_accept hbegun

theorem admitted_gather {race : Simulation.Race} {writers : List Simulation.Writer}
    (h : ∀ v ∈ writers, v.Admitted c) : (gather race writers).Admitted c := by
  unfold gather
  split
  next => exact h
  next outcomes houtcomes =>
    split
    next => exact fun r hr => nomatch hr
    next failure hfailure =>
      obtain ⟨outcome, hmem, rfl⟩ := exists_error_of_mapM hfailure
      obtain ⟨v, hv, houtcome⟩ := exists_of_mem_mapM houtcomes hmem
      have hwriter := h v hv
      unfold Simulation.Writer.outcome? at houtcome
      unfold Simulation.Writer.Admitted at hwriter
      split at houtcome
      next outcome hstage =>
        obtain rfl := Option.some.inj houtcome
        rw [hstage] at hwriter
        intro r hr
        rw [Outcome.carried, Option.mem_toList] at hr
        exact hwriter failure rfl r hr
      next => contradiction

theorem admitted_begin (order : Order) : (order.begin c).Admitted c := by
  cases order with
  | create fields =>
    have hbegun : ∀ creation : Creation, creation.Admitted c →
        (Progress.creating creation).Admitted c := fun _ hcreation => hcreation
    exact admitted_accept hbegun
  | seedCatalog =>
    have hmade : ∀ r ∈ ([] : List Record), c.Admits r := fun _ hr => (List.not_mem_nil hr).elim
    exact admitted_seed hmade Catalog.samples
  | get | list | execute | delete | simulate => exact trivial

theorem admitted_looked (id : RecordId) (n : Nat) (answer : Except StoreError (Option Record)) :
    (looked id n answer).Admitted c := by
  match answer with
  | .error e => exact fun r hr => nomatch hr
  | .ok none => exact fun r hr => nomatch hr
  | .ok (some base) =>
    rw [looked]
    cases Product.ofRecord base with
    | error reason => exact fun r hr => by contradiction
    | ok product =>
      have hwriters : ∀ v ∈ Simulation.writers n, v.Admitted c := by
        intro v hv
        obtain ⟨number, -, rfl⟩ := List.mem_map.1 hv
        exact trivial
      exact admitted_gather hwriters

theorem admitted_proceed {onward : Creation → Progress}
    {finish : Except StoreError Record → Progress} {creation : Creation} {w : World}
    (honward : ∀ creation : Creation, creation.Admitted c → (onward creation).Admitted c)
    (herror : ∀ e, (finish (.error e)).Admitted c)
    (hok : ∀ r, c.Admits r → (finish (.ok r)).Admitted c)
    (h : creation.Admitted c) (hw : w.store.Admitted c) :
    (proceed onward finish creation w).1.Admitted c ∧
      (proceed onward finish creation w).2.store.Admitted c := by
  obtain ⟨hnext, hstore⟩ := h.next hw w.instant
  rcases hstep : creation.next w.instant w.store with ⟨creation', s⟩
  rw [hstep] at hnext hstore
  rw [proceed_eq hstep]
  refine ⟨?_, hstore⟩
  cases hanswer : creation'.stage.answer? with
  | none => exact honward creation' hnext
  | some answer =>
    cases answer with
    | error e => exact herror e
    | ok r =>
      refine hok r (hnext.2 r (.inr ?_))
      obtain ⟨fields, stage⟩ := creation'
      cases stage <;> simp_all [Stage.answer?, Stage.entered?]

/-- A request that is being carried out, or its end. -/
theorem admitted_executing (request : Update.Request) {phase : Update.Phase}
    (h : phase.Admitted c) :
    Progress.Admitted c (match phase.result? with
      | none => .executing request phase
      | some result => .resulted .committed result) := by
  cases phase with
  | finished result =>
    refine admitted_resulted (fun done hdone r hr => ?_) (fun e he => ?_)
    · subst hdone
      exact List.mem_singleton.1 hr ▸ h
    · subst he
      exact h
  | entering | reading | ready | writing | waiting | rechecking => exact h

/-- A step of an order keeps the store acceptable, and what the order knows. -/
theorem admitted_next {rules : Update.Rules} {p : Progress} {w : World}
    (h : p.Admitted rules.constraints) (hw : w.store.Admitted rules.constraints) (pick : Nat) :
    (p.next rules pick w).1.Admitted rules.constraints ∧
      (p.next rules pick w).2.store.Admitted rules.constraints := by
  cases p with
  | creating creation =>
    refine admitted_proceed (fun _ hcreation => hcreation) (fun e r hr => nomatch hr) ?_ h hw
    intro r hr q hq
    exact List.mem_singleton.1 hq ▸ hr
  | getting id =>
    have hfound : (answered .found (.ok (w.store.get? id))).Admitted rules.constraints := by
      refine admitted_answered ?_
      rintro found ⟨⟩ r hr
      exact hw id r (Option.mem_toList.1 hr)
    exact ⟨hfound, hw⟩
  | listing =>
    have hlist : (answered .records (.ok w.store.toList)).Admitted rules.constraints := by
      refine admitted_answered ?_
      rintro rs ⟨⟩ r hr
      obtain ⟨⟨id, q⟩, hmem, rfl⟩ := List.mem_map.1 hr
      exact hw id q (Std.ExtTreeMap.mem_toList_iff_getElem?_eq_some.1 hmem)
    exact ⟨hlist, hw⟩
  | executing request phase =>
    obtain ⟨hphase, hstore⟩ := @Update.Request.admitted_next request rules phase w h hw
    exact ⟨admitted_executing request hphase, hstore⟩
  | deleting id expected =>
    obtain ⟨hok, herror, hstore⟩ := Update.admitted_remove hw id expected
    refine ⟨admitted_resulted (fun removed hremoved r hr => ?_) herror, hstore⟩
    rw [List.mem_singleton.1 hr]
    exact hok removed hremoved
  | seeding made creation left =>
    refine admitted_proceed (fun _ hcreation => ⟨h.1, hcreation⟩) (fun e r hr => nomatch hr) ?_
      h.2 hw
    intro r hr
    refine admitted_seed (fun q hq => ?_) left
    rcases List.mem_append.1 hq with hq | hq
    · exact h.1 q hq
    · exact List.mem_singleton.1 hq ▸ hr
  | looking id n => exact ⟨admitted_looked id n _, hw⟩
  | racing race writers =>
    rcases @next_racing_cases rules race writers pick w with hnext | ⟨v, hpick, -, hnext⟩
    · rw [hnext]
      exact ⟨h, hw⟩
    · obtain ⟨hwriter, hstore⟩ :=
        @Simulation.Writer.Admitted.step rules race v w (h v (List.mem_of_getElem? hpick)) hw
      rw [hnext]
      refine ⟨admitted_gather fun u hu => ?_, hstore⟩
      rcases List.mem_or_eq_of_mem_set hu with hold | rfl
      · exact h u hold
      · exact hwriter
  | ended outcome => exact ⟨h, hw⟩

/-- So do any number of steps. -/
theorem admitted_reaches {rules : Update.Rules} {s s' : Progress × World}
    (h : Reaches rules s s') (hs : s.1.Admitted rules.constraints)
    (hstore : s.2.store.Admitted rules.constraints) :
    s'.1.Admitted rules.constraints ∧ s'.2.store.Admitted rules.constraints := by
  induction h with
  | refl => exact ⟨hs, hstore⟩
  | tail _ hstep ih =>
    obtain ⟨pick, rfl⟩ := hstep
    exact admitted_next ih.1 ih.2 pick

end Progress

-- ============================================================================
-- Clients
-- ============================================================================

namespace Usage

variable {rules : Update.Rules} {u : Usage}

/-- The store is acceptable, and so is all that is under way. -/
structure Admitted (c : Constraints) (u : Usage) : Prop where
  store : u.world.store.Admitted c
  orders : ∀ k p, u.orders k = some p → p.Admitted c

theorem Admitted.step (h : u.Admitted rules.constraints) (e : Event) :
    (u.step rules e).Admitted rules.constraints := by
  have hupdate : ∀ {w : World} {k : Nat} {p : Progress}, w.store.Admitted rules.constraints →
      p.Admitted rules.constraints →
        Admitted rules.constraints ⟨w, Function.update u.orders k (some p)⟩ := by
    intro w k p hw hp
    refine ⟨hw, fun i q hq => ?_⟩
    dsimp only at hq
    rw [Function.update_apply] at hq
    split at hq
    · exact Option.some.inj hq ▸ hp
    · exact h.orders i q hq
  cases e with
  | order k order =>
    cases hk : u.orders k with
    | none =>
      rw [step_order_of_none hk]
      exact hupdate h.store (Progress.admitted_begin order)
    | some p =>
      rw [step_order_of_some hk]
      exact h
  | work k pick =>
    cases hk : u.orders k with
    | none =>
      rw [step_work_of_none hk]
      exact h
    | some p =>
      obtain ⟨hnext, hstore⟩ := Progress.admitted_next (h.orders k p hk) h.store pick
      rw [step_work_of_some hk]
      exact hupdate hstore hnext
  | drift clock triggered => exact ⟨h.store, h.orders⟩

theorem admitted_run (rules : Update.Rules) (clock : Update.Time) (events : List Event) :
    (run rules clock events).Admitted rules.constraints := by
  have hstart : (start clock).Admitted rules.constraints := by
    refine ⟨fun id r hr => ?_, fun k p hp => ?_⟩
    · have hget : (∅ : Store).get? id = none := Std.ExtTreeMap.getElem?_empty
      have hsome : (∅ : Store).get? id = some r := hr
      rw [hget] at hsome
      contradiction
    · contradiction
  have hsteps : ∀ u : Usage, u.Admitted rules.constraints →
      (events.foldl (step rules) u).Admitted rules.constraints := by
    induction events with
    | nil => exact fun _ h => h
    | cons e rest ih => exact fun u h => ih _ (h.step e)
  exact hsteps _ hstart

/-- Every record that a database holds or hands out is acceptable. -/
structure Acceptable (rules : Update.Rules) (u : Usage) : Prop where
  live : ∀ id r, u.world.store.get? id = some r → rules.constraints.Admits r
  /-- The records that an order returns, and the one that is attached to its conflict. -/
  carried : ∀ k outcome, u.orders k = some (.ended outcome) →
    ∀ r ∈ Outcome.carried outcome, rules.constraints.Admits r
  /-- No integer of a live record is below the minimum of its field. -/
  minimum : ∀ id r field least n, u.world.store.get? id = some r →
    rules.constraints.minimum? field = some least → r.fields.get? field = some (.int n) → least ≤ n
  /-- A creation of fields that are not acceptable is over at once, and nothing else changes: no
      id and no version is used up. -/
  refused : ∀ k fields reason, rules.constraints.validate fields = .error reason →
    u.orders k = none →
      u.step rules (.order k (.create fields)) = { u with
        orders := Function.update u.orders k (some (.ended (.error (.validation none reason)))) }
  /-- The same is so of the operation itself. -/
  create_refused : ∀ fields reason, rules.constraints.validate fields = .error reason →
    (Database.create ⟨rules, World.surroundings⟩ fields).run u.world
      = (.error (.validation none reason), u.world)
  /-- The operations of the database are among these runs: each is the run of its order in which
      nobody else acts. -/
  operation : ∀ k order, u.orders k = none →
    ∃ picks : List Nat,
      (Event.order k order :: picks.map (.work k)).foldl (step rules) u
        = ⟨((order.run ⟨rules, World.surroundings⟩).run u.world).2,
          Function.update u.orders k
            (some (.ended ((order.run ⟨rules, World.surroundings⟩).run u.world).1))⟩
  /-- What they return, attach to a conflict and leave in the store is acceptable. -/
  returned : ∀ order : Order,
    (∀ r ∈ Outcome.carried ((order.run ⟨rules, World.surroundings⟩).run u.world).1,
      rules.constraints.Admits r) ∧
    ∀ id r, ((order.run ⟨rules, World.surroundings⟩).run u.world).2.store.get? id = some r →
      rules.constraints.Admits r
  /-- What is over takes no further step. -/
  settled : ∀ k outcome pick, u.orders k = some (.ended outcome) → u.step rules (.work k pick) = u

/-- Under any constraints, whatever any number of clients ask of a database, and however their
    steps interleave, every record that it holds, returns or attaches to a conflict is
    acceptable.  So it is when an operation of the database is run as a whole, on any state that
    such a run has led to. -/
theorem run_acceptable (rules : Update.Rules) (clock : Update.Time) (events : List Event) :
    (run rules clock events).Acceptable rules where
  live := (admitted_run rules clock events).store
  carried k outcome hk := (admitted_run rules clock events).orders k _ hk
  minimum id r field least n hr hleast hn :=
    Constraints.minimum_le ((admitted_run rules clock events).store id r hr) hleast hn
  refused k fields reason hrefused hk := by
    rw [step_order_of_none hk, Order.begin, Progress.accept, hrefused]
  create_refused fields reason hrefused := by
    rw [create_run, hrefused]
  operation k order hk := exists_operation hk rules order
  returned order := by
    have hreaches := order.reaches_run rules (run rules clock events).world
    exact Progress.admitted_reaches hreaches (Progress.admitted_begin order)
      (admitted_run rules clock events).store
  settled k outcome pick hk := by
    rw [step_work_of_some hk]
    have hnext : (Progress.ended outcome).next rules pick (run rules clock events).world
        = (.ended outcome, (run rules clock events).world) := rfl
    rw [hnext, ← hk, Function.update_eq_self]

/-- Two clients take two pieces each of a stock of three, at the same time; the one that comes
    second finds that this is not possible any more. -/
example :
    let rules : Update.Rules := ⟨default, (∅ : Constraints).min "stock" 0⟩
    let take : Order := .execute (.adjust ⟨1⟩ "stock" (-2))
    let u := run rules 0 [
      .order 0 (.create ((∅ : Fields).insert "stock" (.int 3))), .work 0 0, .work 0 0, .work 0 0,
      .order 1 take, .order 2 take, .work 1 0, .work 2 0, .work 1 0, .work 2 0, .work 1 0,
      .work 2 0, .work 1 0, .work 2 0]
    (u.world.store.get? ⟨1⟩).bind (·.fields.get? "stock") = some (.int 1) ∧
      (match u.orders 2 with
        | some (.ended (.error failure)) => failure.isValidation
        | _ => false) = true := by
  decide

end Usage

end Database

end VersionedStore
