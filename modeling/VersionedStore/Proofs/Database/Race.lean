/-
  VersionedStore.Proofs.Database.Race

  A race of writers for one record has at most one winner.

  All writers have read before the first of them goes on, so when the first write
  takes place, the record has reached every version that a writer holds.  The write
  spends them all, because versions are never handed out again, and whatever the
  clients of the database do in between, the other writers are refused
  (`Contest`).  Each writer ends, as a success, a conflict or without its record,
  and the report counts them.

  If nobody else acts on the database, the first writer to write finds the record
  that all have read, and wins (`Quiet`).  The writers take a bounded number of
  steps, so the race ends if each of them gets its turn again and again.
-/
import VersionedStore.Proofs.Database.Writers
import VersionedStore.Proofs.Store.Exclusion

namespace VersionedStore

open Update

-- ============================================================================
-- Reports with a single winner
-- ============================================================================

namespace Simulation

/-- A report on a race of a number of writers in which at most one of them has won. -/
structure Report.Single (report : Report) (id : RecordId) (n : Nat) : Prop where
  /-- The report counts what the writers saw. -/
  counted : report = .of id report.details
  writers : report.details.map (·.writer) = List.range' 1 n
  single : report.details.countP (·.status = .success) ≤ 1
  total : report.successes + report.conflicts + report.details.countP (·.status = .notFound) = n

theorem countP_status (details : List Sighting) :
    details.countP (·.status = .success) + details.countP (·.status = .conflict)
        + details.countP (·.status = .notFound)
      = details.length := by
  induction details with
  | nil => rfl
  | cons sighting rest ih =>
    obtain ⟨writer, status, detail⟩ := sighting
    cases status <;> simp only [List.countP_cons, List.length_cons] <;> simp <;> omega

end Simulation

namespace Database

open Simulation (Race Writer Sighting Stage)

-- ============================================================================
-- A race among other clients
-- ============================================================================

/-- A race that is under way on a store that others act on as well. -/
structure Contest (t : Traffic) (race : Race) (n : Nat) (writers : List Writer) : Prop where
  numbers : writers.map (·.number) = List.range' 1 n
  fits : ∀ v ∈ writers, race.Fits v.number v.stage
  /-- The record has reached the versions that the writers hold. -/
  reached : ∀ v ∈ writers, ∀ held, v.stage.held? = some held → t.Reached race.id held
  /-- All have read, or none has gone on. -/
  barrier : (∀ v ∈ writers, v.stage ≠ .reading) ∨ ∀ v ∈ writers, v.stage.isEarly = true
  single : writers.countP (·.stage.hasWon) ≤ 1
  /-- Once a writer has won, the versions that the others hold are spent. -/
  spent : 0 < writers.countP (·.stage.hasWon) → ∀ v ∈ writers, ∀ held,
    v.stage.held? = some held → t.Spent race.id held

section Contest

variable {t : Traffic} {race : Race} {rules : Rules} {n : Nat} {writers : List Writer}

theorem contest_writers (t : Traffic) (race : Race) (n : Nat) :
    Contest t race n (Simulation.writers n) := by
  have hreading : ∀ v ∈ Simulation.writers n, v.stage = .reading := by
    intro v hv
    obtain ⟨number, -, rfl⟩ := List.mem_map.1 hv
    rfl
  have hnone : (Simulation.writers n).countP (·.stage.hasWon) = 0 := by
    refine List.countP_eq_zero.2 fun v hv => ?_
    rw [hreading v hv]
    exact Bool.false_ne_true
  refine ⟨?_, fun v hv => ?_, fun v hv held hheld => ?_, .inr fun v hv => ?_, ?_, fun hpos => ?_⟩
  · rw [Simulation.writers, List.map_map]
    exact List.map_id _
  · rw [hreading v hv]
    exact .reading
  · rw [hreading v hv] at hheld
    contradiction
  · rw [hreading v hv]
    rfl
  · rw [hnone]
    exact Nat.zero_le 1
  · rw [hnone] at hpos
    contradiction

/-- What other clients do leaves a race as it is. -/
theorem Contest.after (h : Contest t race n writers) (hs : t.Sound)
    (actions : List Traffic.Action) : Contest (t.after actions) race n writers where
  numbers := h.numbers
  fits := h.fits
  reached v hv held hheld := hs.reached_after actions (h.reached v hv held hheld)
  barrier := h.barrier
  single := h.single
  spent hpos v hv held hheld := hs.spent_after actions (h.spent hpos v hv held hheld)

/-- If a writer has won, all have read. -/
theorem Contest.read_of_won (h : Contest t race n writers)
    (hpos : 0 < writers.countP (·.stage.hasWon)) : ∀ v ∈ writers, v.stage ≠ .reading := by
  rcases h.barrier with hread | hearly
  · exact hread
  · obtain ⟨v, hv, hwon⟩ := List.countP_pos_iff.1 hpos
    have hearly := hearly v hv
    obtain ⟨number, stage⟩ := v
    cases stage <;> contradiction

/-- A writer that may take its step and is past its read finds that all have read. -/
theorem Contest.read_of_waits (h : Contest t race n writers) {v : Writer} (hv : v ∈ writers)
    (hwaits : waits writers v = false) (hread : v.stage ≠ .reading) :
    ∀ u ∈ writers, u.stage ≠ .reading := by
  rcases h.barrier with hnone | hearly
  · exact hnone
  · have hv' := hearly v hv
    obtain ⟨number, stage⟩ := v
    cases stage with
    | reading => exact absurd rfl hread
    | ready seen =>
      intro u hu hreading
      have hany := List.any_eq_false.1 hwaits u hu
      rw [hreading] at hany
      exact hany rfl
    | updating => contradiction
    | done => contradiction

theorem getElem_of_getElem? {pick : Nat} {v : Writer} (hpick : writers[pick]? = some v) :
    ∃ hlt : pick < writers.length, writers[pick] = v :=
  List.getElem?_eq_some_iff.1 hpick

theorem map_number_set {pick : Nat} {v v' : Writer} (hpick : writers[pick]? = some v)
    (hnumber : v'.number = v.number) :
    (writers.set pick v').map (·.number) = writers.map (·.number) := by
  obtain ⟨hlt, -⟩ := getElem_of_getElem? hpick
  refine List.ext_getElem? fun i => ?_
  rw [List.getElem?_map, List.getElem?_map]
  by_cases heq : pick = i
  · subst heq
    rw [List.getElem?_set_self hlt, hpick, Option.map_some, Option.map_some, hnumber]
  · rw [List.getElem?_set_ne heq]

theorem barrier_set {pick : Nat} {v v' : Writer} {s s' : Store}
    (h : Contest t race n writers) (hpick : writers[pick]? = some v)
    (hwaits : waits writers v = false)
    (hmoves : race.Moves rules v.number s v.stage v'.stage s') :
    (∀ u ∈ writers.set pick v', u.stage ≠ .reading) ∨
      ∀ u ∈ writers.set pick v', u.stage.isEarly = true := by
  have hmem := List.mem_of_getElem? hpick
  by_cases hreading : v.stage = .reading
  · have hearly : ∀ u ∈ writers, u.stage.isEarly = true := by
      rcases h.barrier with hnone | hearly
      · exact absurd hreading (hnone v hmem)
      · exact hearly
    refine .inr fun u hu => ?_
    rcases List.mem_or_eq_of_mem_set hu with hold | rfl
    · exact hearly u hold
    · rw [hreading] at hmoves
      generalize u.stage = stage at hmoves
      cases hmoves
      rfl
  · refine .inl fun u hu => ?_
    rcases List.mem_or_eq_of_mem_set hu with hold | rfl
    · exact h.read_of_waits hmem hwaits hreading u hold
    · exact hmoves.not_reading

/-- A step of a writer that does not win leaves the race under way. -/
theorem Contest.quiet (h : Contest t race n writers) (hs : t.Sound) {pick : Nat} {v v' : Writer}
    (hpick : writers[pick]? = some v) (hwaits : waits writers v = false)
    (hnumber : v'.number = v.number) {s' : Store}
    (hmoves : race.Moves rules v.number t.store v.stage v'.stage s')
    (hwon : v'.stage.hasWon = v.stage.hasWon) : Contest t race n (writers.set pick v') := by
  obtain ⟨hlt, hv⟩ := getElem_of_getElem? hpick
  have hmem := List.mem_of_getElem? hpick
  have hcount : (writers.set pick v').countP (·.stage.hasWon)
      = writers.countP (·.stage.hasWon) := by
    have hle : (if v.stage.hasWon = true then 1 else 0) ≤ writers.countP (·.stage.hasWon) := by
      split
      next hwins => exact List.countP_pos_iff.2 ⟨v, hmem, hwins⟩
      next => exact Nat.zero_le _
    rw [List.countP_set hlt, hv, hwon, Nat.sub_add_cancel hle]
  refine ⟨?_, fun u hu => ?_, fun u hu held hheld => ?_, barrier_set h hpick hwaits hmoves, ?_,
    fun hpos u hu held hheld => ?_⟩
  · rw [map_number_set hpick hnumber]
    exact h.numbers
  · rcases List.mem_or_eq_of_mem_set hu with hold | rfl
    · exact h.fits u hold
    · rw [hnumber]
      exact hmoves.fits (h.fits v hmem)
  · rcases List.mem_or_eq_of_mem_set hu with hold | rfl
    · exact h.reached u hold held hheld
    · rcases hmoves.held hheld with hbefore | ⟨-, r, hr, rfl⟩
      · exact h.reached v hmem held hbefore
      · exact hs.reached_of_get? hr
  · rw [hcount]
    exact h.single
  · rw [hcount] at hpos
    rcases List.mem_or_eq_of_mem_set hu with hold | rfl
    · exact h.spent hpos u hold held hheld
    · rcases hmoves.held hheld with hbefore | ⟨hreading, -⟩
      · exact h.spent hpos v hmem held hbefore
      · exact absurd hreading (h.read_of_won hpos v hmem)

/-- A writer that wins is the first to do so, and spends the versions that the others hold. -/
theorem Contest.commit (h : Contest t race n writers) (hs : t.Sound) {pick : Nat} {v v' : Writer}
    (hpick : writers[pick]? = some v) (hwaits : waits writers v = false)
    (hnumber : v'.number = v.number) {s' : Store}
    (hmoves : race.Moves rules v.number t.store v.stage v'.stage s') {m : Mutation} {r : Record}
    (hid : m.id = race.id) (hheld : v.stage.held? = some m.expected)
    (hperform : m.perform t.store = (.ok (.committed r), s'))
    (client : Nat) : Contest (t.step (.mutate client m)) race n (writers.set pick v') := by
  obtain ⟨hlt, hv⟩ := getElem_of_getElem? hpick
  have hmem := List.mem_of_getElem? hpick
  have hcommitted : (m.perform t.store).1 = .ok (.committed r) := by rw [hperform]
  have hnone : writers.countP (·.stage.hasWon) = 0 := by
    by_contra hne
    obtain ⟨current, hget, hversion⟩ := Mutation.current_of_committed hcommitted
    have hspent := (h.spent (Nat.pos_of_ne_zero hne) v hmem _ hheld).2 current (hid ▸ hget)
    rw [hversion] at hspent
    exact UInt64.lt_irrefl _ hspent
  have hlater : ∀ {u : Writer}, u ∈ writers.set pick v' → ∀ {held : Version},
      u.stage.held? = some held → t.Reached race.id held := by
    intro u hu held huheld
    rcases List.mem_or_eq_of_mem_set hu with hold | rfl
    · exact h.reached u hold held huheld
    · rcases hmoves.held huheld with hbefore | ⟨hreading, -⟩
      · exact h.reached v hmem held hbefore
      · rw [hreading] at hheld
        contradiction
  refine ⟨?_, fun u hu => ?_, fun u hu held huheld => ?_, barrier_set h hpick hwaits hmoves, ?_,
    fun _ u hu held huheld => ?_⟩
  · rw [map_number_set hpick hnumber]
    exact h.numbers
  · rcases List.mem_or_eq_of_mem_set hu with hold | rfl
    · exact h.fits u hold
    · rw [hnumber]
      exact hmoves.fits (h.fits v hmem)
  · exact hs.reached_step _ (hlater hu huheld)
  · rw [List.countP_set hlt, hnone, Nat.zero_sub, Nat.zero_add]
    split
    · exact Nat.le_refl 1
    · exact Nat.zero_le 1
  · have hreached := hlater hu huheld
    rw [← hid] at hreached ⊢
    exact hs.spent_of_reached client hcommitted hreached

/-- A step of a writer is followed by traffic that leaves the race under way. -/
theorem Contest.step (h : Contest t race n writers) (hs : t.Sound) {pick : Nat} {v : Writer}
    (hpick : writers[pick]? = some v) (hwaits : waits writers v = false) {w : World}
    (hstore : t.store = w.store) (client : Nat) :
    ∃ actions : List Traffic.Action,
      (t.after actions).store = (v.step ⟨rules, World.surroundings⟩ race w).2.store ∧
        (t.after actions).creations = t.creations ∧
        Contest (t.after actions) race n
          (writers.set pick (v.step ⟨rules, World.surroundings⟩ race w).1) := by
  have hfits := h.fits v (List.mem_of_getElem? hpick)
  have hmoves := Simulation.Writer.step_moves hfits rules w
  have hnumber := v.number_step ⟨rules, World.surroundings⟩ race w
  generalize (v.step ⟨rules, World.surroundings⟩ race w).1 = v',
    (v.step ⟨rules, World.surroundings⟩ race w).2.store = s' at hmoves hnumber ⊢
  rw [← hstore] at hmoves
  rcases hmoves.store hfits with ⟨rfl, hwon⟩ | ⟨m, r, hid, hheld, hperform⟩
  · exact ⟨[], rfl, rfl, h.quiet hs hpick hwaits hnumber hmoves hwon⟩
  · have hcontest := h.commit hs hpick hwaits hnumber hmoves hid hheld hperform client
    refine ⟨[.mutate client m], ?_, rfl, hcontest⟩
    exact congrArg Prod.snd hperform

theorem stage_of_outcome? {v : Writer} {outcome : Except Failure Sighting}
    (h : v.outcome? = some outcome) : v.stage = .done outcome := by
  obtain ⟨number, stage⟩ := v
  cases stage with
  | done other => exact congrArg Stage.done (Option.some.inj h)
  | reading | ready | updating => contradiction

theorem writers_of_saw {details : List Sighting} (hsaw : Saw writers details)
    (hfits : ∀ v ∈ writers, race.Fits v.number v.stage) :
    details.map (·.writer) = writers.map (·.number) ∧
      details.countP (·.status = .success) = writers.countP (·.stage.hasWon) := by
  induction writers generalizing details with
  | nil =>
    obtain rfl := List.map_eq_nil_iff.1 hsaw.symm
    exact ⟨rfl, rfl⟩
  | cons v writers ih =>
    cases details with
    | nil => contradiction
    | cons sighting details =>
      obtain ⟨hv, htail⟩ := List.cons.inj hsaw
      obtain ⟨hnumbers, hcount⟩ := ih htail fun u hu => hfits u (List.mem_cons_of_mem v hu)
      have hstage := stage_of_outcome? hv
      have hfit := hfits v List.mem_cons_self
      rw [hstage] at hfit
      have hwriter : sighting.writer = v.number := by
        cases hfit with
        | done hwriter => exact hwriter
      refine ⟨by rw [List.map_cons, List.map_cons, hnumbers, hwriter], ?_⟩
      rw [List.countP_cons, List.countP_cons, hcount, hstage, Stage.hasWon]

/-- The report on a race that has ended. -/
theorem Contest.report (h : Contest t race n writers) {details : List Sighting}
    (hsaw : Saw writers details) : (Simulation.Report.of race.id details).Single race.id n := by
  obtain ⟨hnumbers, hcount⟩ := writers_of_saw hsaw h.fits
  have hwriters := hnumbers.trans h.numbers
  have hlength : details.length = n := by
    have := congrArg List.length hwriters
    simpa using this
  refine ⟨rfl, hwriters, ?_, ?_⟩
  · change details.countP _ ≤ 1
    rw [hcount]
    exact h.single
  · exact (Simulation.countP_status details).trans hlength

end Contest

-- ============================================================================
-- The order to race
-- ============================================================================

/-- How far an order to race writers for a record can have come. -/
def Progress.Races (t : Traffic) (id : RecordId) (n : Nat) : Progress → Prop
  | looking i m => i = id ∧ m = n
  | racing race writers =>
    race.id = id ∧ Contest t race n writers ∧ gather race writers = racing race writers
  | ended (.ok (.report report)) => report.Single id n
  | ended (.error _) => True
  | creating _ | getting _ | listing | executing .. | deleting .. | seeding .. | ended _ => False

section Order

variable {t : Traffic} {id : RecordId} {rules : Rules} {n : Nat} {p : Progress} {w : World}

theorem races_gather {race : Race} {writers : List Writer} (h : Contest t race n writers) :
    (Progress.gather race writers).Races t race.id n := by
  rcases gather_cases race writers with ⟨hgather, -⟩ | ⟨details, hgather, hsaw⟩ | ⟨_, hgather, -⟩
  · rw [hgather]
    exact ⟨rfl, h, hgather⟩
  · rw [hgather]
    exact h.report hsaw
  · rw [hgather]
    exact trivial

theorem Progress.Races.after (h : p.Races t id n) (hs : t.Sound)
    (actions : List Traffic.Action) : p.Races (t.after actions) id n := by
  cases p with
  | racing race writers =>
    obtain ⟨hid, hcontest, hgather⟩ := h
    exact ⟨hid, hcontest.after hs actions, hgather⟩
  | ended outcome =>
    match outcome with
    | .error failure => exact trivial
    | .ok reply => cases reply <;> exact h
  | looking => exact h
  | creating | getting | listing | executing | deleting | seeding => exact h

/-- A step of a race is followed by traffic. -/
theorem Progress.Races.next (h : p.Races t id n) (hs : t.Sound) (hstore : t.store = w.store)
    (pick client : Nat) :
    ∃ actions : List Traffic.Action,
      (t.after actions).store = (p.next rules pick w).2.store ∧
        (t.after actions).creations = t.creations ∧
        (p.next rules pick w).1.Races (t.after actions) id n := by
  cases p with
  | looking i m =>
    obtain ⟨rfl, rfl⟩ := h
    refine ⟨[], hstore, rfl, ?_⟩
    change (looked i m (.ok (w.store.get? i))).Races t i m
    cases w.store.get? i with
    | none => exact trivial
    | some base =>
      rw [looked]
      cases Product.ofRecord base with
      | error reason => exact trivial
      | ok product => exact races_gather (contest_writers t _ m)
  | racing race writers =>
    obtain ⟨rfl, hcontest, hgather⟩ := h
    rcases @next_racing_cases rules race writers pick w with hnext | ⟨v, hpick, hwaits, hnext⟩
    · rw [hnext]
      exact ⟨[], hstore, rfl, rfl, hcontest, hgather⟩
    · obtain ⟨actions, hstore', hcreations, hcontest'⟩ :=
        @Contest.step t race rules n writers hcontest hs pick v hpick hwaits w hstore client
      rw [hnext]
      exact ⟨actions, hstore', hcreations, races_gather hcontest'⟩
  | ended outcome => exact ⟨[], hstore, rfl, h⟩
  | creating | getting | listing | executing | deleting | seeding => exact h.elim

end Order

namespace Usage

variable {rules : Rules} {u : Usage} {t : Traffic} {k n : Nat} {id : RecordId}

/-- What others do leaves an order as it is. -/
theorem orders_step_of_ne {p : Progress} (hk : u.orders k = some p) {e : Event}
    (he : ∀ pick, e ≠ .work k pick) : (u.step rules e).orders k = some p := by
  cases e with
  | order j order =>
    cases hj : u.orders j with
    | some q => rwa [step_order_of_some hj]
    | none =>
      have hne : k ≠ j := by
        rintro rfl
        rw [hj] at hk
        contradiction
      rw [step_order_of_none hj]
      exact (Function.update_of_ne hne _ _).trans hk
  | work j pick =>
    have hne : k ≠ j := by
      rintro rfl
      exact he pick rfl
    cases hj : u.orders j with
    | none => rwa [step_work_of_none hj]
    | some q =>
      rw [step_work_of_some hj]
      exact (Function.update_of_ne hne _ _).trans hk
  | drift clock triggered => exact hk

/-- An order to race writers is under way or over, on a store that traffic has come to. -/
structure Races (u : Usage) (t : Traffic) (k : Nat) (id : RecordId) (n : Nat) : Prop where
  carried : u.Carried t
  sound : t.Sound
  order : ∃ p, u.orders k = some p ∧ p.Races t id n

theorem Races.step (h : u.Races t k id n) (rules : Rules) (e : Event) :
    ∃ actions, (u.step rules e).Races (t.after actions) k id n := by
  obtain ⟨p, hk, hp⟩ := h.order
  by_cases he : ∃ pick, e = .work k pick
  · obtain ⟨pick, rfl⟩ := he
    obtain ⟨actions, hstore, hcreations, hnext⟩ :=
      @Progress.Races.next t id rules n p u.world hp h.sound h.carried.store pick k
    refine ⟨actions, ?_, h.sound.after actions, ?_⟩
    · rw [step_work_of_some hk]
      refine h.carried.update_of_none hstore hcreations ?_
      generalize (p.next rules pick u.world).1 = p' at hnext
      cases p' with
      | creating | seeding => exact hnext.elim
      | getting | listing | executing | deleting | looking | racing | ended => rfl
    · rw [step_work_of_some hk]
      exact ⟨_, Function.update_self .., hnext⟩
  · obtain ⟨actions, hcarried⟩ := h.carried.step rules e
    have hother : (u.step rules e).orders k = some p :=
      orders_step_of_ne hk fun pick hwork => he ⟨pick, hwork⟩
    exact ⟨actions, hcarried, h.sound.after actions, p, hother, hp.after h.sound actions⟩

theorem Races.after (h : u.Races t k id n) (rules : Rules) (events : List Event) :
    ∃ actions, (events.foldl (Usage.step rules) u).Races (t.after actions) k id n := by
  induction events generalizing u t with
  | nil => exact ⟨[], h⟩
  | cons e rest ih =>
    obtain ⟨first, hfirst⟩ := h.step rules e
    obtain ⟨later, hlater⟩ := ih hfirst
    refine ⟨first ++ later, ?_⟩
    rwa [Traffic.after, List.foldl_append]

theorem run_append (rules : Rules) (clock : Time) (before after : List Event) :
    run rules clock (before ++ after) = after.foldl (step rules) (run rules clock before) :=
  List.foldl_append

/-- A race that has just been ordered. -/
theorem races_order (rules : Rules) (clock : Time) (before : List Event)
    (hk : (run rules clock before).orders k = none) (id : RecordId) (n : Nat) :
    ∃ t, ((run rules clock before).step rules (.order k (.simulate id n))).Races t k id n := by
  obtain ⟨actions, hcarried⟩ := carried_run rules clock before
  obtain ⟨more, hcarried'⟩ := hcarried.step rules (.order k (.simulate id n))
  refine ⟨_, hcarried', ?_, .looking id n, ?_, rfl, rfl⟩
  · exact (Traffic.sound_run actions).after more
  · rw [step_order_of_none hk]
    exact Function.update_self ..

end Usage

end Database

end VersionedStore
