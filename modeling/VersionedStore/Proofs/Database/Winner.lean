/-
  VersionedStore.Proofs.Database.Winner

  The winner of a race that nobody else interferes with.

  Until the first write takes place, nothing changes: all writers read the same
  record and prepare to write to it (`Open`).  The write of the first one finds the
  record that was read, so it takes place, and the others find the record at a
  newer version from then on (`Closed`).

  A step of a race brings it closer to its end or does nothing, and there is always
  a writer whose turn it is, so a race ends, among other clients or not, if each
  writer gets its turn again and again.  The operation of the database, which runs
  the race to its end by itself, is one of these races (`Usage.exists_operation`).
-/
import VersionedStore.Proofs.Database.Race

namespace VersionedStore

open Update

namespace Simulation

-- ============================================================================
-- What a writer wants to write
-- ============================================================================

/-- The fields that a writer makes of those of a record. -/
def Race.fields (race : Race) (n : Nat) (base : Record) : Fields :=
  base.fields.insert Catalog.priceField (.float (race.price n))

variable {race : Race} {rules : Rules} {n : Nat} {base : Record}

theorem Race.get?_fields (race : Race) (n : Nat) (base : Record) (field : String) :
    (race.fields n base).get? field
      = if field = Catalog.priceField then some (.float (race.price n))
        else base.fields.get? field := by
  rw [Race.fields, Fields.get?_insert]
  by_cases hfield : field = Catalog.priceField
  · rw [if_pos hfield, if_pos hfield.symm]
  · rw [if_neg hfield, if_neg (Ne.symm hfield)]

/-- A price of any size is acceptable if there is no minimum for it. -/
theorem Race.validate_fields (hbase : rules.constraints.Admits base)
    (hprice : rules.constraints.minimum? Catalog.priceField = none) :
    rules.constraints.validate (race.fields n base) = .ok () := by
  obtain ⟨hsupplied, hrespected⟩ := Constraints.validate_eq_ok_iff.1 hbase
  refine Constraints.validate_eq_ok_iff.2 ⟨fun field hfield => ?_, fun field least hleast => ?_⟩
  · unfold Fields.Supplies
    rw [race.get?_fields]
    split
    · exact ⟨_, rfl, nofun⟩
    · exact hsupplied field hfield
  · have hne : field ≠ Catalog.priceField := by
      rintro rfl
      rw [hprice] at hleast
      contradiction
    unfold Fields.Respects
    rw [race.get?_fields, if_neg hne]
    exact hrespected field least hleast

theorem Race.candidate_request (hbase : rules.constraints.Admits base)
    (hprice : rules.constraints.minimum? Catalog.priceField = none) (seen : Record) :
    (race.request n seen).candidate rules base = .ok (race.fields n base) := by
  refine Request.candidate_eq_ok_iff.2 ⟨congrArg Except.ok ?_, validate_fields hbase hprice⟩
  ext1 field
  rw [Fields.get?_merge, race.get?_fields, Fields.get?_insert, Fields.get?_empty]
  by_cases hfield : field = Catalog.priceField
  · rw [if_pos hfield, if_pos hfield.symm]
    rfl
  · rw [if_neg hfield, if_neg (Ne.symm hfield)]
    rfl

-- ============================================================================
-- Writers that read the same record
-- ============================================================================

/-- Where the writer of a number stands that has read a record and has not lost it. -/
def Race.Goes (race : Race) (base : Record) (n : Nat) : Stage → Prop
  | .reading => True
  | .ready seen => seen = .ok (some base)
  | .updating request phase => request = race.request n base ∧
    match phase with
    | .entering | .reading => True
    | .ready a | .writing a => a.expected = base.version ∧ a.candidate = race.fields n base
    | .waiting .. | .rechecking .. | .finished _ => False
  | .done _ => False

/-- A record that writers can race for, in a store that has a version left. -/
structure Race.Starts (race : Race) (rules : Rules) (base : Record) (s : Store) : Prop where
  live : s.get? race.id = some base
  id_eq : base.id = race.id
  product : ∃ product, Product.ofRecord base = .ok product ∧ product.price = race.basePrice
  admits : rules.constraints.Admits base
  free : rules.constraints.minimum? Catalog.priceField = none
  token : nextNumber? s.lastVersion ≠ none
  fresh : ∀ v, nextNumber? s.lastVersion = some v → base.version.raw < v

/-- A store after the write of the winner. -/
def Race.Written (race : Race) (base : Record) (winner : Nat) (s s' : Store) : Prop :=
  ∃ now v, nextNumber? s.lastVersion = some v ∧
    s' = (Store.enter (base.successor now (race.fields winner base) ⟨v⟩)
      { s with lastVersion := v }).2

theorem Race.Written.live {s s' : Store} {winner : Nat} (h : race.Written base winner s s')
    (hstarts : race.Starts rules base s) :
    ∃ now, s'.get? race.id
      = some (base.successor now (race.fields winner base) ⟨s'.lastVersion⟩) := by
  obtain ⟨now, v, -, rfl⟩ := h
  have hid : (base.successor now (race.fields winner base) ⟨v⟩).id = race.id := hstarts.id_eq
  exact ⟨now, by rw [Store.get?_enter, if_pos hid]; rfl⟩

section Moves

variable {s s' : Store} {stage stage' : Stage}

/-- The version that a writer presents is that of the record that it has read. -/
theorem Race.version_of_request {seen : Record} (h : race.request n seen = race.request n base) :
    seen.version = base.version :=
  Option.some.inj (congrArg Request.expected h)

/-- While the record is what all have read, a writer goes on, or it wins. -/
theorem Race.Goes.open (hgoes : race.Goes base n stage)
    (hmoves : race.Moves rules n s stage stage' s') (hstarts : race.Starts rules base s) :
    (s' = s ∧ race.Goes base n stage') ∨
      ((∃ detail, stage' = .done (.ok ⟨n, .success, detail⟩)) ∧ race.Written base n s s') := by
  have hlive : ∀ {r : Record}, s.get? race.id = some r → r = base := by
    intro r hr
    rw [hstarts.live] at hr
    exact (Option.some.inj hr).symm
  have hcandidate := fun seen => @candidate_request race rules n base hstarts.admits hstarts.free
    seen
  cases hmoves with
  | reads => exact .inl ⟨rfl, congrArg Except.ok hstarts.live⟩
  | fails | absent => cases hgoes
  | starts =>
    obtain rfl := Option.some.inj (Except.ok.inj hgoes)
    exact .inl ⟨rfl, rfl, trivial⟩
  | enters => exact .inl ⟨rfl, hgoes⟩
  | gone hget | vanished hget =>
    rw [hstarts.live] at hget
    contradiction
  | outdated hget hne =>
    obtain rfl := hlive hget
    exact absurd (version_of_request hgoes.1).symm hne
  | rejected hget _ hrejected =>
    obtain rfl := hlive hget
    rw [hcandidate] at hrejected
    contradiction
  | prepares hget hversion hexpected hprepared =>
    obtain rfl := hlive hget
    rw [hcandidate] at hprepared
    exact .inl ⟨rfl, hgoes.1, hexpected.trans hversion.symm, (Except.ok.inj hprepared).symm⟩
  | polls => exact .inl ⟨rfl, hgoes⟩
  | outrun hget hne =>
    obtain rfl := hlive hget
    exact absurd hgoes.2.1.symm hne
  | exhausted _ _ hnext => exact absurd hnext hstarts.token
  | @commits _ _ _ now v _ hget _ hnext =>
    obtain rfl := hlive hget
    refine .inr ⟨⟨_, rfl⟩, now, v, hnext, ?_⟩
    rw [hgoes.2.2]
  | rests => cases hgoes

/-- Once the record has moved on, a writer that is past its first read goes on, or it loses. -/
theorem Race.Goes.closed (hgoes : race.Goes base n stage) (hread : stage ≠ .reading)
    (hmoves : race.Moves rules n s stage stage' s')
    {current : Record} (hcurrent : s.get? race.id = some current)
    (hne : current.version ≠ base.version) :
    s' = s ∧ (race.Goes base n stage' ∨
      ∃ detail, stage' = .done (.ok ⟨n, .conflict, detail⟩)) := by
  have hlive : ∀ {r : Record}, s.get? race.id = some r → r = current := by
    intro r hr
    rw [hcurrent] at hr
    exact (Option.some.inj hr).symm
  cases hmoves with
  | reads => exact absurd rfl hread
  | fails | absent => cases hgoes
  | starts =>
    obtain rfl := Option.some.inj (Except.ok.inj hgoes)
    exact ⟨rfl, .inl ⟨rfl, trivial⟩⟩
  | enters => exact ⟨rfl, .inl hgoes⟩
  | gone hget | vanished hget =>
    rw [hcurrent] at hget
    contradiction
  | outdated | outrun => exact ⟨rfl, .inr ⟨_, rfl⟩⟩
  | rejected hget hversion | prepares hget hversion =>
    obtain rfl := hlive hget
    exact absurd (hversion.trans (version_of_request hgoes.1)) hne
  | polls => exact ⟨rfl, .inl hgoes⟩
  | exhausted hget hversion | commits hget hversion =>
    obtain rfl := hlive hget
    exact absurd (hversion.trans hgoes.2.1) hne
  | rests => cases hgoes

end Moves

/-- A report on a race that one writer has won, and what it has done to the store. -/
structure Report.Decided (report : Report) (race : Race) (base : Record) (n : Nat)
    (s s' : Store) : Prop where
  successes : report.successes = 1
  conflicts : report.conflicts = n - 1
  /-- The record is as it was, but for the price, which is the winner's. -/
  price : ∃ winner ∈ report.details, winner.status = .success ∧ ∃ now, s'.get? race.id
    = some (base.successor now
        (base.fields.insert Catalog.priceField
          (.float (Double.add race.basePrice (Double.ofInt winner.writer)))) ⟨s'.lastVersion⟩)
  others : ∀ other, other ≠ race.id → s'.get? other = s.get? other
  lastVersion : s'.lastVersion.toNat = s.lastVersion.toNat + 1
  lastId : s'.lastId = s.lastId

end Simulation

namespace Database

open Simulation (Race Writer Sighting Stage Report)

-- ============================================================================
-- A race that nobody interferes with
-- ============================================================================

/-- A race before the first write. -/
structure Open (race : Race) (base : Record) (first : Store) (writers : List Writer)
    (s : Store) : Prop where
  store : s = first
  goes : ∀ v ∈ writers, race.Goes base v.number v.stage

/-- A race after the write of the winner. -/
structure Closed (race : Race) (base : Record) (first : Store) (winner : Nat)
    (writers : List Writer) (s : Store) : Prop where
  written : race.Written base winner first s
  won : ∃ v ∈ writers, v.number = winner ∧ v.stage.hasWon = true
  read : ∀ v ∈ writers, v.stage ≠ .reading
  others : ∀ v ∈ writers, race.Goes base v.number v.stage ∨
    ∃ sighting, v.stage = .done (.ok sighting) ∧ sighting.status ≠ .notFound

/-- A race that nobody interferes with, before the first write or after it. -/
def Calm (race : Race) (base : Record) (first : Store) (writers : List Writer) (s : Store) :
    Prop :=
  Open race base first writers s ∨ ∃ winner, Closed race base first winner writers s

section Calm

variable {race : Race} {rules : Rules} {base : Record} {first s s' : Store} {n winner : Nat}
  {writers : List Writer} {t : Traffic}

theorem mem_set_of_ne {pick : Nat} {u v v' : Writer} (hu : u ∈ writers)
    (hpick : writers[pick]? = some v) (hne : u ≠ v) : u ∈ writers.set pick v' := by
  obtain ⟨i, hi⟩ := List.mem_iff_getElem?.1 hu
  have hpick' : pick ≠ i := by
    rintro rfl
    rw [hpick] at hi
    exact hne (Option.some.inj hi).symm
  refine List.mem_iff_getElem?.2 ⟨i, ?_⟩
  rw [List.getElem?_set_ne hpick', hi]

theorem set_eq_self {pick : Nat} {v v' : Writer} (hpick : writers[pick]? = some v)
    (heq : v' = v) : writers.set pick v' = writers := by
  obtain ⟨hlt, rfl⟩ := getElem_of_getElem? hpick
  rw [heq, List.set_getElem_self]

/-- A step of a writer before the first write, or this write. -/
theorem Open.step (h : Open race base first writers s) (hcontest : Contest t race n writers)
    (hstarts : race.Starts rules base first) {pick : Nat} {v v' : Writer}
    (hpick : writers[pick]? = some v) (hwaits : waits writers v = false)
    (hnumber : v'.number = v.number)
    (hmoves : race.Moves rules v.number s v.stage v'.stage s') :
    Calm race base first (writers.set pick v') s' := by
  obtain ⟨rfl, hgoes⟩ := h
  have hmem := List.mem_of_getElem? hpick
  obtain ⟨hlt, -⟩ := getElem_of_getElem? hpick
  rcases (hgoes v hmem).open hmoves hstarts with ⟨rfl, hgoes'⟩ | ⟨⟨detail, hwon⟩, hwritten⟩
  · refine .inl ⟨rfl, fun u hu => ?_⟩
    rcases List.mem_or_eq_of_mem_set hu with hold | rfl
    · exact hgoes u hold
    · rwa [hnumber]
  · refine .inr ⟨v.number, hwritten, ⟨v', List.mem_set hlt v', hnumber, ?_⟩, ?_, fun u hu => ?_⟩
    · rw [hwon]
      rfl
    · rcases barrier_set hcontest hpick hwaits hmoves with hread | hearly
      · exact hread
      · have hdone := hearly v' (List.mem_set hlt v')
        rw [hwon] at hdone
        contradiction
    · rcases List.mem_or_eq_of_mem_set hu with hold | rfl
      · exact .inl (hgoes u hold)
      · exact .inr ⟨_, hwon, fun hstatus => nomatch hstatus⟩

/-- A step of a writer after the first write. -/
theorem Closed.step (h : Closed race base first winner writers s)
    (hstarts : race.Starts rules base first) {pick : Nat} {v v' : Writer}
    (hpick : writers[pick]? = some v) (hnumber : v'.number = v.number)
    (hmoves : race.Moves rules v.number s v.stage v'.stage s') :
    Closed race base first winner (writers.set pick v') s' := by
  have hmem := List.mem_of_getElem? hpick
  rcases h.others v hmem with hgoes | ⟨sighting, hstage, -⟩
  · obtain ⟨now, hcurrent⟩ := h.written.live hstarts
    have hne : (base.successor now (race.fields winner base) ⟨s.lastVersion⟩).version
        ≠ base.version := by
      obtain ⟨-, v, hnext, rfl⟩ := h.written
      have hlt := hstarts.fresh v hnext
      intro heq
      have hraw : v = base.version.raw := congrArg Version.raw heq
      rw [hraw] at hlt
      exact UInt64.lt_irrefl _ hlt
    obtain ⟨rfl, hstage⟩ := hgoes.closed (h.read v hmem) hmoves hcurrent hne
    obtain ⟨u, hu, hwinner, hwon⟩ := h.won
    have huv : u ≠ v := by
      rintro rfl
      obtain ⟨number, stage⟩ := u
      cases stage <;> contradiction
    refine ⟨h.written, ⟨u, mem_set_of_ne hu hpick huv, hwinner, hwon⟩, fun o ho => ?_,
      fun o ho => ?_⟩
    · rcases List.mem_or_eq_of_mem_set ho with hold | rfl
      · exact h.read o hold
      · exact hmoves.not_reading
    · rcases List.mem_or_eq_of_mem_set ho with hold | rfl
      · exact h.others o hold
      · rcases hstage with hgoes' | ⟨detail, hlost⟩
        · exact .inl (hnumber ▸ hgoes')
        · exact .inr ⟨_, hlost, fun hstatus => nomatch hstatus⟩
  · -- a writer that is done stays so
    have hsame : v'.stage = v.stage ∧ s' = s := by
      rw [hstage] at hmoves ⊢
      generalize v'.stage = stage at hmoves
      cases hmoves
      exact ⟨rfl, rfl⟩
    obtain ⟨hstage', rfl⟩ := hsame
    have heq : v' = v := by
      obtain ⟨number, stage⟩ := v
      obtain ⟨number', stage'⟩ := v'
      exact congrArg₂ Writer.mk hnumber hstage'
    rw [set_eq_self hpick heq]
    exact h

/-- The report on a race with a winner. -/
theorem Closed.decided (h : Closed race base first winner writers s)
    (hcontest : Contest t race n writers) (hstarts : race.Starts rules base first)
    {details : List Sighting} (hsaw : Saw writers details) :
    (Report.of race.id details).Decided race base n first s := by
  have hreport := hcontest.report hsaw
  obtain ⟨v, hv, hwinner, hwon⟩ := h.won
  obtain ⟨sighting, hmem, houtcome⟩ := hsaw.exists_of_writer hv
  have hstage := stage_of_outcome? houtcome
  have hstatus : sighting.status = .success := by
    rw [hstage] at hwon
    exact of_decide_eq_true hwon
  have hwriter : sighting.writer = winner := by
    have hfit := hcontest.fits v hv
    rw [hstage] at hfit
    cases hfit with
    | done hwriter => exact hwriter.trans hwinner
  have hsuccesses : (Report.of race.id details).successes = 1 := by
    refine Nat.le_antisymm hreport.single (List.countP_pos_iff.2 ⟨sighting, hmem, ?_⟩)
    exact decide_eq_true hstatus
  have hnone : details.countP (·.status = .notFound) = 0 := by
    refine List.countP_eq_zero.2 fun other hother => ?_
    obtain ⟨u, hu, houtcome'⟩ := hsaw.exists_of_sighting hother
    have hstage' := stage_of_outcome? houtcome'
    rcases h.others u hu with hgoes | ⟨seen, hdone, hfound⟩
    · rw [hstage'] at hgoes
      exact hgoes.elim
    · rw [hstage'] at hdone
      obtain rfl := Except.ok.inj (Stage.done.inj hdone)
      simpa using hfound
  have htotal := hreport.total
  change _ + _ + details.countP _ = n at htotal
  obtain ⟨now, hlive⟩ := h.written.live hstarts
  refine ⟨hsuccesses, by omega, ⟨sighting, hmem, hstatus, now, ?_⟩, fun other hother => ?_, ?_, ?_⟩
  · rw [hwriter]
    exact hlive
  · obtain ⟨now, version, -, rfl⟩ := h.written
    have hid : (base.successor now (race.fields winner base) ⟨version⟩).id = race.id :=
      hstarts.id_eq
    rw [Store.get?_enter, if_neg (hid ▸ hother.symm)]
    rfl
  · obtain ⟨now, version, hnext, rfl⟩ := h.written
    exact Store.toNat_nextNumber? hnext
  · obtain ⟨now, version, -, rfl⟩ := h.written
    rfl

end Calm

-- ============================================================================
-- The order to race, with nobody else there
-- ============================================================================

/-- How far an order to race writers has come that nobody interferes with. -/
def Progress.Calm (race : Race) (base : Record) (n : Nat) (first s : Store) : Progress → Prop
  | looking id m => id = race.id ∧ m = n ∧ s = first
  | racing race' writers => race' = race ∧ Database.Calm race base first writers s
  | ended outcome => ∃ report : Report, outcome = .ok (.report report) ∧ (n = 0 → s = first) ∧
    (0 < n → report.Decided race base n first s)
  | creating _ | getting _ | listing | executing .. | deleting .. | seeding .. => False

section Order

variable {race : Race} {rules : Rules} {base : Record} {first s : Store} {n : Nat}
  {writers : List Writer} {t : Traffic}

theorem Calm.gather (h : Calm race base first writers s) (hcontest : Contest t race n writers)
    (hstarts : race.Starts rules base first) :
    (Progress.gather race writers).Calm race base n first s := by
  have hundone : ∀ {v : Writer} {outcome : Except Failure Sighting},
      race.Goes base v.number v.stage → v.outcome? ≠ some outcome := by
    intro v outcome hgoes houtcome
    rw [stage_of_outcome? houtcome] at hgoes
    exact hgoes
  rcases gather_cases race writers with
    ⟨hgather, -⟩ | ⟨details, hgather, hsaw⟩ | ⟨failure, hgather, v, hv, houtcome⟩
  · rw [hgather]
    exact ⟨rfl, h⟩
  · rw [hgather]
    refine ⟨_, rfl, ?_⟩
    have hlength : writers.length = n := by
      have hnumbers := congrArg List.length hcontest.numbers
      simpa using hnumbers
    rcases h with ⟨hstore, hgoes⟩ | ⟨winner, hclosed⟩
    · -- all are done, and none has gone on: there are no writers
      refine ⟨fun _ => hstore, fun hpos => ?_⟩
      obtain ⟨v, hv⟩ := List.exists_mem_of_length_pos (hlength ▸ hpos)
      obtain ⟨sighting, -, houtcome⟩ := hsaw.exists_of_writer hv
      exact absurd houtcome (hundone (hgoes v hv))
    · refine ⟨fun hzero => ?_, fun _ => hclosed.decided hcontest hstarts hsaw⟩
      obtain ⟨v, hv, -⟩ := hclosed.won
      have hpos := List.length_pos_of_mem hv
      omega
  · rcases h with ⟨-, hgoes⟩ | ⟨winner, hclosed⟩
    · exact absurd houtcome (hundone (hgoes v hv))
    · rcases hclosed.others v hv with hgoes | ⟨sighting, hstage, -⟩
      · exact absurd houtcome (hundone hgoes)
      · rw [stage_of_outcome? houtcome] at hstage
        cases hstage

/-- A step of a race that nobody interferes with. -/
theorem Progress.Calm.next {p : Progress} {w : World} (h : p.Calm race base n first w.store)
    (hraces : p.Races t race.id n) (hs : t.Sound) (hstore : t.store = w.store)
    (hstarts : race.Starts rules base first) (pick : Nat) :
    (p.next rules pick w).1.Calm race base n first (p.next rules pick w).2.store := by
  cases p with
  | looking id m =>
    obtain ⟨rfl, rfl, hfirst⟩ := h
    have hlooked : looked race.id m (.ok (w.store.get? race.id))
        = gather race (Simulation.writers m) := by
      obtain ⟨product, hproduct, hprice⟩ := hstarts.product
      have hrace : race = ⟨race.id, product.price⟩ := by rw [hprice]
      rw [hfirst, hstarts.live, looked, hproduct]
      dsimp only
      rw [← hrace]
    have hnext : ((looking race.id m).next rules pick w)
        = (looked race.id m (.ok (w.store.get? race.id)), w) := rfl
    rw [hnext, hlooked]
    refine Database.Calm.gather (.inl ⟨hfirst, fun v hv => ?_⟩) (contest_writers t race m) hstarts
    obtain ⟨number, -, rfl⟩ := List.mem_map.1 hv
    exact trivial
  | racing race' writers =>
    obtain ⟨rfl, hcalm⟩ := h
    obtain ⟨-, hcontest, hgather⟩ := hraces
    rcases @next_racing_cases rules race' writers pick w with hnext | ⟨v, hpick, hwaits, hnext⟩
    · rw [hnext]
      exact ⟨rfl, hcalm⟩
    · have hfits := hcontest.fits v (List.mem_of_getElem? hpick)
      have hmoves := Simulation.Writer.step_moves hfits rules w
      have hnumber := v.number_step ⟨rules, World.surroundings⟩ race' w
      obtain ⟨_, -, -, hcontest'⟩ :=
        @Contest.step t race' rules n writers hcontest hs pick v hpick hwaits w hstore 0
      rw [hnext]
      refine Database.Calm.gather ?_ hcontest' hstarts
      rcases hcalm with hopen | ⟨winner, hclosed⟩
      · exact hopen.step hcontest hstarts hpick hwaits hnumber hmoves
      · exact .inr ⟨winner, hclosed.step hstarts hpick hnumber hmoves⟩
  | ended outcome => exact h
  | creating | getting | listing | executing | deleting | seeding => exact h.elim

-- ============================================================================
-- Every race ends
-- ============================================================================

/-- A bound on the steps of a race that are still to come. -/
def Progress.rank (rules : Rules) : Progress → Nat
  | looking _ n => n * (Phase.entering.rank rules + 3) + 1
  | racing _ writers => (writers.map (·.rank rules)).sum
  | creating _ | getting _ | listing | executing .. | deleting .. | seeding .. | ended _ => 0

theorem rank_gather_le (race : Race) (writers : List Writer) :
    (Progress.gather race writers).rank rules ≤ (writers.map (·.rank rules)).sum := by
  rcases gather_cases race writers with ⟨hgather, -⟩ | ⟨_, hgather, -⟩ | ⟨_, hgather, -⟩
  · rw [hgather]
    exact Nat.le_refl _
  · rw [hgather]
    exact Nat.zero_le _
  · rw [hgather]
    exact Nat.zero_le _

theorem rank_writers (rules : Rules) (n : Nat) :
    ((Simulation.writers n).map (·.rank rules)).sum = n * (Phase.entering.rank rules + 3) := by
  have hrank : ∀ v ∈ Simulation.writers n, v.rank rules = Phase.entering.rank rules + 3 := by
    intro v hv
    obtain ⟨number, -, rfl⟩ := List.mem_map.1 hv
    rfl
  rw [List.map_congr_left hrank, List.map_const', List.sum_replicate_nat, Simulation.writers,
    List.length_map, List.length_range']

theorem rank_looked_lt (id : RecordId) (n : Nat) (answer : Except StoreError (Option Record)) :
    (Progress.looked id n answer).rank rules < (Progress.looking id n).rank rules := by
  match answer with
  | .error e => exact Nat.zero_lt_succ _
  | .ok none => exact Nat.zero_lt_succ _
  | .ok (some base) =>
    rw [Progress.looked]
    cases Product.ofRecord base with
    | error reason => exact Nat.zero_lt_succ _
    | ok product =>
      refine Nat.lt_succ_of_le (Nat.le_trans (rank_gather_le _ _) ?_)
      exact Nat.le_of_eq (rank_writers rules n)

theorem rank_set_lt {pick : Nat} {v v' : Writer} (hpick : writers[pick]? = some v)
    (hlt : v'.rank rules < v.rank rules) :
    (Progress.gather race (writers.set pick v')).rank rules
      < (Progress.racing race writers).rank rules := by
  have hsum := sum_map_set (fun v : Writer => v.rank rules) hpick v'
  refine Nat.lt_of_le_of_lt (rank_gather_le race (writers.set pick v')) ?_
  change _ < (writers.map (·.rank rules)).sum
  omega

/-- A step of a race does nothing or brings it closer to its end. -/
theorem Progress.Races.rank_next {p : Progress} {id : RecordId} (h : p.Races t id n)
    (pick : Nat) (w : World) :
    (p.next rules pick w).1 = p ∨ (p.next rules pick w).1.rank rules < p.rank rules := by
  cases p with
  | looking i m => exact .inr (rank_looked_lt i m _)
  | racing race writers =>
    rcases @next_racing_cases rules race writers pick w with hnext | ⟨v, hpick, -, hnext⟩
    · rw [hnext]
      exact .inl rfl
    · rw [hnext]
      cases hunder : v.outcome? with
      | none =>
        have hlt := Writer.rank_step_lt ⟨rules, World.surroundings⟩ race v w hunder
        exact .inr (rank_set_lt hpick hlt)
      | some outcome =>
        have hstep : v.step ⟨rules, World.surroundings⟩ race w = (v, w) := by
          have hstage := stage_of_outcome? hunder
          obtain ⟨number, stage⟩ := v
          subst hstage
          rfl
        rw [hstep, set_eq_self hpick rfl]
        exact .inl h.2.2
  | ended outcome => exact .inl rfl
  | creating | getting | listing | executing | deleting | seeding => exact h.elim

/-- As long as a race is not over, there is a writer whose turn it is. -/
theorem Progress.Races.exists_turn {p : Progress} {id : RecordId} (h : p.Races t id n)
    (hunder : ∀ outcome, p ≠ .ended outcome) (rules : Rules) :
    ∃ pick < max n 1, ∀ w, (p.next rules pick w).1.rank rules < p.rank rules := by
  cases p with
  | looking i m => exact ⟨0, by omega, fun w => rank_looked_lt i m _⟩
  | ended outcome => exact absurd rfl (hunder outcome)
  | creating | getting | listing | executing | deleting | seeding => exact h.elim
  | racing race writers =>
    obtain ⟨-, hcontest, hgather⟩ := h
    have hturn : ∀ v ∈ writers, v.outcome? = none → waits writers v = false →
        ∃ pick < max n 1, ∀ w,
          ((racing race writers).next rules pick w).1.rank rules
            < (racing race writers).rank rules := by
      intro v hv hnone hwaits
      obtain ⟨pick, hpick⟩ := List.mem_iff_getElem?.1 hv
      obtain ⟨hlt, -⟩ := getElem_of_getElem? hpick
      have hlength : writers.length = n := by
        have hnumbers := congrArg List.length hcontest.numbers
        simpa using hnumbers
      refine ⟨pick, by omega, fun w => ?_⟩
      rw [next_racing hpick hwaits]
      exact rank_set_lt hpick (Writer.rank_step_lt _ race v w hnone)
    by_cases hreading : ∃ v ∈ writers, v.stage = .reading
    · obtain ⟨v, hv, hstage⟩ := hreading
      refine hturn v hv ?_ ?_
      · rw [Writer.outcome?, hstage]
      · rw [waits, hstage]
    · obtain ⟨v, hv, hnone⟩ : ∃ v ∈ writers, v.outcome? = none := by
        rcases gather_cases race writers with ⟨-, hnone⟩ | ⟨_, hended, -⟩ | ⟨_, hended, -⟩
        · exact hnone
        · rw [hgather] at hended
          contradiction
        · rw [hgather] at hended
          contradiction
      refine hturn v hv hnone (waits_of_none (fun u hu => ?_) v)
      unfold isReading
      split
      next hstage => exact absurd ⟨u, hu, hstage⟩ hreading
      next => rfl

end Order

-- ============================================================================
-- Clients
-- ============================================================================

namespace Usage

variable {rules : Rules} {u : Usage} {t : Traffic} {k n : Nat} {id : RecordId} {race : Race}
  {base : Record} {first : Store} {p : Progress} {clock : Time} {before : List Event}

/-- An event by which nobody but an order acts on the database. -/
def Event.IsOwn (k : Nat) : Event → Prop
  | .work j _ => j = k
  | .drift .. => True
  | .order .. => False

theorem Races.calm_step (h : u.Races t k race.id n) (hstarts : race.Starts rules base first)
    (hk : u.orders k = some p) (hcalm : p.Calm race base n first u.world.store) {e : Event}
    (he : e.IsOwn k) :
    ∃ p', (u.step rules e).orders k = some p' ∧
      p'.Calm race base n first (u.step rules e).world.store := by
  cases e with
  | order j order => exact he.elim
  | drift clock triggered => exact ⟨p, hk, hcalm⟩
  | work j pick =>
    obtain rfl := he
    obtain ⟨q, hq, hraces⟩ := h.order
    obtain rfl : p = q := Option.some.inj (hk.symm.trans hq)
    rw [step_work_of_some hk]
    exact ⟨_, Function.update_self ..,
      hcalm.next hraces h.sound h.carried.store hstarts pick⟩

theorem Races.calm_after (h : u.Races t k race.id n) (hstarts : race.Starts rules base first)
    (hk : u.orders k = some p) (hcalm : p.Calm race base n first u.world.store)
    {events : List Event} (hown : ∀ e ∈ events, e.IsOwn k) :
    ∃ p', (events.foldl (Usage.step rules) u).orders k = some p' ∧
      p'.Calm race base n first (events.foldl (Usage.step rules) u).world.store := by
  induction events generalizing u t p with
  | nil => exact ⟨p, hk, hcalm⟩
  | cons e rest ih =>
    obtain ⟨actions, hraces⟩ := h.step rules e
    obtain ⟨p', hk', hcalm'⟩ := h.calm_step hstarts hk hcalm (hown e List.mem_cons_self)
    exact ih hraces hk' hcalm' fun e he => hown e (List.mem_cons_of_mem _ he)

theorem Races.rank_step (h : u.Races t k id n) (hk : u.orders k = some p) (rules : Rules)
    (e : Event) :
    ∃ p', (u.step rules e).orders k = some p' ∧ (p' = p ∨ p'.rank rules < p.rank rules) := by
  obtain ⟨q, hq, hraces⟩ := h.order
  obtain rfl : p = q := Option.some.inj (hk.symm.trans hq)
  by_cases he : ∃ pick, e = .work k pick
  · obtain ⟨pick, rfl⟩ := he
    rw [step_work_of_some hk]
    exact ⟨_, Function.update_self .., hraces.rank_next pick u.world⟩
  · exact ⟨p, orders_step_of_ne hk fun pick hwork => he ⟨pick, hwork⟩, .inl rfl⟩

theorem Races.rank_after (h : u.Races t k id n) (hk : u.orders k = some p) (rules : Rules)
    (events : List Event) :
    ∃ p', (events.foldl (Usage.step rules) u).orders k = some p' ∧
      (p' = p ∨ p'.rank rules < p.rank rules) := by
  induction events generalizing u t p with
  | nil => exact ⟨p, hk, .inl rfl⟩
  | cons e rest ih =>
    obtain ⟨actions, hraces⟩ := h.step rules e
    obtain ⟨p', hk', hp'⟩ := h.rank_step hk rules e
    obtain ⟨p'', hk'', hp''⟩ := ih hraces hk'
    refine ⟨p'', hk'', ?_⟩
    rcases hp' with rfl | hlt
    · exact hp''
    · rcases hp'' with rfl | hlt'
      · exact .inr hlt
      · exact .inr (Nat.lt_trans hlt' hlt)

/-- A round in which the writer takes a step whose turn it is brings the race closer to its end,
    whatever else happens in it. -/
theorem Races.rank_round (h : u.Races t k id n) (hk : u.orders k = some p) {pick : Nat}
    (hturn : ∀ w, (p.next rules pick w).1.rank rules < p.rank rules) {round : List Event}
    (hmem : .work k pick ∈ round) :
    ∃ p', (round.foldl (Usage.step rules) u).orders k = some p' ∧
      p'.rank rules < p.rank rules := by
  induction round generalizing u t with
  | nil => contradiction
  | cons e rest ih =>
    obtain ⟨actions, hraces⟩ := h.step rules e
    have hlower : ∀ {q : Progress}, (u.step rules e).orders k = some q →
        q.rank rules < p.rank rules →
        ∃ p', (rest.foldl (Usage.step rules) (u.step rules e)).orders k = some p' ∧
          p'.rank rules < p.rank rules := by
      intro q hq hlt
      obtain ⟨p', hk', hp'⟩ := hraces.rank_after hq rules rest
      refine ⟨p', hk', ?_⟩
      rcases hp' with rfl | hlt'
      · exact hlt
      · exact Nat.lt_trans hlt' hlt
    rcases List.mem_cons.1 hmem with rfl | hrest
    · refine hlower ?_ (hturn u.world)
      rw [step_work_of_some hk]
      exact Function.update_self ..
    · obtain ⟨q, hq, rfl | hlt⟩ := h.rank_step hk rules e
      · exact ih hraces hq hrest
      · exact hlower hq hlt

/-- A race is over after enough rounds in which each writer takes a step. -/
theorem Races.ends (h : u.Races t k id n) (hk : u.orders k = some p)
    {rounds : List (List Event)} (hlength : p.rank rules ≤ rounds.length)
    (hturns : ∀ round ∈ rounds, ∀ pick < max n 1, .work k pick ∈ round) :
    ∃ outcome, (rounds.flatten.foldl (Usage.step rules) u).orders k = some (.ended outcome) := by
  induction rounds generalizing u t p with
  | nil =>
    obtain ⟨q, hq, hraces⟩ := h.order
    obtain rfl : p = q := Option.some.inj (hk.symm.trans hq)
    by_contra hunder
    obtain ⟨pick, -, hturn⟩ := hraces.exists_turn (fun outcome hended => hunder
      ⟨outcome, hended ▸ hk⟩) rules
    have hlt := hturn u.world
    rw [List.length_nil] at hlength
    omega
  | cons round rest ih =>
    rw [List.flatten_cons, List.foldl_append]
    obtain ⟨actions, hraces'⟩ := h.after rules round
    have hrest : ∀ round ∈ rest, ∀ pick < max n 1, .work k pick ∈ round :=
      fun round hround => hturns round (List.mem_cons_of_mem _ hround)
    rw [List.length_cons] at hlength
    obtain ⟨q, hq, hraces⟩ := h.order
    obtain rfl : p = q := Option.some.inj (hk.symm.trans hq)
    by_cases hended : ∃ outcome, p = .ended outcome
    · obtain ⟨outcome, rfl⟩ := hended
      obtain ⟨p', hk', rfl | hlt⟩ := h.rank_after hk rules round
      · exact ih hraces' hk' (Nat.zero_le _) hrest
      · contradiction
    · obtain ⟨pick, hpick, hturn⟩ := hraces.exists_turn
        (fun outcome heq => hended ⟨outcome, heq⟩) rules
      obtain ⟨p', hk', hlt⟩ :=
        h.rank_round hk hturn (hturns round List.mem_cons_self pick hpick)
      exact ih hraces' hk' (by omega) hrest

/-- Whatever else happens, a report names at most one winner. -/
theorem single_of_ended (hk : (run rules clock before).orders k = none) {after : List Event}
    {report : Report}
    (hended : (run rules clock (before ++ .order k (.simulate id n) :: after)).orders k
      = some (.ended (.ok (.report report)))) : report.Single id n := by
  obtain ⟨t, hraces⟩ := races_order rules clock before hk id n
  rw [run_append, List.foldl_cons] at hended
  obtain ⟨actions, hraces'⟩ := hraces.after rules after
  obtain ⟨p, hp, hsingle⟩ := hraces'.order
  obtain rfl := Option.some.inj (hended.symm.trans hp)
  exact hsingle

/-- A live product can be raced for, if there is no minimum for prices and a version is left. -/
theorem starts_run {product : Product}
    (hprice : rules.constraints.minimum? Catalog.priceField = none)
    (hlive : (run rules clock before).world.store.get? id = some base)
    (hproduct : Product.ofRecord base = .ok product)
    (htoken : nextNumber? (run rules clock before).world.store.lastVersion ≠ none) :
    Race.Starts ⟨id, product.price⟩ rules base (run rules clock before).world.store := by
  obtain ⟨actions, hcarried⟩ := carried_run rules clock before
  have hs := Traffic.sound_run actions
  have hget := hlive
  rw [← hcarried.store] at hget
  refine ⟨hlive, (hs.live hget).1, ⟨product, hproduct, rfl⟩, ?_, hprice, htoken, fun v hv => ?_⟩
  · exact (admitted_run rules clock before).store id base hlive
  · rw [← hcarried.store] at hv
    exact hs.lt_of_nextNumber? hget hv

/-- If nobody else acts on the database, the race ends in a report with a winner. -/
theorem decided_of_ended (hk : (run rules clock before).orders k = none)
    (hstarts : race.Starts rules base (run rules clock before).world.store)
    {after : List Event} (hown : ∀ e ∈ after, e.IsOwn k) {outcome : Outcome}
    (hended : (run rules clock (before ++ .order k (.simulate race.id n) :: after)).orders k
      = some (.ended outcome)) :
    ∃ report : Report, outcome = .ok (.report report) ∧
      (n = 0 → (run rules clock (before ++ .order k (.simulate race.id n) :: after)).world.store
        = (run rules clock before).world.store) ∧
      (0 < n → report.Decided race base n (run rules clock before).world.store
        (run rules clock (before ++ .order k (.simulate race.id n) :: after)).world.store) := by
  obtain ⟨t, hraces⟩ := races_order rules clock before hk race.id n
  have hbegun := step_order_of_none hk rules (.simulate race.id n)
  rw [run_append, List.foldl_cons] at hended ⊢
  have hcalm : (Progress.looking race.id n).Calm race base n (run rules clock before).world.store
      ((run rules clock before).step rules (.order k (.simulate race.id n))).world.store := by
    refine ⟨rfl, rfl, ?_⟩
    rw [hbegun]
  obtain ⟨p, hp, hdecided⟩ := hraces.calm_after hstarts (by
    rw [hbegun]
    exact Function.update_self ..) hcalm hown
  obtain rfl := Option.some.inj (hended.symm.trans hp)
  exact hdecided

/-- What an order comes to that races writers for a product. -/
structure Simulated (rules : Rules) (clock : Time) (before : List Event) (k n : Nat)
    (race : Race) (base : Record) : Prop where
  /-- Whatever other clients do, a report names at most one winner. -/
  single : ∀ after report,
    (run rules clock (before ++ .order k (.simulate race.id n) :: after)).orders k
      = some (.ended (.ok (.report report))) → report.Single race.id n
  /-- If nobody else acts on the database and a version is left, the race ends in a report with
      a winner, or without writers nothing changes. -/
  decided : nextNumber? (run rules clock before).world.store.lastVersion ≠ none →
    ∀ after, (∀ e ∈ after, e.IsOwn k) → ∀ outcome,
      (run rules clock (before ++ .order k (.simulate race.id n) :: after)).orders k
          = some (.ended outcome) →
        ∃ report : Report, outcome = .ok (.report report) ∧
          (n = 0 → (run rules clock (before ++ .order k (.simulate race.id n) :: after)).world.store
            = (run rules clock before).world.store) ∧
          (0 < n → report.Decided race base n (run rules clock before).world.store
            (run rules clock (before ++ .order k (.simulate race.id n) :: after)).world.store)
  /-- The race ends if each writer gets its turn often enough, whatever else happens. -/
  ends : ∃ enough : Nat, ∀ rounds : List (List Event), enough ≤ rounds.length →
    (∀ round ∈ rounds, ∀ pick < max n 1, .work k pick ∈ round) →
      ∃ outcome,
        (run rules clock (before ++ .order k (.simulate race.id n) :: rounds.flatten)).orders k
          = some (.ended outcome)
  /-- The operation of the database is one of these runs, with the writers' turns as it picks them
      and nobody else acting. -/
  operation : let u := run rules clock before
    let done := (Simulation.run ⟨rules, World.surroundings⟩ race.id n).run u.world
    ∃ picks : List Nat,
      run rules clock (before ++ .order k (.simulate race.id n) :: picks.map (.work k))
        = ⟨done.2, Function.update u.orders k (some (.ended (done.1.map .report)))⟩
  /-- So a report that it returns names at most one winner, and if a version is left, it returns
      one, with a winner unless there are no writers. -/
  returned : let u := run rules clock before
    let done := (Simulation.run ⟨rules, World.surroundings⟩ race.id n).run u.world
    (∀ report, done.1 = .ok report → report.Single race.id n) ∧
      (nextNumber? u.world.store.lastVersion ≠ none →
        ∃ report, done.1 = .ok report ∧ (n = 0 → done.2.store = u.world.store) ∧
          (0 < n → report.Decided race base n u.world.store done.2.store))

/-- A race of writers for a product, among the other clients of a database without a minimum for
    prices: there is at most one winner, and exactly one if nobody else acts on the database, as
    when the operation of the database is run. -/
theorem run_simulated (rules : Rules) (clock : Time) {before : List Event} {k : Nat} (n : Nat)
    {id : RecordId} {base : Record} {product : Product}
    (hprice : rules.constraints.minimum? Catalog.priceField = none)
    (hk : (run rules clock before).orders k = none)
    (hlive : (run rules clock before).world.store.get? id = some base)
    (hproduct : Product.ofRecord base = .ok product) :
    Simulated rules clock before k n ⟨id, product.price⟩ base := by
  have hdecided := fun htoken after hown outcome =>
    @decided_of_ended rules k n ⟨id, product.price⟩ base clock before hk
      (starts_run hprice hlive hproduct htoken) after hown outcome
  obtain ⟨picks, hpicks⟩ := exists_operation hk rules (.simulate id n)
  rw [Order.run, run_map, ← run_append] at hpicks
  have hended :
      (run rules clock (before ++ .order k (.simulate id n) :: picks.map (.work k))).orders k
        = some (.ended (((Simulation.run ⟨rules, World.surroundings⟩ id n).run
            (run rules clock before).world).1.map .report)) := by
    rw [hpicks]
    exact Function.update_self ..
  refine ⟨fun after report => single_of_ended hk, hdecided,
    ⟨(Progress.looking id n).rank rules, fun rounds hlength hturns => ?_⟩, ⟨picks, hpicks⟩,
    fun report hreport => ?_, fun htoken => ?_⟩
  · obtain ⟨t, hraces⟩ := races_order rules clock before hk id n
    rw [run_append, List.foldl_cons]
    refine hraces.ends ?_ hlength hturns
    rw [step_order_of_none hk]
    exact Function.update_self ..
  · rw [hreport] at hended
    exact single_of_ended hk hended
  · have hown : ∀ e ∈ picks.map (Event.work k), e.IsOwn k := by
      intro e he
      obtain ⟨pick, -, rfl⟩ := List.mem_map.1 he
      rfl
    obtain ⟨report, houtcome, hstore⟩ := hdecided htoken _ hown _ hended
    rw [hpicks] at hstore
    refine ⟨report, ?_, hstore⟩
    cases hreturned : ((Simulation.run ⟨rules, World.surroundings⟩ id n).run
        (run rules clock before).world).1 with
    | error failure =>
      rw [hreturned] at houtcome
      contradiction
    | ok found =>
      rw [hreturned] at houtcome
      cases houtcome
      rfl

/-- Two writers race for a lamp. -/
theorem run_simulated_two :
    let rules : Rules := ⟨default, Catalog.constraints⟩
    let fields : Fields := Catalog.productFields "Lamp" (Double.ofInt 10) 3 "Light"
    let before : List Event := [.order 0 (.create fields), .work 0 0, .work 0 0, .work 0 0]
    let base : Record := .create default ⟨1⟩ fields ⟨1⟩
    rules.constraints.minimum? Catalog.priceField = none ∧
      (run rules 0 before).orders 1 = none ∧
      (run rules 0 before).world.store.get? ⟨1⟩ = some base ∧
      (∃ product, Product.ofRecord base = .ok product ∧ product.price = Double.ofInt 10) ∧
      nextNumber? (run rules 0 before).world.store.lastVersion ≠ none ∧
      Simulated rules 0 before 1 2 ⟨⟨1⟩, Double.ofInt 10⟩ base := by
  intro rules fields before base
  have hprice : rules.constraints.minimum? Catalog.priceField = none := by decide
  have hk : (run rules 0 before).orders 1 = none := rfl
  have hlive : (run rules 0 before).world.store.get? ⟨1⟩ = some base := by decide
  have hproduct : Product.ofRecord base
      = .ok ⟨⟨1⟩, "Lamp", Double.ofInt 10, 3, "Light", ⟨1⟩, default, none⟩ := by decide
  have htoken : nextNumber? (run rules 0 before).world.store.lastVersion ≠ none := by decide
  exact ⟨hprice, hk, hlive, ⟨_, hproduct, rfl⟩, htoken,
    run_simulated rules 0 2 hprice hk hlive hproduct⟩

/-- Two writers in turns: both look at the lamp before the first of them writes, and the second
    one meets the conflict at its write. -/
example :
    let rules : Rules := ⟨default, Catalog.constraints⟩
    let lamp : Fields := Catalog.productFields "Lamp" (Double.ofInt 10) 3 "Light"
    let u := run rules 0 ([.order 0 (.create lamp), .work 0 0, .work 0 0, .work 0 0,
      .order 1 (.simulate ⟨1⟩ 2), .work 1 0] ++ (List.replicate 6 [.work 1 1, .work 1 0]).flatten)
    (match u.orders 1 with
      | some (.ended (.ok (.report report))) => report.details.map (·.status)
      | _ => []) = [.conflict, .success] ∧
      (u.world.store.get? ⟨1⟩).bind (·.fields.get? Catalog.priceField)
        = some (.float (Double.ofInt 12)) := by
  decide

end Usage

end Database

end VersionedStore
