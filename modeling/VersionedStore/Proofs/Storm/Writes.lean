/-
  VersionedStore.Proofs.Storm.Writes

  How many writes the updates of a storm issue, and how many its report owns up
  to.

  The result of an update tells the number of its writes if it committed or lost
  every race, and then the number is right.  The refusal of a candidate and the
  failures tell none, and the tally counts none for them; but an update that
  lost a race has issued a write, whatever becomes of it on the fresh state.  So
  the report falls short by just the writes of the updates that were rejected or
  failed (`runStormBy_writes`), and it can (`runStormBy_writes_short`).
-/
import Mathlib.Algebra.Group.Action.Defs
import VersionedStore.Proofs.Database.Seeding
import VersionedStore.Proofs.Storm.Interleaving

namespace VersionedStore

open Update

-- ============================================================================
-- The writes of one request
-- ============================================================================

namespace Update

/-- Whether a call is a write. -/
def Call.isWrite : Call → Bool
  | .write .. => true
  | .read .. | .create .. | .delete .. | .list _ => false

/-- The number of writes among what was said and seen. -/
def writesIn (seen : List Sight) : Nat :=
  (seen.filterMap Sight.call?).countP Call.isWrite

/-- The number of writes that a result tells. -/
def Result.told : Result → Nat
  | .ok done => done.attempts
  | .error (.retryExhausted report) => report.attempts
  | .error _ => 0

/-- Whether a result tells the number of its writes: it is a commit, or lost every race. -/
def Result.tells : Result → Bool
  | .ok _ | .error (.retryExhausted _) => true
  | .error _ => false

theorem Dialogue.countP_calls (d : Dialogue) (id : RecordId) :
    (d.calls id).countP Call.isWrite = d.writes.length := by
  have hwrites : (d.writes.map (Write.call id)).countP Call.isWrite
      = (d.writes.map (Write.call id)).length := by
    rw [List.countP_eq_length]
    intro call hcall
    obtain ⟨w, -, rfl⟩ := List.mem_map.1 hcall
    rfl
  rw [calls, List.countP_cons_of_neg Bool.false_ne_true, hwrites, List.length_map]

variable {req : Request} {rules : Rules} {latest : Option Time} {seen : List Sight}
  {result : Result}

/-- Where a dialogue allows a result that tells the number of its writes, the number is right. -/
theorem Dialogue.Ends.told_eq {d : Dialogue} (h : d.Ends req rules latest seen result)
    (htells : Result.tells result = true) : Result.told result = d.writes.length := by
  have hrejects : ∀ {base : Record}, ¬req.Rejects rules base result := by
    rintro base ⟨reason, -, rfl⟩
    contradiction
  have hgivesUp : ∀ {made : Nat}, ¬req.GivesUp seen made result := by
    rintro made ⟨before, sights, reason, -, -, rfl⟩
    contradiction
  have hoverruns : ∀ {made : Nat}, ¬req.Overruns rules latest seen made result := by
    rintro made ⟨before, now, -, -, -, rfl⟩
    contradiction
  rw [Ends] at h
  split at h
  next hnone =>
    split at h
    · subst h
      contradiction
    · subst h
      contradiction
    · rcases h with ⟨expected, -, -, -, rfl⟩ | h | h
      · contradiction
      · exact absurd h hrejects
      · exact absurd h hgivesUp
  next w hlast =>
    split at h
    · subst h
      contradiction
    · subst h
      contradiction
    · subst h
      rfl
    · split at h
      · subst h
        contradiction
      · split at h
        · subst h
          rfl
        · rcases h with h | h | h
          · exact absurd h hrejects
          · exact absurd h hgivesUp
          · exact absurd h hoverruns

/-- A request that keeps the protocol stays within its bound, and its result is right about the
    number of its writes if it tells it. -/
theorem Request.Conforms.writes (h : req.Conforms rules latest seen result) :
    writesIn seen ≤ rules.policy.bound ∧
      (Result.tells result = true → Result.told result = writesIn seen) := by
  cases h with
  | silent hcalls hresult =>
    obtain ⟨before, sights, reason, -, -, rfl⟩ := hresult
    rw [writesIn, hcalls]
    exact ⟨Nat.zero_le _, fun htells => by contradiction⟩
  | spoken d hcalls hlawful _ _ _ hends =>
    rw [writesIn, hcalls, d.countP_calls]
    exact ⟨hlawful.bounded, hends.told_eq⟩

theorem Result.told_of_not_tells (h : Result.tells result = false) : Result.told result = 0 := by
  match result with
  | .ok _ => contradiction
  | .error (.retryExhausted _) => contradiction
  | .error (.notFound _) | .error (.versionConflict _) | .error (.validationFailed ..)
  | .error (.cancelled ..) | .error (.storage _) => rfl

end Update

-- ============================================================================
-- The writes of a storm
-- ============================================================================

namespace Storm

variable {σ : Type} {db : Database σ} {task : Task}

/-- The writes that an update has issued. -/
def Note.writes (n : Note) : Nat :=
  writesIn n.seen

/-- The writes that the updates of a worker have issued. -/
def Desk.issued (d : Desk) : Nat :=
  (d.notes.map Note.writes).sum

/-- The writes of those updates of a worker that were rejected or failed. -/
def Desk.unreported (d : Desk) : Nat :=
  ((d.notes.filter fun n => !Result.tells n.result).map Note.writes).sum

theorem Tally.writes_count (t : Tally) (result : Result) :
    (t.count result).writes = t.writes + Result.told result := by
  match result with
  | .ok _ => rfl
  | .error (.retryExhausted _) => rfl
  | .error (.notFound _) | .error (.versionConflict _) | .error (.validationFailed ..)
  | .error (.cancelled ..) | .error (.storage _) => rfl

theorem Tally.writes_foldl_count (results : List Result) (t : Tally) :
    (results.foldl Tally.count t).writes = t.writes + (results.map Result.told).sum := by
  induction results generalizing t with
  | nil => rfl
  | cons result results ih =>
    rw [List.foldl_cons, ih, writes_count, List.map_cons, List.sum_cons, Nat.add_assoc]

/-- What the results of updates tell, and the writes of those that tell nothing, are all writes. -/
theorem sum_told_add_unreported {notes : List Note}
    (h : ∀ n ∈ notes, task.request.Conforms db.rules db.around.watch.latest n.seen n.result) :
    ((notes.map (·.result)).map Result.told).sum
        + ((notes.filter fun n => !Result.tells n.result).map Note.writes).sum
      = (notes.map Note.writes).sum := by
  induction notes with
  | nil => rfl
  | cons n notes ih =>
    have hrest := ih fun m hm => h m (List.mem_cons_of_mem n hm)
    have htold := (h n List.mem_cons_self).writes.2
    simp only [List.map_cons, List.sum_cons]
    cases htells : Result.tells n.result with
    | true =>
      have hwrites : Result.told n.result = n.writes := htold htells
      rw [List.filter_cons_of_neg (by simp [htells])]
      omega
    | false =>
      have hzero := Result.told_of_not_tells htells
      rw [List.filter_cons_of_pos (by simp [htells]), List.map_cons, List.sum_cons]
      omega

/-- What a tally falls short of the writes issued is what was rejected or failed after them. -/
theorem Desk.Sound.writes_add_unreported {rounds : Nat} {d : Desk}
    (h : d.Sound db task rounds) : d.worker.tally.writes + d.unreported = d.issued := by
  have hempty : Tally.empty.writes = 0 := rfl
  rw [h.tally_eq, Tally.writes_foldl_count, hempty, Nat.zero_add]
  exact sum_told_add_unreported h.conforms

theorem Desk.Sound.issued_le {rounds : Nat} {d : Desk} (h : d.Sound db task rounds) :
    d.issued ≤ rounds * db.rules.policy.bound := by
  have hbound : ∀ k ∈ d.notes.map Note.writes, k ≤ db.rules.policy.bound := by
    intro k hk
    obtain ⟨n, hn, rfl⟩ := List.mem_map.1 hk
    exact (h.conforms n hn).writes.1
  have hsum := List.sum_le_card_nsmul _ _ hbound
  rw [smul_eq_mul, List.length_map] at hsum
  have hlength : d.notes.length ≤ rounds := by
    have hrounds := h.rounds_eq
    omega
  exact hsum.trans (Nat.mul_le_mul_right _ hlength)

theorem Desk.unreported_eq_zero_iff {d : Desk} :
    d.unreported = 0 ↔ ∀ n ∈ d.notes, Result.tells n.result = false → n.writes = 0 := by
  rw [unreported, List.sum_eq_zero_iff_forall_eq_nat, List.forall_mem_map, List.forall_mem_filter]
  simp only [Bool.not_eq_true']

namespace Scene

/-- The writes that the updates of all workers have issued. -/
def issued (y : Scene σ) : Nat :=
  (y.desks.map Desk.issued).sum

/-- The writes of the updates that were rejected or failed. -/
def unreported (y : Scene σ) : Nat :=
  (y.desks.map Desk.unreported).sum

variable {workers rounds : Nat} {y : Scene σ}

theorem Sound.writes_add_unreported (h : y.Sound db task workers rounds) :
    y.total.writes + y.unreported = y.issued := by
  have hdesk : ∀ d ∈ y.desks, d.issued = d.worker.tally.writes + d.unreported :=
    fun d hd => (h.desks d hd).writes_add_unreported.symm
  have htotal : y.total.writes = (y.desks.map fun d => d.worker.tally.writes).sum :=
    y.total_eq_sum (fun _ _ => rfl) rfl
  rw [htotal, issued, unreported, List.map_congr_left hdesk, List.sum_map_add]

theorem Sound.issued_le (h : y.Sound db task workers rounds) :
    y.issued ≤ workers * rounds * db.rules.policy.bound := by
  have hbound : ∀ k ∈ y.desks.map Desk.issued, k ≤ rounds * db.rules.policy.bound := by
    intro k hk
    obtain ⟨d, hd, rfl⟩ := List.mem_map.1 hk
    exact (h.desks d hd).issued_le
  have hsum := List.sum_le_card_nsmul _ _ hbound
  rw [smul_eq_mul, List.length_map, h.length_eq, ← Nat.mul_assoc] at hsum
  exact hsum

theorem unreported_eq_zero_iff : y.unreported = 0 ↔
    ∀ d ∈ y.desks, ∀ n ∈ d.notes, Result.tells n.result = false → n.writes = 0 := by
  rw [unreported, List.sum_eq_zero_iff_forall_eq_nat, List.forall_mem_map]
  simp only [Desk.unreported_eq_zero_iff]

end Scene

end Storm

namespace Scenario

open Storm

variable {σ : Type}

/-- In whatever order the workers take their steps, the writes in the report of a storm fall short
    of the writes that its updates issued by just those of the updates that were rejected or failed.
    So the report tells all of them exactly if none of those had issued a write. -/
theorem runStormBy_writes {c : Config} {around : Surroundings σ} {db : Database σ}
    (hopen : Database.ofConfig c around = .ok db) {place workers rounds : Nat} {delta : Int64}
    (hrange : workers * rounds * db.rules.policy.maxAttempts.toNat < UInt64.size)
    {moves : List (Move σ)} {s s' : σ} {report : Report} {y : Scene σ}
    (hrun : (runStormBy db place workers rounds delta moves).run s = (.ok (report, y), s'))
    (hdone : y.isDone = true) :
    (y.desks.map (·.notes.length)).sum = workers * rounds ∧ y.issued < UInt64.size ∧
      report.total.writes + y.unreported = y.issued ∧
      (report.total.writes = y.issued ↔
        ∀ d ∈ y.desks, ∀ n ∈ d.notes, Result.tells n.result = false → n.writes = 0) := by
  obtain ⟨_, seeded, target, _, _, _, _, _, _, hy, _, _, hreport⟩ := stormed_of_runStormBy hrun
  have hsound : y.Sound db ⟨target.id, delta⟩ workers rounds := by
    rw [hy]
    exact Scene.sound_run seeded moves
  have htotal : report.total = y.total := by rw [hreport]; rfl
  obtain ⟨rfl, hattempts⟩ := Database.ofConfig_eq_ok hopen
  have hbound : c.rules.policy.bound = c.rules.policy.maxAttempts.toNat := max_eq_right hattempts
  have hissued := hsound.issued_le
  have hwrites := hsound.writes_add_unreported
  rw [hbound] at hissued
  rw [htotal, ← Scene.unreported_eq_zero_iff]
  refine ⟨?_, hissued.trans_lt hrange, hwrites, ?_⟩
  · exact hsound.sum_eq_mul (hsound.length_notes hdone)
  · omega

/-- Two workers abreast take all that is left of a product, so one of them loses its race and is
    rejected on the fresh state: the report tells one write, and two were issued. -/
theorem runStormBy_writes_short :
    ∃ report y s',
      (runStormBy ⟨productRules, World.surroundings⟩ 4 2 1 (-50) abreast).run default
        = (.ok (report, y), s') ∧
      y.isDone = true ∧ 2 * 1 * productRules.policy.maxAttempts.toNat < UInt64.size ∧
      report.total = ⟨1, 0, 1, 0, 1⟩ ∧ y.issued = 2 := by
  have hrun : ((runStormBy ⟨productRules, World.surroundings⟩ 4 2 1 (-50) abreast).run
      default).1.toOption.any (fun r => r.2.isDone && decide (r.1.total = ⟨1, 0, 1, 0, 1⟩)
        && r.2.issued == 2) = true := by decide +kernel
  obtain ⟨⟨report, y⟩, s', hrun, hall⟩ := exists_eq_ok hrun
  rw [Bool.and_eq_true, Bool.and_eq_true, decide_eq_true_iff, beq_iff_eq] at hall
  exact ⟨report, y, s', hrun, hall.1.1, by decide, hall.1.2, hall.2⟩

/-- The report of two workers abreast falls short by the write of the one that was rejected. -/
theorem runStormBy_writes_abreast :
    Database.ofConfig (Config.default.setAll [.catalog]) World.surroundings
        = .ok ⟨productRules, World.surroundings⟩ ∧
      2 * 1 * productRules.policy.maxAttempts.toNat < UInt64.size ∧
      ∃ report y s',
        (runStormBy ⟨productRules, World.surroundings⟩ 4 2 1 (-50) abreast).run default
          = (.ok (report, y), s') ∧ y.isDone = true ∧
        (y.desks.map (·.notes.length)).sum = 2 * 1 ∧ y.issued < UInt64.size ∧
        report.total.writes + y.unreported = y.issued ∧
        (report.total.writes = y.issued ↔
          ∀ d ∈ y.desks, ∀ n ∈ d.notes, Result.tells n.result = false → n.writes = 0) := by
  have hopen : Database.ofConfig (Config.default.setAll [.catalog]) World.surroundings
      = .ok ⟨productRules, World.surroundings⟩ := rfl
  have hrange : 2 * 1 * productRules.policy.maxAttempts.toNat < UInt64.size := by decide
  have hrun : ((runStormBy ⟨productRules, World.surroundings⟩ 4 2 1 (-50) abreast).run
      default).1.toOption.any (fun r => r.2.isDone) = true := by decide +kernel
  obtain ⟨⟨report, y⟩, s', hrun, hdone⟩ := exists_eq_ok hrun
  exact ⟨hopen, hrange, report, y, s', hrun, hdone, runStormBy_writes hopen hrange hrun hdone⟩

end Scenario
end VersionedStore
