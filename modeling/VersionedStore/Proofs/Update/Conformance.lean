/-
  VersionedStore.Proofs.Update.Conformance

  The protocol that a request keeps, whatever the store answers and the polls
  tell.

  A request says nothing at all, or it reads its record and then writes
  (`Dialogue`).  The k-th write is worked out from the k-th base: the record that
  was read, or the one that the refusal before carried.  Only a refusal is
  followed by another write, and the answer to the last call decides how the
  request ends (`Dialogue.Ends`).

  The invariant is `Sofar`: between two observations, what was said is a lawful
  dialogue, and the phase holds its last base and the number of its writes.
-/
import Mathlib.Data.List.Basic
import VersionedStore.Proofs.Update.Transcript
import VersionedStore.World

namespace VersionedStore.Update

/-- A write that was issued, and its answer. -/
structure Write where
  expected : Version
  fields : Fields
  answer : Except StoreError WriteOutcome

namespace Write

/-- The call that it was. -/
def call (id : RecordId) (w : Write) : Call :=
  .write id w.expected w.fields w.answer

/-- The record that came back if the write was refused. -/
def carried? (w : Write) : Option Record :=
  match w.answer with
  | .ok (.versionMismatch current) => some current
  | _ => none

theorem carried?_eq_some_iff {w : Write} {r : Record} :
    w.carried? = some r ↔ w.answer = .ok (.versionMismatch r) := by
  unfold carried?
  split
  next current h => simp [h]
  next hno =>
    constructor
    · intro h
      contradiction
    · intro h
      exact absurd h (hno r)

end Write

/-- A read and the writes after it. -/
structure Dialogue where
  /-- The answer to the read. -/
  found : Except StoreError (Option Record)
  writes : List Write

namespace Dialogue

/-- The calls, in their order. -/
def calls (d : Dialogue) (id : RecordId) : List Call :=
  .read id d.found :: d.writes.map (Write.call id)

/-- The record that the `k`-th write is worked out from, the first being the `0`-th. -/
def base? (d : Dialogue) : Nat → Option Record
  | 0 => match d.found with
    | .ok found => found
    | .error _ => none
  | k + 1 => d.writes[k]?.bind Write.carried?

/-- The dialogue with one more write. -/
def say (d : Dialogue) (w : Write) : Dialogue :=
  { d with writes := d.writes ++ [w] }

theorem base?_zero {d : Dialogue} {base : Record} :
    d.base? 0 = some base ↔ d.found = .ok (some base) := by
  rw [base?]
  cases d.found <;> simp

theorem calls_say (d : Dialogue) (w : Write) (id : RecordId) :
    (d.say w).calls id = d.calls id ++ [w.call id] := by
  simp [calls, say]

theorem length_say (d : Dialogue) (w : Write) :
    (d.say w).writes.length = d.writes.length + 1 := by
  simp [say]

/-- Bases do not depend on what is written later. -/
theorem base?_say (d : Dialogue) (w : Write) {k : Nat} (hk : k ≤ d.writes.length) :
    (d.say w).base? k = d.base? k := by
  cases k with
  | zero => rfl
  | succ k => rw [base?, base?, say, List.getElem?_append_left hk]

theorem base?_say_last (d : Dialogue) (w : Write) :
    (d.say w).base? (d.writes.length + 1) = w.carried? := by
  rw [base?, say, List.getElem?_concat_length]
  rfl

end Dialogue

-- ============================================================================
-- The rules
-- ============================================================================

/-- Requests as they are built: a change with a version, or an adjustment; with any guard. -/
inductive Request.Built : Request → Prop where
  | new (id : RecordId) (expected : Version) (change : Change) (guard : Guard) :
      Built { Request.new id expected change with guard }
  | adjust (id : RecordId) (field : String) (delta : Int64) (guard : Guard) :
      Built { Request.adjust id field delta with guard }

namespace Request

variable (req : Request) (rules : Rules)

/-- A write on top of `base` presents the right version and the right fields. -/
structure Presents (base : Record) (expected : Version) (fields : Fields) : Prop where
  snapshot : req.change.isRetryable = false → req.expected = some expected
  relative : req.change.isRetryable = true → expected = base.version
  applied : req.change.apply base.fields = .ok fields
  valid : rules.constraints.validate fields = .ok ()

/-- The change cannot be made on top of `base`, or what it makes of it breaks a constraint. -/
def Rejects (base : Record) (result : Result) : Prop :=
  ∃ reason, (req.change.apply base.fields = .error reason ∨
      ∃ fields, req.change.apply base.fields = .ok fields ∧
        rules.constraints.validate fields = .error reason) ∧
    result = .error (.validationFailed req.id reason)

/-- The last thing that was seen is a poll that told to give up. -/
def GivesUp (seen : List Sight) (made : Nat) (result : Result) : Prop :=
  ∃ before sights reason, seen = before ++ sights ∧ req.guard.Polled sights (some reason) ∧
    result = .error (.cancelled req.id made reason)

/-- The last thing that was seen is the time at which the wait before the next attempt was to
    begin, and the clock cannot show the end of that wait. -/
def Overruns (latest : Option Time) (seen : List Sight) (made : Nat) (result : Result) : Prop :=
  ∃ before now, seen = before ++ [.timed now] ∧ rules.policy.backoff.isZero = false ∧
    (∃ limit ∈ latest, limit < now + rules.policy.backoff.nanoseconds) ∧
    result = .error (.cancelled req.id made (.clock .overflow))

/-- The record that was read is not at the caller's version. -/
def Refuses (base : Record) (result : Result) : Prop :=
  ∃ expected, req.change.isRetryable = false ∧ req.expected = some expected ∧
    base.version ≠ expected ∧ result = .error (.versionConflict ⟨req.id, expected, base, 1⟩)

end Request

namespace Dialogue

/-- Every write has a base and presents what it should, and there are not too many. -/
structure Lawful (d : Dialogue) (req : Request) (rules : Rules) : Prop where
  presents : ∀ k w, d.writes[k]? = some w →
    ∃ base, d.base? k = some base ∧ req.Presents rules base w.expected w.fields
  bounded : d.writes.length ≤ max 1 rules.policy.maxAttempts.toNat
  once : req.change.isRetryable = false → d.writes.length ≤ 1

/-- The results that the answer to the last call allows, on a clock that can show times up to
    `latest`. -/
def Ends (d : Dialogue) (req : Request) (rules : Rules) (latest : Option Time)
    (seen : List Sight) (result : Result) : Prop :=
  match d.writes.getLast? with
  | none =>
    match d.found with
    | .error e => result = .error (.storage e)
    | .ok none => result = .error (.notFound req.id)
    | .ok (some base) =>
      req.Refuses base result ∨ req.Rejects rules base result ∨ req.GivesUp seen 0 result
  | some w =>
    match w.answer with
    | .error e => result = .error (.storage e)
    | .ok .notFound => result = .error (.notFound req.id)
    | .ok (.committed r) => result = .ok ⟨r, d.writes.length⟩
    | .ok (.versionMismatch current) =>
      if req.change.isRetryable = false then
        result = .error (.versionConflict ⟨req.id, w.expected, current, 1⟩)
      else if d.writes.length = max 1 rules.policy.maxAttempts.toNat then
        result = .error (.retryExhausted ⟨req.id, w.expected, current, d.writes.length⟩)
      else
        req.Rejects rules current result ∨ req.GivesUp seen d.writes.length result ∨
          req.Overruns rules latest seen d.writes.length result

variable {d : Dialogue} {req : Request} {rules : Rules} {latest : Option Time}

/-- The results that a refused write allows. -/
theorem ends_refused {seen : List Sight} {result : Result} {w : Write} {current : Record}
    (hlast : d.writes.getLast? = some w) (hanswer : w.answer = .ok (.versionMismatch current)) :
    d.Ends req rules latest seen result ↔
      if req.change.isRetryable = false then
        result = .error (.versionConflict ⟨req.id, w.expected, current, 1⟩)
      else if d.writes.length = max 1 rules.policy.maxAttempts.toNat then
        result = .error (.retryExhausted ⟨req.id, w.expected, current, d.writes.length⟩)
      else
        req.Rejects rules current result ∨ req.GivesUp seen d.writes.length result ∨
          req.Overruns rules latest seen d.writes.length result := by
  obtain ⟨expected, fields, answer⟩ := w
  obtain rfl := hanswer
  rw [Ends, hlast]

/-- Nothing was written unless a record was read. -/
theorem Lawful.found (h : d.Lawful req rules) (hwrites : d.writes ≠ []) :
    ∃ base, d.found = .ok (some base) := by
  obtain ⟨w, rest, hcons⟩ := List.exists_cons_of_ne_nil hwrites
  obtain ⟨base, hbase, -⟩ := h.presents 0 w (by rw [hcons]; rfl)
  exact ⟨base, base?_zero.1 hbase⟩

/-- Only a refusal is followed by another write. -/
theorem Lawful.mismatch (h : d.Lawful req rules) {k : Nat} {w : Write}
    (hw : d.writes[k]? = some w) (hnext : k + 1 < d.writes.length) :
    ∃ current, w.answer = .ok (.versionMismatch current) := by
  obtain ⟨base, hbase, -⟩ := h.presents (k + 1) _ (List.getElem?_eq_getElem hnext)
  rw [base?, hw] at hbase
  exact ⟨base, Write.carried?_eq_some_iff.1 hbase⟩

end Dialogue

/-- What was seen in a run, and its result, keep the protocol.  The clock can show times up to
    `latest`. -/
inductive Request.Conforms (req : Request) (rules : Rules) (latest : Option Time)
    (seen : List Sight) (result : Result) : Prop where
  /-- The request gave up before it said anything. -/
  | silent (hcalls : seen.filterMap Sight.call? = []) (hresult : req.GivesUp seen 0 result)
  | spoken (d : Dialogue) (hcalls : seen.filterMap Sight.call? = d.calls req.id)
      (hlawful : d.Lawful req rules)
      (hread : d.writes ≠ [] → ∃ base, d.found = .ok (some base))
      (hrefused : ∀ k w, d.writes[k]? = some w → k + 1 < d.writes.length →
        ∃ current, w.answer = .ok (.versionMismatch current))
      (hcounted : d.writes.length < UInt32.size)
      (hends : d.Ends req rules latest seen result)

variable {req : Request} {rules : Rules} {latest : Option Time} {seen : List Sight}

theorem Dialogue.Lawful.conforms {d : Dialogue} (h : d.Lawful req rules) {result : Result}
    (hcalls : seen.filterMap Sight.call? = d.calls req.id)
    (hends : d.Ends req rules latest seen result) : req.Conforms rules latest seen result := by
  refine .spoken d hcalls h h.found (fun k w => h.mismatch) ?_ hends
  have hbounded := h.bounded
  have hmax := rules.policy.maxAttempts.toNat_lt_size
  have hone : 1 < UInt32.size := by decide
  omega

-- ============================================================================
-- The invariant
-- ============================================================================

/-- A dialogue that may go on from a base, with as many writes made and left. -/
structure Dialogue.Underway (d : Dialogue) (req : Request) (rules : Rules) (base : Record)
    (made left : Nat) : Prop where
  lawful : d.Lawful req rules
  last_base : d.base? made = some base
  made_eq : made = d.writes.length
  bound_eq : made + left + 1 = max 1 rules.policy.maxAttempts.toNat
  /-- Only a relative change has a second chance. -/
  first : req.change.isRetryable = false → made = 0

/-- What is known between two observations. -/
def Request.Sofar (req : Request) (rules : Rules) (latest : Option Time) (seen : List Sight) :
    Phase → Prop
  | .entering | .reading => seen.filterMap Sight.call? = []
  | .ready a | .writing a =>
    ∃ d : Dialogue, seen.filterMap Sight.call? = d.calls req.id ∧
      d.Underway req rules a.base a.made a.left ∧
      req.Presents rules a.base a.expected a.candidate
  | .waiting current made left =>
    rules.policy.backoff.isZero = false ∧ made ≠ 0 ∧
      ∃ d : Dialogue, seen.filterMap Sight.call? = d.calls req.id ∧
        d.Underway req rules current made left
  | .rechecking current made left =>
    ∃ d : Dialogue, seen.filterMap Sight.call? = d.calls req.id ∧
      d.Underway req rules current made left
  | .finished result => req.Conforms rules latest seen result

namespace Dialogue

variable {d : Dialogue} {base : Record} {made left : Nat}

/-- A request that may go on, and does not, ends as its dialogue allows. -/
theorem Underway.ends (h : d.Underway req rules base made left) {result : Result}
    (hresult : made = 0 ∧ req.Refuses base result ∨ req.Rejects rules base result ∨
      req.GivesUp seen made result ∨ made ≠ 0 ∧ req.Overruns rules latest seen made result) :
    d.Ends req rules latest seen result := by
  obtain ⟨hlawful, hbase, hmade, hbound, hfirst⟩ := h
  rcases List.eq_nil_or_concat d.writes with hnil | ⟨before, w, hconcat⟩
  · have hzero : made = 0 := by rw [hmade, hnil]; rfl
    subst hzero
    rw [Ends, hnil, base?_zero.1 hbase]
    rcases hresult with ⟨-, hrefuses⟩ | hrejects | hgivesUp | ⟨hwrites, -⟩
    · exact .inl hrefuses
    · exact .inr (.inl hrejects)
    · exact .inr (.inr hgivesUp)
    · contradiction
  · rw [List.concat_eq_append] at hconcat
    have hlength : d.writes.length = before.length + 1 := by rw [hconcat]; simp
    have hlast : d.writes.getLast? = some w := by rw [hconcat]; simp
    have hanswer : w.answer = .ok (.versionMismatch base) := by
      rw [hmade, hlength, base?, hconcat, List.getElem?_concat_length] at hbase
      exact Write.carried?_eq_some_iff.1 hbase
    have hretryable : ¬req.change.isRetryable = false := fun hno => by
      have hzero := hfirst hno
      omega
    have hfewer : d.writes.length ≠ max 1 rules.policy.maxAttempts.toNat := by omega
    rw [ends_refused hlast hanswer, if_neg hretryable, if_neg hfewer, ← hmade]
    rcases hresult with ⟨hzero, -⟩ | hrejects | hgivesUp | ⟨-, hoverruns⟩
    · omega
    · exact .inl hrejects
    · exact .inr (.inl hgivesUp)
    · exact .inr (.inr hoverruns)

/-- A write of a dialogue that may go on keeps it lawful. -/
theorem Underway.lawful_say (h : d.Underway req rules base made left) {w : Write}
    (hpresents : req.Presents rules base w.expected w.fields) :
    (d.say w).Lawful req rules where
  presents := by
    intro k v hv
    rcases Nat.lt_trichotomy k d.writes.length with hlt | rfl | hgt
    · have hold : d.writes[k]? = some v := by
        rw [say, List.getElem?_append_left hlt] at hv
        exact hv
      rw [base?_say d w (Nat.le_of_lt hlt)]
      exact h.lawful.presents k v hold
    · rw [say, List.getElem?_concat_length] at hv
      obtain rfl := Option.some.inj hv
      rw [base?_say d w (Nat.le_refl _), ← h.made_eq, h.last_base]
      exact ⟨base, rfl, hpresents⟩
    · have hnone : (d.say w).writes[k]? = none :=
        List.getElem?_eq_none (by rw [length_say]; omega)
      rw [hnone] at hv
      contradiction
  bounded := by
    have hbound := h.bound_eq
    have hmade := h.made_eq
    rw [length_say]
    omega
  once := by
    intro hno
    have hzero := h.first hno
    have hmade := h.made_eq
    rw [length_say]
    omega

/-- A dialogue may go on after a refusal, from the record that it carried. -/
theorem Underway.say (h : d.Underway req rules base made (left + 1)) {w : Write}
    {current : Record} (hpresents : req.Presents rules base w.expected w.fields)
    (hanswer : w.answer = .ok (.versionMismatch current))
    (hretryable : req.change.isRetryable = true) :
    (d.say w).Underway req rules current (made + 1) left where
  lawful := h.lawful_say hpresents
  last_base := by
    rw [h.made_eq, base?_say_last]
    exact Write.carried?_eq_some_iff.2 hanswer
  made_eq := by rw [length_say, h.made_eq]
  bound_eq := by
    have hbound := h.bound_eq
    omega
  first := by
    intro hno
    rw [hno] at hretryable
    contradiction

theorem underway_read {rules : Rules} {base : Record} :
    Underway ⟨.ok (some base), []⟩ req rules base 0 (rules.policy.bound - 1) where
  lawful := ⟨by simp, by simp, by simp⟩
  last_base := rfl
  made_eq := rfl
  bound_eq := by
    rw [RetryPolicy.bound]
    omega
  first _ := rfl

end Dialogue

-- ============================================================================
-- What each observation keeps
-- ============================================================================

namespace Request

variable {d : Dialogue} {base : Record} {made left : Nat}

theorem Built.snapshot? (hbuilt : req.Built) (hno : req.change.isRetryable = false) :
    ∃ expected, req.expected = some expected ∧ req.snapshot? = some expected := by
  cases hbuilt with
  | new id expected change guard => exact ⟨expected, rfl, if_neg (Bool.eq_false_iff.1 hno)⟩
  | adjust id field delta guard => contradiction

theorem presents_of_candidate (hbuilt : req.Built) {fields : Fields}
    (hcandidate : req.candidate rules base = .ok fields) :
    req.Presents rules base (req.presented base) fields where
  snapshot := by
    intro hno
    obtain ⟨expected, hexpected, hsnapshot⟩ := hbuilt.snapshot? hno
    rw [hexpected, presented, hsnapshot]
    rfl
  relative := by
    intro hyes
    have hsnapshot : req.snapshot? = none := if_pos hyes
    rw [presented, hsnapshot]
    rfl
  applied := (candidate_eq_ok_iff.1 hcandidate).1
  valid := (candidate_eq_ok_iff.1 hcandidate).2

theorem rejects_of_candidate {reason : Violation}
    (hcandidate : req.candidate rules base = .error reason) :
    req.Rejects rules base (.error (.validationFailed req.id reason)) :=
  ⟨reason, candidate_eq_error_iff.1 hcandidate, rfl⟩

theorem refuses_of_stale? {report : ConflictReport} (hstale : req.stale? base = some report) :
    req.change.isRetryable = false ∧
      req.Refuses base (.error (.versionConflict report)) := by
  unfold stale? at hstale
  split at hstale
  next expected hsnapshot =>
    unfold snapshot? at hsnapshot
    split at hsnapshot
    next => contradiction
    next hno =>
      split at hstale
      next => contradiction
      next hcurrent =>
        obtain rfl := Option.some.inj hstale
        have hno' := Bool.eq_false_iff.2 hno
        exact ⟨hno', expected, hno', hsnapshot,
          fun hversion => hcurrent (Record.isCurrent_standing.2 hversion), rfl⟩
  next => contradiction

theorem sofar_prepare (hbuilt : req.Built)
    (hcalls : seen.filterMap Sight.call? = d.calls req.id)
    (h : d.Underway req rules base made left) :
    req.Sofar rules latest seen (req.prepare rules base made left) := by
  unfold prepare
  split
  next report hstale =>
    obtain ⟨hno, hrefuses⟩ := refuses_of_stale? hstale
    exact h.lawful.conforms hcalls (h.ends (.inl ⟨h.first hno, hrefuses⟩))
  next =>
    split
    next reason hcandidate =>
      exact h.lawful.conforms hcalls (h.ends (.inr (.inl (rejects_of_candidate hcandidate))))
    next fields hcandidate => exact ⟨d, hcalls, h, presents_of_candidate hbuilt hcandidate⟩

theorem sofar_giveUp {sights : List Sight} {reason : CancelReason}
    (hpoll : req.guard.Polled sights (some reason))
    (hcalls : (seen ++ sights).filterMap Sight.call? = d.calls req.id)
    (h : d.Underway req rules base made left) :
    req.Sofar rules latest (seen ++ sights) (req.giveUp made reason) :=
  h.lawful.conforms hcalls (h.ends (.inr (.inr (.inl ⟨seen, sights, reason, rfl, hpoll, rfl⟩))))

theorem sofar_afterRead (hbuilt : req.Built) {answer : Except StoreError (Option Record)}
    (hcalls : seen.filterMap Sight.call? = [.read req.id answer]) :
    req.Sofar rules latest seen (req.afterRead rules answer) := by
  have hlawful : Dialogue.Lawful ⟨answer, []⟩ req rules := ⟨by simp, by simp, by simp⟩
  match answer with
  | .error e => exact hlawful.conforms hcalls rfl
  | .ok none => exact hlawful.conforms hcalls rfl
  | .ok (some base) =>
    exact sofar_prepare (d := ⟨.ok (some base), []⟩) hbuilt hcalls Dialogue.underway_read

theorem sofar_afterWrite (hbuilt : req.Built) {a : Attempt}
    {answer : Except StoreError WriteOutcome}
    (hcalls : seen.filterMap Sight.call?
      = (d.say ⟨a.expected, a.candidate, answer⟩).calls req.id)
    (h : d.Underway req rules a.base a.made a.left)
    (hpresents : req.Presents rules a.base a.expected a.candidate) :
    req.Sofar rules latest seen (req.afterWrite rules a answer) := by
  have hlawful : (d.say ⟨a.expected, a.candidate, answer⟩).Lawful req rules :=
    h.lawful_say hpresents
  have hlength := d.length_say ⟨a.expected, a.candidate, answer⟩
  have hlast : (d.say ⟨a.expected, a.candidate, answer⟩).writes.getLast?
      = some ⟨a.expected, a.candidate, answer⟩ := by
    rw [Dialogue.say, List.getLast?_concat]
  have hends : ∀ {result : Result}, _ → req.Conforms rules latest seen result :=
    fun hends => hlawful.conforms hcalls hends
  match answer with
  | .error e =>
    refine hends ?_
    rw [Dialogue.Ends, hlast]
  | .ok .notFound =>
    refine hends ?_
    rw [Dialogue.Ends, hlast]
  | .ok (.committed r) =>
    refine hends ?_
    rw [Dialogue.Ends, hlast, hlength, ← h.made_eq]
  | .ok (.versionMismatch current) =>
    rw [afterWrite, afterMismatch]
    split
    next hno =>
      rw [Bool.not_eq_true'] at hno
      refine hends ((Dialogue.ends_refused hlast rfl).2 ?_)
      rw [if_pos hno, h.first hno]
    next hyes =>
      rw [Bool.not_eq_true', Bool.not_eq_false] at hyes
      split
      next hleft =>
        have hbound := h.bound_eq
        refine hends ((Dialogue.ends_refused hlast rfl).2 ?_)
        rw [if_neg (by simp [hyes]), hlength, ← h.made_eq, if_pos (by omega)]
      next left hleft =>
        rw [hleft] at h
        have hsay := h.say (w := ⟨a.expected, a.candidate, .ok (.versionMismatch current)⟩)
          hpresents rfl hyes
        split
        next => exact sofar_prepare hbuilt hcalls hsay
        next hzero => exact ⟨Bool.eq_false_iff.2 hzero, Nat.succ_ne_zero _, _, hcalls, hsay⟩

/-- What is known before an observation, and what was seen in it, is known after it. -/
theorem Sofar.step (hbuilt : req.Built) {p p' : Phase} {sights : List Sight}
    (hstep : req.Step rules latest p sights p') (h : req.Sofar rules latest seen p) :
    req.Sofar rules latest (seen ++ sights) p' := by
  have hquiet : ∀ {calls : List Call}, sights.filterMap Sight.call? = [] →
      seen.filterMap Sight.call? = calls → (seen ++ sights).filterMap Sight.call? = calls := by
    intro calls hno hcalls
    rw [List.filterMap_append, hno, List.append_nil, hcalls]
  cases hstep with
  | @enters _ verdict hpoll =>
    have hcalls := hquiet hpoll.calls h
    cases verdict with
    | none => exact hcalls
    | some reason => exact .silent hcalls ⟨seen, sights, reason, rfl, hpoll, rfl⟩
  | @reads answer =>
    refine sofar_afterRead hbuilt ?_
    rw [List.filterMap_append, h]
    rfl
  | @polls attempt _ verdict hpoll =>
    obtain ⟨d, hcalls, hunderway, hpresents⟩ := h
    have hcalls' := hquiet hpoll.calls hcalls
    cases verdict with
    | none => exact ⟨d, hcalls', hunderway, hpresents⟩
    | some reason => exact sofar_giveUp hpoll hcalls' hunderway
  | @writes attempt answer =>
    obtain ⟨d, hcalls, hunderway, hpresents⟩ := h
    refine sofar_afterWrite hbuilt ?_ hunderway hpresents
    rw [List.filterMap_append, hcalls, Dialogue.calls_say]
    rfl
  | @waits current made left _ cut hno =>
    obtain ⟨-, -, d, hcalls, hunderway⟩ := h
    cases cut with
    | none => exact sofar_prepare hbuilt (hquiet hno hcalls) hunderway
    | some _ => exact ⟨d, hquiet hno hcalls, hunderway⟩
  | @overruns current made left now hlate =>
    obtain ⟨hzero, hmade, d, hcalls, hunderway⟩ := h
    have hcalls' := hquiet (by rfl) hcalls
    refine hunderway.lawful.conforms hcalls' (hunderway.ends (.inr (.inr (.inr ⟨hmade, ?_⟩))))
    exact ⟨seen, now, rfl, hzero, hlate, rfl⟩
  | @rechecks current made left _ verdict hpoll =>
    obtain ⟨d, hcalls, hunderway⟩ := h
    have hcalls' := hquiet hpoll.calls hcalls
    cases verdict with
    | none => exact sofar_prepare hbuilt hcalls' hunderway
    | some reason => exact sofar_giveUp hpoll hcalls' hunderway

theorem conforms_run (hbuilt : req.Built) {σ : Type} (around : Surroundings σ) (s : σ) :
    req.Conforms rules around.watch.latest (req.run rules around.transcribed ⟨s, []⟩).2.seen
      (req.run rules around.transcribed ⟨s, []⟩).1 := by
  refine runFrom_invariant around.transcribed
    (fun p t => req.Sofar rules around.watch.latest t.seen p) (fun p t hp h => ?_) .entering
    ⟨s, []⟩ rfl
  obtain ⟨sights, hstep, hseen⟩ := req.next_step rules around hp t
  rw [hseen]
  exact h.step hbuilt hstep

/-- Whatever the store answers and the polls tell, a request comes to its end after a bounded
    number of observations, and what it said and was told on the way, as it is written down
    by surroundings that are otherwise the same, keeps the protocol. -/
theorem run_conforms {σ : Type} (req : Request) (hbuilt : req.Built) (rules : Rules)
    (around : Surroundings σ) (s : σ) :
    (∃ n ≤ Phase.entering.rank rules, (req.observe rules around)^[n] (.entering, s)
      = (.finished (req.run rules around s).1, (req.run rules around s).2)) ∧
    (req.run rules around.transcribed ⟨s, []⟩).1 = (req.run rules around s).1 ∧
    (req.run rules around.transcribed ⟨s, []⟩).2.inner = (req.run rules around s).2 ∧
    req.Conforms rules around.watch.latest
      (req.run rules around.transcribed ⟨s, []⟩).2.seen (req.run rules around s).1 := by
  obtain ⟨hresult, hinner⟩ :=
    runFrom_projects req rules (projects_transcribed around) .entering ⟨s, []⟩
  have hconforms : req.Conforms rules _ _ _ := conforms_run hbuilt around s
  refine ⟨exists_iterate_observe around .entering s, hresult, hinner, ?_⟩
  rw [run, run] at *
  rw [← hresult]
  exact hconforms

/-- An adjustment of a record that was just created reads it once and writes once, and commits. -/
theorem run_conforms_created :
    let req := adjust ⟨1⟩ "stock" 1
    let rules : Rules := ⟨default, ∅⟩
    let world := (World.records.create ((∅ : Fields).insert "stock" (.int 5)) default).2
    let base : Record := ⟨⟨1⟩, (∅ : Fields).insert "stock" (.int 5), ⟨1⟩, world.instant, none⟩
    let committed : Record :=
      ⟨⟨1⟩, (∅ : Fields).insert "stock" (.int 6), ⟨2⟩, world.instant, some world.instant⟩
    let told := req.run rules World.surroundings.transcribed ⟨world, []⟩
    req.Built ∧
      (req.run rules World.surroundings world).1 = .ok ⟨committed, 1⟩ ∧
      told.2.calls = [.read ⟨1⟩ (.ok (some base)),
        .write ⟨1⟩ ⟨1⟩ committed.fields (.ok (.committed committed))] ∧
      (∃ n ≤ Phase.entering.rank rules,
        (req.observe rules World.surroundings)^[n] (.entering, world)
          = (.finished (.ok ⟨committed, 1⟩), (req.run rules World.surroundings world).2)) ∧
      req.Conforms rules none told.2.seen (.ok ⟨committed, 1⟩) := by
  intro req rules world base committed told
  have hbuilt : req.Built := .adjust ⟨1⟩ "stock" 1 .never
  have hresult : (req.run rules World.surroundings world).1 = .ok ⟨committed, 1⟩ := by
    decide +kernel
  have hcalls : told.2.calls = [.read ⟨1⟩ (.ok (some base)),
      .write ⟨1⟩ ⟨1⟩ committed.fields (.ok (.committed committed))] := by
    with_unfolding_all rfl
  obtain ⟨hends, -, -, hconforms⟩ := run_conforms req hbuilt rules World.surroundings world
  rw [hresult] at hends hconforms
  exact ⟨hbuilt, hresult, hcalls, hends, hconforms⟩

end Request

end VersionedStore.Update
