/-
  VersionedStore.Proofs.Config.Backoff

  The wait between attempts is the same whichever way it takes.

  A setting puts a wait into a configuration, and JSON a policy into a text; either
  way it is a count of milliseconds for a while, and what comes out is
  `Duration.settled`: the span rounded down to milliseconds, as far as 64 bits count
  them.  A count is exact on the way back (`Duration.wholeMillis_ofMillis`), so
  nothing is lost the second time.

  What a document says is a matter of its members or items and not of the text that
  it was read from, so what is said here of a number in an accepted document is so
  of JSON and of TOML.
-/
import VersionedStore.Config.Setting
import VersionedStore.Proofs.Codec.RoundTrip

namespace VersionedStore

open Update

-- ============================================================================
-- Spans in milliseconds
-- ============================================================================

namespace Duration

/-- What a span comes back as: its whole milliseconds, as far as 64 bits go. -/
def settled (d : Duration) : Duration :=
  ofMillis d.wholeMillis

theorem nanoseconds_ofMillis (n : UInt64) : (ofMillis n).nanoseconds = n.toNat * nanosPerMilli :=
  rfl

theorem nanoseconds_settled (d : Duration) :
    d.settled.nanoseconds
      = min (d.nanoseconds / nanosPerMilli) (UInt64.size - 1) * nanosPerMilli := by
  rw [settled, nanoseconds_ofMillis, toNat_wholeMillis]

theorem settled_ofMillis (n : UInt64) : (ofMillis n).settled = ofMillis n := by
  rw [settled, wholeMillis_ofMillis]

theorem settled_settled (d : Duration) : d.settled.settled = d.settled :=
  settled_ofMillis d.wholeMillis

theorem settled_le (d : Duration) : d.settled.nanoseconds ≤ d.nanoseconds := by
  rw [nanoseconds_settled]
  apply Nat.le_trans (Nat.mul_le_mul_right nanosPerMilli (Nat.min_le_left ..))
  exact Nat.div_mul_le_self d.nanoseconds nanosPerMilli

theorem settled_mono {d e : Duration} (h : d.nanoseconds ≤ e.nanoseconds) :
    d.settled.nanoseconds ≤ e.settled.nanoseconds := by
  rw [nanoseconds_settled, nanoseconds_settled]
  have hmillis : d.nanoseconds / nanosPerMilli ≤ e.nanoseconds / nanosPerMilli :=
    Nat.div_le_div_right h
  apply Nat.mul_le_mul_right
  omega

/-- Every span is a number of seconds and a fraction of one. -/
theorem exists_ofParts (d : Duration) : ∃ seconds nanoseconds, d = ofParts seconds nanoseconds := by
  have hseconds : d.nanoseconds / nanosPerSecond < UInt64.size :=
    Nat.div_lt_of_lt_mul (Nat.mul_comm .. ▸ d.lt_limit)
  have hfraction : d.nanoseconds % nanosPerSecond < nanosPerSecond :=
    Nat.mod_lt _ (by decide)
  refine ⟨.ofNat (d.nanoseconds / nanosPerSecond), ⟨_, hfraction⟩, Duration.ext ?_⟩
  show d.nanoseconds = (UInt64.ofNat (d.nanoseconds / nanosPerSecond)).toNat * nanosPerSecond
    + d.nanoseconds % nanosPerSecond
  rw [UInt64.toNat_ofNat_of_lt' hseconds]
  exact (Nat.div_add_mod' ..).symm

/-- The milliseconds of a span are those of its seconds and those of its fraction. -/
theorem nanoseconds_settled_ofParts (seconds : UInt64) (nanoseconds : Fin nanosPerSecond) :
    (ofParts seconds nanoseconds).settled.nanoseconds
      = min (seconds.toNat * 1000 + nanoseconds / nanosPerMilli) (UInt64.size - 1)
        * nanosPerMilli := by
  have hmillis : (seconds.toNat * nanosPerSecond + nanoseconds) / nanosPerMilli
      = seconds.toNat * 1000 + nanoseconds / nanosPerMilli := by
    have hsecond : seconds.toNat * nanosPerSecond = seconds.toNat * 1000 * nanosPerMilli :=
      (Nat.mul_assoc seconds.toNat 1000 nanosPerMilli).symm
    rw [hsecond, Nat.add_comm, Nat.add_mul_div_right _ _ (by decide), Nat.add_comm]
  rw [nanoseconds_settled, ← hmillis]
  rfl

end Duration

-- ============================================================================
-- Through settings
-- ============================================================================

namespace Config

theorem setAll_append (c : Config) (first second : List Setting) :
    c.setAll (first ++ second) = (c.setAll first).setAll second :=
  List.foldl_append

theorem retry_foldl_min (l : List (String × Int64)) (c : Config) :
    (l.foldl (fun c (field, least) => c.min field least) c).retry = c.retry := by
  induction l generalizing c with
  | nil => rfl
  | cons entry l ih =>
    rw [List.foldl_cons, ih]
    rfl

theorem retry_require (c : Config) (field : String) : (c.require field).retry = c.retry := by
  unfold require
  split <;> rfl

theorem retry_foldl_require (names : List String) (c : Config) :
    (names.foldl require c).retry = c.retry := by
  induction names generalizing c with
  | nil => rfl
  | cons name names ih => rw [List.foldl_cons, ih, retry_require]

/-- Only the setting of a wait sets the wait. -/
theorem policy_set_of_ne (c : Config) {setting : Setting}
    (h : ∀ wait, setting ≠ .backoff wait) :
    (c.set setting).policy.backoff = c.policy.backoff := by
  cases setting with
  | maxAttempts n => rfl
  | backoff wait => exact absurd rfl (h wait)
  | minimum field least => rfl
  | require field =>
    show Duration.ofMillis (c.require field).retry.backoffMillis = _
    rw [retry_require]
    rfl
  | catalog =>
    show Duration.ofMillis (Catalog.required.foldl require _).retry.backoffMillis = _
    rw [retry_foldl_require, retry_foldl_min]
    rfl

theorem policy_setAll_of_not_mem (c : Config) {settings : List Setting}
    (h : ∀ wait, .backoff wait ∉ settings) :
    (c.setAll settings).policy.backoff = c.policy.backoff := by
  induction settings generalizing c with
  | nil => rfl
  | cons setting settings ih =>
    have hrest : ∀ wait, .backoff wait ∉ settings := fun wait hmem =>
      h wait (List.mem_cons_of_mem setting hmem)
    have hfirst : ∀ wait, setting ≠ .backoff wait := by
      rintro wait rfl
      exact h wait List.mem_cons_self
    exact (ih (c.set setting) hrest).trans (c.policy_set_of_ne hfirst)

/-- The last wait that is set counts, in milliseconds. -/
theorem policy_setAll_backoff (c : Config) (d : Duration) {before after : List Setting}
    (h : ∀ wait, .backoff wait ∉ after) :
    (c.setAll (before ++ .backoff d :: after)).policy.backoff = d.settled := by
  rw [setAll_append]
  exact policy_setAll_of_not_mem ((c.setAll before).set (.backoff d)) h

/-- The wait that a configuration describes is the one that it was given. -/
theorem set_policy_backoff (c : Config) : c.set (.backoff c.policy.backoff) = c := by
  show { c with retry := { c.retry with
    backoffMillis := (Duration.ofMillis c.retry.backoffMillis).wholeMillis } } = c
  rw [Duration.wholeMillis_ofMillis]

end Config

-- ============================================================================
-- Through JSON
-- ============================================================================

namespace Update.RetryPolicy

theorem readable_toJson (p : RetryPolicy) : Json.Readable p.toJson 1 := by
  refine Json.readable_object (List.forall_mem_cons.2 ⟨?_, List.forall_mem_singleton.2 ?_⟩)
  · exact Json.readable_ofNat (p.maxAttempts.toNat_lt.trans (by decide)) 0
  · exact Json.readable_ofNat p.backoff.wholeMillis.toNat_lt 0

theorem ofDocument_toJson (p : RetryPolicy) :
    ofDocument (Json.document p.toJson) = .ok { p with backoff := p.backoff.settled } := by
  have h : shape.read .malformed ⟨none, .zero⟩ (Json.document p.toJson) =
      .ok ⟨some p.maxAttempts, p.backoff.settled⟩ :=
    Shape.read_object shape .malformed ⟨none, .zero⟩ (by decide)
      (.cons (Shape.read_of (uint32_toNat p.maxAttempts))
        (.cons (Shape.read_of (uint64_toNat p.backoff.wholeMillis)) .nil))
  rw [ofDocument, h]
  rfl

/-- A policy comes back with its wait in milliseconds. -/
theorem reads_toJson (p : RetryPolicy) :
    p.toJson.ReadsAs ofDocument { p with backoff := p.backoff.settled } :=
  Json.readsAs_of_document Json.FloatCodec.lawful_nearest p.readable_toJson (by decide)
    p.ofDocument_toJson

end Update.RetryPolicy

-- ============================================================================
-- Numbers in documents that are accepted
-- ============================================================================

/-- A document that reads as a 64-bit count is the number of that count. -/
theorem toNat_of_uint64 {n : Int} {k : UInt64} (h : Document.uint64 (.integer n) = .ok k) :
    (k.toNat : Int) = n := by
  rw [Document.uint64, Document.fitting] at h
  cases hfit : uint64? n with
  | none =>
    rw [hfit] at h
    contradiction
  | some m =>
    rw [hfit] at h
    rw [← Except.ok.inj h]
    exact uint64?_eq_some_iff.1 hfit

namespace Update.RetryPolicy

/-- The milliseconds of an accepted policy are those of its document. -/
theorem wholeMillis_of_holds {d : Document} {p : RetryPolicy} {n : Int} (h : ofDocument d = .ok p)
    (hholds : shape.Holds "backoff" (.integer n) d) : (p.backoff.wholeMillis.toNat : Int) = n := by
  obtain ⟨parts, hparts, hrest⟩ := except_bind_eq_ok_iff.1 h
  obtain ⟨maxAttempts, -, hp⟩ := except_bind_eq_ok_iff.1 hrest
  have hothers : ∀ other ∈ shape.fields, other.name ≠ "backoff" →
      Shape.Leaves Parts.backoff other :=
    Shape.leaves_of_pair (Shape.leaves_of fun _ _ => rfl)
  obtain ⟨set, hset, s, hview⟩ := Shape.read_of_holds
    (List.mem_cons_of_mem _ (List.mem_singleton_self _)) (by decide) hothers hholds hparts
  obtain ⟨k, hk, rfl⟩ := Shape.of_read hset
  have hbackoff : p.backoff = .ofMillis k := by
    rw [← Except.ok.inj hp]
    exact hview
  rw [hbackoff, Duration.wholeMillis_ofMillis]
  exact toNat_of_uint64 hk

theorem holds_toJson (p : RetryPolicy) :
    shape.Holds "backoff" (.integer p.backoff.wholeMillis.toNat) (Json.document p.toJson) :=
  List.mem_cons_of_mem _ List.mem_cons_self

end Update.RetryPolicy

namespace RetryConfig

/-- The milliseconds of an accepted retry part are those of its document. -/
theorem backoffMillis_of_holds {surplus : Surplus} {d : Document} {c : RetryConfig} {n : Int}
    (h : ofDocument surplus d = .ok c) (hholds : shape.Holds "backoff_ms" (.integer n) d) :
    (c.backoffMillis.toNat : Int) = n := by
  have hothers : ∀ other ∈ shape.fields, other.name ≠ "backoff_ms" →
      Shape.Leaves backoffMillis other :=
    Shape.leaves_of_pair (Shape.leaves_of fun _ _ => rfl)
  obtain ⟨set, hset, s, hview⟩ := Shape.read_of_holds
    (List.mem_cons_of_mem _ (List.mem_singleton_self _)) (by decide) hothers hholds h
  obtain ⟨k, hk, rfl⟩ := Shape.of_read hset
  rw [show c.backoffMillis = k from hview]
  exact toNat_of_uint64 hk

theorem holds_toJson (c : RetryConfig) :
    shape.Holds "backoff_ms" (.integer c.backoffMillis.toNat) (Json.document c.toJson) :=
  List.mem_cons_of_mem _ List.mem_cons_self

end RetryConfig

namespace Config

/-- The retry part of an accepted configuration is that of its document. -/
theorem retry_of_holds {surplus : Surplus} {d retry : Document} {c : Config}
    (h : ofDocument surplus d = .ok c) (hholds : (shape surplus).Holds "retry" retry d) :
    RetryConfig.ofDocument surplus retry = .ok c.retry := by
  have hothers : ∀ other ∈ (shape surplus).fields, other.name ≠ "retry" →
      Shape.Leaves Config.retry other := by
    intro other hother hname
    rcases List.mem_cons.1 hother with rfl | hother
    · exact absurd rfl hname
    · rcases List.mem_cons.1 hother with rfl | hother
      · exact Shape.leaves_of fun _ _ => rfl
      · rw [List.mem_singleton.1 hother]
        exact Shape.leaves_of fun _ _ => rfl
  have hnames : ((shape surplus).fields.map (·.name)).Nodup :=
    show ["retry", "constraints", "required"].Nodup by decide
  obtain ⟨set, hset, s, hview⟩ :=
    Shape.read_of_holds List.mem_cons_self hnames hothers hholds h
  obtain ⟨r, hr, rfl⟩ := Shape.of_read hset
  rw [show c.retry = r from hview]
  exact hr

theorem holds_toJson (surplus : Surplus) (c : Config) :
    (shape surplus).Holds "retry" (Json.document c.retry.toJson) (Json.document c.toJson) :=
  List.mem_cons_self

end Config

-- ============================================================================
-- Either way
-- ============================================================================

/-- What becomes of the wait between attempts. -/
structure BackoffSettles : Prop where
  /-- The wait that is set last is kept in milliseconds, whatever else is set. -/
  setting : ∀ (c : Config) (d : Duration) (before after : List Setting),
    (∀ wait, .backoff wait ∉ after) →
      (c.setAll (before ++ .backoff d :: after)).policy.backoff = d.settled
  /-- So is the wait of a policy that is written as JSON and read again. -/
  json : ∀ p : RetryPolicy,
    p.toJson.ReadsAs RetryPolicy.ofDocument { p with backoff := p.backoff.settled }
  /-- That is to say, it is rounded down to milliseconds and capped at the greatest count. -/
  millis : ∀ d : Duration, ∃ seconds nanoseconds, d = .ofParts seconds nanoseconds ∧
    d.settled.nanoseconds
      = min (seconds.toNat * 1000 + nanoseconds / nanosPerMilli) (UInt64.size - 1)
        * nanosPerMilli
  /-- It is not rounded again, it does not grow, and it keeps its order. -/
  again : ∀ d : Duration, d.settled.settled = d.settled
  le : ∀ d : Duration, d.settled.nanoseconds ≤ d.nanoseconds
  mono : ∀ d e : Duration, d.nanoseconds ≤ e.nanoseconds →
    d.settled.nanoseconds ≤ e.settled.nanoseconds
  /-- Every count is accepted in a policy, and is written again as it was. -/
  policy : ∀ (m : UInt32) (n : UInt64),
    let written := Json.object [("max_attempts", .ofNat m.toNat), ("backoff", .ofNat n.toNat)]
    written.ReadsAs RetryPolicy.ofDocument ⟨m, .ofMillis n⟩ ∧
      RetryPolicy.toJson ⟨m, .ofMillis n⟩ = written
  /-- So it is in a configuration, and the wait that it stands for is set as the same count. -/
  config : ∀ (c : Config) (surplus : Surplus), c.toJson.ReadsAs (Config.ofDocument surplus) c ∧
    c.set (.backoff c.policy.backoff) = c
  /-- A number of milliseconds in any document that is accepted, be it a map or a sequence, is
      the number that is written again. -/
  policy_number : ∀ (d : Document) (p : RetryPolicy) (n : Int), RetryPolicy.ofDocument d = .ok p →
    RetryPolicy.shape.Holds "backoff" (.integer n) d →
      RetryPolicy.shape.Holds "backoff" (.integer n) (Json.document p.toJson)
  config_number : ∀ (surplus : Surplus) (d retry : Document) (c : Config) (n : Int),
    Config.ofDocument surplus d = .ok c → (Config.shape surplus).Holds "retry" retry d →
      RetryConfig.shape.Holds "backoff_ms" (.integer n) retry →
      (Config.shape surplus).Holds "retry" (Json.document c.retry.toJson)
          (Json.document c.toJson) ∧
        RetryConfig.shape.Holds "backoff_ms" (.integer n) (Json.document c.retry.toJson)

/-- A wait is rounded down to milliseconds on its way through settings and through JSON alike, and
    a count of milliseconds is kept. -/
theorem backoff_settles : BackoffSettles where
  setting c d _ _ h := c.policy_setAll_backoff d h
  json p := p.reads_toJson
  millis d := by
    obtain ⟨seconds, nanoseconds, rfl⟩ := d.exists_ofParts
    exact ⟨seconds, nanoseconds, rfl, Duration.nanoseconds_settled_ofParts seconds nanoseconds⟩
  again d := d.settled_settled
  le d := d.settled_le
  mono _ _ h := Duration.settled_mono h
  policy m n := by
    have hwritten : RetryPolicy.toJson ⟨m, .ofMillis n⟩
        = .object [("max_attempts", .ofNat m.toNat), ("backoff", .ofNat n.toNat)] := by
      rw [RetryPolicy.toJson, Duration.wholeMillis_ofMillis]
    have hreads := RetryPolicy.reads_toJson ⟨m, .ofMillis n⟩
    rw [hwritten, Duration.settled_ofMillis] at hreads
    exact ⟨hreads, hwritten⟩
  config c surplus :=
    ⟨Json.readsAs_of_document Json.FloatCodec.lawful_nearest c.readable_toJson (by decide)
      (c.ofDocument_toJson surplus),
      c.set_policy_backoff⟩
  policy_number d p n h hholds := by
    have hnumber := p.holds_toJson
    rwa [RetryPolicy.wholeMillis_of_holds h hholds] at hnumber
  config_number surplus d retry c n h hretry hholds := by
    have hnumber := c.retry.holds_toJson
    rw [RetryConfig.backoffMillis_of_holds (Config.retry_of_holds h hretry) hholds] at hnumber
    exact ⟨c.holds_toJson surplus, hnumber⟩

/-- The longest span there is comes out as the greatest count of milliseconds, either way. -/
theorem backoff_settles_longest :
    let d := Duration.ofParts (-1) ⟨999999999, by decide⟩
    let longest := Duration.ofMillis (-1)
    (Config.default.setAll [.backoff .zero, .backoff d, .maxAttempts 5, .catalog]).policy.backoff
        = longest ∧
      (RetryPolicy.mk 5 d).toJson.ReadsAs RetryPolicy.ofDocument ⟨5, longest⟩ ∧
      RetryPolicy.ofDocument (.array [.integer 5, .integer 7] .closed) = .ok ⟨5, .ofMillis 7⟩ ∧
      RetryPolicy.shape.Holds "backoff" (.integer 7)
        (Json.document (RetryPolicy.mk 5 (.ofMillis 7)).toJson) := by
  intro d longest
  have hlongest : d.settled = longest := by decide +kernel
  have hread : RetryPolicy.ofDocument (.array [.integer 5, .integer 7] .closed)
      = .ok ⟨5, .ofMillis 7⟩ := by rfl
  refine ⟨?_, ?_, hread, ?_⟩
  · rw [← hlongest]
    exact backoff_settles.setting .default d [.backoff .zero] [.maxAttempts 5, .catalog]
      (fun wait => by simp)
  · rw [← hlongest]
    exact backoff_settles.json ⟨5, d⟩
  · exact backoff_settles.policy_number _ _ 7 hread
      ⟨_, rfl, List.mem_cons_of_mem _ List.mem_cons_self⟩

end VersionedStore
