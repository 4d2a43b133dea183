/-
  VersionedStore.Proofs.Store.Replay

  The state of a store is the replay of its own answers.

  An answer speaks of at most one record: a creation or a write that succeeded
  says what the record is from now on, a removal that succeeded that it is gone,
  and nothing else says anything (`Exchange.state?`).  What was said of a record
  in the course of a session is its `history`, and the last word is what the log
  has `told` of it.

  What one call does to a store can be read off its answer (`say_effect`), and
  the answer off the log before it (`Exchange.Fits`).  So after any run every
  look at the store agrees with the log (`run_replayed`).
-/
import VersionedStore.Proofs.Store.Sessions

namespace VersionedStore.Store

-- ============================================================================
-- What a log says
-- ============================================================================

namespace Exchange

/-- What an answer says of the state of a record, if it says anything. -/
def state? (id : RecordId) : Exchange → Option (Option Record)
  | ⟨_, .created (.ok r)⟩ => if r.id = id then some (some r) else none
  | ⟨.mutate ⟨other, _, .write ..⟩, .mutated (.ok (.committed r))⟩ =>
    if other = id then some (some r) else none
  | ⟨.mutate ⟨other, _, .delete⟩, .mutated (.ok (.committed _))⟩ =>
    if other = id then some none else none
  | _ => none

/-- Whether a state was committed: by a creation or a write. -/
def commits : Exchange → Bool
  | ⟨_, .created (.ok _)⟩ => true
  | ⟨.mutate ⟨_, _, .write ..⟩, .mutated (.ok (.committed _))⟩ => true
  | _ => false

/-- Whether an id was handed out: by every creation unless the ids had run out. -/
def names : Exchange → Bool
  | ⟨_, .created answer⟩ => decide (answer ≠ .error (.exhausted idCounter))
  | _ => false

end Exchange

/-- All that was said of the state of a record. -/
def history (log : List Exchange) (id : RecordId) : List (Option Record) :=
  log.filterMap (·.state? id)

/-- The record that the last successful creation or write left, unless it was removed since. -/
def told (log : List Exchange) (id : RecordId) : Option Record :=
  (history log id).getLast?.join

/-- The records that are live by what was said, each once and in ascending order of their ids. -/
structure Lists (log : List Exchange) (rs : List Record) : Prop where
  mem_iff : ∀ r, r ∈ rs ↔ told log r.id = some r
  ascending : rs.Pairwise (·.id < ·.id)

/-- A record as it was created, and as it was written later. -/
structure Succession (id : RecordId) (first : Record) (later : List Record) : Prop where
  first_id : first.id = id
  first_never : first.lastModified = none
  written : ∀ r ∈ later, r.id = id ∧ r.createdAt = first.createdAt ∧ r.lastModified ≠ none

/-- The states of a record over its life; after its removal there are no more. -/
inductive Life (id : RecordId) : List (Option Record) → Prop where
  | unborn : Life id []
  | live {first : Record} {later : List Record} (h : Succession id first later) :
      Life id ((first :: later).map some)
  | ended {first : Record} {later : List Record} (h : Succession id first later) :
      Life id ((first :: later).map some ++ [none])

/-- The exchange is one that the exchanges before it call for. -/
inductive Exchange.Fits (before : List Exchange) : Exchange → Prop where
  /-- There is no id left. -/
  | unnamed {now : Instant} {fields : Fields} (hnamed : before.countP names = UInt64.size - 1) :
      Fits before ⟨.create now fields, .created (.error (.exhausted idCounter))⟩
  /-- There is no version left. -/
  | unstamped {now : Instant} {fields : Fields}
      (hcommits : before.countP commits = UInt64.size - 1) :
      Fits before ⟨.create now fields, .created (.error (.exhausted versionCounter))⟩
  /-- A new record with the next id and the next version. -/
  | created {now : Instant} {i n : UInt64} {fields : Fields} (hfresh : history before ⟨i⟩ = [])
      (hid : i.toNat = before.countP names + 1)
      (hversion : n.toNat = before.countP commits + 1) :
      Fits before ⟨.create now fields, .created (.ok (.create now ⟨i⟩ fields ⟨n⟩))⟩
  | missing {m : Mutation} (htold : told before m.id = none) :
      Fits before ⟨.mutate m, .mutated (.ok .notFound)⟩
  /-- A mismatch carries the record that was told last. -/
  | stale {m : Mutation} {current : Record} (htold : told before m.id = some current)
      (hne : current.version ≠ m.expected) :
      Fits before ⟨.mutate m, .mutated (.ok (.versionMismatch current))⟩
  /-- There is no version left for a write. -/
  | spent {id : RecordId} {current : Record} {now : Instant} {fields : Fields}
      (htold : told before id = some current)
      (hcommits : before.countP commits = UInt64.size - 1) :
      Fits before ⟨.mutate ⟨id, current.version, .write now fields⟩,
        .mutated (.error (.exhausted versionCounter))⟩
  /-- A write makes the successor, with the next version, of the record that was told last. -/
  | written {id : RecordId} {current : Record} {now : Instant} {fields : Fields} {n : UInt64}
      (htold : told before id = some current)
      (hversion : n.toNat = before.countP commits + 1) :
      Fits before ⟨.mutate ⟨id, current.version, .write now fields⟩,
        .mutated (.ok (.committed (current.successor now fields ⟨n⟩)))⟩
  /-- A removal carries the record that was told last. -/
  | removed {id : RecordId} {current : Record} (htold : told before id = some current) :
      Fits before ⟨.mutate ⟨id, current.version, .delete⟩, .mutated (.ok (.committed current))⟩
  | found {id : RecordId} : Fits before ⟨.read id, .found (.ok (told before id))⟩
  | listed {rs : List Record} (hlists : Lists before rs) :
      Fits before ⟨.list, .listed (.ok rs)⟩

-- ============================================================================
-- One more exchange
-- ============================================================================

variable {log before : List Exchange} {e : Exchange} {id : RecordId}

theorem history_concat (log : List Exchange) (e : Exchange) (id : RecordId) :
    history (log ++ [e]) id = history log id ++ (e.state? id).toList := by
  rw [history, history, List.filterMap_append]
  cases h : e.state? id <;> simp [h]

theorem told_concat (log : List Exchange) (e : Exchange) (id : RecordId) :
    told (log ++ [e]) id = (e.state? id).getD (told log id) := by
  rw [told, told, history_concat]
  cases e.state? id <;> simp

/-- What one exchange does to a store, as far as its answer tells. -/
structure Effect (s s' : Store) (e : Exchange) : Prop where
  get?_eq : ∀ id, s'.get? id = (e.state? id).getD (s.get? id)
  version_eq : s'.lastVersion.toNat = s.lastVersion.toNat + e.commits.toNat
  id_eq : s'.lastId.toNat = s.lastId.toNat + e.names.toNat

theorem Created.effect {now : Instant} {fields : Fields} {s s' : Store}
    {answer : Except StoreError Record} (h : Created now fields s answer s') :
    Effect s s' ⟨.create now fields, .created answer⟩ := by
  cases h with
  | unnamed => constructor <;> simp [Exchange.state?, Exchange.commits, Exchange.names]
  | unstamped hid =>
    have hnext := toNat_nextNumber? hid
    constructor <;>
      simp [Exchange.state?, Exchange.commits, Exchange.names, hnext, get?, versionCounter,
        idCounter]
  | @entered i n hid hversion =>
    refine ⟨fun id => ?_, toNat_nextNumber? hversion, toNat_nextNumber? hid⟩
    rw [get?_enter, Exchange.state?]
    split <;> rfl

/-- Every record is kept under its own id. -/
def Keyed (s : Store) : Prop :=
  ∀ (id : RecordId) (r : Record), s.get? id = some r → r.id = id

theorem Keyed.effect_of_outcome {s s' : Store} (hs : s.Keyed) {m : Mutation}
    {answer : Except StoreError WriteOutcome} (h : m.Outcome s answer s') :
    Effect s s' ⟨.mutate m, .mutated answer⟩ := by
  obtain ⟨id, expected, deed⟩ := m
  cases h with
  | missing | stale | spent =>
    constructor <;> simp [Exchange.state?, Exchange.commits, Exchange.names]
  | written hget _ hdeed hnext =>
    subst hdeed
    refine ⟨fun other => ?_, toNat_nextNumber? hnext, rfl⟩
    have hid := hs _ _ hget
    rw [get?_enter, Record.successor, hid, Exchange.state?]
    split <;> rfl
  | removed _ _ hdeed =>
    subst hdeed
    refine ⟨fun other => ?_, rfl, rfl⟩
    rw [get?_erase, Exchange.state?]
    split <;> rfl

-- ============================================================================
-- Lives
-- ============================================================================

/-- The last state of a record is under the id and has the time of birth of the first. -/
theorem Succession.last {first current : Record} {later : List Record}
    (h : Succession id first later) (hlast : (first :: later).getLast? = some current) :
    current.id = id ∧ current.createdAt = first.createdAt := by
  rcases List.mem_cons.1 (List.mem_of_getLast? hlast) with rfl | hlater
  · exact ⟨h.first_id, rfl⟩
  · obtain ⟨hid, hbirth, _⟩ := h.written _ hlater
    exact ⟨hid, hbirth⟩

theorem Succession.concat {first current : Record} {later : List Record}
    (h : Succession id first later) (hlast : (first :: later).getLast? = some current)
    (now : Instant) (fields : Fields) (v : Version) :
    Succession id first (later ++ [current.successor now fields v]) := by
  obtain ⟨hid, hbirth⟩ := h.last hlast
  refine ⟨h.first_id, h.first_never, fun r hr => ?_⟩
  rcases List.mem_append.1 hr with hlater | hnew
  · exact h.written r hlater
  · obtain rfl := List.mem_singleton.1 hnew
    exact ⟨hid, hbirth, Option.some_ne_none now⟩

theorem join_getLast?_map_some (rs : List Record) :
    (rs.map some).getLast?.join = rs.getLast? := by
  rw [List.getLast?_map]
  cases rs.getLast? <;> rfl

/-- A life whose last state is a record is not over. -/
theorem Life.of_last {states : List (Option Record)} {current : Record} (h : Life id states)
    (hlast : states.getLast?.join = some current) :
    ∃ first later, Succession id first later ∧ states = (first :: later).map some ∧
      (first :: later).getLast? = some current := by
  cases h with
  | unborn => contradiction
  | @live first later hsuccession =>
    rw [join_getLast?_map_some] at hlast
    exact ⟨first, later, hsuccession, rfl, hlast⟩
  | ended =>
    rw [List.getLast?_concat] at hlast
    contradiction

theorem Life.id_eq {current : Record} (h : Life id (history log id))
    (htold : told log id = some current) : current.id = id := by
  obtain ⟨_, _, hsuccession, _, hlast⟩ := h.of_last htold
  exact (hsuccession.last hlast).1

theorem Life.write {states : List (Option Record)} {current : Record} (h : Life id states)
    (hlast : states.getLast?.join = some current) (now : Instant) (fields : Fields)
    (v : Version) : Life id (states ++ [some (current.successor now fields v)]) := by
  obtain ⟨first, later, hsuccession, rfl, hlater⟩ := h.of_last hlast
  have hlive := Life.live (hsuccession.concat hlater now fields v)
  rwa [← List.cons_append, List.map_append] at hlive

theorem Life.remove {states : List (Option Record)} {current : Record} (h : Life id states)
    (hlast : states.getLast?.join = some current) : Life id (states ++ [none]) := by
  obtain ⟨first, later, hsuccession, rfl, _⟩ := h.of_last hlast
  exact .ended hsuccession

/-- An exchange that fits speaks of a record that is live or new. -/
theorem Exchange.Fits.told_or_new {state : Option Record} (hfits : e.Fits before)
    (hstate : e.state? id = some state) :
    told before id ≠ none ∨ id.raw.toNat = (before ++ [e]).countP names := by
  cases hfits with
  | unnamed | unstamped | missing | stale | spent | found | listed => cases hstate
  | @created now i n fields _ hi =>
    right
    have hid : (⟨i⟩ : RecordId) = id := by
      by_contra hne
      simp [state?, Record.create, hne] at hstate
    rw [← hid, List.countP_append, hi]
    rfl
  | @written other current now fields n htold =>
    left
    have hid : other = id := by
      by_contra hne
      simp [state?, hne] at hstate
    rw [← hid, htold]
    exact Option.some_ne_none current
  | @removed other current htold =>
    left
    have hid : other = id := by
      by_contra hne
      simp [state?, hne] at hstate
    rw [← hid, htold]
    exact Option.some_ne_none current

/-- An exchange that fits goes on with the lives of records. -/
theorem Exchange.Fits.life (hfits : e.Fits before) (h : Life id (history before id)) :
    Life id (history (before ++ [e]) id) := by
  rw [history_concat]
  cases hfits with
  | unnamed | unstamped | missing | stale | spent | found | listed =>
    simpa [Exchange.state?] using h
  | @created now i n fields hfresh =>
    by_cases hid : (⟨i⟩ : RecordId) = id
    · subst hid
      have hnew : Succession ⟨i⟩ (.create now ⟨i⟩ fields ⟨n⟩) [] :=
        ⟨rfl, rfl, List.forall_mem_nil _⟩
      rw [hfresh]
      simpa [Exchange.state?, Record.create] using Life.live hnew
    · simpa [Exchange.state?, Record.create, hid] using h
  | @written other current now fields n htold =>
    by_cases hid : other = id
    · subst hid
      simpa [Exchange.state?] using h.write htold now fields ⟨n⟩
    · simpa [Exchange.state?, hid] using h
  | @removed other current htold =>
    by_cases hid : other = id
    · subst hid
      simpa [Exchange.state?] using h.remove htold
    · simpa [Exchange.state?, hid] using h

-- ============================================================================
-- Sessions
-- ============================================================================

/-- The store is the one that the answers so far tell of. -/
structure Session.Faithful (t : Session) : Prop where
  get?_eq : ∀ id, t.store.get? id = told t.log id
  version_eq : t.store.lastVersion.toNat = t.log.countP Exchange.commits
  id_eq : t.store.lastId.toNat = t.log.countP Exchange.names
  /-- Nothing was said yet of ids that were not handed out. -/
  unborn : ∀ id : RecordId, t.store.lastId.toNat < id.raw.toNat → history t.log id = []
  lives : ∀ id, Life id (history t.log id)
  answers : ∀ before e after, t.log = before ++ e :: after → e.Fits before

namespace Session.Faithful

variable {t : Session} (h : t.Faithful)
include h

theorem keyed : t.store.Keyed := by
  intro id r hget
  rw [h.get?_eq] at hget
  exact (h.lives id).id_eq hget

/-- A listing tells what the answers so far tell. -/
theorem lists : Lists t.log t.store.toList where
  mem_iff r := by
    rw [mem_toList_iff, ← h.get?_eq]
    refine ⟨?_, fun hget => ⟨r.id, hget⟩⟩
    rintro ⟨id, hget⟩
    obtain rfl := h.keyed _ _ hget
    exact hget
  ascending := by
    have hordered := Std.ExtTreeMap.ordered_keys_toList (t := t.store.records)
    rw [toList, List.pairwise_map]
    refine hordered.imp_of_mem fun {a b} ha hb hlt => ?_
    have hida := h.keyed a.1 a.2 (Std.ExtTreeMap.mem_toList_iff_getElem?_eq_some.1 ha)
    have hidb := h.keyed b.1 b.2 (Std.ExtTreeMap.mem_toList_iff_getElem?_eq_some.1 hb)
    rw [hida, hidb]
    exact RecordId.compare_eq_lt.1 hlt

theorem effect_say (c : Call) : Effect t.store (t.say c).store ⟨c, t.answer c⟩ := by
  cases c with
  | create now fields => exact (create_created now fields t.store).effect
  | mutate m => exact h.keyed.effect_of_outcome (m.perform_outcome t.store)
  | read id => exact ⟨fun _ => rfl, rfl, rfl⟩
  | list => exact ⟨fun _ => rfl, rfl, rfl⟩

theorem commits_of_spent (hnext : nextNumber? t.store.lastVersion = none) :
    t.log.countP Exchange.commits = UInt64.size - 1 := by
  rw [← h.version_eq]
  exact nextNumber?_eq_none_iff.1 hnext

theorem fits_create (now : Instant) (fields : Fields) :
    Exchange.Fits t.log ⟨.create now fields, t.answer (.create now fields)⟩ := by
  have hcreated := create_created now fields t.store
  change Exchange.Fits t.log ⟨_, .created (Store.create now fields t.store).1⟩
  generalize (Store.create now fields t.store).1 = answer,
    (Store.create now fields t.store).2 = s at hcreated
  cases hcreated with
  | unnamed hid =>
    have hlast := nextNumber?_eq_none_iff.1 hid
    rw [h.id_eq] at hlast
    exact .unnamed hlast
  | unstamped _ hversion => exact .unstamped (h.commits_of_spent hversion)
  | @entered i n hid hversion =>
    have hi := toNat_nextNumber? hid
    have hn := toNat_nextNumber? hversion
    have hfresh := h.unborn ⟨i⟩ (by
      change t.store.lastId.toNat < i.toNat
      omega)
    rw [h.id_eq] at hi
    rw [h.version_eq] at hn
    exact .created hfresh hi hn

theorem fits_mutate (m : Mutation) :
    Exchange.Fits t.log ⟨.mutate m, t.answer (.mutate m)⟩ := by
  have houtcome := m.perform_outcome t.store
  change Exchange.Fits t.log ⟨_, .mutated (m.perform t.store).1⟩
  generalize (m.perform t.store).1 = answer, (m.perform t.store).2 = s at houtcome
  obtain ⟨id, expected, deed⟩ := m
  cases houtcome with
  | missing hget => exact .missing ((h.get?_eq _).symm.trans hget)
  | stale hget hne => exact .stale ((h.get?_eq _).symm.trans hget) hne
  | spent hget hversion hdeed hnext =>
    subst hversion hdeed
    exact .spent ((h.get?_eq _).symm.trans hget) (h.commits_of_spent hnext)
  | written hget hversion hdeed hnext =>
    subst hversion hdeed
    have hn := toNat_nextNumber? hnext
    rw [h.version_eq] at hn
    exact .written ((h.get?_eq _).symm.trans hget) hn
  | removed hget hversion hdeed =>
    subst hversion hdeed
    exact .removed ((h.get?_eq _).symm.trans hget)

theorem fits (c : Call) : Exchange.Fits t.log ⟨c, t.answer c⟩ := by
  cases c with
  | create now fields => exact h.fits_create now fields
  | mutate m => exact h.fits_mutate m
  | read id =>
    have hanswer : t.answer (.read id) = .found (.ok (told t.log id)) := by
      rw [← h.get?_eq]
      rfl
    rw [hanswer]
    exact .found
  | list => exact .listed h.lists

theorem say_id_eq (c : Call) :
    (t.say c).store.lastId.toNat = (t.say c).log.countP Exchange.names := by
  rw [(h.effect_say c).id_eq, h.id_eq, Session.say, List.countP_append]
  cases hnames : Exchange.names ⟨c, t.answer c⟩ <;> simp [hnames]

theorem say (c : Call) : (t.say c).Faithful where
  get?_eq id := by
    rw [(h.effect_say c).get?_eq, h.get?_eq, Session.say, told_concat]
  version_eq := by
    rw [(h.effect_say c).version_eq, h.version_eq, Session.say, List.countP_append]
    cases hcommits : Exchange.commits ⟨c, t.answer c⟩ <;> simp [hcommits]
  id_eq := h.say_id_eq c
  unborn id hid := by
    have hnames := (h.effect_say c).id_eq
    have hhistory := h.unborn id (by omega)
    have hsilent : (⟨c, t.answer c⟩ : Exchange).state? id = none := by
      by_contra hstate
      obtain ⟨state, hstate⟩ := Option.ne_none_iff_exists'.1 hstate
      rcases (h.fits c).told_or_new hstate with htold | hnew
      · rw [told, hhistory] at htold
        contradiction
      · rw [h.say_id_eq c] at hid
        exact Nat.ne_of_gt hid hnew
    rw [Session.say, history_concat, hhistory, hsilent]
    rfl
  lives id := (h.fits c).life (h.lives id)
  answers before e after hlog := by
    rcases after.eq_nil_or_concat with rfl | ⟨init, last, rfl⟩
    · obtain ⟨hbefore, he⟩ := List.append_inj' hlog rfl
      obtain rfl := List.singleton_inj.1 he
      rw [← hbefore]
      exact h.fits c
    · rw [List.concat_eq_append] at hlog
      have hinit : t.log ++ [⟨c, t.answer c⟩] = (before ++ e :: init) ++ [last] := by
        rw [List.append_assoc]
        exact hlog
      exact h.answers before e init (List.append_inj' hinit rfl).1

end Session.Faithful

theorem Session.faithful_start : Session.start.Faithful where
  get?_eq _ := rfl
  version_eq := rfl
  id_eq := rfl
  unborn _ _ := rfl
  lives _ := .unborn
  answers before e after hlog := by simp [Session.start] at hlog

theorem Session.faithful_run (calls : List Call) : (run calls).Faithful :=
  run_invariant faithful_start (fun _ c h => h.say c) calls

-- ============================================================================
-- The replay
-- ============================================================================

/-- Every look at the store agrees with what was answered. -/
structure Session.Replayed (t : Session) : Prop where
  /-- A record reads as the last successful creation or write left it. -/
  read_eq : ∀ id, (Store.read id t.store).1 = .ok (told t.log id)
  list_eq : ∃ rs, (Store.list t.store).1 = .ok rs ∧ Lists t.log rs ∧
    t.store.size = rs.length ∧ (t.store.isEmpty = true ↔ rs.length = 0)
  /-- Versions count successful creations and committed writes. -/
  version_eq : t.store.lastVersion.toNat = t.log.countP Exchange.commits
  /-- Every answer is the one that the exchanges before it call for. -/
  answers : ∀ before e after, t.log = before ++ e :: after → e.Fits before
  /-- Along the life of a record its id and its time of birth stay. -/
  lives : ∀ id, Life id (history t.log id)

theorem Session.Faithful.replayed {t : Session} (h : t.Faithful) : t.Replayed where
  read_eq id := by
    rw [read_fst, h.get?_eq]
  list_eq := by
    have hlength : t.store.toList.length = t.store.size := by
      rw [toList, List.length_map, Std.ExtTreeMap.length_toList, size]
    refine ⟨t.store.toList, rfl, h.lists, hlength.symm, ?_⟩
    rw [hlength, size, isEmpty, Std.ExtTreeMap.isEmpty_eq_size_beq_zero, beq_iff_eq]
  version_eq := h.version_eq
  answers := h.answers
  lives := h.lives

theorem Session.calls_run (calls : List Call) : (run calls).log.map (·.call) = calls := by
  induction calls using List.reverseRecOn with
  | nil => rfl
  | append_singleton calls c ih =>
    rw [run_concat, say, List.map_append, ih]
    rfl

/-- Whatever a store is asked, from empty, its state is the replay of its answers. -/
theorem Session.run_replayed (calls : List Call) :
    (run calls).log.map (·.call) = calls ∧ (run calls).Replayed :=
  ⟨calls_run calls, (faithful_run calls).replayed⟩

end VersionedStore.Store
