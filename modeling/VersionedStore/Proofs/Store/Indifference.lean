/-
  VersionedStore.Proofs.Store.Indifference

  Conflicts are found by versions only.

  Two runs that issue the same calls on the same ids with the same expected
  versions, but whatever payloads and at whatever times, cannot be told apart by
  anything but the payloads and the times in the records: `Session.run_alike`.

  The invariant between the two stores is that their counters are equal and that
  the same ids are live at the same versions.  What decides an answer is in the
  counters, in the set of live ids and in their versions; so alike stores give
  alike answers to alike calls, and stay alike.
-/
import Mathlib.Data.List.Forall2
import VersionedStore.Proofs.Store.Sessions

namespace VersionedStore

/-- What names a state of a record: the record without its fields and times. -/
def Record.tag (r : Record) : RecordId × Version :=
  (r.id, r.version)

namespace Store

/-- Stores that differ in payloads and times only. -/
structure Alike (s s' : Store) : Prop where
  tags : ∀ id, (s.get? id).map Record.tag = (s'.get? id).map Record.tag
  lastVersion_eq : s.lastVersion = s'.lastVersion
  lastId_eq : s.lastId = s'.lastId

/-- Calls that differ in payloads and times only. -/
inductive Call.Alike : Call → Call → Prop where
  | create {now now' : Instant} {fields fields' : Fields} :
      Call.Alike (.create now fields) (.create now' fields')
  | write {id : RecordId} {expected : Version} {now now' : Instant} {fields fields' : Fields} :
      Call.Alike (.mutate ⟨id, expected, .write now fields⟩)
        (.mutate ⟨id, expected, .write now' fields'⟩)
  | delete {id : RecordId} {expected : Version} :
      Call.Alike (.mutate ⟨id, expected, .delete⟩) (.mutate ⟨id, expected, .delete⟩)
  | read {id : RecordId} : Call.Alike (.read id) (.read id)
  | list : Call.Alike .list .list

/-- Answers of the same kind, with the same ids and versions, or with the same error. -/
inductive Answer.Alike : Answer → Answer → Prop where
  | created {r r' : Record} (htag : r.tag = r'.tag) :
      Answer.Alike (.created (.ok r)) (.created (.ok r'))
  | refused {e : StoreError} : Answer.Alike (.created (.error e)) (.created (.error e))
  | notFound : Answer.Alike (.mutated (.ok .notFound)) (.mutated (.ok .notFound))
  | mismatch {r r' : Record} (htag : r.tag = r'.tag) :
      Answer.Alike (.mutated (.ok (.versionMismatch r))) (.mutated (.ok (.versionMismatch r')))
  | committed {r r' : Record} (htag : r.tag = r'.tag) :
      Answer.Alike (.mutated (.ok (.committed r))) (.mutated (.ok (.committed r')))
  | failed {e : StoreError} : Answer.Alike (.mutated (.error e)) (.mutated (.error e))
  | found {r? r'? : Option Record} (htags : r?.map Record.tag = r'?.map Record.tag) :
      Answer.Alike (.found (.ok r?)) (.found (.ok r'?))
  | listed {rs rs' : List Record} (htags : rs.map Record.tag = rs'.map Record.tag) :
      Answer.Alike (.listed (.ok rs)) (.listed (.ok rs'))

-- ============================================================================
-- Looks at alike stores
-- ============================================================================

theorem Record.tag_successor {r r' : Record} (htag : r.tag = r'.tag) (now now' : Instant)
    (fields fields' : Fields) (v : Version) :
    (r.successor now fields v).tag = (r'.successor now' fields' v).tag := by
  have hid : r.id = r'.id := congrArg Prod.fst htag
  rw [Record.tag, Record.tag, Record.successor, Record.successor, hid]

namespace Alike

variable {s s' : Store} (h : s.Alike s') {id : RecordId} {current : Record}
include h

theorem get?_of_some (hget : s.get? id = some current) :
    ∃ current', s'.get? id = some current' ∧ current.tag = current'.tag := by
  have htags := h.tags id
  rw [hget] at htags
  obtain ⟨current', hget', htag⟩ := Option.map_eq_some_iff.1 htags.symm
  exact ⟨current', hget', htag.symm⟩

theorem get?_of_none (hget : s.get? id = none) : s'.get? id = none := by
  have htags := h.tags id
  rw [hget] at htags
  exact Option.map_eq_none_iff.1 htags.symm

theorem isSome_get? (id : RecordId) : (s.get? id).isSome = (s'.get? id).isSome := by
  have hsome := congrArg Option.isSome (h.tags id)
  rwa [Option.isSome_map, Option.isSome_map] at hsome

theorem records_map :
    (s.records.map fun _ r => r.tag) = s'.records.map fun _ r => r.tag := by
  refine Std.ExtTreeMap.ext_getElem? fun id => ?_
  rw [Std.ExtTreeMap.getElem?_map, Std.ExtTreeMap.getElem?_map]
  exact h.tags id

theorem toList_map_tag : s.toList.map Record.tag = s'.toList.map Record.tag := by
  have hlist := congrArg (fun m => m.toList.map Prod.snd) h.records_map
  simp only [Std.ExtTreeMap.toList_map, List.map_map] at hlist
  rw [toList, toList, List.map_map, List.map_map]
  exact hlist

theorem size_eq : s.size = s'.size := by
  have hsize := congrArg Std.ExtTreeMap.size h.records_map
  rwa [Std.ExtTreeMap.size_map, Std.ExtTreeMap.size_map] at hsize

theorem isEmpty_eq : s.isEmpty = s'.isEmpty := by
  rw [isEmpty, isEmpty, Std.ExtTreeMap.isEmpty_eq_size_beq_zero,
    Std.ExtTreeMap.isEmpty_eq_size_beq_zero]
  exact congrArg (· == 0) h.size_eq

/-- Alike records entered, and counters moved alike. -/
theorem enter {r r' : Record} (htag : r.tag = r'.tag) (lastVersion lastId : UInt64) :
    Alike (Store.enter r { s with lastVersion, lastId }).2
      (Store.enter r' { s' with lastVersion, lastId }).2 := by
  have hid : r.id = r'.id := congrArg Prod.fst htag
  refine ⟨fun id => ?_, rfl, rfl⟩
  rw [get?_enter, get?_enter, hid]
  split
  · exact congrArg some htag
  · exact h.tags id

theorem erase (id : RecordId) :
    Alike { s with records := s.records.erase id } { s' with records := s'.records.erase id } := by
  refine ⟨fun other => ?_, h.lastVersion_eq, h.lastId_eq⟩
  rw [get?_erase, get?_erase]
  split
  · rfl
  · exact h.tags other

end Alike

-- ============================================================================
-- Alike calls of alike stores
-- ============================================================================

theorem Alike.create {s s' : Store} (h : s.Alike s') (now now' : Instant)
    (fields fields' : Fields) :
    Answer.Alike (.created (Store.create now fields s).1)
        (.created (Store.create now' fields' s').1) ∧
      (Store.create now fields s).2.Alike (Store.create now' fields' s').2 := by
  cases hid : nextNumber? s.lastId with
  | none =>
    have hid' : nextNumber? s'.lastId = none := by rw [← h.lastId_eq, hid]
    rw [create_of_unnamed hid, create_of_unnamed hid']
    exact ⟨.refused, h⟩
  | some i =>
    have hid' : nextNumber? s'.lastId = some i := by rw [← h.lastId_eq, hid]
    cases hversion : nextNumber? s.lastVersion with
    | none =>
      have hversion' : nextNumber? s'.lastVersion = none := by rw [← h.lastVersion_eq, hversion]
      rw [create_of_unstamped hid hversion, create_of_unstamped hid' hversion']
      exact ⟨.refused, h.tags, h.lastVersion_eq, rfl⟩
    | some n =>
      have hversion' : nextNumber? s'.lastVersion = some n := by
        rw [← h.lastVersion_eq, hversion]
      rw [create_of_some hid hversion, create_of_some hid' hversion']
      have htag : (Record.create now ⟨i⟩ fields ⟨n⟩).tag
          = (Record.create now' ⟨i⟩ fields' ⟨n⟩).tag := rfl
      exact ⟨.created htag, h.enter htag n i⟩

/-- What a mutation comes to, an alike mutation of an alike store comes to as well. -/
theorem Alike.outcome {s s' t : Store} (h : s.Alike s') {m m' : Mutation}
    (hm : Call.Alike (.mutate m) (.mutate m')) {answer : Except StoreError WriteOutcome}
    (houtcome : m.Outcome s answer t) :
    ∃ answer' t', m'.Outcome s' answer' t' ∧
      Answer.Alike (.mutated answer) (.mutated answer') ∧ t.Alike t' := by
  have hid : m'.id = m.id := by cases hm <;> rfl
  have hexpected : m'.expected = m.expected := by cases hm <;> rfl
  -- What decides the answer is the version that the record is at.
  have hlook : ∀ {current : Record}, s.get? m.id = some current →
      ∃ current', s'.get? m'.id = some current' ∧ current.tag = current'.tag ∧
        (current'.version = m'.expected ↔ current.version = m.expected) := by
    intro current hget
    rw [← hid] at hget
    obtain ⟨current', hget', htag⟩ := h.get?_of_some hget
    have hversion : current.version = current'.version := congrArg Prod.snd htag
    refine ⟨current', hget', htag, ?_⟩
    rw [← hversion, hexpected]
  cases houtcome with
  | missing hget =>
    rw [← hid] at hget
    exact ⟨_, _, .missing (h.get?_of_none hget), .notFound, h⟩
  | stale hget hne =>
    obtain ⟨current', hget', htag, hversion'⟩ := hlook hget
    exact ⟨_, _, .stale hget' (mt hversion'.1 hne), .mismatch htag, h⟩
  | spent hget hversion hdeed hnext =>
    obtain ⟨current', hget', htag, hversion'⟩ := hlook hget
    rw [h.lastVersion_eq] at hnext
    cases hm with
    | write => exact ⟨_, _, .spent hget' (hversion'.2 hversion) rfl hnext, .failed, h⟩
    | delete => contradiction
  | @written current now fields n hget hversion hdeed hnext =>
    obtain ⟨current', hget', htag, hversion'⟩ := hlook hget
    rw [h.lastVersion_eq] at hnext
    cases hm with
    | @write _ _ _ now' _ fields' =>
      have hsuccessor := Record.tag_successor htag now now' fields fields' ⟨n⟩
      refine ⟨_, _, .written hget' (hversion'.2 hversion) rfl hnext, .committed hsuccessor, ?_⟩
      rw [h.lastId_eq]
      exact h.enter hsuccessor n s'.lastId
    | delete => contradiction
  | removed hget hversion hdeed =>
    obtain ⟨current', hget', htag, hversion'⟩ := hlook hget
    cases hm with
    | write => contradiction
    | delete =>
      exact ⟨_, _, .removed hget' (hversion'.2 hversion) rfl, .committed htag, h.erase _⟩

/-- Alike stores give alike answers to alike calls, and stay alike. -/
theorem Alike.perform {s s' : Store} (h : s.Alike s') {c c' : Call} (hc : c.Alike c') :
    (c.perform s).1.Alike (c'.perform s').1 ∧ (c.perform s).2.Alike (c'.perform s').2 := by
  have hmutate : ∀ {m m' : Mutation}, Call.Alike (.mutate m) (.mutate m') →
      ((Call.mutate m).perform s).1.Alike ((Call.mutate m').perform s').1 ∧
        ((Call.mutate m).perform s).2.Alike ((Call.mutate m').perform s').2 := by
    intro m m' hm
    obtain ⟨answer, t, houtcome⟩ := m.exists_outcome s
    obtain ⟨answer', t', houtcome', hanswer, halike⟩ := h.outcome hm houtcome
    have hperform : (Call.mutate m).perform s = (.mutated (m.perform s).1, (m.perform s).2) := rfl
    have hperform' : (Call.mutate m').perform s'
        = (.mutated (m'.perform s').1, (m'.perform s').2) := rfl
    rw [hperform, hperform', houtcome.perform_eq, houtcome'.perform_eq]
    exact ⟨hanswer, halike⟩
  cases hc with
  | create => exact h.create _ _ _ _
  | write => exact hmutate .write
  | delete => exact hmutate .delete
  | read => exact ⟨.found (h.tags _), h⟩
  | list => exact ⟨.listed h.toList_map_tag, h⟩

-- ============================================================================
-- Alike sessions
-- ============================================================================

namespace Session

/-- Sessions that differ in payloads and times only, all along. -/
structure Alike (t t' : Session) : Prop where
  store : t.store.Alike t'.store
  log : List.Forall₂ (fun e e' => e.answer.Alike e'.answer) t.log t'.log

theorem Alike.say {t t' : Session} (h : t.Alike t') {c c' : Call} (hc : c.Alike c') :
    (t.say c).Alike (t'.say c') := by
  obtain ⟨hanswer, hstore⟩ := h.store.perform hc
  refine ⟨hstore, List.rel_append h.log ?_⟩
  exact .cons hanswer .nil

theorem Alike.foldl {t t' : Session} (h : t.Alike t') {calls others : List Call}
    (hcalls : List.Forall₂ Call.Alike calls others) :
    (calls.foldl Session.say t).Alike (others.foldl Session.say t') := by
  induction hcalls generalizing t t' with
  | nil => exact h
  | cons hc _ ih => exact ih (h.say hc)

/-- What a client can tell of a store but for payloads and times is the same. -/
structure Indistinct (t t' : Session) : Prop where
  /-- Every answer is of the same kind and carries the same ids and versions. -/
  answers : List.Forall₂ (fun e e' => e.answer.Alike e'.answer) t.log t'.log
  lastVersion_eq : t.store.lastVersion = t'.store.lastVersion
  lastId_eq : t.store.lastId = t'.store.lastId
  live_eq : ∀ id, (t.store.get? id).isSome = (t'.store.get? id).isSome
  /-- The listings have the same ids and versions in the same order. -/
  listed_eq : t.store.toList.map Record.tag = t'.store.toList.map Record.tag
  size_eq : t.store.size = t'.store.size
  isEmpty_eq : t.store.isEmpty = t'.store.isEmpty

theorem Alike.indistinct {t t' : Session} (h : t.Alike t') : t.Indistinct t' where
  answers := h.log
  lastVersion_eq := h.store.lastVersion_eq
  lastId_eq := h.store.lastId_eq
  live_eq := h.store.isSome_get?
  listed_eq := h.store.toList_map_tag
  size_eq := h.store.size_eq
  isEmpty_eq := h.store.isEmpty_eq

theorem alike_start : start.Alike start :=
  ⟨⟨fun _ => rfl, rfl, rfl⟩, .nil⟩

/-- Two runs of the same calls on the same ids with the same expected versions are alike at every
    point, whatever the payloads and the clocks. -/
theorem run_alike {calls others : List Call} (h : List.Forall₂ Call.Alike calls others)
    (n : Nat) : (run (calls.take n)).Indistinct (run (others.take n)) :=
  (alike_start.foldl (List.forall₂_take n h)).indistinct

/-- A write that was overtaken is refused, whether or not the payloads that it met were equal to
    its own, and whatever the time. -/
theorem run_alike_overtaken :
    let stock (n : Int64) : Fields := Fields.ofList [("stock", .int n)]
    let later := Instant.ofNanoseconds 5
    let calls : List Call :=
      [.create default (stock 7), .mutate ⟨⟨1⟩, ⟨1⟩, .write default (stock 7)⟩,
        .mutate ⟨⟨1⟩, ⟨1⟩, .write default (stock 7)⟩, .list,
        .mutate ⟨⟨1⟩, ⟨2⟩, .delete⟩, .read ⟨1⟩]
    let others : List Call :=
      [.create later ∅, .mutate ⟨⟨1⟩, ⟨1⟩, .write later (stock 1)⟩,
        .mutate ⟨⟨1⟩, ⟨1⟩, .write default (stock 2)⟩, .list,
        .mutate ⟨⟨1⟩, ⟨2⟩, .delete⟩, .read ⟨1⟩]
    List.Forall₂ Call.Alike calls others ∧
      (run (calls.take 4)).Indistinct (run (others.take 4)) := by
  intro stock later calls others
  have hcalls : List.Forall₂ Call.Alike calls others :=
    .cons .create (.cons .write (.cons .write (.cons .list (.cons .delete (.cons .read .nil)))))
  exact ⟨hcalls, run_alike hcalls 4⟩

end Session

end Store
end VersionedStore
