/-
  VersionedStore.Proofs.Json.Reading

  A JSON text reads back as the document of its value, if the codec of floats is lawful.

  From the tokens of a value, the reader comes to the same place as if it had been
  handed the document of the value: whatever is open around it stays open and gets one
  more part (`settle`).  The nesting that the reader allows is counted against what
  is open already.
-/
import VersionedStore.Proofs.Json.Tokens

namespace VersionedStore.Json

open Token

mutual

/-- How many arrays and objects are nested in one another in a value. -/
def nesting : Json → Nat
  | .array items => itemsNesting items + 1
  | .object members => membersNesting members + 1
  | .null | .bool _ | .integer _ | .float _ | .string _ => 0

/-- How many are nested in the items of an array. -/
def itemsNesting : List Json → Nat
  | [] => 0
  | v :: vs => max (nesting v) (itemsNesting vs)

/-- How many are nested in the members of an object. -/
def membersNesting : List (String × Json) → Nat
  | [] => 0
  | (_, v) :: ms => max (nesting v) (membersNesting ms)

end

/-- Where the reader is after a value, with these arrays and objects open around it. -/
def settle (d : Document) (ts : List Token) : List Frame → Reading
  | [] => ⟨d, ts.isEmpty⟩
  | frame :: frames => readTokens ts (frame.add d :: frames) .separator

theorem readTokens_of_deliver {t : Token} {ts : List Token} {frames outer : List Frame}
    {awaiting : Awaiting} {d : Document} (h : step frames awaiting t = deliver d outer) :
    readTokens (t :: ts) frames awaiting = settle d ts outer := by
  rw [readTokens, h]
  cases outer <;> rfl

theorem closeFrame_eq {frame : Frame} {frames : List Frame}
    (h : frames.length < maxDepth) :
    closeFrame (frame :: frames) = deliver frame.close frames := by
  have hdrop : (frame :: frames).drop maxDepth = [] := List.drop_eq_nil_of_le h
  rw [closeFrame, isTooDeep, hdrop]
  rfl

/-- What an array in the making becomes at its closing bracket. -/
theorem readTokens_closeArray (items : List Document) (ts : List Token) {frames : List Frame}
    {awaiting : Awaiting} (hawaiting : awaiting = .valueOrClose ∨ awaiting = .separator)
    (h : frames.length < maxDepth) :
    readTokens (.closeArray :: ts) (.array items :: frames) awaiting =
      settle (.array items.reverse .closed) ts frames := by
  rcases hawaiting with rfl | rfl <;> exact readTokens_of_deliver (closeFrame_eq h)

/-- What an object in the making becomes at its closing bracket. -/
theorem readTokens_closeObject (members : List (String × Document)) (ts : List Token)
    {frames : List Frame} {awaiting : Awaiting}
    (hawaiting : awaiting = .nameOrClose ∨ awaiting = .separator) (h : frames.length < maxDepth) :
    readTokens (.closeObject :: ts) (.object members none true :: frames) awaiting =
      settle (.object members.reverse .closed) ts frames := by
  rcases hawaiting with rfl | rfl <;> exact readTokens_of_deliver (closeFrame_eq h)

/-- Up to the value of a member, the reader takes its name. -/
theorem readTokens_name {members : List (String × Document)} {ts : List Token}
    {frames : List Frame} {awaiting : Awaiting}
    (hawaiting : awaiting = .name ∨ awaiting = .nameOrClose) (name : String) :
    readTokens (.string (some name) :: .colon :: ts) (.object members none true :: frames) awaiting
      = readTokens ts (.object members (some name) true :: frames) .value := by
  rcases hawaiting with rfl | rfl <;> rfl

mutual

/-- From the tokens of a value, the reader goes on as if it had been handed the document. -/
theorem readTokens_tokens : ∀ (v : Json) (ts : List Token) (frames : List Frame)
    (awaiting : Awaiting), (awaiting = .value ∨ awaiting = .valueOrClose) →
    frames.length + nesting v ≤ maxDepth →
    readTokens (tokens v ++ ts) frames awaiting = settle (document v) ts frames
  | .null, _, _, _, hawaiting, _ => by
    rcases hawaiting with rfl | rfl <;> exact readTokens_of_deliver rfl
  | .bool _, _, _, _, hawaiting, _ => by
    rcases hawaiting with rfl | rfl <;> exact readTokens_of_deliver rfl
  | .integer _, _, _, _, hawaiting, _ => by
    rcases hawaiting with rfl | rfl <;> exact readTokens_of_deliver rfl
  | .float _, _, _, _, hawaiting, _ => by
    rcases hawaiting with rfl | rfl <;> exact readTokens_of_deliver rfl
  | .string _, _, _, _, hawaiting, _ => by
    rcases hawaiting with rfl | rfl <;> exact readTokens_of_deliver rfl
  | .array items, ts, frames, _, hawaiting, hdepth => by
    have hitems := readTokens_items items [] ts frames .valueOrClose (.inr rfl) (fun _ => rfl)
      hdepth
    rw [tokens, List.cons_append, List.append_assoc]
    rcases hawaiting with rfl | rfl <;> exact hitems
  | .object members, ts, frames, _, hawaiting, hdepth => by
    have hmembers := readTokens_members members [] ts frames .nameOrClose (.inr rfl) (fun _ => rfl)
      hdepth
    rw [tokens, List.cons_append, List.append_assoc]
    rcases hawaiting with rfl | rfl <;> exact hmembers

theorem readTokens_items : ∀ (items : List Json) (done : List Document) (ts : List Token)
    (frames : List Frame) (awaiting : Awaiting), (awaiting = .value ∨ awaiting = .valueOrClose) →
    (items = [] → awaiting = .valueOrClose) →
    frames.length + (itemsNesting items + 1) ≤ maxDepth →
    readTokens (chained (itemTokens items) ++ ([.closeArray] ++ ts)) (.array done :: frames)
      awaiting = settle (.array (done.reverse ++ documents items) .closed) ts frames
  | [], done, ts, frames, _, _, hempty, hdepth => by
    rw [documents, List.append_nil]
    exact readTokens_closeArray done ts (.inl (hempty rfl)) (by omega)
  | [v], done, ts, frames, awaiting, hawaiting, _, hdepth => by
    have hdepth' : (Frame.array done :: frames).length + nesting v ≤ maxDepth := by
      rw [itemsNesting, itemsNesting] at hdepth
      rw [List.length_cons]
      omega
    have hvalue := readTokens_tokens v (.closeArray :: ts) (.array done :: frames) awaiting
      hawaiting hdepth'
    have hclose := readTokens_closeArray (document v :: done) ts (.inr rfl)
      (show frames.length < maxDepth by omega)
    rw [List.reverse_cons] at hclose
    exact hvalue.trans hclose
  | v :: w :: vs, done, ts, frames, awaiting, hawaiting, _, hdepth => by
    rw [itemsNesting] at hdepth
    have hdepth' : (Frame.array done :: frames).length + nesting v ≤ maxDepth := by
      rw [List.length_cons]
      omega
    have hvalue := readTokens_tokens v (.comma :: (chained (itemTokens (w :: vs)) ++
      ([.closeArray] ++ ts))) (.array done :: frames) awaiting hawaiting hdepth'
    have hrest := readTokens_items (w :: vs) (document v :: done) ts frames .value (.inl rfl)
      (fun h => absurd h (List.cons_ne_nil w vs)) (by omega)
    rw [List.reverse_cons, List.append_assoc] at hrest
    have htokens : chained (itemTokens (v :: w :: vs)) ++ ([.closeArray] ++ ts) =
        tokens v ++ .comma :: (chained (itemTokens (w :: vs)) ++ ([.closeArray] ++ ts)) := by
      simp [itemTokens, chained]
    rw [htokens]
    exact hvalue.trans hrest

theorem readTokens_members : ∀ (members : List (String × Json)) (done : List (String × Document))
    (ts : List Token) (frames : List Frame) (awaiting : Awaiting),
    (awaiting = .name ∨ awaiting = .nameOrClose) →
    (members = [] → awaiting = .nameOrClose) →
    frames.length + (membersNesting members + 1) ≤ maxDepth →
    readTokens (chained (memberTokens members) ++ ([.closeObject] ++ ts))
      (.object done none true :: frames) awaiting
      = settle (.object (done.reverse ++ memberDocuments members) .closed) ts frames
  | [], done, ts, frames, _, _, hempty, hdepth => by
    rw [memberDocuments, List.append_nil]
    exact readTokens_closeObject done ts (.inl (hempty rfl)) (by omega)
  | [(name, v)], done, ts, frames, awaiting, hawaiting, _, hdepth => by
    have hdepth' : (Frame.object done (some name) true :: frames).length + nesting v ≤
        maxDepth := by
      rw [membersNesting, membersNesting] at hdepth
      rw [List.length_cons]
      omega
    have hvalue := readTokens_tokens v (.closeObject :: ts)
      (.object done (some name) true :: frames) .value (.inl rfl) hdepth'
    have hclose := readTokens_closeObject ((name, document v) :: done) ts (.inr rfl)
      (show frames.length < maxDepth by omega)
    rw [List.reverse_cons] at hclose
    exact (readTokens_name hawaiting name).trans (hvalue.trans hclose)
  | (name, v) :: m :: ms, done, ts, frames, awaiting, hawaiting, _, hdepth => by
    rw [membersNesting] at hdepth
    have hdepth' : (Frame.object done (some name) true :: frames).length + nesting v ≤
        maxDepth := by
      rw [List.length_cons]
      omega
    have hvalue := readTokens_tokens v (.comma :: (chained (memberTokens (m :: ms)) ++
      ([.closeObject] ++ ts))) (.object done (some name) true :: frames) .value (.inl rfl) hdepth'
    have hrest := readTokens_members (m :: ms) ((name, document v) :: done) ts frames .name
      (.inl rfl) (fun h => absurd h (List.cons_ne_nil m ms)) (by omega)
    rw [List.reverse_cons, List.append_assoc] at hrest
    have htokens : chained (memberTokens ((name, v) :: m :: ms)) ++ ([.closeObject] ++ ts) =
        .string (some name) :: .colon :: (tokens v ++ .comma :: (chained (memberTokens (m :: ms)) ++
          ([.closeObject] ++ ts))) := by
      simp [memberTokens, chained]
    rw [htokens, readTokens_name hawaiting]
    exact hvalue.trans hrest

end

/-- Whether a value can be read back: its numbers can, and it is nested no deeper than this. -/
structure Readable (v : Json) (depth : Nat) : Prop where
  plain : Plain v
  nesting_le : nesting v ≤ depth

/-- A text of a readable value reads back as the document of the value. -/
theorem read_of_mem_texts [FloatCodec] (hfloats : FloatCodec.Lawful) {v : Json}
    (h : Readable v maxDepth) {text : String} (htext : text ∈ texts v) :
    read text = ⟨document v, true⟩ := by
  have hnesting : ([] : List Frame).length + nesting v ≤ maxDepth := by
    simpa using h.nesting_le
  have hread := readTokens_tokens v [] [] .value (.inl rfl) hnesting
  rw [List.append_nil] at hread
  rw [read, ofText_of_mem_texts hfloats h.plain htext, hread]
  rfl

-- ============================================================================
-- Readable values
-- ============================================================================

theorem readable_array {items : List Json} {depth : Nat} (h : ∀ v ∈ items, Readable v depth) :
    Readable (.array items) (depth + 1) := by
  have hparts : ItemsPlain items ∧ itemsNesting items ≤ depth := by
    induction items with
    | nil => exact ⟨trivial, Nat.zero_le _⟩
    | cons v vs ih =>
      have hv := h v (List.mem_cons_self ..)
      obtain ⟨hplain, hnesting⟩ := ih fun w hw => h w (List.mem_cons_of_mem v hw)
      exact ⟨⟨hv.plain, hplain⟩, Nat.max_le.2 ⟨hv.nesting_le, hnesting⟩⟩
  exact ⟨hparts.1, Nat.succ_le_succ hparts.2⟩

theorem readable_object {members : List (String × Json)} {depth : Nat}
    (h : ∀ m ∈ members, Readable m.2 depth) : Readable (.object members) (depth + 1) := by
  have hparts : MembersPlain members ∧ membersNesting members ≤ depth := by
    induction members with
    | nil => exact ⟨trivial, Nat.zero_le _⟩
    | cons m ms ih =>
      have hm := h m (List.mem_cons_self ..)
      obtain ⟨hplain, hnesting⟩ := ih fun w hw => h w (List.mem_cons_of_mem m hw)
      exact ⟨⟨hm.plain, hplain⟩, Nat.max_le.2 ⟨hm.nesting_le, hnesting⟩⟩
  exact ⟨hparts.1, Nat.succ_le_succ hparts.2⟩

theorem Readable.mono {v : Json} {depth depth' : Nat} (h : Readable v depth)
    (hle : depth ≤ depth') : Readable v depth' :=
  ⟨h.plain, Nat.le_trans h.nesting_le hle⟩

theorem readable_string (s : String) (depth : Nat) : Readable (.string s) depth :=
  ⟨trivial, Nat.zero_le _⟩

theorem readable_null (depth : Nat) : Readable .null depth :=
  ⟨trivial, Nat.zero_le _⟩

theorem readable_int64 (n : Int64) (depth : Nat) : Readable (.integer n.toInt) depth := by
  have hlow := n.le_toInt
  have hhigh := n.toInt_lt
  exact ⟨⟨by omega, by omega⟩, Nat.zero_le _⟩

theorem readable_ofNat {n : Nat} (h : n < 2 ^ 64) (depth : Nat) : Readable (.ofNat n) depth :=
  ⟨⟨by omega, by omega⟩, Nat.zero_le _⟩

-- ============================================================================
-- Documents
-- ============================================================================

theorem documents_eq_map (items : List Json) : documents items = items.map document := by
  induction items with
  | nil => rfl
  | cons v vs ih => rw [documents, ih, List.map_cons]

theorem memberDocuments_eq_map (members : List (String × Json)) :
    memberDocuments members = members.map fun m => (m.1, document m.2) := by
  induction members with
  | nil => rfl
  | cons m ms ih => rw [memberDocuments, ih, List.map_cons]

mutual

/-- Every part of what a JSON value reads back as stands for a value. -/
theorem isWhole_document : ∀ v : Json, (document v).isWhole = true
  | .null | .bool _ | .integer _ | .float _ | .string _ => rfl
  | .array items => by
    rw [document, Document.isWhole, areWhole_documents items]
    rfl
  | .object members => by
    rw [document, Document.isWhole, membersAreWhole_documents members]
    rfl

theorem areWhole_documents : ∀ items : List Json, Document.areWhole (documents items) = true
  | [] => rfl
  | v :: vs => by
    rw [documents, Document.areWhole, isWhole_document v, areWhole_documents vs]
    rfl

theorem membersAreWhole_documents : ∀ members : List (String × Json),
    Document.membersAreWhole (memberDocuments members) = true
  | [] => rfl
  | (_, v) :: ms => by
    rw [memberDocuments, Document.membersAreWhole, isWhole_document v, membersAreWhole_documents ms]
    rfl

end

end VersionedStore.Json
