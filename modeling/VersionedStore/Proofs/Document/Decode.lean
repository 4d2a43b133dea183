/-
  VersionedStore.Proofs.Document.Decode

  What the decoders of lists, maps and structures make of a document in which every
  part is what they expect.  Decoders are steps each of which may fail, and the whole
  succeeds just if every step does (`except_bind_eq_ok_iff`).

  A structure finds the field of each member by its name, and sets the fields one
  after the other.  The other way round, a structure that was read holds what the
  document has for a field (`read_of_holds`): a field is set once at most, and what
  sets another one leaves it alone.
-/
import VersionedStore.Document.Decode

namespace VersionedStore

theorem except_bind_eq_ok_iff {ε α β : Type} {x : Except ε α} {f : α → Except ε β} {b : β} :
    (x >>= f) = .ok b ↔ ∃ a, x = .ok a ∧ f a = .ok b := by
  cases x with
  | error e =>
    constructor
    · rintro ⟨⟩
    · rintro ⟨a, ⟨⟩, -⟩
  | ok a =>
    constructor
    · intro h
      exact ⟨a, rfl, h⟩
    · rintro ⟨_, ⟨⟩, h⟩
      exact h

namespace Document

variable {α β : Type}

theorem mapM_ok {f : α → Decoded β} {g : α → β} {l : List α} (h : ∀ a ∈ l, f a = .ok (g a)) :
    l.mapM f = .ok (l.map g) := by
  induction l with
  | nil => rfl
  | cons a l ih =>
    rw [List.mapM_cons, h a (List.mem_cons_self ..), ih fun b hb => h b (List.mem_cons_of_mem a hb)]
    rfl

theorem listOf_map (item : Document → Decoded β) (part : α → Document) (g : α → β) {l : List α}
    (h : ∀ a ∈ l, item (part a) = .ok (g a)) :
    listOf item (.array (l.map part) .closed) = .ok (l.map g) := by
  have hmapM : (l.map part).mapM item = .ok (l.map g) := by
    rw [List.mapM_map]
    exact mapM_ok h
  rw [listOf, hmapM]
  rfl

theorem mapOf_map (value : Document → Decoded β) (part : α → Document) (g : α → β)
    {l : List (String × α)} (h : ∀ m ∈ l, value (part m.2) = .ok (g m.2)) :
    mapOf value (.object (l.map fun m => (m.1, part m.2)) .closed) =
      .ok (l.map fun m => (m.1, g m.2)) := by
  rw [mapOf, List.mapM_map, mapM_ok (g := fun m => (m.1, g m.2))]
  · rfl
  · intro m hm
    change (value (part m.2) >>= fun a => .ok (m.1, a)) = _
    rw [h m hm]
    rfl

end Document

namespace Shape

variable {σ : Type} {shape : Shape σ}

/-- The field of a name is found if no other one has the name. -/
theorem find?_field {fields : List (Field σ)} {field : Field σ}
    (hnames : (fields.map (·.name)).Nodup) (h : field ∈ fields) :
    fields.find? (·.name = field.name) = some field := by
  induction fields with
  | nil => contradiction
  | cons first fields ih =>
    obtain ⟨hfirst, hrest⟩ := List.nodup_cons.1 hnames
    rcases List.mem_cons.1 h with rfl | h
    · rw [List.find?_cons_of_pos (by simp)]
    · have hne : first.name ≠ field.name := fun heq => hfirst (List.mem_map.2 ⟨field, h, heq.symm⟩)
      rw [List.find?_cons_of_neg (by simpa using hne), ih hrest h]

/-- Members that stand for fields in their order, and what each of them sets. -/
inductive Reads : List (Field σ) → List (String × Document) → List (σ → σ) → Prop where
  | nil : Reads [] [] []
  | cons {field : Field σ} {d : Document} {set : σ → σ} {fields : List (Field σ)}
      {members : List (String × Document)} {sets : List (σ → σ)} (hread : field.read d = .ok set)
      (hrest : Reads fields members sets) :
      Reads (field :: fields) ((field.name, d) :: members) (set :: sets)

theorem read_of {α : Type} {name : String} {decode : Document → Decoded α} {set : α → σ → σ}
    {hasDefault : Bool} {d : Document} {a : α} (h : decode d = .ok a) :
    (Field.of name decode set hasDefault).read d = .ok (set a) := by
  change set <$> decode d = _
  rw [h]
  rfl

theorem readMember_eq {field : Field σ} {d : Document} {set : σ → σ} {seen : List String} {s : σ}
    (hnames : (shape.fields.map (·.name)).Nodup) (hfield : field ∈ shape.fields)
    (hseen : field.name ∉ seen) (hread : field.read d = .ok set) :
    shape.readMember (seen, s) (field.name, d) = .ok (field.name :: seen, set s) := by
  rw [readMember, find?_field hnames hfield]
  dsimp only
  rw [if_neg hseen, hread]
  rfl

theorem foldlM_readMember (hnames : (shape.fields.map (·.name)).Nodup) {fields : List (Field σ)}
    {members : List (String × Document)} {sets : List (σ → σ)} (h : Reads fields members sets)
    (hsub : ∀ field ∈ fields, field ∈ shape.fields) (hnodup : (fields.map (·.name)).Nodup)
    (seen : List String) (hseen : ∀ field ∈ fields, field.name ∉ seen) (s : σ) :
    ∃ seen', members.foldlM shape.readMember (seen, s) =
      .ok (seen', sets.foldl (fun s set => set s) s) := by
  induction h generalizing seen s with
  | nil => exact ⟨seen, rfl⟩
  | @cons field d set fields members sets hread _ ih =>
    obtain ⟨hfirst, hrest⟩ := List.nodup_cons.1 hnodup
    have hfield : field ∈ field :: fields := List.mem_cons_self ..
    have hmember := readMember_eq (s := s) hnames (hsub field hfield) (hseen field hfield) hread
    have hseen' : ∀ other ∈ fields, other.name ∉ field.name :: seen := by
      intro other hother hmem
      rcases List.mem_cons.1 hmem with heq | hmem
      · exact hfirst (List.mem_map.2 ⟨other, hother, heq⟩)
      · exact hseen other (List.mem_cons_of_mem field hother) hmem
    obtain ⟨seen', hfold⟩ := ih (fun other hother => hsub other (List.mem_cons_of_mem field hother))
      hrest (field.name :: seen) hseen' (set s)
    refine ⟨seen', ?_⟩
    rw [List.foldlM_cons, hmember]
    exact hfold

/-- A map with a member for each field sets the fields one after the other. -/
theorem read_object (shape : Shape σ) (surplus : Surplus) (start : σ)
    {members : List (String × Document)} {sets : List (σ → σ)}
    (hnames : (shape.fields.map (·.name)).Nodup) (h : Reads shape.fields members sets) :
    shape.read surplus start (.object members .closed) =
      .ok (sets.foldl (fun s set => set s) start) := by
  obtain ⟨seen, hfold⟩ := foldlM_readMember hnames h (fun _ h => h) hnames []
    (fun _ _ => List.not_mem_nil) start
  rw [read, hfold]
  rfl

-- ============================================================================
-- What a structure that was read holds
-- ============================================================================

/-- Whether a document gives a part for the field of a name: as its member, or in its place. -/
def Holds (shape : Shape σ) (name : String) (part : Document) : Document → Prop
  | .object members _ => (name, part) ∈ members
  | .array items _ => ∃ field, field.name = name ∧ (field, part) ∈ shape.fields.zip items
  | _ => False

variable {α : Type} {view : σ → α} {field : Field σ} {part : Document}

theorem eq_of_name {first second : Field σ} (hnames : (shape.fields.map (·.name)).Nodup)
    (hfirst : first ∈ shape.fields) (hsecond : second ∈ shape.fields)
    (h : first.name = second.name) : first = second := by
  have hfind := find?_field hnames hfirst
  rw [h, find?_field hnames hsecond] at hfind
  exact (Option.some.inj hfind).symm

/-- A member sets the field of its name, which was not set before, or it has no field. -/
theorem of_readMember {sofar sofar' : List String × σ} {member : String × Document}
    (h : shape.readMember sofar member = .ok sofar') :
    (∃ field ∈ shape.fields, field.name = member.1 ∧ member.1 ∉ sofar.1 ∧
      ∃ set, field.read member.2 = .ok set ∧ sofar' = (member.1 :: sofar.1, set sofar.2)) ∨
    (∀ field ∈ shape.fields, field.name ≠ member.1) ∧ sofar' = sofar := by
  unfold readMember at h
  split at h
  next field hfind =>
    left
    have hname : field.name = member.1 := by simpa using List.find?_some hfind
    split at h
    next => contradiction
    next hseen =>
      obtain ⟨set, hset, hsofar⟩ := except_bind_eq_ok_iff.1 h
      rw [hname] at hseen hsofar
      exact ⟨field, List.mem_of_find?_eq_some hfind, hname, hseen, set, hset,
        (Except.ok.inj hsofar).symm⟩
  next hfind =>
    right
    split at h
    · contradiction
    · refine ⟨fun field hfield => ?_, (Except.ok.inj h).symm⟩
      simpa using List.find?_eq_none.1 hfind field hfield

/-- Whether a view of the structure is left alone by setting a field. -/
def Leaves (view : σ → α) (field : Field σ) : Prop :=
  ∀ d set, field.read d = .ok set → ∀ s, view (set s) = view s

theorem of_read {β : Type} {name : String} {decode : Document → Decoded β} {set : β → σ → σ}
    {hasDefault : Bool} {d : Document} {set' : σ → σ}
    (h : (Field.of name decode set hasDefault).read d = .ok set') :
    ∃ b, decode d = .ok b ∧ set' = set b := by
  obtain ⟨b, hdecode, hset⟩ := except_bind_eq_ok_iff.1 h
  exact ⟨b, hdecode, (Except.ok.inj hset).symm⟩

theorem leaves_of {β : Type} {name : String} {decode : Document → Decoded β} {set : β → σ → σ}
    {hasDefault : Bool} (h : ∀ b s, view (set b s) = view s) :
    Leaves view (Field.of name decode set hasDefault) := by
  intro d set' hread s
  obtain ⟨b, -, rfl⟩ := of_read hread
  exact h b s

/-- Of two fields, the first one leaves a view of the second one alone. -/
theorem leaves_of_pair {first second : Field σ} (h : Leaves view first) :
    ∀ other ∈ [first, second], other.name ≠ second.name → Leaves view other := by
  intro other hother hname
  rcases List.mem_cons.1 hother with rfl | hother
  · exact h
  · rw [List.mem_singleton.1 hother] at hname
    contradiction

/-- Members leave a view alone once the field is set that it shows. -/
theorem view_foldlM_of_mem
    (hothers : ∀ other ∈ shape.fields, other.name ≠ field.name → Leaves view other)
    {members : List (String × Document)} {sofar sofar' : List String × σ}
    (hseen : field.name ∈ sofar.1) (h : members.foldlM shape.readMember sofar = .ok sofar') :
    view sofar'.2 = view sofar.2 := by
  induction members generalizing sofar with
  | nil => rw [← Except.ok.inj h]
  | cons member members ih =>
    rw [List.foldlM_cons] at h
    obtain ⟨next, hnext, hrest⟩ := except_bind_eq_ok_iff.1 h
    rcases of_readMember hnext with ⟨other, hother, hname, hfresh, set, hset, rfl⟩ | ⟨-, rfl⟩
    · have hne : other.name ≠ field.name := by
        rintro heq
        rw [← hname, heq] at hfresh
        contradiction
      rw [ih (List.mem_cons_of_mem _ hseen) hrest]
      exact hothers other hother hne _ set hset sofar.2
    · exact ih hseen hrest

theorem view_foldlM (hfield : field ∈ shape.fields)
    (hnames : (shape.fields.map (·.name)).Nodup)
    (hothers : ∀ other ∈ shape.fields, other.name ≠ field.name → Leaves view other)
    {members : List (String × Document)} (hmember : (field.name, part) ∈ members)
    {sofar sofar' : List String × σ} (h : members.foldlM shape.readMember sofar = .ok sofar') :
    ∃ set, field.read part = .ok set ∧ ∃ s, view sofar'.2 = view (set s) := by
  induction members generalizing sofar with
  | nil => contradiction
  | cons member members ih =>
    rw [List.foldlM_cons] at h
    obtain ⟨next, hnext, hrest⟩ := except_bind_eq_ok_iff.1 h
    rcases List.mem_cons.1 hmember with rfl | hmember
    · rcases of_readMember hnext with ⟨other, hother, hname, -, set, hset, rfl⟩ | ⟨hnone, -⟩
      · rw [eq_of_name hnames hother hfield hname] at hset
        refine ⟨set, hset, sofar.2, ?_⟩
        exact view_foldlM_of_mem hothers List.mem_cons_self hrest
      · exact absurd rfl (hnone field hfield)
    · exact ih hmember hrest

/-- What the items after the last field come to, or a field without an item: nothing is set. -/
theorem eq_of_readItems_nil {surplus : Surplus} {length : Nat} {ending : Ending}
    {items : List Document} {start s : σ}
    (h : shape.readItems surplus length ending [] items start = .ok s) : s = start := by
  unfold readItems at h
  split at h
  · split at h
    · obtain ⟨-, -, hs⟩ := except_bind_eq_ok_iff.1 h
      exact (Except.ok.inj hs).symm
    · contradiction
  · split at h
    · exact (Except.ok.inj h).symm
    · contradiction
  · exact (Except.ok.inj h).symm

theorem of_readItems_cons {surplus : Surplus} {length : Nat} {ending : Ending}
    {first : Field σ} {fields : List (Field σ)} {item : Document} {items : List Document}
    {start s : σ}
    (h : shape.readItems surplus length ending (first :: fields) (item :: items) start = .ok s) :
    ∃ set, first.read item = .ok set ∧
      shape.readItems surplus length ending fields items (set start) = .ok s :=
  except_bind_eq_ok_iff.1 h

theorem of_readItems_missing {surplus : Surplus} {length : Nat} {ending : Ending}
    {first : Field σ} {fields : List (Field σ)} {start s : σ}
    (h : shape.readItems surplus length ending (first :: fields) [] start = .ok s) :
    shape.readItems surplus length ending fields [] start = .ok s := by
  obtain ⟨-, -, hrest⟩ := except_bind_eq_ok_iff.1 h
  split at hrest
  · exact hrest
  · contradiction

/-- Items leave a view alone if none of them sets what it shows. -/
theorem view_readItems_of_leaves {surplus : Surplus} {length : Nat} {ending : Ending}
    {fields : List (Field σ)} (hleaves : ∀ field ∈ fields, Leaves view field)
    {items : List Document} {start s : σ}
    (h : shape.readItems surplus length ending fields items start = .ok s) :
    view s = view start := by
  induction fields generalizing items start with
  | nil => rw [eq_of_readItems_nil h]
  | cons first fields ih =>
    obtain ⟨hfirst, hrest⟩ := List.forall_mem_cons.1 hleaves
    cases items with
    | nil => exact ih hrest (of_readItems_missing h)
    | cons item items =>
      obtain ⟨set, hset, hread⟩ := of_readItems_cons h
      rw [ih hrest hread]
      exact hfirst item set hset start

theorem view_readItems {surplus : Surplus} {length : Nat} {ending : Ending}
    {fields : List (Field σ)} (hnames : (fields.map (·.name)).Nodup)
    (hothers : ∀ other ∈ fields, other.name ≠ field.name → Leaves view other)
    {items : List Document} (hitem : (field, part) ∈ fields.zip items) {start s : σ}
    (h : shape.readItems surplus length ending fields items start = .ok s) :
    ∃ set, field.read part = .ok set ∧ ∃ s', view s = view (set s') := by
  induction fields generalizing items start with
  | nil => simp at hitem
  | cons first fields ih =>
    cases items with
    | nil => simp at hitem
    | cons item items =>
      obtain ⟨hfirst, hrest⟩ := List.nodup_cons.1 hnames
      obtain ⟨set, hset, hread⟩ := of_readItems_cons h
      rcases List.mem_cons.1 hitem with heq | hitem
      · obtain ⟨rfl, rfl⟩ := Prod.mk.inj heq
        have hleaves : ∀ other ∈ fields, Leaves view other := by
          intro other hother
          apply hothers other (List.mem_cons_of_mem field hother)
          intro hname
          exact hfirst (List.mem_map.2 ⟨other, hother, hname⟩)
        exact ⟨set, hset, start, view_readItems_of_leaves hleaves hread⟩
      · exact ih hrest (fun other hother => hothers other (List.mem_cons_of_mem first hother))
          hitem hread

/-- A structure that was read holds what the document has for a field. -/
theorem read_of_holds (hfield : field ∈ shape.fields)
    (hnames : (shape.fields.map (·.name)).Nodup)
    (hothers : ∀ other ∈ shape.fields, other.name ≠ field.name → Leaves view other)
    {surplus : Surplus} {start s : σ} {d : Document} (hholds : shape.Holds field.name part d)
    (h : shape.read surplus start d = .ok s) :
    ∃ set, field.read part = .ok set ∧ ∃ s', view s = view (set s') := by
  cases d with
  | object members ending =>
    obtain ⟨sofar, hfold, hrest⟩ := except_bind_eq_ok_iff.1 h
    obtain ⟨-, -, hs⟩ := except_bind_eq_ok_iff.1 hrest
    rw [← Except.ok.inj hs]
    exact view_foldlM hfield hnames hothers hholds hfold
  | array items ending =>
    obtain ⟨other, hname, hitem⟩ := hholds
    rw [eq_of_name hnames (List.of_mem_zip hitem).1 hfield hname] at hitem
    exact view_readItems hnames hothers hitem h
  | _ => contradiction

end Shape

end VersionedStore
