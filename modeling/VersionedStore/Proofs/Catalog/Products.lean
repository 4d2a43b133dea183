/-
  VersionedStore.Proofs.Catalog.Products

  Records seen as products, and products written back.

  `Shows` says which record shows a product, and `needs` what a product needs of the
  fields, in the order in which they are looked at; the view is right about both
  (`ofRecord_eq_ok_iff`, `ofRecord_eq_error_iff`).  What is seen and what is written
  differ in one place: a price that is stored as an integer is seen as a float, and is
  written as one.  So writing back what was seen changes the type of such a price and
  nothing else (`restores_merge`), and the record then shows the same product.
-/
import VersionedStore.Catalog
import VersionedStore.Change
import VersionedStore.Proofs.Document.Decode
import VersionedStore.Proofs.Maps

namespace VersionedStore

theorem Fields.get?_ofList_iff {l : List (String × Value)} (h : l.Pairwise fun a b => a.1 ≠ b.1)
    {name : String} {v : Value} : (Fields.ofList l).get? name = some v ↔ (name, v) ∈ l :=
  getElem?_ofList_iff_of_distinct h

theorem Value.string?_eq_some_iff {v : Value} {s : String} : v.string? = some s ↔ v = string s := by
  cases v <;> simp [string?]

namespace Product

open Catalog

variable {p : Product} {r : Record} {fields : Fields} {v : Violation}

-- ============================================================================
-- One field
-- ============================================================================

theorem priceOf?_eq_some_iff {v : Value} {x : Double} :
    priceOf? v = some x ↔ v = .float x ∨ ∃ n, v = .int n ∧ x = Double.ofInt n.toInt := by
  cases v <;> simp [priceOf?, eq_comm]

theorem typed_eq_ok_iff {α : Type} {field type : String} {view : Value → Option α} {a : α} :
    typed fields field type view = .ok a ↔ ∃ v, fields.get? field = some v ∧ view v = some a := by
  unfold typed
  cases fields.get? field with
  | none => simp
  | some v => cases hview : view v <;> simp [hview]

/-- What a product needs of a field. -/
structure Need where
  field : String
  /-- The type that a refusal asks for. -/
  type : String
  Fits : Value → Prop

/-- The field is there, with a value that fits. -/
def Need.Met (need : Need) (fields : Fields) : Prop :=
  ∃ v, fields.get? need.field = some v ∧ need.Fits v

/-- How a field does not meet a need.  A null is there, with a value that does not fit. -/
inductive Need.Unmet (need : Need) (fields : Fields) : Violation → Prop where
  | missing (hget : fields.get? need.field = none) : Unmet need fields (.missingField need.field)
  | mistyped {v : Value} (hget : fields.get? need.field = some v) (hfits : ¬need.Fits v) :
    Unmet need fields (.wrongType need.field need.type v.typeName)

theorem Need.not_met_iff {need : Need} : ¬need.Met fields ↔ ∃ v, need.Unmet fields v := by
  constructor
  · intro h
    cases hget : fields.get? need.field with
    | none => exact ⟨_, .missing hget⟩
    | some w => exact ⟨_, .mistyped hget fun hfits => h ⟨w, hget, hfits⟩⟩
  · rintro ⟨v, hget | ⟨hget, hfits⟩⟩ ⟨w, hget', hfits'⟩ <;> rw [hget] at hget'
    · contradiction
    · exact hfits (Option.some.inj hget' ▸ hfits')

theorem typed_eq_error_iff {α : Type} {need : Need} {view : Value → Option α}
    (hview : ∀ v, need.Fits v ↔ ∃ a, view v = some a) :
    typed fields need.field need.type view = .error v ↔ need.Unmet fields v := by
  constructor
  · intro h
    unfold typed at h
    split at h
    next hget =>
      obtain rfl := Except.error.inj h
      exact .missing hget
    next w hget =>
      split at h
      next => contradiction
      next hnone =>
        obtain rfl := Except.error.inj h
        refine .mistyped hget fun hfits => ?_
        obtain ⟨a, ha⟩ := (hview w).1 hfits
        rw [hnone] at ha
        contradiction
  · intro h
    unfold typed
    cases h with
    | missing hget => rw [hget]
    | @mistyped w hget hfits =>
      have hnone : view w = none :=
        Option.eq_none_iff_forall_ne_some.2 fun a ha => hfits ((hview w).2 ⟨a, ha⟩)
      rw [hget]
      dsimp only
      rw [hnone]

-- ============================================================================
-- One field after the other
-- ============================================================================

/-- How the first of some needs that is not met is not met. -/
def FirstUnmet (needs : List Need) (fields : Fields) (v : Violation) : Prop :=
  ∃ before need after, needs = before ++ need :: after ∧ (∀ earlier ∈ before, earlier.Met fields) ∧
    need.Unmet fields v

theorem not_firstUnmet_nil : ¬FirstUnmet [] fields v := by
  rintro ⟨before, need, after, hsplit, -⟩
  simp at hsplit

theorem firstUnmet_cons_iff {need : Need} {needs : List Need} :
    FirstUnmet (need :: needs) fields v ↔
      need.Unmet fields v ∨ need.Met fields ∧ FirstUnmet needs fields v := by
  constructor
  · rintro ⟨before, other, after, hsplit, hbefore, hunmet⟩
    cases before with
    | nil =>
      obtain rfl := (List.cons.inj hsplit).1
      exact .inl hunmet
    | cons first before =>
      obtain ⟨rfl, hrest⟩ := List.cons.inj hsplit
      obtain ⟨hfirst, hothers⟩ := List.forall_mem_cons.1 hbefore
      exact .inr ⟨hfirst, before, other, after, hrest, hothers, hunmet⟩
  · rintro (hunmet | ⟨hmet, before, other, after, rfl, hbefore, hunmet⟩)
    · exact ⟨[], need, needs, rfl, fun _ h => absurd h List.not_mem_nil, hunmet⟩
    · exact ⟨need :: before, other, after, rfl, List.forall_mem_cons.2 ⟨hmet, hbefore⟩, hunmet⟩

theorem exists_firstUnmet_iff {needs : List Need} :
    (∃ v, FirstUnmet needs fields v) ↔ ∃ need ∈ needs, ¬need.Met fields := by
  induction needs with
  | nil => simp [not_firstUnmet_nil]
  | cons need needs ih =>
    simp only [firstUnmet_cons_iff, exists_or, exists_and_left, ih, List.mem_cons,
      exists_eq_or_imp, ← Need.not_met_iff]
    by_cases hmet : need.Met fields <;> simp [hmet]

/-- A field is looked at, and the others only if it meets its need. -/
theorem typed_bind_eq_error_iff {α β : Type} {need : Need} {needs : List Need}
    {view : Value → Option α} (hview : ∀ v, need.Fits v ↔ ∃ a, view v = some a)
    {rest : α → Except Violation β} (hrest : ∀ a, rest a = .error v ↔ FirstUnmet needs fields v) :
    (typed fields need.field need.type view >>= rest) = .error v ↔
      FirstUnmet (need :: needs) fields v := by
  rw [firstUnmet_cons_iff, ← typed_eq_error_iff hview]
  cases htyped : typed fields need.field need.type view with
  | ok a =>
    obtain ⟨w, hget, ha⟩ := typed_eq_ok_iff.1 htyped
    have hmet : need.Met fields := ⟨w, hget, (hview w).2 ⟨a, ha⟩⟩
    rw [and_iff_right hmet, ← hrest a]
    simp [bind, Except.bind]
  | error e =>
    have hunmet : ¬need.Met fields := Need.not_met_iff.2 ⟨e, (typed_eq_error_iff hview).1 htyped⟩
    simp [hunmet, bind, Except.bind]

-- ============================================================================
-- Records seen as products
-- ============================================================================

/-- A field is to hold a string. -/
def textNeed (field : String) : Need := ⟨field, "String", fun v => ∃ s, v = .string s⟩

/-- A field is to hold an integer. -/
def integerNeed (field : String) : Need := ⟨field, "Int", fun v => ∃ n, v = .int n⟩

/-- A field is to hold a float, for which an integer will do. -/
def numberNeed (field : String) : Need :=
  ⟨field, "Float", fun v => (∃ x, v = .float x) ∨ ∃ n, v = .int n⟩

/-- What a product needs of the fields, in the order in which they are looked at. -/
def needs : List Need :=
  [textNeed nameField, numberNeed priceField, integerNeed stockField, textNeed categoryField]

theorem textNeed_fits_iff {field : String} (v : Value) :
    (textNeed field).Fits v ↔ ∃ s, v.string? = some s := by
  simp only [Value.string?_eq_some_iff]
  exact Iff.rfl

theorem integerNeed_fits_iff {field : String} (v : Value) :
    (integerNeed field).Fits v ↔ ∃ n, v.int? = some n := by
  simp only [Value.int?_eq_some_iff]
  exact Iff.rfl

theorem numberNeed_fits_iff {field : String} (v : Value) :
    (numberNeed field).Fits v ↔ ∃ x, priceOf? v = some x := by
  unfold numberNeed
  cases v <;> simp [priceOf?]

/-- A record shows a product.  Other fields may be there as well. -/
structure Shows (r : Record) (p : Product) : Prop where
  id : p.id = r.id
  version : p.version = r.version
  createdAt : p.createdAt = r.createdAt
  lastModified : p.lastModified = r.lastModified
  name : r.fields.get? nameField = some (.string p.name)
  price : r.fields.get? priceField = some (.float p.price) ∨
    ∃ n, r.fields.get? priceField = some (.int n) ∧ p.price = Double.ofInt n.toInt
  stock : r.fields.get? stockField = some (.int p.stock)
  category : r.fields.get? categoryField = some (.string p.category)

theorem ofRecord_eq_ok_iff : ofRecord r = .ok p ↔ Shows r p := by
  unfold ofRecord
  simp only [except_bind_eq_ok_iff, typed_eq_ok_iff, Value.string?_eq_some_iff,
    priceOf?_eq_some_iff, Value.int?_eq_some_iff]
  constructor
  · rintro ⟨name, ⟨_, hname, rfl⟩, price, ⟨v, hprice, hv⟩, stock, ⟨_, hstock, rfl⟩,
      category, ⟨_, hcategory, rfl⟩, heq⟩
    obtain rfl := Except.ok.inj heq
    refine ⟨rfl, rfl, rfl, rfl, hname, ?_, hstock, hcategory⟩
    rcases hv with rfl | ⟨n, rfl, hn⟩
    · exact .inl hprice
    · exact .inr ⟨n, hprice, hn⟩
  · rintro ⟨hid, hversion, hcreated, hmodified, hname, hprice, hstock, hcategory⟩
    have hpriceOf : ∃ v, r.fields.get? priceField = some v ∧
        (v = .float p.price ∨ ∃ n, v = .int n ∧ p.price = Double.ofInt n.toInt) := by
      rcases hprice with hprice | ⟨n, hprice, hn⟩
      · exact ⟨_, hprice, .inl rfl⟩
      · exact ⟨_, hprice, .inr ⟨n, rfl, hn⟩⟩
    refine ⟨p.name, ⟨_, hname, rfl⟩, p.price, hpriceOf, p.stock, ⟨_, hstock, rfl⟩,
      p.category, ⟨_, hcategory, rfl⟩, ?_⟩
    rw [← hid, ← hversion, ← hcreated, ← hmodified]
    rfl

theorem ofRecord_eq_error_iff : ofRecord r = .error v ↔ FirstUnmet needs r.fields v := by
  unfold ofRecord
  refine typed_bind_eq_error_iff textNeed_fits_iff fun name => ?_
  refine typed_bind_eq_error_iff numberNeed_fits_iff fun price => ?_
  refine typed_bind_eq_error_iff integerNeed_fits_iff fun stock => ?_
  refine typed_bind_eq_error_iff textNeed_fits_iff fun category => ?_
  exact iff_of_false nofun not_firstUnmet_nil

-- ============================================================================
-- Products written back
-- ============================================================================

theorem get?_fields_iff {name : String} {v : Value} : p.fields.get? name = some v ↔
    name = nameField ∧ v = .string p.name ∨ name = priceField ∧ v = .float p.price ∨
      name = stockField ∧ v = .int p.stock ∨ name = categoryField ∧ v = .string p.category := by
  have hdistinct : [(nameField, Value.string p.name), (priceField, .float p.price),
      (stockField, .int p.stock), (categoryField, .string p.category)].Pairwise
        fun a b => a.1 ≠ b.1 := by
    simp [nameField, priceField, stockField, categoryField]
  rw [Product.fields, productFields, Fields.get?_ofList_iff hdistinct]
  simp

/-- A record with the fields of a product shows the product, whatever other fields it has. -/
theorem shows_of_fields (hid : p.id = r.id) (hversion : p.version = r.version)
    (hcreated : p.createdAt = r.createdAt) (hmodified : p.lastModified = r.lastModified)
    (hfields : ∀ name v, p.fields.get? name = some v → r.fields.get? name = some v) :
    Shows r p where
  id := hid
  version := hversion
  createdAt := hcreated
  lastModified := hmodified
  name := hfields _ _ (get?_fields_iff.2 (.inl ⟨rfl, rfl⟩))
  price := .inl (hfields _ _ (get?_fields_iff.2 (.inr (.inl ⟨rfl, rfl⟩))))
  stock := hfields _ _ (get?_fields_iff.2 (.inr (.inr (.inl ⟨rfl, rfl⟩))))
  category := hfields _ _ (get?_fields_iff.2 (.inr (.inr (.inr ⟨rfl, rfl⟩))))

/-- Fields are as they were, but that a price which was an integer is the float nearest to it. -/
structure Restores (before after : Fields) : Prop where
  others : ∀ name, name ≠ priceField → after.get? name = before.get? name
  float : ∀ x, before.get? priceField = some (.float x) →
    after.get? priceField = some (.float x)
  int : ∀ n, before.get? priceField = some (.int n) →
    after.get? priceField = some (.float (Double.ofInt n.toInt))

theorem Shows.restores_merge (h : Shows r p) : Restores r.fields (r.fields.merge p.fields) := by
  have hprice : (r.fields.merge p.fields).get? priceField = some (.float p.price) := by
    rw [Fields.get?_merge, get?_fields_iff.2 (.inr (.inl ⟨rfl, rfl⟩)), Option.some_or]
  refine ⟨fun name hname => ?_, fun x hx => ?_, fun n hn => ?_⟩
  · rw [Fields.get?_merge]
    cases hwritten : p.fields.get? name with
    | none => exact Option.none_or
    | some v =>
      rcases get?_fields_iff.1 hwritten with ⟨rfl, rfl⟩ | ⟨rfl, rfl⟩ | ⟨rfl, rfl⟩ | ⟨rfl, rfl⟩
      · exact h.name.symm
      · contradiction
      · exact h.stock.symm
      · exact h.category.symm
  · rcases h.price with hseen | ⟨n, hseen, -⟩ <;> rw [hx] at hseen
    · rw [hprice, hseen]
    · exact nomatch hseen
  · rcases h.price with hseen | ⟨m, hseen, hm⟩ <;> rw [hn] at hseen
    · exact nomatch hseen
    · cases hseen
      rw [hprice, hm]

theorem Shows.merge (h : Shows r p) : Shows { r with fields := r.fields.merge p.fields } p :=
  shows_of_fields h.id h.version h.createdAt h.lastModified fun name v hv => by
    rw [Fields.get?_merge, hv, Option.some_or]

/-- What is seen of a record and what is written of a product fit together. -/
structure RoundTrips (p : Product) (r : Record) : Prop where
  /-- A record with the product's fields, and perhaps with others, is seen as the product. -/
  written : p.id = r.id → p.version = r.version → p.createdAt = r.createdAt →
    p.lastModified = r.lastModified →
      (∀ name v, p.fields.get? name = some v → r.fields.get? name = some v) → ofRecord r = .ok p
  /-- Writing back what was seen leaves the fields as they were, but for the type of the price, and
      the same is seen again. -/
  restored : ofRecord r = .ok p → ∃ out, (Change.patch p.fields).apply r.fields = .ok out ∧
    Restores r.fields out ∧ ofRecord { r with fields := out } = .ok p
  refused : (∃ v, ofRecord r = .error v) ↔ ∃ need ∈ needs, ¬need.Met r.fields
  /-- A refusal names the first field that is not as it should be. -/
  named : ∀ v, ofRecord r = .error v ↔ FirstUnmet needs r.fields v

theorem view_roundTrips (p : Product) (r : Record) : RoundTrips p r where
  written hid hversion hcreated hmodified hfields :=
    ofRecord_eq_ok_iff.2 (shows_of_fields hid hversion hcreated hmodified hfields)
  restored hseen := by
    have hshows := ofRecord_eq_ok_iff.1 hseen
    exact ⟨_, rfl, hshows.restores_merge, ofRecord_eq_ok_iff.2 hshows.merge⟩
  refused := by simp only [ofRecord_eq_error_iff, exists_firstUnmet_iff]
  named _ := ofRecord_eq_error_iff

/-- An integer beyond the significand of a float is seen, and written back, as its neighbour. -/
example :
    let r : Record := .create default ⟨1⟩ (.ofList [("name", .string "Hub"),
      ("price", .int 9007199254740993), ("stock", .int 2), ("category", .string "Electronics")]) ⟨1⟩
    (ofRecord r).toOption.map (·.price) = some (Double.ofInt 9007199254740992) := by
  decide +kernel

end Product
end VersionedStore
