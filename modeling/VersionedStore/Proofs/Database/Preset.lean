/-
  VersionedStore.Proofs.Database.Preset

  What the database of a command line accepts.

  A command line opens its database under the rules of its file, with the preset
  for products on top.  The names that either requires are required.  Of the
  minimums of the file that of the stock gives way to the preset's, whichever is
  the greater (`Invocation.minimums_setAll`); all others stay.  So what is
  accepted is what the preset and the rest of the file accept, and that is what
  both accept just if the file does not ask for more stock than the preset
  (`Config.catalog_accepts_both_iff`).
-/
import VersionedStore.CommandLine
import VersionedStore.Proofs.Config.Settings
import VersionedStore.Proofs.Database.Operations
import VersionedStore.Proofs.Document.Decode

namespace VersionedStore

-- ============================================================================
-- Tables of minimums
-- ============================================================================

namespace Fields

variable {fields : Fields}

theorem Respects.mono {field : String} {least lower : Int64} (h : fields.Respects field least)
    (hle : lower ≤ least) : fields.Respects field lower := by
  intro v hv
  rcases h v hv with hnull | ⟨n, hn, hleast⟩
  · exact .inl hnull
  · exact .inr ⟨n, hn, Int64.le_trans hle hleast⟩

/-- No field breaks its minimum. -/
def RespectsAll (fields : Fields) (minimums : Std.ExtTreeMap String Int64) : Prop :=
  ∀ field least, minimums[field]? = some least → fields.Respects field least

theorem respectsAll_iff_erase (minimums : Std.ExtTreeMap String Int64) (field : String) :
    fields.RespectsAll minimums ↔
      (∀ least, minimums[field]? = some least → fields.Respects field least) ∧
        fields.RespectsAll (minimums.erase field) := by
  constructor
  · intro h
    refine ⟨h field, fun name least hleast => h name least ?_⟩
    rw [Std.ExtTreeMap.getElem?_erase] at hleast
    split at hleast
    next => contradiction
    next => exact hleast
  · rintro ⟨hfield, hothers⟩ name least hleast
    by_cases hname : field = name
    · subst hname
      exact hfield least hleast
    · refine hothers name least ?_
      rw [Std.ExtTreeMap.getElem?_erase, if_neg (mt Std.LawfulEqOrd.eq_of_compare hname)]
      exact hleast

/-- A minimum that is set takes the place of the one before. -/
theorem respectsAll_insert_iff (minimums : Std.ExtTreeMap String Int64) (field : String)
    (least : Int64) : fields.RespectsAll (minimums.insert field least) ↔
      fields.Respects field least ∧ fields.RespectsAll (minimums.erase field) := by
  have herase : (minimums.insert field least).erase field = minimums.erase field := by
    refine Std.ExtTreeMap.ext_getElem? fun name => ?_
    rw [Std.ExtTreeMap.getElem?_erase, Std.ExtTreeMap.getElem?_erase,
      Std.ExtTreeMap.getElem?_insert]
    split <;> rfl
  rw [respectsAll_iff_erase _ field, herase, Std.ExtTreeMap.getElem?_insert_self]
  simp

end Fields

-- ============================================================================
-- The conditions of a configuration
-- ============================================================================

namespace Config

variable {c : Config} {fields : Fields}

theorem minimum?_constraints {field : String} {least : Int64}
    (h : c.minimums[field]? = some least) : c.constraints.minimum? field = some least := by
  rw [Constraints.minimum?, minimums_constraints, h]

theorem validate_constraints_eq_ok_iff : c.constraints.validate fields = .ok () ↔
    (∀ field ∈ c.required, fields.Supplies field) ∧ fields.RespectsAll c.minimums := by
  simp only [Constraints.validate_eq_ok_iff, mem_required_constraints, Constraints.minimum?,
    minimums_constraints, Fields.RespectsAll]

-- ============================================================================
-- The preset on top of a configuration
-- ============================================================================

/-- The minimums and the required names of a configuration, as they were given. -/
def given (c : Config) : Constraints := ⟨c.minimums, c.required⟩

theorem given_require (c : Config) (field : String) :
    (c.require field).given = c.given.require field := by
  unfold require Constraints.require
  by_cases hfield : field ∈ c.required <;> simp [given, hfield]

theorem given_foldl_require (names : List String) (c : Config) :
    (names.foldl require c).given = names.foldl Constraints.require c.given := by
  induction names generalizing c with
  | nil => rfl
  | cons name names ih => rw [List.foldl_cons, ih, given_require, List.foldl_cons]

theorem given_catalog (c : Config) : (c.set .catalog).given
    = Catalog.required.foldl Constraints.require (c.given.min Catalog.stockField 0) :=
  given_foldl_require Catalog.required (c.min Catalog.stockField 0)

theorem minimums_catalog (c : Config) :
    (c.set .catalog).minimums = c.minimums.insert Catalog.stockField 0 :=
  (congrArg Constraints.minimums c.given_catalog).trans
    (Constraints.minimums_foldl_require Catalog.required (c.given.min Catalog.stockField 0))

theorem mem_required_catalog {field : String} :
    field ∈ (c.set .catalog).required ↔ field ∈ c.required ∨ field ∈ Catalog.required := by
  have hgiven : (c.set .catalog).required
      = (Catalog.required.foldl Constraints.require (c.given.min Catalog.stockField 0)).required :=
    congrArg Constraints.required c.given_catalog
  rw [hgiven, Constraints.mem_required_foldl_require]
  rfl

/-- The configuration without the minimum of a field. -/
def withoutMinimum (c : Config) (field : String) : Config :=
  { c with minimums := c.minimums.erase field }

end Config

theorem Catalog.validate_constraints_eq_ok_iff {fields : Fields} :
    Catalog.constraints.validate fields = .ok () ↔
      (∀ field ∈ Catalog.required, fields.Supplies field) ∧ fields.Respects stockField 0 := by
  have hconstraints : Catalog.constraints
      = ⟨(∅ : Std.ExtTreeMap String Int64).insert stockField 0, Catalog.required⟩ := rfl
  rw [hconstraints, Constraints.validate_eq_ok_iff]
  refine and_congr_right fun _ => ?_
  simp [Constraints.minimum?, Std.ExtTreeMap.getElem?_insert]

/-- The preset on top of a configuration accepts what it accepts by itself and what the rest of the
    configuration accepts. -/
theorem Config.validate_catalog_eq_ok_iff {c : Config} {fields : Fields} :
    (c.set .catalog).constraints.validate fields = .ok () ↔
      (c.withoutMinimum Catalog.stockField).constraints.validate fields = .ok () ∧
        Catalog.constraints.validate fields = .ok () := by
  rw [validate_constraints_eq_ok_iff, validate_constraints_eq_ok_iff,
    Catalog.validate_constraints_eq_ok_iff, minimums_catalog, Fields.respectsAll_insert_iff]
  simp only [mem_required_catalog, or_imp, forall_and]
  constructor
  · rintro ⟨⟨hfile, hproduct⟩, hstock, hothers⟩
    exact ⟨⟨hfile, hothers⟩, hproduct, hstock⟩
  · rintro ⟨⟨hfile, hothers⟩, hproduct, hstock⟩
    exact ⟨⟨hfile, hproduct⟩, hstock, hothers⟩

-- ============================================================================
-- The preset against the minimum of the file
-- ============================================================================

namespace Fields

/-- Integer fields under some names. -/
def integers (value : String → Int64) (names : List String) : Fields :=
  names.foldr (fun name fields => fields.insert name (.int (value name))) ∅

theorem get?_integers (value : String → Int64) (names : List String) (field : String) :
    (integers value names).get? field
      = if field ∈ names then some (.int (value field)) else none := by
  induction names with
  | nil => exact get?_empty field
  | cons name names ih =>
    have hcons : integers value (name :: names)
        = (integers value names).insert name (.int (value name)) := rfl
    rw [hcons, get?_insert, ih]
    by_cases hname : name = field
    · simp [hname]
    · simp [hname, Ne.symm hname]

end Fields

namespace Config

variable {c : Config} {fields : Fields}

/-- A configuration can be satisfied with any of its fields at its minimum. -/
theorem exists_accepted {field : String} {least : Int64} (h : c.minimums[field]? = some least) :
    ∃ fields, c.constraints.validate fields = .ok () ∧ fields.get? field = some (.int least) := by
  obtain ⟨fields, hget⟩ : ∃ fields : Fields, ∀ name, fields.get? name
      = if name ∈ field :: c.required then some (.int (c.minimums[name]?.getD 0)) else none :=
    ⟨_, Fields.get?_integers _ _⟩
  have hsupplied : ∀ name ∈ c.required, fields.Supplies name := fun name hname =>
    ⟨_, (hget name).trans (if_pos (List.mem_cons_of_mem field hname)), nofun⟩
  have hrespected : fields.RespectsAll c.minimums := by
    intro name m hm v hv
    rw [hget, hm, Option.getD_some] at hv
    split at hv
    next => exact .inr ⟨m, (Option.some.inj hv).symm, Int64.le_refl m⟩
    next => contradiction
  refine ⟨fields, validate_constraints_eq_ok_iff.2 ⟨hsupplied, hrespected⟩, ?_⟩
  rw [hget, if_pos List.mem_cons_self, h, Option.getD_some]

theorem validate_constraints_iff_withoutMinimum (c : Config) (fields : Fields) (field : String) :
    c.constraints.validate fields = .ok () ↔
      (c.withoutMinimum field).constraints.validate fields = .ok () ∧
        ∀ least, c.minimums[field]? = some least → fields.Respects field least := by
  rw [validate_constraints_eq_ok_iff, validate_constraints_eq_ok_iff,
    Fields.respectsAll_iff_erase c.minimums field]
  constructor
  · rintro ⟨hsupplied, hfield, hothers⟩
    exact ⟨⟨hsupplied, hothers⟩, hfield⟩
  · rintro ⟨⟨hsupplied, hothers⟩, hfield⟩
    exact ⟨hsupplied, hfield, hothers⟩

/-- The preset on top of a configuration accepts what both accept just if the configuration has no
    greater minimum of the stock. -/
theorem catalog_accepts_both_iff (c : Config) :
    (∀ fields, (c.set .catalog).constraints.validate fields = .ok () ↔
      c.constraints.validate fields = .ok () ∧ Catalog.constraints.validate fields = .ok ()) ↔
      ∀ least, c.minimums[Catalog.stockField]? = some least → least ≤ 0 := by
  constructor
  · intro h least hleast
    have hpreset : (c.set .catalog).minimums[Catalog.stockField]? = some 0 := by
      rw [minimums_catalog, Std.ExtTreeMap.getElem?_insert_self]
    -- stock that has just run out is fine for the preset
    obtain ⟨fields, hvalid, hstock⟩ := exists_accepted hpreset
    exact Constraints.minimum_le ((h fields).1 hvalid).1 (minimum?_constraints hleast) hstock
  · intro h fields
    rw [validate_catalog_eq_ok_iff]
    refine and_congr_left fun hcatalog => ?_
    have hstock := (Catalog.validate_constraints_eq_ok_iff.1 hcatalog).2
    rw [validate_constraints_iff_withoutMinimum c fields Catalog.stockField]
    exact (and_iff_left fun least hleast => hstock.mono (h least hleast)).symm

end Config

-- ============================================================================
-- What a database accepts
-- ============================================================================

namespace Database

open Update

/-- No creation of a record with these fields is refused for what they are. -/
def AcceptsNew (db : Database World) (fields : Fields) : Prop :=
  ∀ w reason, ((db.create fields).run w).1 ≠ .error (.validation none reason)

/-- No update that comes to these fields is refused for what they are. -/
def AcceptsCandidate (db : Database World) (fields : Fields) : Prop :=
  ∀ (req : Request) (base : Record), req.change.apply base.fields = .ok fields →
    req.candidate db.rules base = .ok fields

/-- The fields that a database accepts, in creations as well as in updates, are those with a
    property. -/
structure AcceptsExactly (db : Database World) (P : Fields → Prop) : Prop where
  creation : ∀ fields, db.AcceptsNew fields ↔ P fields
  candidate : ∀ fields, db.AcceptsCandidate fields ↔ P fields

variable {rules : Rules} {fields : Fields} {P : Fields → Prop}

theorem acceptsNew_iff : AcceptsNew ⟨rules, World.surroundings⟩ fields ↔
    rules.constraints.validate fields = .ok () := by
  unfold AcceptsNew
  cases hvalid : rules.constraints.validate fields with
  | ok u =>
    refine iff_of_true (fun w reason => ?_) rfl
    rw [create_run, hvalid]
    cases (World.records.create fields w).1 <;> exact nofun
  | error reason =>
    refine iff_of_false (fun h => h default reason ?_) nofun
    rw [create_run, hvalid]

theorem acceptsCandidate_iff : AcceptsCandidate ⟨rules, World.surroundings⟩ fields ↔
    rules.constraints.validate fields = .ok () := by
  constructor
  · intro h
    exact (Request.candidate_eq_ok_iff.1
      (h (.replace ⟨0⟩ ⟨0⟩ fields) (.create default ⟨0⟩ ∅ ⟨0⟩) rfl)).2
  · intro hvalid req base happly
    exact Request.candidate_eq_ok_iff.2 ⟨happly, hvalid⟩

theorem acceptsExactly_iff : AcceptsExactly ⟨rules, World.surroundings⟩ P ↔
    ∀ fields, rules.constraints.validate fields = .ok () ↔ P fields := by
  constructor
  · intro h fields
    rw [← acceptsNew_iff, h.creation]
  · intro h
    exact ⟨fun fields => acceptsNew_iff.trans (h fields),
      fun fields => acceptsCandidate_iff.trans (h fields)⟩

end Database

-- ============================================================================
-- The database of a command line
-- ============================================================================

namespace CommandLine

variable {inv : Invocation} {content : Except FileError ByteArray}

theorem Invocation.constraints_setAll (inv : Invocation) (c : Config) :
    (c.setAll inv.settings).constraints = (c.set .catalog).constraints := by
  unfold settings
  cases inv.maxAttempts <;> rfl

/-- The settings of a command line leave the stock of a product a minimum of zero. -/
theorem Invocation.minimums_setAll (inv : Invocation) (c : Config) :
    (c.setAll inv.settings).minimums[Catalog.stockField]? = some 0 := by
  have hcatalog : (c.set .catalog).minimums[Catalog.stockField]? = some 0 := by
    rw [Config.minimums_catalog, Std.ExtTreeMap.getElem?_insert_self]
  unfold settings
  cases inv.maxAttempts with
  | none => exact hcatalog
  | some n => exact hcatalog

/-- A command line opens its database from a configuration in which the stock of a product has a
    minimum of zero. -/
theorem Invocation.exists_config {σ : Type} {around : Update.Surroundings σ} {db : Database σ}
    (h : inv.database content around = .ok db) :
    ∃ c : Config, Database.ofConfig c around = .ok db ∧
      c.minimums[Catalog.stockField]? = some 0 := by
  obtain ⟨c, hc, hopen⟩ := except_bind_eq_ok_iff.1 h
  unfold configuration at hc
  split at hc <;>
  · obtain ⟨base, -, hbase⟩ := except_bind_eq_ok_iff.1 hc
    obtain rfl := Except.ok.inj hbase
    exact ⟨_, hopen, inv.minimums_setAll base⟩

theorem Invocation.database_of_file {σ : Type} {around : Update.Surroundings σ} {path : String}
    {c : Config} (hpath : inv.config = some path) (hfile : Config.ofFile path content = .ok c) :
    inv.database content around = Database.ofConfig (c.setAll inv.settings) around := by
  rw [database, configuration, hpath]
  simp only [hfile]
  rfl

/-- A database that is opened from a file accepts what the preset for products and the file accept,
    but for the file's minimum of the stock; and that is what both accept just if the file has no
    greater minimum of the stock than the preset. -/
theorem Invocation.acceptsExactly_database {path : String} {c : Config} {db : Database World}
    (hpath : inv.config = some path) (hfile : Config.ofFile path content = .ok c)
    (hopen : inv.database content World.surroundings = .ok db) :
    db.AcceptsExactly (fun fields =>
        (c.withoutMinimum Catalog.stockField).constraints.validate fields = .ok () ∧
          Catalog.constraints.validate fields = .ok ()) ∧
      (db.AcceptsExactly (fun fields => c.constraints.validate fields = .ok () ∧
          Catalog.constraints.validate fields = .ok ()) ↔
        ∀ least, c.minimums[Catalog.stockField]? = some least → least ≤ 0) := by
  rw [database_of_file hpath hfile] at hopen
  obtain ⟨rfl, -⟩ := Database.ofConfig_eq_ok hopen
  have hconstraints : (c.setAll inv.settings).rules.constraints = (c.set .catalog).constraints :=
    inv.constraints_setAll c
  rw [Database.acceptsExactly_iff, Database.acceptsExactly_iff, hconstraints]
  exact ⟨fun fields => Config.validate_catalog_eq_ok_iff, c.catalog_accepts_both_iff⟩

/-- The configuration of a shop that wants ten pieces in stock. -/
def tenInStock : Config := ⟨.default, (∅ : Std.ExtTreeMap String Int64).insert "stock" 10, []⟩

theorem ofFile_tenInStock :
    Config.ofFile "shop.toml" (.ok "[constraints]\nstock = 10\n".toUTF8) = .ok tenInStock := by
  have hread : (Config.ofFile "shop.toml" (.ok "[constraints]\nstock = 10\n".toUTF8)).toOption
      = some tenInStock := by decide +kernel
  cases hfile : Config.ofFile "shop.toml" (.ok "[constraints]\nstock = 10\n".toUTF8) with
  | error failure =>
    rw [hfile] at hread
    contradiction
  | ok c =>
    rw [hfile] at hread
    rw [Option.some.inj hread]

theorem database_tenInStock :
    (⟨some "shop.toml", none, .storm 4 1 1 (-45)⟩ : Invocation).database
        (.ok "[constraints]\nstock = 10\n".toUTF8) World.surroundings
      = .ok ⟨(tenInStock.set .catalog).rules, World.surroundings⟩ := by
  rw [Invocation.database_of_file rfl ofFile_tenInStock]
  rfl

theorem Invocation.acceptsExactly_database_tenInStock :
    Config.ofFile "shop.toml" (.ok "[constraints]\nstock = 10\n".toUTF8) = .ok tenInStock ∧
      ∃ db, (⟨some "shop.toml", none, .storm 4 1 1 (-45)⟩ : Invocation).database
          (.ok "[constraints]\nstock = 10\n".toUTF8) World.surroundings = .ok db ∧
        db.AcceptsExactly (fun fields =>
          (tenInStock.withoutMinimum "stock").constraints.validate fields = .ok () ∧
            Catalog.constraints.validate fields = .ok ()) ∧
        ¬db.AcceptsExactly (fun fields => tenInStock.constraints.validate fields = .ok () ∧
            Catalog.constraints.validate fields = .ok ()) := by
  obtain ⟨hexactly, hboth⟩ :=
    Invocation.acceptsExactly_database rfl ofFile_tenInStock database_tenInStock
  refine ⟨ofFile_tenInStock, _, database_tenInStock, hexactly, fun h => ?_⟩
  exact absurd (hboth.1 h 10 rfl) (by decide)

/-- Five pieces are accepted where the file wants ten. -/
theorem Invocation.accepts_below_minimum :
    ∃ c db fields,
      Config.ofFile "shop.toml" (.ok "[constraints]\nstock = 10\n".toUTF8) = .ok c ∧
      (⟨some "shop.toml", none, .storm 4 1 1 (-45)⟩ : Invocation).database
        (.ok "[constraints]\nstock = 10\n".toUTF8) World.surroundings = .ok db ∧
      db.AcceptsNew fields ∧ db.AcceptsCandidate fields ∧
      c.constraints.validate fields = .error (.belowMinimum "stock" 5 10) := by
  refine ⟨_, _, Catalog.productFields "Monitor Stand" (Catalog.cents 3999) 5 "Accessories",
    ofFile_tenInStock, database_tenInStock, ?_⟩
  rw [Database.acceptsNew_iff, Database.acceptsCandidate_iff]
  have hvalid : (tenInStock.set .catalog).constraints.validate
      (Catalog.productFields "Monitor Stand" (Catalog.cents 3999) 5 "Accessories") = .ok () := rfl
  exact ⟨hvalid, hvalid, rfl⟩

end CommandLine

end VersionedStore
