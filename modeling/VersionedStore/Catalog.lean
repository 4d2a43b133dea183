/-
  VersionedStore.Catalog

  A small product catalogue on top of records: five sample products, the
  conditions that products satisfy, and a typed view of a record as a product.
-/
import VersionedStore.Codec.Record
import VersionedStore.Constraints
import VersionedStore.Double.Round

namespace VersionedStore

namespace Catalog

/-- The field with the name of a product. -/
def nameField : String := "name"

/-- The field with the price of a piece. -/
def priceField : String := "price"

/-- The field with the number of pieces in stock. -/
def stockField : String := "stock"

/-- The field with the category. -/
def categoryField : String := "category"

/-- The fields of a product. -/
def productFields (name : String) (price : Double) (stock : Int64) (category : String) : Fields :=
  .ofList [(nameField, .string name), (priceField, .float price), (stockField, .int stock),
    (categoryField, .string category)]

/-- The double nearest to a number of cents. -/
def cents (n : Nat) : Double :=
  Double.ofDecimal false n (-2)

/-- The sample products. -/
def samples : List Fields := [
  productFields "Wireless Mouse" (cents 2999) 150 "Electronics",
  productFields "Mechanical Keyboard" (cents 8999) 75 "Electronics",
  productFields "USB-C Hub" (cents 4999) 200 "Electronics",
  productFields "Monitor Stand" (cents 3999) 50 "Accessories",
  productFields "Desk Lamp" (cents 2499) 100 "Accessories"]

/-- The least values of the fields of a product. -/
def minimums : List (String × Int64) := [(stockField, 0)]

/-- The fields that a product must have. -/
def required : List String := [nameField, categoryField]

/-- The conditions that products satisfy. -/
def constraints : Constraints :=
  let c := minimums.foldl (fun c (field, least) => c.min field least) ∅
  required.foldl Constraints.require c

end Catalog

/-- A record seen as a product. -/
structure Product where
  id : RecordId
  name : String
  price : Double
  stock : Int64
  category : String
  version : Version
  createdAt : Instant
  lastModified : Option Instant
deriving DecidableEq

namespace Product

open Catalog

/-- The content of a field that has to be there and to be of a type. -/
def typed {α : Type} (fields : Fields) (field type : String) (view : Value → Option α) :
    Except Violation α :=
  match fields.get? field with
  | none => .error (.missingField field)
  | some v =>
    match view v with
    | some a => .ok a
    | none => .error (.wrongType field type v.typeName)

/-- A price, which may be stored as an integer. -/
def priceOf? : Value → Option Double
  | .float x => some x
  | .int n => some (Double.ofInt n.toInt)
  | _ => none

/-- The record as a product. -/
def ofRecord (r : Record) : Except Violation Product := do
  let name ← typed r.fields nameField Value.stringType Value.string?
  let price ← typed r.fields priceField Value.floatType priceOf?
  let stock ← typed r.fields stockField Value.intType Value.int?
  let category ← typed r.fields categoryField Value.stringType Value.string?
  return ⟨r.id, name, price, stock, category, r.version, r.createdAt, r.lastModified⟩

/-- The fields that describe the product. -/
def fields (p : Product) : Fields :=
  productFields p.name p.price p.stock p.category

/-- The product as a JSON object. -/
def toJson (p : Product) : Json :=
  .object [("id", p.id.toJson), ("name", .string p.name), ("price", Json.ofDouble p.price),
    ("stock", .integer p.stock.toInt), ("category", .string p.category),
    ("version", p.version.toJson), ("created_at", p.createdAt.toJson),
    ("last_modified", Json.ofOption Instant.toJson p.lastModified)]

end Product

end VersionedStore
