import CommandBus.Json.Codec
import CommandBus.Parameter.Form

/-! # Sample types

Record types and forms for trying out binding: an address, an order that has one, a record
that cannot be written, and forms of up to three levels. -/

namespace CommandBus.Sample

open Json (Codec)
open Number (Binary64)

/-- An address while it is read. -/
structure AddressDraft where
  street : Option String := none
  zip : Option Int := none
  note : Option (Option String) := none

/-- The document of an address. -/
def addressJson (street : String) (zip : Int) (note : Option String) : Json :=
  .object
    [("note", match note with | some s => .string s | none => .null), ("street", .string street),
      ("zip", match Json.Integer.ofInt? zip with | some n => .integer n | none => .null)]

/-- How an address is read; its note may be absent. -/
def addressCodec : Codec Json :=
  Codec.record "Address"
    [Codec.field "street" .string AddressDraft.street (fun d s => { d with street := some s }) none,
      Codec.field "zip" (.integer "i32" .int) AddressDraft.zip
        (fun d n => { d with zip := some n }) none,
      Codec.field "note" (.optional .string) AddressDraft.note
        (fun d s => { d with note := some s }) (some none)]
    {}
    fun d => do
      let street ← Codec.required "street" d.street
      let zip ← Codec.required "zip" d.zip
      return addressJson street zip (d.note.getD none)

/-- An order while it is read. -/
structure OrderDraft where
  ship : Option Json := none
  lines : Option (List Int) := none
  total : Option Binary64 := none
  paid : Option Bool := none

/-- How an order is read. -/
def orderCodec : Codec Json :=
  Codec.record "Order"
    [Codec.field "ship" addressCodec OrderDraft.ship (fun d j => { d with ship := some j }) none,
      Codec.field "lines" (.list (.integer "i64" .long)) OrderDraft.lines
        (fun d xs => { d with lines := some xs }) none,
      Codec.field "total" .double OrderDraft.total (fun d x => { d with total := some x }) none,
      Codec.field "paid" .bool OrderDraft.paid (fun d b => { d with paid := some b }) none]
    {}
    fun d => do
      let ship ← Codec.required "ship" d.ship
      let lines ← Codec.required "lines" d.lines
      let total ← Codec.required "total" d.total
      let paid ← Codec.required "paid" d.paid
      let items := lines.filterMap fun n => (Json.Integer.ofInt? n).map Json.integer
      return .object
        [("lines", .array items), ("paid", .bool paid), ("ship", ship), ("total", .double total)]

/-- A street, a number and perhaps a note. -/
def address : RecordType := ⟨"Address", addressCodec.decode, some⟩

/-- Where goods go, what they are and what they cost. -/
def order : RecordType := ⟨"shop.Order", orderCodec.decode, some⟩

/-- A record without fields that cannot be written. -/
def broken : RecordType :=
  ⟨"Broken", (Codec.record "Broken" [] () fun _ => .ok .null).decode, fun _ => none⟩

/-- A parameter type that is named by one word; a name that is not known stands for any. -/
def wordType : String → ParamType
  | "bool" => .bool
  | "i16" => .short
  | "i32" => .int
  | "i64" => .long
  | "f64" => .double
  | "decimal" => .decimal
  | "string" => .string
  | "date" => .date
  | "uuid" => .uuid
  | "Address" => .record address
  | "Order" => .record order
  | "Broken" => .record broken
  | _ => .any

/-! ## Forms -/

def paging : FormLevel :=
  [⟨"page", .int, false, (0 : Int32)⟩, ⟨"size", .int, false, (0 : Int32)⟩]

/-- Redeclares the size of a page, which is required here. -/
def listUsers : FormLevel :=
  [⟨"role", .option .string, false, (none : Option String)⟩, ⟨"size", .int, true, (0 : Int32)⟩]

/-- Redeclares the page with another type. -/
def deep : FormLevel :=
  [⟨"page", .long, true, (0 : Int64)⟩, ⟨"ship", .record address, false, addressJson "" 0 none⟩]

def createUser : FormLevel :=
  [⟨"name", .string, true, ("" : String)⟩, ⟨"age", .int, false, (0 : Int32)⟩,
    ⟨"nickname", .string, false, ("" : String)⟩, ⟨"tags", .list .string, false, ([] : List String)⟩,
    ⟨"born", .option .date, false, (none : Option Instant)⟩]

end CommandBus.Sample
