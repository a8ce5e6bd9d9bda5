import CommandBus.Json.Document
import CommandBus.Json.Reader
import CommandBus.Number.IntegerText

/-! # Documents of a fixed shape

A `Codec` reads one type in two ways: from a text, where every fault has a place, and from a
document that was read before, where it has none.  The two share the shapes and the faults.

A record is read from an object, whose unknown members are stepped over, or from a list of
its fields in order.  Fields are gathered in a draft, one slot a field; when all of the
record is read, `finish` turns the draft into the value or names the first field that is
missing. -/

namespace CommandBus.Json

open Number

/-- A way to read values of a type. -/
structure Codec (α : Type) where
  /-- What a fault says was expected. -/
  expecting : String
  /-- Read from a text. -/
  read : Reader α
  /-- Read from a document. -/
  decode : Json → Except Error α

namespace Codec

variable {α β σ : Type}

/-- The fault of a document that is not of the wanted kind. -/
def mismatch (expected : String) (j : Json) : Error := ⟨.invalidType j.found expected, none⟩

/-- Read the same documents, and turn the value into another one. -/
def map (f : α → β) (codec : Codec α) : Codec β where
  expecting := codec.expecting
  read depth c := (codec.read depth c).map fun (a, c) => (f a, c)
  decode j := (codec.decode j).map f

/-- Any document. -/
def json : Codec Json where
  expecting := "any valid JSON value"
  read := readValue
  decode := .ok

/-- Any document, to be kept in key order. -/
def document : Codec Document := json.map Document.ofJson

/-- A string. -/
def string : Codec String where
  expecting := "a string"
  read _ c :=
    let c := c.skipSpaces
    match c.rest with
    | [] => .error (c.peeked .eofValue)
    | '"' :: _ => c.string
    | _ => .error (c.unexpected "a string")
  decode
    | .string s => .ok s
    | j => .error (mismatch "a string" j)

/-- A truth value. -/
def bool : Codec Bool where
  expecting := "a boolean"
  read _ c :=
    let c := c.skipSpaces
    match c.rest with
    | [] => .error (c.peeked .eofValue)
    | 't' :: _ => (Cursor.word ['r', 'u', 'e'] c.eat).map fun c => (true, c)
    | 'f' :: _ => (Cursor.word ['a', 'l', 's', 'e'] c.eat).map fun c => (false, c)
    | _ => .error (c.unexpected "a boolean")
  decode
    | .bool b => .ok b
    | j => .error (mismatch "a boolean" j)

/-- The integer of a number, if it is one of the range. -/
def integerOf (name : String) (range : IntegerRange) : Json → Except Error Int
  | .integer n =>
    if range.holds n.value then .ok n.value
    else .error ⟨.invalidValue (.integer n.value) name, none⟩
  | j => .error (mismatch name j)

/-- A number, read by a test of the number. -/
def numeric (name : String) (test : Json → Except Error α) : Codec α where
  expecting := name
  read _ c :=
    let c := c.skipSpaces
    match c.rest with
    | [] => .error (c.peeked .eofValue)
    | ch :: _ =>
      if ch = '-' || isDigit ch then
        match c.number with
        | .error e => .error e
        | .ok (j, c) =>
          match test j with
          | .error e => .error (e.locate c.position)
          | .ok a => .ok (a, c)
      else .error (c.unexpected name)
  decode := test

/-- An integer of a range; `name` is what a fault calls it. -/
def integer (name : String) (range : IntegerRange) : Codec Int :=
  numeric name (integerOf name range)

/-- A double precision number; integers are taken too. -/
def double : Codec Binary64 :=
  numeric "f64" fun
    | .double x => .ok x
    | .integer n => .ok (Binary64.ofInt n.value)
    | j => .error (mismatch "f64" j)

/-- A value or null. -/
def optional (codec : Codec α) : Codec (Option α) where
  expecting := "option"
  read depth c :=
    let c := c.skipSpaces
    match c.rest with
    | 'n' :: _ => (Cursor.word ['u', 'l', 'l'] c.eat).map fun c => (none, c)
    | _ => (codec.read depth c).map fun (a, c) => (some a, c)
  decode
    | .null => .ok none
    | j => (codec.decode j).map some

/-- A list. -/
def list (codec : Codec α) : Codec (List α) where
  expecting := "a sequence"
  read depth c :=
    let c := c.skipSpaces
    match c.rest with
    | [] => .error (c.peeked .eofValue)
    | '[' :: _ =>
      if depth ≤ 1 then .error (c.peeked .recursionLimit)
      else Cursor.listBody (codec.read (depth - 1)) (c.rest.length + 1) true c.eat
    | _ => .error (c.unexpected "a sequence")
  decode
    | .array items => items.mapM codec.decode
    | j => .error (mismatch "a sequence" j)

/-- The members of an object, read in turn. -/
def decodeMembers (codec : Codec α) : List (String × Json) → Except Error (List (String × α))
  | [] => .ok []
  | (name, j) :: rest =>
    match codec.decode j with
    | .error e => .error e
    | .ok a =>
      match decodeMembers codec rest with
      | .error e => .error e
      | .ok as => .ok ((name, a) :: as)

/-- An object with values of one type, the last one of a name remaining. -/
def entries (codec : Codec α) : Codec (SortedEntries α) where
  expecting := "a map"
  read depth c :=
    let c := c.skipSpaces
    match c.rest with
    | [] => .error (c.peeked .eofValue)
    | '\x7b' :: _ =>
      if depth ≤ 1 then .error (c.peeked .recursionLimit)
      else (Cursor.objectBody (codec.read (depth - 1)) (c.rest.length + 1) true c.eat).map
        fun (members, c) => (SortedEntries.ofList members, c)
    | _ => .error (c.unexpected "a map")
  decode
    | .object members => (decodeMembers codec members).map SortedEntries.ofList
    | j => .error (mismatch "a map" j)

/-! ## Enumerations -/

/-- The value of a variant name. -/
def variantOf (variants : List (String × α)) (name : String) : Except Error α :=
  match Entries.get? name variants with
  | some a => .ok a
  | none => .error ⟨.unknownVariant name (variants.map (·.1)), none⟩

/-- One of several names, as a string, or as an object from the name to null. -/
def variants (variants : List (String × α)) : Codec α where
  expecting := "variant identifier"
  read depth c :=
    let c := c.skipSpaces
    let name (c : Cursor) : Except Error (α × Cursor) :=
      match c.string with
      | .error e => .error e
      | .ok (s, c) =>
        match variantOf variants s with
        | .error e => .error (e.locate c.position)
        | .ok a => .ok (a, c)
    match c.rest with
    | [] => .error (c.peeked .eofValue)
    | '"' :: _ => name c
    | '\x7b' :: _ =>
      if depth ≤ 1 then .error (c.peeked .recursionLimit)
      else
        let c := c.eat.skipSpaces
        match c.rest with
        | [] => .error (c.peeked .eofValue)
        | '"' :: _ =>
          match name c with
          | .error e => .error e
          | .ok (a, c) =>
            match c.colon with
            | .error e => .error e
            | .ok c =>
              let c := c.skipSpaces
              match c.rest with
              | [] => .error (c.peeked .eofValue)
              | 'n' :: _ =>
                match Cursor.word ['u', 'l', 'l'] c.eat with
                | .error e => .error e
                | .ok c =>
                  let c := c.skipSpaces
                  match c.rest with
                  | '\x7d' :: _ => .ok (a, c.eat)
                  | [] => .error (c.here .eofObject)
                  | _ => .error (c.here .expectedValue)
              | _ => .error (c.unexpected "unit")
        | _ => .error (c.unexpected "variant identifier")
    | _ => .error (c.peeked .expectedValue)
  decode
    | .string s => variantOf variants s
    | .object [(name, j)] =>
      match variantOf variants name with
      | .error e => .error e
      | .ok a =>
        match j with
        | .null => .ok a
        | j => .error (mismatch "unit" j)
    | .object _ => .error ⟨.invalidValue .map "map with a single key", none⟩
    | j => .error (mismatch "string or map" j)

/-! ## Records -/

/-- One field of a record that is gathered in a draft. -/
structure Field (σ : Type) where
  name : String
  /-- Whether the field was read before. -/
  filled : σ → Bool
  read : σ → Reader σ
  decode : σ → Json → Except Error σ
  /-- The draft when a list ends before the field, if the field may be absent there. -/
  absent : σ → Option σ

/-- A field of a type with a codec, given its slot. -/
def field (name : String) (codec : Codec α) (get : σ → Option α) (set : σ → α → σ)
    (default? : Option α) : Field σ where
  name := name
  filled draft := (get draft).isSome
  read draft depth c := (codec.read depth c).map fun (a, c) => (set draft a, c)
  decode draft j := (codec.decode j).map (set draft)
  absent draft := default?.map (set draft)

/-- What a fault says of a list that ends too early. -/
def lengthText (name : String) (count : Nat) : String :=
  name ++ " with " ++ natText count ++ (if count = 1 then " element" else " elements")

/-- The field of a name. -/
def findField (name : String) (fields : List (Field σ)) : Option (Field σ) :=
  fields.find? fun f => f.name == name

/-- The fields of a record in a list, from the field number `index` on. -/
def readInOrder (expected : String) (depth : Depth) :
    (fields : List (Field σ)) → (index : Nat) → σ → Cursor → Except Error (σ × Cursor)
  | [], _, draft, c => .ok (draft, c)
  | f :: fields, index, draft, c =>
    match c.nextItem? (index = 0) with
    | .error e => .error e
    | .ok none =>
      match f.absent draft with
      | some draft => readInOrder expected depth fields (index + 1) draft c
      | none => .error ⟨.invalidLength index expected, some c.closeList.position⟩
    | .ok (some c) =>
      match f.read draft depth c with
      | .error e => .error e
      | .ok (draft, c) => readInOrder expected depth fields (index + 1) draft c

/-- The end of a list after the last field. -/
def endOfList (c : Cursor) : Except Error Cursor :=
  let c := c.skipSpaces
  match c.rest with
  | [] => .error (c.peeked .eofList)
  | ']' :: _ => .ok c.eat
  | ',' :: _ =>
    let c := c.eat.skipSpaces
    match c.rest with
    | ']' :: _ => .error (c.peeked .trailingComma)
    | _ => .error (c.peeked .trailingCharacters)
  | _ => .error (c.peeked .trailingCharacters)

/-- The members of an object that are fields of a record; the cursor stays at the brace. -/
def readMembers (fields : List (Field σ)) (depth : Depth) :
    (fuel : Nat) → (first : Bool) → σ → Cursor → Except Error (σ × Cursor)
  | 0, _, _, c => .error (c.here .recursionLimit)
  | fuel + 1, first, draft, c =>
    match c.nextKey? first with
    | .error e => .error e
    | .ok none => .ok (draft, c)
    | .ok (some c) =>
      match c.string with
      | .error e => .error e
      | .ok (name, c) =>
        match findField name fields with
        | some f =>
          -- the value of a repeated field is not looked at
          if f.filled draft then
            .error ⟨.duplicateField f.name, some c.closeObject.position⟩
          else
            match c.colon with
            | .error e => .error e
            | .ok c =>
              match f.read draft depth c with
              | .error e => .error e
              | .ok (draft, c) => readMembers fields depth fuel false draft c
        | none =>
          match c.colon with
          | .error e => .error e
          | .ok c =>
            match skipValue c with
            | .error e => .error e
            | .ok c => readMembers fields depth fuel false draft c

/-- The fields of a record in a list that was read before. -/
def decodeInOrder (expected : String) :
    (fields : List (Field σ)) → (index : Nat) → σ → List Json → Except Error (σ × List Json)
  | [], _, draft, items => .ok (draft, items)
  | f :: fields, index, draft, items =>
    match items with
    | [] =>
      match f.absent draft with
      | some draft => decodeInOrder expected fields (index + 1) draft []
      | none => .error ⟨.invalidLength index expected, none⟩
    | item :: items =>
      match f.decode draft item with
      | .error e => .error e
      | .ok draft => decodeInOrder expected fields (index + 1) draft items

/-- The members of an object that was read before. -/
def decodeInto (fields : List (Field σ)) : σ → List (String × Json) → Except Error σ
  | draft, [] => .ok draft
  | draft, (name, j) :: rest =>
    match findField name fields with
    | none => decodeInto fields draft rest
    | some f =>
      if f.filled draft then .error ⟨.duplicateField f.name, none⟩
      else
        match f.decode draft j with
        | .error e => .error e
        | .ok draft => decodeInto fields draft rest

/-- A record: its name in faults, its fields in order, the empty draft, and what a draft says
    when all is read. -/
def record (name : String) (fields : List (Field σ)) (empty : σ) (finish : σ → Except Error α) :
    Codec α where
  expecting := "struct " ++ name
  read depth c :=
    let c := c.skipSpaces
    match c.rest with
    | [] => .error (c.peeked .eofValue)
    | '[' :: _ =>
      if depth ≤ 1 then .error (c.peeked .recursionLimit)
      else
        match readInOrder (lengthText ("struct " ++ name) fields.length) (depth - 1) fields 0
            empty c.eat with
        | .error e => .error e
        | .ok (draft, c) =>
          match finish draft with
          | .error e => .error (e.locate c.closeList.position)
          | .ok a => (endOfList c).map fun c => (a, c)
    | '\x7b' :: _ =>
      if depth ≤ 1 then .error (c.peeked .recursionLimit)
      else
        match readMembers fields (depth - 1) (c.rest.length + 1) true empty c.eat with
        | .error e => .error e
        | .ok (draft, c) =>
          match finish draft with
          | .error e => .error (e.locate c.closeObject.position)
          | .ok a => .ok (a, c.closeObject)
    | _ => .error (c.unexpected ("struct " ++ name))
  decode
    | .array items =>
      match decodeInOrder (lengthText ("struct " ++ name) fields.length) fields 0 empty items with
      | .error e => .error e
      | .ok (draft, rest) =>
        match finish draft with
        | .error e => .error e
        | .ok a =>
          if rest.isEmpty then .ok a
          else .error ⟨.invalidLength items.length "fewer elements in array", none⟩
    | .object members =>
      match decodeInto fields empty members with
      | .error e => .error e
      | .ok draft => finish draft
    | j => .error (mismatch ("struct " ++ name) j)

/-- The value of a slot that must have been read. -/
def required (name : String) : Option α → Except Error α
  | some a => .ok a
  | none => .error ⟨.missingField name, none⟩

/-- Read a whole text. -/
def parse (codec : Codec α) (s : String) : Except Error α := readAll codec.read s

end Codec

end CommandBus.Json
