import CommandBus.Json.Cursor

/-! # Reading JSON documents

`readValue` reads any document.  It recurses on the nesting that is still allowed: an array
or an object spends one level, and the last level is not to be used, so that 127 brackets
may be open at once.  Members of an object end up in key order, the last one of a name
remaining.

`skipValue` steps over a document whose content does not matter.  It keeps the open brackets
on a stack and has no limit of nesting. -/

namespace CommandBus.Json

/-- How deep a reader may still go. -/
abbrev Depth := Nat

/-- The depth at the start of a text. -/
def maxDepth : Depth := 128

/-- A reader of values of one type at a cursor. -/
abbrev Reader (α : Type) := Depth → Cursor → Except Error (α × Cursor)

namespace Cursor

/-- The fault of a value that is not of the wanted kind.  Scalars are read first, so that a
    fault inside them comes before; brackets are not stepped over. -/
def unexpected (expected : String) (c : Cursor) : Error :=
  let wrong (found : Found) (c : Cursor) : Error := c.here (.invalidType found expected)
  match c.rest with
  | 'n' :: _ =>
    match word ['u', 'l', 'l'] c.eat with
    | .ok c => wrong .null c
    | .error e => e
  | 't' :: _ =>
    match word ['r', 'u', 'e'] c.eat with
    | .ok c => wrong (.bool true) c
    | .error e => e
  | 'f' :: _ =>
    match word ['a', 'l', 's', 'e'] c.eat with
    | .ok c => wrong (.bool false) c
    | .error e => e
  | '"' :: _ =>
    match c.string with
    | .ok (s, c) => wrong (.string s) c
    | .error e => e
  | '[' :: _ => wrong .sequence c
  | '\x7b' :: _ => wrong .map c
  | ch :: _ =>
    if ch = '-' || Number.isDigit ch then
      match c.number with
      | .ok (j, c) => wrong j.found c
      | .error e => e
    else c.peeked .expectedValue
  | [] => c.peeked .expectedValue

/-- The items of a list and the cursor after its closing bracket; `fuel` bounds their number. -/
def listBody {α : Type} (item : Cursor → Except Error (α × Cursor)) :
    (fuel : Nat) → (first : Bool) → Cursor → Except Error (List α × Cursor)
  | 0, _, c => .error (c.here .recursionLimit)
  | fuel + 1, first, c =>
    match c.nextItem? first with
    | .error e => .error e
    | .ok none => .ok ([], c.closeList)
    | .ok (some c) =>
      match item c with
      | .error e => .error e
      | .ok (x, c) =>
        match listBody item fuel false c with
        | .error e => .error e
        | .ok (xs, c) => .ok (x :: xs, c)

/-- The members of an object and the cursor after its closing brace. -/
def objectBody {α : Type} (item : Cursor → Except Error (α × Cursor)) :
    (fuel : Nat) → (first : Bool) → Cursor → Except Error (List (String × α) × Cursor)
  | 0, _, c => .error (c.here .recursionLimit)
  | fuel + 1, first, c =>
    match c.nextKey? first with
    | .error e => .error e
    | .ok none => .ok ([], c.closeObject)
    | .ok (some c) =>
      match c.string with
      | .error e => .error e
      | .ok (name, c) =>
        match c.colon with
        | .error e => .error e
        | .ok c =>
          match item c with
          | .error e => .error e
          | .ok (x, c) =>
            match objectBody item fuel false c with
            | .error e => .error e
            | .ok (xs, c) => .ok ((name, x) :: xs, c)

/-- A document that is neither a list nor an object. -/
def scalar (c : Cursor) : Except Error (Json × Cursor) :=
  match c.rest with
  | [] => .error (c.peeked .eofValue)
  | 'n' :: _ => (word ['u', 'l', 'l'] c.eat).map fun c => (.null, c)
  | 't' :: _ => (word ['r', 'u', 'e'] c.eat).map fun c => (.bool true, c)
  | 'f' :: _ => (word ['a', 'l', 's', 'e'] c.eat).map fun c => (.bool false, c)
  | '"' :: _ => c.string.map fun (s, c) => (.string s, c)
  | ch :: _ =>
    if ch = '-' || Number.isDigit ch then c.number else .error (c.peeked .expectedValue)

end Cursor

/-- Any document. -/
def readValue : Reader Json
  | 0, c => .error (c.peeked .recursionLimit)
  | depth + 1, c =>
    let c := c.skipSpaces
    match c.rest with
    | '[' :: _ =>
      if depth = 0 then .error (c.peeked .recursionLimit)
      else (Cursor.listBody (readValue depth) (c.rest.length + 1) true c.eat).map
        fun (items, c) => (.array items, c)
    | '\x7b' :: _ =>
      if depth = 0 then .error (c.peeked .recursionLimit)
      else (Cursor.objectBody (readValue depth) (c.rest.length + 1) true c.eat).map
        fun (members, c) => (.object (Entries.ofList members), c)
    | _ => c.scalar

/-- An open bracket. -/
inductive Bracket where
  | list
  | object
  deriving DecidableEq, Repr

mutual

/-- Step over a value inside the open brackets `stack`, and then over the rest of those. -/
def skipIn : (fuel : Nat) → (stack : List Bracket) → Cursor → Except Error Cursor
  | 0, _, c => .error (c.here .recursionLimit)
  | fuel + 1, stack, c =>
    let c := c.skipSpaces
    let scalar (r : Except Error Cursor) : Except Error Cursor :=
      match r with
      | .error e => .error e
      | .ok c => skipRest fuel stack true c
    match c.rest with
    | [] => .error (c.peeked .eofValue)
    | 'n' :: _ => scalar (Cursor.word ['u', 'l', 'l'] c.eat)
    | 't' :: _ => scalar (Cursor.word ['r', 'u', 'e'] c.eat)
    | 'f' :: _ => scalar (Cursor.word ['a', 'l', 's', 'e'] c.eat)
    | '"' :: _ => scalar (c.eat.skipString (c.rest.length + 1))
    | '[' :: _ => skipRest fuel (.list :: stack) false c.eat
    | '\x7b' :: _ => skipRest fuel (.object :: stack) false c.eat
    | ch :: _ =>
      if ch = '-' || Number.isDigit ch then scalar c.skipNumber
      else .error (c.peeked .expectedValue)

/-- Close brackets, or step over a comma and the next value; `comma` tells that a value came
    before. -/
def skipRest : (fuel : Nat) → (stack : List Bracket) → (comma : Bool) → Cursor →
    Except Error Cursor
  | 0, _, _, c => .error (c.here .recursionLimit)
  | _ + 1, [], _, c => .ok c
  | fuel + 1, bracket :: stack, comma, c =>
    let c := c.skipSpaces
    match c.rest with
    | [] => .error (c.peeked (if bracket = .list then .eofList else .eofObject))
    | ch :: _ =>
      if ch = ',' && comma then skipNext fuel bracket stack c.eat
      else if (ch = ']' && bracket = .list) || (ch = '\x7d' && bracket = .object) then
        skipRest fuel stack true c.eat
      else if comma then
        .error (c.peeked (if bracket = .list then .expectedListEnd else .expectedObjectEnd))
      else skipNext fuel bracket stack c

/-- Step over the key, in an object, and the next value. -/
def skipNext : (fuel : Nat) → Bracket → (stack : List Bracket) → Cursor → Except Error Cursor
  | 0, _, _, c => .error (c.here .recursionLimit)
  | fuel + 1, .list, stack, c => skipIn fuel (.list :: stack) c
  | fuel + 1, .object, stack, c =>
    let c := c.skipSpaces
    match c.rest with
    | [] => .error (c.peeked .eofObject)
    | '"' :: _ =>
      match c.eat.skipString (c.rest.length + 1) with
      | .error e => .error e
      | .ok c =>
        match c.colon with
        | .error e => .error e
        | .ok c => skipIn fuel (.object :: stack) c
    | _ => .error (c.peeked .keyNotString)

end

/-- Step over any document. -/
def skipValue (c : Cursor) : Except Error Cursor := skipIn (4 * c.rest.length + 4) [] c

/-- Read a whole text with a reader: nothing but blanks may follow. -/
def readAll {α : Type} (reader : Reader α) (s : String) : Except Error α :=
  match reader maxDepth (Cursor.start s) with
  | .error e => .error e
  | .ok (a, c) =>
    match c.finish with
    | .error e => .error e
    | .ok () => .ok a

/-- Read a whole text as a document. -/
def parse (s : String) : Except Error Json := readAll readValue s

end CommandBus.Json
