import CommandBus.Json.Error

/-! # Moving through a JSON text

A `Cursor` is the text that is left and the place reached.  This module holds the lexical
level: blanks, words, strings with their escapes, and numbers.

A number is gathered into a significand of 64 bits and a power of ten; digits that the
significand has no room for only count.  Without point and exponent it is an integer where
it fits, otherwise the significand, as a double precision number, is multiplied or divided
by powers of ten, each step rounded. -/

namespace CommandBus.Json

open Number

namespace Position

/-- The place after one more byte, which is or starts the character `c`. -/
def afterByte (p : Position) (c : Char) : Position :=
  if c = '\n' then ⟨p.line + 1, 0⟩ else ⟨p.line, p.column + 1⟩

/-- The place after a whole character. -/
def after (p : Position) (c : Char) : Position :=
  if c = '\n' then ⟨p.line + 1, 0⟩ else ⟨p.line, p.column + c.utf8Size⟩

/-- The place after all of a text. -/
def afterAll (p : Position) (cs : List Char) : Position := cs.foldl after p

/-- The place `count` bytes further into a text, possibly inside a character. -/
def afterBytes : (count : Nat) → Position → List Char → Position
  | 0, p, _ => p
  | _, p, [] => p
  | count + 1, p, c :: cs =>
    if c.utf8Size ≤ count + 1 then afterBytes (count + 1 - c.utf8Size) (p.after c) cs
    else ⟨p.line, p.column + (count + 1)⟩
termination_by _ _ cs => cs.length

end Position

/-- The rest of a text and the place where it starts. -/
structure Cursor where
  rest : List Char
  position : Position := {}
  deriving Repr

namespace Cursor

/-- A cursor at the start of a text. -/
def start (s : String) : Cursor := { rest := s.toList }

/-- A fault at the bytes read so far. -/
def here (c : Cursor) (fault : Fault) : Error := ⟨fault, some c.position⟩

/-- A fault of the next byte, which counts as read if there is one. -/
def peeked (c : Cursor) (fault : Fault) : Error :=
  match c.rest with
  | [] => ⟨fault, some c.position⟩
  | ch :: _ => ⟨fault, some (c.position.afterByte ch)⟩

/-- Step over one character. -/
def eat (c : Cursor) : Cursor :=
  match c.rest with
  | [] => c
  | ch :: rest => ⟨rest, c.position.after ch⟩

/-- The blanks between tokens: fewer than the blanks of texts. -/
def isSpace (c : Char) : Bool := c == ' ' || c == '\n' || c == '\t' || c == '\r'

/-- Step over blanks. -/
def skipSpaces (c : Cursor) : Cursor :=
  let spaces := c.rest.takeWhile isSpace
  ⟨c.rest.dropWhile isSpace, c.position.afterAll spaces⟩

/-- Step over the letters of a word, of which the first was seen. -/
def word : List Char → Cursor → Except Error Cursor
  | [], c => .ok c
  | w :: ws, c =>
    match c.rest with
    | [] => .error (c.here .eofValue)
    | ch :: _ => if ch = w then word ws c.eat else .error (c.peeked .expectedIdent)

/-- Step over the digits at the cursor. -/
def skipDigits (c : Cursor) : Cursor :=
  let digits := c.rest.takeWhile isDigit
  ⟨c.rest.dropWhile isDigit, c.position.afterAll digits⟩

/-! ## Strings -/

/-- Four hexadecimal digits of an escape. -/
def hexEscape (c : Cursor) : Except Error (Nat × Cursor) :=
  -- four bytes are taken together, and a fault in them is told behind the last
  let bad : Error :=
    if c.rest.foldl (fun n ch => n + ch.utf8Size) 0 < 4 then
      ⟨.eofString, some (c.position.afterAll c.rest)⟩
    else ⟨.invalidEscape, some (c.position.afterBytes 4 c.rest)⟩
  match c.rest with
  | a :: b :: d :: e :: rest =>
    match hexValue? a, hexValue? b, hexValue? d, hexValue? e with
    | some a', some b', some d', some e' =>
      .ok (((a' * 16 + b') * 16 + d') * 16 + e', ⟨rest, c.position.afterAll [a, b, d, e]⟩)
    | _, _, _, _ => .error bad
  | _ => .error bad

/-- The fault of the next byte in the middle of a surrogate pair. -/
def pairBroken (c : Cursor) : Error :=
  match c.rest with
  | [] => c.here .eofString
  | _ => c.peeked .brokenSurrogatePair

/-- The character of an escape by number, the cursor being after the `u`.  A leading surrogate
    needs a second escape with a trailing one. -/
def unicodeEscape (c : Cursor) : Except Error (Char × Cursor) :=
  match c.hexEscape with
  | .error e => .error e
  | .ok (n, c) =>
    if 0xDC00 ≤ n ∧ n ≤ 0xDFFF then .error (c.here .loneSurrogate)
    else if n < 0xD800 ∨ 0xDBFF < n then .ok (Char.ofNat n, c)
    else match c.rest with
      | '\\' :: _ =>
        match c.eat.rest with
        | 'u' :: _ =>
          match c.eat.eat.hexEscape with
          | .error e => .error e
          | .ok (m, c) =>
            if m < 0xDC00 ∨ 0xDFFF < m then .error (c.here .loneSurrogate)
            else .ok (Char.ofNat ((n - 0xD800) * 0x400 + (m - 0xDC00) + 0x10000), c)
        | _ => .error c.eat.pairBroken
      | _ => .error c.pairBroken

/-- The character of an escape, the cursor being after the backslash. -/
def escape (c : Cursor) : Except Error (Char × Cursor) :=
  match c.rest with
  | [] => .error (c.here .eofString)
  | ch :: _ =>
    match ch with
    | '"' => .ok ('"', c.eat)
    | '\\' => .ok ('\\', c.eat)
    | '/' => .ok ('/', c.eat)
    | 'b' => .ok ('\x08', c.eat)
    | 'f' => .ok ('\x0c', c.eat)
    | 'n' => .ok ('\n', c.eat)
    | 'r' => .ok ('\r', c.eat)
    | 't' => .ok ('\t', c.eat)
    | 'u' => c.eat.unicodeEscape
    | _ => .error (c.peeked .invalidEscape)

/-- The characters of a string, the cursor being after the opening quote.  `fuel` bounds the
    characters and escapes. -/
def stringBody : (fuel : Nat) → Cursor → Except Error (List Char × Cursor)
  | 0, c => .error (c.here .eofString)
  | fuel + 1, c =>
    match c.rest with
    | [] => .error (c.here .eofString)
    | ch :: _ =>
      if ch = '"' then .ok ([], c.eat)
      else if ch = '\\' then
        match c.eat.escape with
        | .error e => .error e
        | .ok (x, c) =>
          match stringBody fuel c with
          | .error e => .error e
          | .ok (xs, c) => .ok (x :: xs, c)
      else if ch.val.toNat < 0x20 then .error (c.peeked .controlCharacter)
      else
        match stringBody fuel c.eat with
        | .error e => .error e
        | .ok (xs, c) => .ok (ch :: xs, c)

/-- A string, the cursor being at its opening quote. -/
def string (c : Cursor) : Except Error (String × Cursor) :=
  match stringBody (c.rest.length + 1) c.eat with
  | .error e => .error e
  | .ok (cs, c) => .ok (String.ofList cs, c)

/-- Step over a string whose characters do not matter: escapes by number may be any surrogate.
    The cursor is after the opening quote. -/
def skipString : (fuel : Nat) → Cursor → Except Error Cursor
  | 0, c => .error (c.here .eofString)
  | fuel + 1, c =>
    match c.rest with
    | [] => .error (c.here .eofString)
    | ch :: _ =>
      if ch = '"' then .ok c.eat
      else if ch = '\\' then
        match c.eat.rest with
        | 'u' :: _ =>
          match c.eat.eat.hexEscape with
          | .error e => .error e
          | .ok (_, c) => skipString fuel c
        | _ =>
          match c.eat.escape with
          | .error e => .error e
          | .ok (_, c) => skipString fuel c
      else if ch.val.toNat < 0x20 then .error (c.here .controlCharacter)
      else skipString fuel c.eat

/-! ## Numbers -/

/-- The largest significand. -/
def significandLimit : Nat := 18446744073709551616

/-- Multiply or divide a number by `10 ^ exponent`, in steps of at most `10 ^ 308`; `none`
    when the result is beyond the largest finite number. -/
def scaleByTen (x : Binary64) (exponent : Int) : Option Binary64 :=
  if exponent.natAbs ≤ 308 then
    let power := Binary64.ofNat (Nat.pow 10 exponent.natAbs)
    if 0 ≤ exponent then
      let product := x.mul power
      if product.isFinite then some product else none
    else some (x.div power)
  else if x.isZero then some x
  else if 0 ≤ exponent then none
  else scaleByTen (x.div (Binary64.ofNat (Nat.pow 10 308))) (exponent + 308)
termination_by exponent.natAbs

/-- The double precision number of a gathered number, the cursor being after it. -/
def gatheredDouble (negative : Bool) (significand : Nat) (exponent : Int) (c : Cursor) :
    Except Error (Json × Cursor) :=
  match scaleByTen (Binary64.ofNat significand) exponent with
  | none => .error (c.here .numberOutOfRange)
  | some x => .ok (.double (x.withSign negative), c)

/-- The digits of an exponent after the first one: the exponent, unless it leaves 32 bits, in
    which case the cursor is after the digit that does it. -/
def exponentDigits (n : Nat) : (digits : List Char) → Position → Nat ⊕ Cursor
  | [], _ => .inl n
  | ch :: rest, p =>
    match digitValue? ch with
    | none => .inl n
    | some d =>
      if 2147483648 ≤ n * 10 + d then .inr ⟨rest, p.after ch⟩
      else exponentDigits (n * 10 + d) rest (p.after ch)

/-- The exponent of a number, the cursor being at the `e`. -/
def exponentPart (negative : Bool) (significand : Nat) (exponent : Int) (c : Cursor) :
    Except Error (Json × Cursor) :=
  let c := c.eat
  let (down, c) := match c.rest with
    | '+' :: _ => (false, c.eat)
    | '-' :: _ => (true, c.eat)
    | _ => (false, c)
  match c.rest with
  | [] => .error (c.here .eofValue)
  | ch :: _ =>
    match digitValue? ch with
    | none => .error (c.peeked .invalidNumber)
    | some d =>
      match exponentDigits d c.eat.rest c.eat.position with
      | .inl n =>
        let shift : Int := if down then -n else n
        gatheredDouble negative significand (exponent + shift) c.skipDigits
      | .inr beyond =>
        -- zero stays zero under any exponent, and everything vanishes under a low one
        if significand ≠ 0 && !down then .error (beyond.here .numberOutOfRange)
        else .ok (.double (Binary64.zero negative), c.skipDigits)

/-- Continue with the exponent if there is one. -/
def exponentOrEnd (negative : Bool) (significand : Nat) (exponent : Int) (c : Cursor) :
    Except Error (Json × Cursor) :=
  match c.rest with
  | 'e' :: _ | 'E' :: _ => exponentPart negative significand exponent c
  | _ => gatheredDouble negative significand exponent c

/-- Gather digits into a significand: those that fit, and the number of those that do not.
    Once a digit does not fit, the ones after it do not either. -/
def gatherDigits : (significand dropped : Nat) → List Char → Nat × Nat
  | s, dropped, [] => (s, dropped)
  | s, dropped, c :: cs =>
    match digitValue? c with
    | none => (s, dropped)
    | some d =>
      if dropped = 0 && s * 10 + d < significandLimit then gatherDigits (s * 10 + d) 0 cs
      else gatherDigits s (dropped + 1) cs

/-- The digits after the point, the cursor being at the point. -/
def fractionPart (negative : Bool) (significand : Nat) (exponent : Int) (c : Cursor) :
    Except Error (Json × Cursor) :=
  let c := c.eat
  let digits := c.rest.takeWhile isDigit
  if digits.isEmpty then
    match c.rest with
    | [] => .error (c.peeked .eofValue)
    | _ => .error (c.peeked .invalidNumber)
  else
    let (s, dropped) := gatherDigits significand 0 digits
    -- a dropped digit does not move the point of the digits that were kept
    exponentOrEnd negative s (exponent - (digits.length - dropped : Nat)) c.skipDigits

/-- The integer that a significand without point and exponent stands for.  A negative zero and
    integers below the signed range are double precision numbers. -/
def wholeNumber (negative : Bool) (significand : Nat) : Json :=
  if negative then
    match (if significand = 0 then none else Integer.ofInt? (-significand)) with
    | some n => .integer n
    | none => .double ((Binary64.ofNat significand).withSign true)
  else
    match Integer.ofInt? significand with
    | some n => .integer n
    | none => .double (Binary64.ofNat significand)

/-- A number, the cursor being after its sign. -/
def unsignedNumber (negative : Bool) (c : Cursor) : Except Error (Json × Cursor) :=
  match c.rest with
  | [] => .error (c.here .eofValue)
  | ch :: rest =>
    match digitValue? ch with
    | none => .error (c.peeked .invalidNumber)
    | some d =>
      if d = 0 && (match rest with | next :: _ => isDigit next | [] => false) then
        .error (c.eat.peeked .invalidNumber)
      else
        let (s, dropped) := gatherDigits 0 0 (c.rest.takeWhile isDigit)
        let c := c.skipDigits
        match c.rest with
        | '.' :: _ => fractionPart negative s dropped c
        | 'e' :: _ | 'E' :: _ => exponentPart negative s dropped c
        | _ =>
          if dropped = 0 then .ok (wholeNumber negative s, c)
          else gatheredDouble negative s dropped c

/-- A number, the cursor being at its sign or its first digit. -/
def number (c : Cursor) : Except Error (Json × Cursor) :=
  match c.rest with
  | '-' :: _ => unsignedNumber true c.eat
  | _ => unsignedNumber false c

/-- Step over a number whose value does not matter. -/
def skipNumber (c : Cursor) : Except Error Cursor :=
  let c := match c.rest with
    | '-' :: _ => c.eat
    | _ => c
  let exponent (c : Cursor) : Except Error Cursor :=
    match c.rest with
    | 'e' :: _ | 'E' :: _ =>
      let c := c.eat
      let c := match c.rest with
        | '+' :: _ | '-' :: _ => c.eat
        | _ => c
      match c.rest with
      | ch :: _ => if isDigit ch then .ok c.skipDigits else .error (c.peeked .invalidNumber)
      | [] => .error (c.here .invalidNumber)
    | _ => .ok c
  match c.rest with
  | [] => .error (c.here .invalidNumber)
  | ch :: rest =>
    if !isDigit ch then .error (c.peeked .invalidNumber)
    else if ch = '0' && (match rest with | next :: _ => isDigit next | [] => false) then
      .error (c.eat.peeked .invalidNumber)
    else
      let c := c.skipDigits
      match c.rest with
      | '.' :: _ =>
        let c := c.eat
        if (c.rest.takeWhile isDigit).isEmpty then .error (c.peeked .invalidNumber)
        else exponent c.skipDigits
      | _ => exponent c

/-! ## Lists and objects -/

/-- Whether a list goes on: the cursor at its next item, or nothing at the closing bracket. -/
def nextItem? (first : Bool) (c : Cursor) : Except Error (Option Cursor) :=
  let c := c.skipSpaces
  match c.rest with
  | [] => .error (c.peeked .eofList)
  | ']' :: _ => .ok none
  | ',' :: _ =>
    if first then .ok (some c)
    else
      let c := c.eat.skipSpaces
      match c.rest with
      | [] => .error (c.peeked .eofValue)
      | ']' :: _ => .error (c.peeked .trailingComma)
      | _ => .ok (some c)
  | _ => if first then .ok (some c) else .error (c.peeked .expectedListEnd)

/-- Whether an object goes on: the cursor at the quote of its next key, or nothing at the
    closing brace. -/
def nextKey? (first : Bool) (c : Cursor) : Except Error (Option Cursor) :=
  let c := c.skipSpaces
  match c.rest with
  | [] => .error (c.peeked .eofObject)
  | '\x7d' :: _ => .ok none
  | ch :: _ =>
    if first then
      if ch = '"' then .ok (some c) else .error (c.peeked .keyNotString)
    else if ch = ',' then
      let c := c.eat.skipSpaces
      match c.rest with
      | [] => .error (c.peeked .eofValue)
      | '"' :: _ => .ok (some c)
      | '\x7d' :: _ => .error (c.peeked .trailingComma)
      | _ => .error (c.peeked .keyNotString)
    else .error (c.peeked .expectedObjectEnd)

/-- Step over the colon after a key. -/
def colon (c : Cursor) : Except Error Cursor :=
  let c := c.skipSpaces
  match c.rest with
  | [] => .error (c.peeked .eofObject)
  | ':' :: _ => .ok c.eat
  | _ => .error (c.peeked .expectedColon)

/-- Where an attempt to close a list leaves the cursor: after the bracket, or at whatever
    stands in its way. -/
def closeList (c : Cursor) : Cursor :=
  let c := c.skipSpaces
  match c.rest with
  | ']' :: _ => c.eat
  | ',' :: _ => c.eat.skipSpaces
  | _ => c

/-- Where an attempt to close an object leaves the cursor. -/
def closeObject (c : Cursor) : Cursor :=
  let c := c.skipSpaces
  match c.rest with
  | '\x7d' :: _ => c.eat
  | _ => c

/-- Step over the blanks at the end of a text. -/
def finish (c : Cursor) : Except Error Unit :=
  let c := c.skipSpaces
  match c.rest with
  | [] => .ok ()
  | _ => .error (c.peeked .trailingCharacters)

end Cursor

end CommandBus.Json
