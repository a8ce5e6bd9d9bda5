import CommandBus.Number.Digits

/-! # Universally unique identifiers

A `Uuid` is a number of 128 bits.  It is written in five groups of lower-case hexadecimal
digits and read in four forms: without hyphens, with them, and the latter in braces or
after `urn:uuid:`.

A text that is none of these is examined for the first thing wrong with it: a character, the
number of groups, the length of a group.  A text as long as the five groups, alone or in their
wrapping, is examined as such; any other one by the form that it shows.  Lengths and places
count bytes. -/

namespace CommandBus

open Number

/-- A universally unique identifier. -/
structure Uuid where
  value : Nat
  value_lt : value < 340282366920938463463374607431768211456 := by decide
  deriving DecidableEq, Repr

namespace Uuid

/-- Hexadecimal digits cut into the five groups. -/
def hyphenate (digits : List Char) : List Char :=
  digits.take 8 ++ '-' :: ((digits.drop 8).take 4 ++ '-' :: ((digits.drop 12).take 4 ++
    '-' :: ((digits.drop 16).take 4 ++ '-' :: digits.drop 20)))

def chars (u : Uuid) : List Char := hyphenate (paddedHex 32 u.value)

/-- The five groups of lower-case digits. -/
def text (u : Uuid) : String := String.ofList u.chars

/-- Why a text is no identifier. -/
inductive ReadError where
  | length (found : Nat)
  | character (found : Char) (index : Nat)
  | groupCount (found : Nat)
  | groupLength (group expected found : Nat)
  deriving DecidableEq, Repr

/-- The wording of a reading error. -/
def ReadError.message : ReadError → String
  | .length n => "invalid length: found " ++ natText n
  | .character c i =>
    "invalid character: found " ++ "\x60" ++ String.singleton c ++ "\x60 at " ++ natText i
  | .groupCount n => "invalid group count: expected 5, found " ++ natText n
  | .groupLength g e n =>
    "invalid group length in group " ++ natText g ++ ": expected " ++ natText e
      ++ ", found " ++ natText n

/-- The number of bytes of a text. -/
def byteCount (cs : List Char) : Nat := cs.foldl (fun n c => n + c.utf8Size) 0

/-- The identifier whose 32 digits these are. -/
def ofHex? (digits : List Char) : Option Uuid :=
  match digits.mapM hexValue? with
  | none => none
  | some values =>
    let n := values.foldl (fun n d => n * 16 + d) 0
    if h : values.length = 32 ∧ n < 340282366920938463463374607431768211456 then some ⟨n, h.2⟩ else none

/-- The identifier of a text in the five groups. -/
def ofHyphenated? (cs : List Char) : Option Uuid :=
  let digits := cs.take 8 ++ (cs.drop 9).take 4 ++ (cs.drop 14).take 4 ++ (cs.drop 19).take 4
    ++ cs.drop 24
  if hyphenate digits = cs then ofHex? digits else none

/-- The text inside braces. -/
def inBraces? : List Char → Option (List Char)
  | '\x7b' :: rest => if rest.getLast? = some '\x7d' then some rest.dropLast else none
  | _ => none

/-- The text after `urn:uuid:`, in any case. -/
def afterUrn? (cs : List Char) : Option (List Char) :=
  if (cs.take 9).map Char.toLower = ['u', 'r', 'n', ':', 'u', 'u', 'i', 'd', ':'] then
    some (cs.drop 9)
  else none

/-- The byte places of the hyphens from `index` on, or the first character that is neither a
    hexadecimal digit nor a hyphen. -/
def hyphens : (index : Nat) → List Char → Except ReadError (List Nat)
  | _, [] => .ok []
  | i, c :: cs =>
    if c = '-' then (hyphens (i + 1) cs).map (i :: ·)
    else if (hexValue? c).isSome then hyphens (i + 1) cs
    else .error (.character c i)

/-- The places where the groups after the first one start. -/
def groupStarts : List Nat := [9, 14, 19, 24]

/-- The first group whose end is off, given the hyphens that end the first four groups and
    where each group starts. -/
def wrongGroup? : (group start : Nat) → (ends starts : List Nat) → Option ReadError
  | group, start, e :: ends, s :: starts =>
    if e + 1 = s then wrongGroup? (group + 1) s ends starts
    else some (.groupLength group (s - 1 - start) (e - start))
  | _, _, _, _ => none

/-- What is wrong with a text: `body` is the part that should hold the groups, `offset` the
    place where it starts in a text of `length` bytes, `plain` tells that the text has neither
    braces nor the `urn:uuid:`. -/
def diagnose (body : List Char) (offset length : Nat) (plain : Bool) : ReadError :=
  match hyphens 0 body with
  | .error (.character c i) => .character c (i + offset)
  | .error e => e
  | .ok ends =>
    if ends.isEmpty && plain then .length length
    else if ends.length ≠ 4 then .groupCount (ends.length + 1)
    -- the last group has no hyphen behind it: its length is what the text has left
    else (wrongGroup? 0 0 ends groupStarts).getD (.groupLength 4 12 (length - 24))

/-- What is wrong with a text that is not taken for the five groups by its length: the form is
    told by the braces or the `urn:uuid:` alone. -/
def diagnoseShape (cs : List Char) : ReadError :=
  let n := byteCount cs
  if n = 0 ∨ 45 < n then .length n
  else match inBraces? cs with
    | some body => diagnose body 1 n false
    | none =>
      match afterUrn? cs with
      | some body => diagnose body 9 n false
      | none => diagnose cs 0 n true

/-- Read an identifier from text in the five groups, examined by itself when it is none. -/
def readHyphenated (cs : List Char) : Except ReadError Uuid :=
  match ofHyphenated? cs with
  | some u => .ok u
  | none => .error (diagnose cs 0 (byteCount cs) false)

/-- The part of a text that its length says should be the five groups. -/
def groups? (cs : List Char) : Option (List Char) :=
  let n := byteCount cs
  if n = 36 then some cs
  else if n = 38 then inBraces? cs
  else if n = 45 then afterUrn? cs
  else none

/-- Read an identifier from the whole of a text. -/
def read (cs : List Char) : Except ReadError Uuid :=
  match groups? cs with
  | some body => readHyphenated body
  | none =>
    match ofHex? cs with
    | some u => .ok u
    | none => .error (diagnoseShape cs)

end Uuid

end CommandBus
