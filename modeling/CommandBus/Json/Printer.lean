import CommandBus.Json.Basic
import CommandBus.Number.Binary64.Text

/-! # Writing JSON

The compact form: no blanks, members in the order of the list, characters outside ASCII
as they are.  Inside strings the quote, the backslash and the controls below the space are
escaped, so that no text holds a line break. -/

namespace CommandBus.Json

open Number

/-- The written form of one character of a string. -/
def stringChar (c : Char) : List Char :=
  match c with
  | '"' => ['\\', '"']
  | '\\' => ['\\', '\\']
  | '\x08' => ['\\', 'b']
  | '\x0c' => ['\\', 'f']
  | '\n' => ['\\', 'n']
  | '\r' => ['\\', 'r']
  | '\t' => ['\\', 't']
  | c => if c.val.toNat < 0x20 then '\\' :: 'u' :: paddedHex 4 c.val.toNat else [c]

/-- A string between quotes. -/
def stringChars (s : String) : List Char := '"' :: (s.toList.flatMap stringChar ++ ['"'])

mutual

/-- The characters of a document. -/
def chars : Json → List Char
  | .null => ['n', 'u', 'l', 'l']
  | .bool true => ['t', 'r', 'u', 'e']
  | .bool false => ['f', 'a', 'l', 's', 'e']
  | .integer n => (intText n.value).toList
  | .double x => x.jsonChars
  | .string s => stringChars s
  | .array items => '[' :: (itemChars items ++ [']'])
  | .object members => '\x7b' :: (memberChars members ++ ['\x7d'])

/-- Items, separated by commas. -/
def itemChars : List Json → List Char
  | [] => []
  | [item] => item.chars
  | item :: rest => item.chars ++ ',' :: itemChars rest

/-- Members, separated by commas. -/
def memberChars : List (String × Json) → List Char
  | [] => []
  | [(name, item)] => stringChars name ++ ':' :: item.chars
  | (name, item) :: rest => stringChars name ++ ':' :: (item.chars ++ ',' :: memberChars rest)

end

/-- The compact text of a document. -/
def render (j : Json) : String := String.ofList j.chars

end CommandBus.Json
