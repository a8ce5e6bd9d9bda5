import CommandBus.Number.Digits
import CommandBus.Text.Printable

/-! # Quoted texts

A quoted text stands between double quotes.  Quotes, backslashes and the usual controls
have short escapes; every other character that does not show by itself is written by its
code point in braces.  Messages use this form where a text is shown as data.

The shapes of quoted records, lists and options are here too: `Name \x7b field: value \x7d`,
`[a, b]`, `Some(a)`. -/

namespace CommandBus.Text

/-- The written form of one character inside quotes. -/
def quotedChar (c : Char) : List Char :=
  match c with
  | '"' => ['\\', '"']
  | '\\' => ['\\', '\\']
  | '\n' => ['\\', 'n']
  | '\r' => ['\\', 'r']
  | '\t' => ['\\', 't']
  | '\x00' => ['\\', '0']
  | c =>
    if isPrintable c then [c]
    else '\\' :: 'u' :: '\x7b' :: (Number.toHex c.val.toNat ++ ['\x7d'])

/-- A text between quotes. -/
def quoted (s : String) : String :=
  String.ofList ('"' :: (s.toList.flatMap quotedChar ++ ['"']))

/-- Items in brackets. -/
def bracketed (items : List String) : String := "[" ++ ", ".intercalate items ++ "]"

/-- Items in braces. -/
def braced (items : List String) : String := "\x7b" ++ ", ".intercalate items ++ "\x7d"

/-- A record with its fields, and `..` at the end when some of them are not shown. -/
def recordText (name : String) (fields : List (String × String)) (complete : Bool) : String :=
  let shown := fields.map fun (field, value) => field ++ ": " ++ value
  let items := if complete then shown else shown ++ [".."]
  name ++ " \x7b " ++ ", ".intercalate items ++ " \x7d"

/-- A value that may be absent. -/
def optionText : Option String → String
  | none => "None"
  | some s => "Some(" ++ s ++ ")"

end CommandBus.Text
