/-! # Blank characters and trimming

A character is *blank* when it has the Unicode property White_Space.  This is a
larger class than the four characters of `Char.isWhitespace` (it has the vertical
tab, the no-break space, the ideographic space, ...) and it leaves out the
zero-width space `U+200B` and the byte order mark `U+FEFF`.

Trimming works on lists of characters; `trimmed` is the same on strings.

* `trimStart_eq_self`  nothing is cut from a text that starts with no blank -/

namespace CommandBus.Text

/-- The characters with the Unicode property White_Space. -/
def isBlank (c : Char) : Bool :=
  let n := c.val.toNat
  (0x09 ≤ n && n ≤ 0x0D) || n == 0x20 || n == 0x85 || n == 0xA0 || n == 0x1680
    || (0x2000 ≤ n && n ≤ 0x200A) || n == 0x2028 || n == 0x2029 || n == 0x202F
    || n == 0x205F || n == 0x3000

/-- Drop the blanks a text starts with. -/
def trimStart (cs : List Char) : List Char := cs.dropWhile isBlank

/-- Drop the blanks a text ends with. -/
def trimEnd (cs : List Char) : List Char := (cs.reverse.dropWhile isBlank).reverse

/-- Drop the blanks at both ends of a text. -/
def trim (cs : List Char) : List Char := trimEnd (trimStart cs)

/-- A string without the blanks at its ends. -/
def trimmed (s : String) : String := String.ofList (trim s.toList)

theorem trimStart_eq_self {c : Char} {cs : List Char} (h : isBlank c = false) :
    trimStart (c :: cs) = c :: cs := by
  simp [trimStart, h]

end CommandBus.Text
