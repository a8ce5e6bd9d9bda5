import CommandBus.Parameter.Type

/-! # Written parameter types

A parameter type is written as a word, or with a mark around another type: a question mark after
it makes an option, brackets a list and braces a map.  A question mark binds least, so that
`[i32]?` is an option. -/

namespace CommandBus.ParamType

/-- The type that characters stand for, where `word` tells the types that are written as one
    word. -/
def ofChars (word : String → ParamType) (cs : List Char) : ParamType :=
  if cs.getLast? = some '?' then .option (ofChars word cs.dropLast)
  else match cs with
    | '[' :: rest => .list (ofChars word rest.dropLast)
    | '{' :: rest => .map (ofChars word rest.dropLast)
    | cs => word (String.ofList cs)
termination_by cs.length
decreasing_by
  · have : cs ≠ [] := by rintro rfl; simp_all
    have := List.length_pos_iff.2 this
    simp only [List.length_dropLast]; omega
  · simp only [List.length_dropLast, List.length_cons]; omega
  · simp only [List.length_dropLast, List.length_cons]; omega

/-- The type that a text stands for. -/
def ofText (word : String → ParamType) (s : String) : ParamType := ofChars word s.toList

end CommandBus.ParamType
