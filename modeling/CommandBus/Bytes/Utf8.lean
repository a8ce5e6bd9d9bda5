/-! # Texts as bytes

`Bytes.ofText` is the UTF-8 form of a text, `Bytes.toText?` the text of a list of bytes that
is the form of one (`toText?_ofText`). -/

namespace CommandBus.Bytes

/-- The UTF-8 form of a text. -/
def ofText (s : String) : List UInt8 := s.toUTF8.data.toList

/-- The text with a UTF-8 form, if the bytes are the form of a text. -/
def toText? (bytes : List UInt8) : Option String := String.fromUTF8? ⟨bytes.toArray⟩

theorem toText?_ofText (s : String) : toText? (ofText s) = some s := by
  have h : (⟨(ofText s).toArray⟩ : ByteArray) = s.toByteArray := by
    simp [ofText, String.toUTF8]
  rw [toText?, h, String.fromUTF8?, dif_pos s.isValidUTF8]
  rfl

end CommandBus.Bytes
