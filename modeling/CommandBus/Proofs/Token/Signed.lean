import CommandBus.Proofs.Bytes.Base64Url
import CommandBus.Proofs.Json.Records
import CommandBus.Proofs.Text.Cutting
import CommandBus.Token.Signed

/-!
# A signed text opens

A text that was signed here opens under the secret that it was signed with and gives the text
back: the points are where they were put, the header is read as the one algorithm in use, and
the code is the one that the secret gives.

## Key results

- `algorithm?_header`: the written header asks for the algorithm in use
- `open?_sign`: a signed text opens under its secret
- `isBlank_of_mem_sign`: there is no blank in a signed text
-/

namespace CommandBus.Signed

open Bytes Text
open Json (Codec)

/-- A field that is not looked at is noted. -/
private theorem reads_note {α : Type} {codec : Codec α} {depth : Json.Depth} {cs : List Char}
    {a : α} (h : Json.Reads (codec.read depth) cs a) (name : String) (draft : HeaderDraft) :
    Json.Reads ((note name codec).read draft depth) cs
      { draft with others := name :: draft.others } := by
  intro rest p hrest
  obtain ⟨p', hp⟩ := h rest p hrest
  refine ⟨p', ?_⟩
  simp only [note, hp, Except.map]

/-- The fields of the header are read into a draft with the algorithm in use. -/
private theorem reads_header :
    Json.Reads (headerCodec.read Json.maxDepth) header.chars .hmac512 := by
  have htyp : Json.Reads ((Codec.optional Codec.string).read 127) (Json.string "JWT").chars
      (some "JWT") :=
    Json.reads_optional (by decide) (by decide) (Json.reads_string 127 "JWT")
  have halg : Json.Reads ((Codec.variants algorithms).read 127) (Json.string "HS512").chars
      .hmac512 :=
    Json.reads_variants (by rfl) 127
  -- the type is noted and dropped, the algorithm decides
  unfold headerCodec
  apply Codec.reads_record
  · exact .field rfl rfl (reads_note htyp _ _)
      (.field rfl rfl (Codec.reads_field halg _ _ _ _ _) .nil)
  · rfl
  · decide

/-- The written header asks for the algorithm in use. -/
theorem algorithm?_header :
    algorithm? (Base64Url.encode (Bytes.ofText header.render)) = some .hmac512 := by
  have hparse : headerCodec.parse header.render = .ok .hmac512 :=
    Codec.parse_of_reads reads_header
  rw [algorithm?, part?, Base64Url.decode_encode, Option.bind_some, Bytes.toText?_ofText,
    Option.bind_some, hparse]
  rfl

/-- A signed text opens under its secret and gives the text back. -/
theorem open?_sign (secret : List UInt8) (payload : String) :
    open? secret (sign secret payload) = some payload := by
  have hcode : '.' ∉ code secret (message payload) := Base64Url.point_not_mem_encode _
  have hpayload : '.' ∉ Base64Url.encode (Bytes.ofText payload) :=
    Base64Url.point_not_mem_encode _
  -- the last point stands before the code, the one that is left behind the header
  have hmessage : cutLast '.' (message payload) =
      some (Base64Url.encode (Bytes.ofText header.render),
        Base64Url.encode (Bytes.ofText payload)) := cutLast_append hpayload _
  have hpart : part? (Base64Url.encode (Bytes.ofText payload)) = some payload := by
    rw [part?, Base64Url.decode_encode, Option.bind_some, Bytes.toText?_ofText]
  rw [open?, sign, cutLast_append hcode]
  simp only [hmessage, algorithm?_header, hpart, and_self, if_true]

/-- There is no blank in a signed text. -/
theorem isBlank_of_mem_sign {secret : List UInt8} {payload : String} {c : Char}
    (h : c ∈ sign secret payload) : isBlank c = false := by
  simp only [sign, message, code, List.mem_append, List.mem_cons] at h
  obtain (h | rfl | h) | rfl | h := h
  · exact Base64Url.isBlank_of_mem_encode h
  · decide
  · exact Base64Url.isBlank_of_mem_encode h
  · decide
  · exact Base64Url.isBlank_of_mem_encode h

theorem sign_ne_nil (secret : List UInt8) (payload : String) : sign secret payload ≠ [] := by
  simp [sign]

end CommandBus.Signed
