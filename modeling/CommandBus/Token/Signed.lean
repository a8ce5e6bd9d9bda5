import CommandBus.Bytes.Base64Url
import CommandBus.Bytes.Hmac
import CommandBus.Bytes.Utf8
import CommandBus.Json.Codec
import CommandBus.Json.Printer
import CommandBus.Text.Cut
import CommandBus.Token.Key

/-! # Signed texts

The compact form of a signed text has three parts with points between them: a header that
names the algorithm, the text, and an authentication code of what stands before the last
point.  Each part is in base64 for URLs.

A text is opened only if its header is a document of the known shape that asks for the one
algorithm in use, and if its code is the one that the secret gives. -/

namespace CommandBus.Signed

open Bytes Text
open Json (Codec)

/-- Algorithms that a header may name. -/
inductive Algorithm where
  | hmac256
  | hmac384
  | hmac512
  | publicKey
  deriving DecidableEq, Repr

/-- The names of the algorithms. -/
def algorithms : List (String × Algorithm) :=
  [("HS256", .hmac256), ("HS384", .hmac384), ("HS512", .hmac512), ("ES256", .publicKey),
    ("ES384", .publicKey), ("RS256", .publicKey), ("RS384", .publicKey), ("RS512", .publicKey),
    ("PS256", .publicKey), ("PS384", .publicKey), ("PS512", .publicKey), ("EdDSA", .publicKey)]

/-- The header of the texts that are signed here. -/
def header : Json := .object [("typ", .string "JWT"), ("alg", .string "HS512")]

/-- A header while it is read: the algorithm and the names of the other fields. -/
structure HeaderDraft where
  algorithm : Option Algorithm := none
  others : List String := []

/-- A field that must have its type and is not looked at. -/
def note {α : Type} (name : String) (codec : Codec α) : Codec.Field HeaderDraft where
  name := name
  filled d := d.others.contains name
  read d depth c := (codec.read depth c).map fun (_, c) => ({ d with others := name :: d.others }, c)
  decode d j := (codec.decode j).map fun _ => { d with others := name :: d.others }
  absent _ := none

/-- How a header is read: the algorithm that it asks for. -/
def headerCodec : Codec Algorithm :=
  Codec.record "Header"
    [note "typ" (.optional .string),
      Codec.field "alg" (.variants algorithms) HeaderDraft.algorithm
        (fun d a => { d with algorithm := some a }) none,
      note "cty" (.optional .string), note "jku" (.optional .string),
      note "jwk" (.optional keyCodec), note "kid" (.optional .string),
      note "x5u" (.optional .string), note "x5c" (.optional (.list .string)),
      note "x5t" (.optional .string), note "x5t#S256" (.optional .string)]
    {}
    fun d => Codec.required "alg" d.algorithm

/-- The written authentication code of a message. -/
def code (secret : List UInt8) (message : List Char) : List Char :=
  Base64Url.encode (Hmac.sha512 secret (Bytes.ofText (String.ofList message)))

/-- What stands before the last point of a signed text. -/
def message (payload : String) : List Char :=
  Base64Url.encode (Bytes.ofText header.render) ++ '.' :: Base64Url.encode (Bytes.ofText payload)

/-- Sign a text. -/
def sign (secret : List UInt8) (payload : String) : List Char :=
  message payload ++ '.' :: code secret (message payload)

/-- The text of one part. -/
def part? (cs : List Char) : Option String := (Base64Url.decode cs).bind Bytes.toText?

/-- The algorithm that a written header asks for. -/
def algorithm? (cs : List Char) : Option Algorithm :=
  (part? cs).bind fun s => (headerCodec.parse s).toOption

/-- Open a signed text. -/
def open? (secret : List UInt8) (cs : List Char) : Option String :=
  match cutLast '.' cs with
  | none => none
  | some (message, signature) =>
    match cutLast '.' message with
    | none => none
    | some (head, payload) =>
      if algorithm? head = some .hmac512 ∧ signature = code secret message then part? payload
      else none

end CommandBus.Signed
