import CommandBus.Json.Codec

/-! # Keys in headers

The header of a signed text may describe a key.  The key is not used here, but a header whose
description fits no kind of key is no header.

A description has the members that its kind asks for and may have the general ones, each of
its type (`isKey`). -/

namespace CommandBus.Signed

open Json (Codec)

def isText : Json → Bool
  | .string _ => true
  | _ => false

def isTexts : Json → Bool
  | .array items => items.all isText
  | _ => false

/-- Whether a document is one of several texts. -/
def isOneOf (texts : List String) : Json → Bool
  | .string s => texts.contains s
  | _ => false

/-- Whether a member is there and passes a test. -/
def has (test : Json → Bool) (name : String) (j : Json) : Bool := (j.member? name).any test

/-- Whether a member passes a test, is null or is left out. -/
def mayHave (test : Json → Bool) (name : String) (j : Json) : Bool :=
  match j.member? name with
  | none | some .null => true
  | some value => test value

/-- The curves that a key may be on. -/
def curves : List String := ["P-256", "P-384", "P-521", "Ed25519"]

/-- The algorithms that a key may be for. -/
def keyAlgorithms : List String :=
  ["HS256", "HS384", "HS512", "ES256", "ES384", "RS256", "RS384", "RS512", "PS256", "PS384",
    "PS512", "EdDSA", "RSA1_5", "RSA-OAEP", "RSA-OAEP-256"]

/-- Whether the general members of a description have their types. -/
def hasGeneralMembers (j : Json) : Bool :=
  mayHave isText "use" j && mayHave isTexts "key_ops" j && mayHave (isOneOf keyAlgorithms) "alg" j &&
    mayHave isText "kid" j && mayHave isText "x5u" j && mayHave isTexts "x5c" j &&
    mayHave isText "x5t" j && mayHave isText "x5t#S256" j

/-- Whether a description has the members of one of the kinds of keys. -/
def hasKind (j : Json) : Bool :=
  match j.member? "kty" with
  | some (.string "EC") => has (isOneOf curves) "crv" j && has isText "x" j && has isText "y" j
  | some (.string "RSA") => has isText "n" j && has isText "e" j
  | some (.string "oct") => has isText "k" j
  | some (.string "OKP") => has (isOneOf curves) "crv" j && has isText "x" j
  | _ => false

/-- Whether a document describes a key. -/
def isKey (j : Json) : Bool := hasGeneralMembers j && hasKind j

/-- A description of a key. -/
def keyCodec : Codec Json where
  expecting := "a key"
  read depth c :=
    match Json.readValue depth c with
    | .error e => .error e
    | .ok (j, c) => if isKey j then .ok (j, c) else .error (c.here .expectedValue)
  decode j := if isKey j then .ok j else .error ⟨.expectedValue, none⟩

end CommandBus.Signed
