import CommandBus.Token.Claims
import CommandBus.Token.Settings
import CommandBus.Token.Signed

/-! # Issuing and verifying tokens

A token is the signed document of its claims.  It is verified by opening it, reading the
claims and holding them against the clock.

The registered claims have rules of their own: each may be given once, and a token
that is meant for an audience is not for us. -/

namespace CommandBus

open Json (Codec)

namespace Token

/-- The registered claims while they are read. -/
structure RegisteredDraft where
  seen : List String := []
  audience : Json := .null

/-- A value that is no list and no object with anything in it. -/
def flat : Codec Unit where
  expecting := "a number"
  read _ c :=
    let c := c.skipSpaces
    match c.rest with
    | '[' :: _ =>
      let c := c.eat.skipSpaces
      match c.rest with
      | ']' :: _ => .ok ((), c.eat)
      | _ => .error (c.peeked .trailingCharacters)
    | '\x7b' :: _ =>
      let c := c.eat.skipSpaces
      match c.rest with
      | '\x7d' :: _ => .ok ((), c.eat)
      | _ => .error (c.peeked .trailingCharacters)
    | _ => (Json.skipValue c).map fun c => ((), c)
  decode
    | .array (_ :: _) => .error ⟨.trailingCharacters, none⟩
    | .object (_ :: _) => .error ⟨.trailingCharacters, none⟩
    | _ => .ok ()

/-- A registered claim that may be given once; `absent` tells that a list may end before it. -/
def registered {α : Type} (name : String) (codec : Codec α)
    (keep : RegisteredDraft → α → RegisteredDraft) (absent : Bool) :
    Codec.Field RegisteredDraft where
  name := name
  filled d := d.seen.contains name
  read d depth c :=
    (codec.read depth c).map fun (a, c) => (keep { d with seen := name :: d.seen } a, c)
  decode d j := (codec.decode j).map fun a => keep { d with seen := name :: d.seen } a
  absent d := if absent then some d else none

/-- How the registered claims are read: the audience. -/
def audienceCodec : Codec Json :=
  Codec.record "RegisteredClaims"
    [registered "exp" flat (fun d _ => d) true, registered "nbf" flat (fun d _ => d) true,
      registered "sub" .json (fun d _ => d) false, registered "iss" .json (fun d _ => d) false,
      registered "aud" .json (fun d j => { d with audience := j }) false]
    {}
    fun d => .ok d.audience

/-- Whether a document names an audience: a text, or a list of texts. -/
def isAudience (j : Json) : Bool := Signed.isText j || Signed.isTexts j

/-- The claims of an opened token. -/
def claims? (payload : String) : Option TokenClaims :=
  match TokenClaims.codec.parse payload, audienceCodec.parse payload with
  | .ok claims, .ok audience => if isAudience audience then none else some claims
  | _, _ => none

end Token

/-- Issues and verifies tokens: the secret, and the windows in seconds. -/
structure TokenProvider where
  secret : List UInt8
  validity : Nat
  rememberMe : Nat
  deriving DecidableEq, Repr

namespace TokenProvider

/-- No window is longer: a hundred years of 365 days. -/
def maxWindow : Nat := 100 * 365 * 86400

/-- The provider with the given settings, if they can be used. -/
def ofSettings (settings : TokenSettings) : Except ConfigurationError TokenProvider :=
  match settings.validate with
  | .error e => .error e
  | .ok () =>
    .ok ⟨Bytes.ofText settings.secret, min settings.validity.toNat maxWindow,
      min settings.rememberMe.toNat maxWindow⟩

/-- The window of a new token. -/
def window (provider : TokenProvider) (remember : Bool) : Nat :=
  if remember then provider.rememberMe else provider.validity

/-- The claims of a token issued now, unless it would expire beyond the calendar, which is where
    a process stops. -/
def claims? (provider : TokenProvider) (identity : Identity) (remember : Bool) (now : Instant) :
    Option TokenClaims :=
  (now.addSeconds? (provider.window remember)).map fun expires =>
    TokenClaims.make identity now expires

/-- The token of claims. -/
def write (provider : TokenProvider) (claims : TokenClaims) : String :=
  String.ofList (Signed.sign provider.secret claims.toJson.render)

/-- Issue a token. -/
def issue? (provider : TokenProvider) (identity : Identity) (remember : Bool) (now : Instant) :
    Option String :=
  (provider.claims? identity remember now).map provider.write

/-- The identity that a token stands for at a moment, if it stands for one. -/
def verify? (provider : TokenProvider) (token : String) (now : Instant) : Option Identity :=
  match (Signed.open? provider.secret token.toList).bind Token.claims? with
  | none => none
  | some claims =>
    match claims.validate now with
    | .ok () => some claims.identity
    | .error _ => none

/-- A length of time as shown in a debug text. -/
def durationText (seconds : Nat) : String :=
  Text.recordText "TimeDelta" [("secs", Number.natText seconds), ("nanos", "0")] true

/-- What a provider shows of itself. -/
def debugText (provider : TokenProvider) : String :=
  Text.recordText "TokenProvider"
    [("validity", durationText provider.validity),
      ("remember_me", durationText provider.rememberMe)] false

end TokenProvider

end CommandBus
