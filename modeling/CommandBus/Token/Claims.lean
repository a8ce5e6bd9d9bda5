import CommandBus.Identity
import CommandBus.Instant
import CommandBus.Json.Printer
import CommandBus.Text.Blank
import CommandBus.Text.Cut

/-! # Token claims

A token speaks for an identity between two moments, given in whole epoch seconds: from the
issue on, and before the expiry.  The authorities are one text, joined by commas; reading it
back trims the pieces and drops the empty ones. -/

namespace CommandBus

open Text

/-- What a token says. -/
structure TokenClaims where
  subject : String
  authorityText : String
  issuedAt : Int64
  expiresAt : Int64
  deriving DecidableEq, Repr

/-- Why claims do not hold at a moment. -/
inductive ClaimsError where
  | expired
  | notYetValid
  | invalidTimeWindow
  deriving DecidableEq, Repr

/-- The wording of a claims error. -/
def ClaimsError.message : ClaimsError → String
  | .expired => "token has expired"
  | .notYetValid => "token not yet valid (iat is in the future)"
  | .invalidTimeWindow => "invalid token time window (exp <= iat)"

namespace TokenClaims

/-- The claims of an identity between two moments. -/
def make (identity : Identity) (issued expires : Instant) : TokenClaims where
  subject := identity.name
  authorityText := ",".intercalate identity.authorities.names
  issuedAt := Int64.ofInt issued.seconds
  expiresAt := Int64.ofInt expires.seconds

/-- The authorities that a text joined by commas names, in its order. -/
def authorityNames (text : String) : List String :=
  (((splitOn ',' text.toList).map trim).filter fun piece => !piece.isEmpty).map String.ofList

/-- The authorities in the order of the claims. -/
def authorities (claims : TokenClaims) : List String := authorityNames claims.authorityText

/-- The identity that the claims speak for. -/
def identity (claims : TokenClaims) : Identity :=
  Identity.make claims.subject claims.authorities

/-- Whether the claims hold at a moment. -/
def validate (claims : TokenClaims) (now : Instant) : Except ClaimsError Unit :=
  if claims.expiresAt ≤ claims.issuedAt then .error .invalidTimeWindow
  else if now.seconds < claims.issuedAt.toInt then .error .notYetValid
  else if claims.expiresAt.toInt ≤ now.seconds then .error .expired
  else .ok ()

/-- The document of claims. -/
def toJson (claims : TokenClaims) : Json :=
  .object [("sub", .string claims.subject), ("auth", .string claims.authorityText),
    ("iat", .integer (Json.Integer.ofInt64 claims.issuedAt)),
    ("exp", .integer (Json.Integer.ofInt64 claims.expiresAt))]

/-- The fields of claims while they are read. -/
structure Draft where
  subject : Option String := none
  authorityText : Option String := none
  issuedAt : Option Int := none
  expiresAt : Option Int := none

/-- How claims are read. -/
def codec : Json.Codec TokenClaims :=
  Json.Codec.record "TokenClaims"
    [Json.Codec.field "sub" .string Draft.subject (fun d s => { d with subject := some s }) none,
      Json.Codec.field "auth" .string Draft.authorityText
        (fun d s => { d with authorityText := some s }) none,
      Json.Codec.field "iat" (.integer "i64" .long) Draft.issuedAt
        (fun d n => { d with issuedAt := some n }) none,
      Json.Codec.field "exp" (.integer "i64" .long) Draft.expiresAt
        (fun d n => { d with expiresAt := some n }) none]
    {}
    fun d => do
      let subject ← Json.Codec.required "sub" d.subject
      let authorityText ← Json.Codec.required "auth" d.authorityText
      let issuedAt ← Json.Codec.required "iat" d.issuedAt
      let expiresAt ← Json.Codec.required "exp" d.expiresAt
      return ⟨subject, authorityText, Int64.ofInt issuedAt, Int64.ofInt expiresAt⟩

end TokenClaims

end CommandBus
