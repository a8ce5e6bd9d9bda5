import CommandBus.Conversion.Error
import CommandBus.Json.Codec
import CommandBus.Settings.Environment
import CommandBus.Text.Blank

/-! # Token settings

The secret that tokens are signed with, and how long a token is valid, in seconds: one window
for a usual login and one for a caller that wants to be remembered. -/

namespace CommandBus

open Text

/-- The settings of tokens. -/
structure TokenSettings where
  secret : String
  validity : UInt64 := 86400
  rememberMe : UInt64 := 2592000
  deriving DecidableEq, Repr

namespace TokenSettings

/-- A window of no length would make a token that never holds. -/
def validate (settings : TokenSettings) : Except ConfigurationError Unit :=
  if settings.validity = 0 then .error ⟨"token validity must be at least one second"⟩
  else if settings.rememberMe = 0 then
    .error ⟨"remember-me token validity must be at least one second"⟩
  else .ok ()

/-- The error of a variable that holds no number of seconds. -/
def secondsError (key raw : String) (e : Number.IntegerError) : ConfigurationError :=
  ⟨key ++ ": invalid number of seconds '" ++ raw ++ "': " ++ e.message⟩

/-- The number of seconds that a variable holds. -/
def secondsOf (env : Environment) (key : String) (fallback : UInt64) :
    Except ConfigurationError UInt64 :=
  match env key with
  | none => .ok fallback
  | some raw =>
    match Number.readInteger .unsignedLong (trim raw.toList) with
    | .ok n => .ok (UInt64.ofNat n.toNat)
    | .error e => .error (secondsError key raw e)

/-- The settings of a process. -/
def ofEnvironment (env : Environment) : Except ConfigurationError TokenSettings := do
  let validity ← secondsOf env "SWITCHBOARD_TOKEN_VALIDITY_SECS" 86400
  let rememberMe ← secondsOf env "SWITCHBOARD_TOKEN_REMEMBER_ME_SECS" 2592000
  let settings : TokenSettings :=
    ⟨env.getD "SWITCHBOARD_TOKEN_SECRET" "switchboard-dev-secret", validity, rememberMe⟩
  settings.validate
  return settings

/-- The settings while they are read. -/
structure Draft where
  secret : Option String := none
  validity : Option Int := none
  rememberMe : Option Int := none

/-- How settings are read. -/
def codec : Json.Codec TokenSettings :=
  Json.Codec.record "TokenConfig"
    [Json.Codec.field "secret" .string Draft.secret (fun d s => { d with secret := some s }) none,
      Json.Codec.field "validity_secs" (.integer "u64" .unsignedLong) Draft.validity
        (fun d n => { d with validity := some n }) (some 86400),
      Json.Codec.field "remember_me_secs" (.integer "u64" .unsignedLong) Draft.rememberMe
        (fun d n => { d with rememberMe := some n }) (some 2592000)]
    {}
    fun d => do
      let secret ← Json.Codec.required "secret" d.secret
      return ⟨secret, UInt64.ofNat (d.validity.getD 86400).toNat,
        UInt64.ofNat (d.rememberMe.getD 2592000).toNat⟩

/-- What settings show of themselves: not the secret. -/
def debugText (settings : TokenSettings) : String :=
  recordText "TokenConfig"
    [("secret", quoted "<redacted>"), ("validity_secs", Number.natText settings.validity.toNat),
      ("remember_me_secs", Number.natText settings.rememberMe.toNat)] true

end TokenSettings

end CommandBus
