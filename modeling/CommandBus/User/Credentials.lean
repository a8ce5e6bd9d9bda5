import CommandBus.Access.Authenticator
import CommandBus.Token.Provider
import CommandBus.User.Directory

/-! # Authentication by token and by password

The token of a caller is the `token` credential or, only when there is none, the token of an
`authorization` credential with the scheme `Bearer`.  A token that does not verify is no
credential at all.

A name and a password are good only together, and only if a user has both. -/

namespace CommandBus

open Text

namespace Credential

def token : String := "token"
def authorization : String := "authorization"
def username : String := "username"
def password : String := "password"

/-- A text with its ASCII letters in lower case. -/
def lowered (cs : List Char) : List Char := cs.map Char.toLower

/-- The token of a bearer authorization. -/
def bearerToken (header : String) : Except AuthenticationError String :=
  match cutOnce ' ' (trimStart header.toList) with
  | none => .error (.malformed "authorization is not a bearer credential")
  | some (scheme, rest) =>
    if lowered scheme = ['b', 'e', 'a', 'r', 'e', 'r'] then
      if (trim rest).isEmpty then .error (.malformed "empty bearer token")
      else .ok (String.ofList (trim rest))
    else .error (.malformed "authorization is not a bearer credential")

/-- The token that a caller presents. -/
def presentedToken (ctx : Context) : Except AuthenticationError (Option String) :=
  match ctx.credential? token with
  | some t => .ok (some (trimmed t))
  | none =>
    match ctx.credential? authorization with
    | none => .ok none
    | some header => (bearerToken header).map some

end Credential

/-- Who the token of a caller stands for. -/
def TokenProvider.authenticate (provider : TokenProvider) (now : Instant) (ctx : Context) :
    Authentication :=
  match Credential.presentedToken ctx with
  | .error e => .error e
  | .ok none => .ok none
  | .ok (some t) => .ok (provider.verify? t now)

/-- The user with the name and the password of a caller. -/
def UserDirectory.authenticate (directory : UserDirectory) (ctx : Context) : Authentication :=
  match ctx.credential? Credential.username, ctx.credential? Credential.password with
  | none, none => .ok none
  | some name, some password =>
    match directory.find? name with
    | none => .error .badCredentials
    | some user => if user.accepts password then .ok (some user.identity) else .error .badCredentials
  | _, _ => .error (.malformed "username and password must be given together")

end CommandBus
