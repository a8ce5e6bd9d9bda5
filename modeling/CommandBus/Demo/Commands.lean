import CommandBus.Dispatch.Command
import CommandBus.Instant
import CommandBus.Number.Decimal.Sum
import CommandBus.Parameter.Slots
import CommandBus.Token.Provider
import CommandBus.User.Directory

/-! # The commands of the demo application

Two commands are for everyone: one that answers, and one that adds decimals exactly.  A login
exchanges a name and a password for a token.  A caller that is known may ask who it is, and an
administrator for the names of all users.

The state of the environment is the clock. -/

namespace CommandBus.Demo

open Number

/-- A successful execution. -/
def done (ctx : Context) (now : Instant) (document : Json) : Execution Instant :=
  ⟨.ok (.ok document), ctx, now⟩

/-- A failed execution. -/
def failed (ctx : Context) (now : Instant) (cause : Cause) : Execution Instant :=
  ⟨.error { cause := cause }, ctx, now⟩

/-- Answers `pong`. -/
def ping : Command Instant where
  name := "app.Ping"
  access := [.anyone]
  Params := Unit
  parameters := Bindable.ofSlots 1 "Ping" []
  create now := ((), now)
  execute _ ctx now := done ctx now (.string "pong")

/-- Two summands. -/
structure Summands where
  a : Decimal := Decimal.zero
  b : Decimal := Decimal.zero
  deriving DecidableEq, Repr

/-- The parameters of an addition; summands may be given as numbers or texts. -/
def summands : Bindable Summands :=
  Bindable.ofSlots 2 "Add"
    [⟨"a", .decimal, true, Summands.a, fun a s => { s with a := a }⟩,
      ⟨"b", .decimal, true, Summands.b, fun b s => { s with b := b }⟩]

/-- The error of a sum beyond the decimals. -/
def overflowText (s : Summands) : String := s.a.text ++ " + " ++ s.b.text ++ " overflows"

/-- Adds two decimals. -/
def add : Command Instant where
  name := "app.math.Add"
  access := [.anyone]
  Params := Summands
  parameters := summands
  create now := ({}, now)
  execute s ctx now :=
    match Decimal.add? s.a s.b with
    | some sum => done ctx now (.string sum.text)
    | none => failed ctx now (.other (overflowText s))

/-- Tells the caller who it is. -/
def whoAmI : Command Instant where
  name := "app.WhoAmI"
  access := [.authenticated]
  Params := Unit
  parameters := Bindable.ofSlots 3 "WhoAmI" []
  create now := ((), now)
  execute _ ctx now :=
    match ctx.identity with
    | some identity => done ctx now identity.toJson
    | none => failed ctx now (.other "authenticated dispatch without an identity")

/-- A name and a password. -/
structure LoginForm where
  username : String := ""
  password : String := ""
  rememberMe : Option Bool := none
  deriving DecidableEq, Repr

/-- The parameters of a login. -/
def loginForm : Bindable LoginForm :=
  Bindable.ofSlots 4 "Login"
    [⟨"username", .string, true, LoginForm.username, fun s f => { f with username := s }⟩,
      ⟨"password", .string, true, LoginForm.password, fun s f => { f with password := s }⟩,
      ⟨"remember_me", .option .bool, false, LoginForm.rememberMe,
        fun b f => { f with rememberMe := b }⟩]

/-- The user that a login is for. -/
def loginUser? (directory : UserDirectory) (form : LoginForm) : Option UserRecord :=
  (directory.find? form.username).filter fun user => user.accepts form.password

/-- The document of an issued token. -/
def issuedToken (username token : String) : Json :=
  .object [("username", .string username), ("token", .string token)]

/-- What is said where the window of a token would end beyond the calendar.  No user of the
    application is ever told so: a process does not get over such a login, it stops at the sum of
    the time and the window.  The text stands for that end, so that the body has a result. -/
def beyondCalendarText : String := "token would expire beyond the calendar"

/-- Exchanges a name and a password for a token. -/
def login (provider : TokenProvider) (directory : UserDirectory) : Command Instant where
  name := "app.auth.Login"
  access := [.anyone]
  Params := LoginForm
  parameters := loginForm
  create now := ({}, now)
  execute form ctx now :=
    match loginUser? directory form with
    | none => failed ctx now (.denied ⟨"app.auth.Login", .unauthenticated⟩)
    | some user =>
      match provider.issue? user.identity (form.rememberMe.getD false) now with
      | some token => done ctx now (issuedToken form.username token)
      | none => failed ctx now (.other beyondCalendarText)

/-- Lists the names of all users. -/
def listUsers (directory : UserDirectory) : Command Instant where
  name := "app.admin.ListUsers"
  access := [.roles ["ROLE_ADMIN"]]
  Params := Unit
  parameters := Bindable.ofSlots 5 "ListUsers" []
  create now := ((), now)
  execute _ ctx now := done ctx now (.array (directory.names.map Json.string))

end CommandBus.Demo
