import CommandBus.Demo.Commands
import CommandBus.Settings.Log
import CommandBus.User.Credentials
import CommandBus.Wire.Lines

/-! # The demo application

The application puts its commands, authentication by token and by password, and the logs into
one dispatcher.  `App.ofEnvironment` reads the settings of a process and builds it. -/

namespace CommandBus.Demo

/-- The settings of the application. -/
structure AppSettings where
  dispatcher : DispatcherSettings
  token : TokenSettings
  users : List UserRecord
  deriving DecidableEq, Repr

namespace AppSettings

/-- The users of an application that is not configured. -/
def developmentUsers : String := "admin:admin:ROLE_ADMIN|ROLE_USER"

/-- The text form of the users of a process. -/
def usersText (env : Environment) : String := env.getD "SWITCHBOARD_USERS" developmentUsers

/-- The settings of a process; those of tokens are looked at before the users. -/
def ofEnvironment (salts : Nat → Salt) (env : Environment) :
    Except ConfigurationError AppSettings := do
  let token ← TokenSettings.ofEnvironment env
  let users ← UserRecord.readList salts (usersText env)
  return ⟨DispatcherSettings.ofEnvironment env, token, users⟩

end AppSettings

namespace App

/-- Callers are found by their token, and then by name and password. -/
def callers (provider : TokenProvider) (directory : UserDirectory) :
    AuthenticatorChain Instant where
  strategies :=
    [Authenticator.ofReader fun ctx now => provider.authenticate now ctx,
      Authenticator.ofReader fun ctx _ => directory.authenticate ctx]

/-- What the dispatcher of the application is built from. -/
def blueprint (settings : DispatcherSettings) (provider : TokenProvider)
    (directory : UserDirectory) : Blueprint Instant where
  settings := settings
  commands := [ping, add, whoAmI, login provider directory, listUsers directory]
  interceptors := [Interceptor.tracing]
  authenticator := some (callers provider directory).authenticate

/-- Build the application and check the access classifiers of its commands. -/
def build (settings : AppSettings) : Except ConfigurationError (Dispatcher Instant) :=
  match TokenProvider.ofSettings settings.token with
  | .error e => .error e
  | .ok provider =>
    match (blueprint settings.dispatcher provider (UserDirectory.ofUsers settings.users)).build with
    | .error e => .error e
    | .ok d =>
      match d.verifyAccess { world := Instant.epoch } with
      | (.error e, _) => .error e
      | (.ok (), _) => .ok d

/-- The application of a process. -/
def ofEnvironment (salts : Nat → Salt) (env : Environment) :
    Except ConfigurationError (Dispatcher Instant) :=
  match AppSettings.ofEnvironment salts env with
  | .error e => .error e
  | .ok settings => build settings

/-- How a process tells of the error that ends it. -/
def fatalText (message : String) : String := "Error: " ++ message

end App

end CommandBus.Demo
