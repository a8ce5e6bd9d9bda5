import CommandBus.Json.Codec
import CommandBus.Settings.Environment
import CommandBus.Text.Quoted

/-! # Dispatcher settings

The root namespace of the commands that are dispatched, and the version that requests must
have. -/

namespace CommandBus

/-- The settings of a dispatcher. -/
structure DispatcherSettings where
  /-- Only commands under this namespace are dispatched. -/
  root : String := "app"
  /-- The version that requests must have, to the letter. -/
  version : String := "1"
  deriving DecidableEq, Repr

namespace DispatcherSettings

/-- The settings while they are read. -/
structure Draft where
  root : Option String := none
  version : Option String := none

/-- How settings are read. -/
def codec : Json.Codec DispatcherSettings :=
  Json.Codec.record "DispatcherConfig"
    [Json.Codec.field "root_namespace" .string Draft.root (fun d s => { d with root := some s })
        (some "app"),
      Json.Codec.field "protocol_version" .string Draft.version
        (fun d s => { d with version := some s }) (some "1")]
    {}
    fun d => .ok ⟨d.root.getD "app", d.version.getD "1"⟩

/-- The settings of a process. -/
def ofEnvironment (env : Environment) : DispatcherSettings :=
  ⟨env.getD "SWITCHBOARD_NAMESPACE" "app", env.getD "SWITCHBOARD_PROTOCOL_VERSION" "1"⟩

/-- What settings show of themselves. -/
def debugText (settings : DispatcherSettings) : String :=
  Text.recordText "DispatcherConfig"
    [("root_namespace", Text.quoted settings.root),
      ("protocol_version", Text.quoted settings.version)] true

end DispatcherSettings

end CommandBus
