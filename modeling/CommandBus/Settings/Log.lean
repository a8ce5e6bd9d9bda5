import CommandBus.Json.Codec
import CommandBus.Settings.Environment
import CommandBus.Text.Blank

/-! # Log settings

The filter of the log lines and their format.  A format that is not known is told of, and the
default stands in for it. -/

namespace CommandBus

open Text

/-- The form of log lines. -/
inductive LogFormat where
  | json
  | pretty
  deriving DecidableEq, Repr, Inhabited

namespace LogFormat

/-- The error of a format that is not known. -/
def unknownText (s : String) : String :=
  "unknown log format '" ++ s ++ "', expected 'json' or 'pretty'"

/-- The format of a name; blanks around it and the case of letters do not matter. -/
def ofName (s : String) : Except String LogFormat :=
  match String.ofList ((trim s.toList).map Char.toLower) with
  | "json" => .ok .json
  | "pretty" => .ok .pretty
  | "text" => .ok .pretty
  | _ => .error (unknownText s)

/-- How formats are read in documents. -/
def codec : Json.Codec LogFormat := Json.Codec.variants [("json", .json), ("pretty", .pretty)]

end LogFormat

/-- The settings of the logs. -/
structure LogSettings where
  filter : String := "info"
  format : LogFormat := .json
  deriving DecidableEq, Repr

namespace LogSettings

/-- The settings while they are read. -/
structure Draft where
  filter : Option String := none
  format : Option LogFormat := none

/-- How settings are read. -/
def codec : Json.Codec LogSettings :=
  Json.Codec.record "ObservabilityConfig"
    [Json.Codec.field "filter" .string Draft.filter (fun d s => { d with filter := some s })
        (some "info"),
      Json.Codec.field "format" LogFormat.codec Draft.format
        (fun d f => { d with format := some f }) (some .json)]
    {}
    fun d => .ok ⟨d.filter.getD "info", d.format.getD .json⟩

/-- The settings of a process, and what it has to tell of them. -/
def ofEnvironment (env : Environment) : LogSettings × List String :=
  let filter := env.getD "RUST_LOG" "info"
  match env "SWITCHBOARD_LOG_FORMAT" with
  | none => (⟨filter, .json⟩, [])
  | some s =>
    match LogFormat.ofName s with
    | .ok format => (⟨filter, format⟩, [])
    | .error e => (⟨filter, .json⟩, [e ++ "; using json"])

end LogSettings

end CommandBus
