import CommandBus.Value.Kind

/-! # Conversion errors

What can go wrong when a value is brought to a type, and the error of a service that cannot
be configured. -/

namespace CommandBus

/-- A setting, declaration or registration that cannot be used. -/
structure ConfigurationError where
  text : String
  deriving DecidableEq, Repr

/-- The wording of a configuration error. -/
def ConfigurationError.message (e : ConfigurationError) : String :=
  "configuration error: " ++ e.text

/-- Why a value was not brought to a type. -/
inductive ConversionError where
  /-- The pair never converts. -/
  | unsupported (source : Kind) (target : ValueType)
  /-- The value is outside what the pair converts. -/
  | invalid (source : Kind) (target : ValueType) (reason : String)
  /-- The structure of the value does not fit. -/
  | mapping (source : Kind) (target : ValueType) (reason : String)
  /-- There is no parameter of the name. -/
  | unknownParameter (name : String)
  deriving DecidableEq, Repr

namespace ConversionError

/-- A value that should have been converted before. -/
def mismatch (source : Kind) (target : ValueType) : ConversionError :=
  .invalid source target "value has the wrong shape"

/-- The wording of a conversion error. -/
def message : ConversionError → String
  | .unsupported source target =>
    "no conversion from " ++ source.name ++ " to " ++ target.name
  | .invalid source target reason =>
    "cannot convert " ++ source.name ++ " to " ++ target.name ++ ": " ++ reason
  | .mapping source target reason =>
    "cannot map " ++ source.name ++ " to " ++ target.name ++ ": " ++ reason
  | .unknownParameter name => "unknown parameter '" ++ name ++ "'"

end ConversionError

end CommandBus
