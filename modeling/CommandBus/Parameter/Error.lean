import CommandBus.Conversion.Error

/-! # Binding errors

A failed binding tells of every parameter that failed, in the order of the declarations. -/

namespace CommandBus

/-- Why one parameter was not bound. -/
inductive FieldError where
  | missing (field : String)
  | invalid (field : String) (cause : ConversionError)
  deriving DecidableEq, Repr

namespace FieldError

def field : FieldError → String
  | .missing field => field
  | .invalid field _ => field

def isMissing : FieldError → Bool
  | .missing _ => true
  | .invalid _ _ => false

/-- The wording of a field error. -/
def message : FieldError → String
  | .missing field => "missing required parameter '" ++ field ++ "'"
  | .invalid field cause => "invalid parameter '" ++ field ++ "': " ++ cause.message

end FieldError

/-- A failed binding of a command or another target. -/
structure BindingError where
  command : String
  failures : List FieldError
  deriving DecidableEq, Repr

namespace BindingError

/-- The same failures under another name. -/
def forCommand (e : BindingError) (command : String) : BindingError := { e with command := command }

/-- Whether every failure is a missing parameter, and there is one. -/
def isMissing (e : BindingError) : Bool :=
  !e.failures.isEmpty && e.failures.all FieldError.isMissing

def fields (e : BindingError) : List String := e.failures.map FieldError.field

/-- The wording of a binding error. -/
def message (e : BindingError) : String :=
  "cannot bind parameters of " ++ e.command ++ ": "
    ++ "; ".intercalate (e.failures.map FieldError.message)

end BindingError

end CommandBus
