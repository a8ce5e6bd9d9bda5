import CommandBus.Parameter.Binding

/-! # Forms

A `Form` is an instance of a type that is given by its fields, level by level: the fields of the
most derived type come first, those of its base after them, and so on.  A level declares its
base first and then its own fields.  Reading and storing look for a name from the most
derived level on and stop at the first field that has it. -/

namespace CommandBus

/-- A field with its declared type and its value. -/
structure FormField where
  name : String
  type : ParamType
  required : Bool
  value : type.Carrier

namespace FormField

/-- The field with another value, unpacked. -/
def store (f : FormField) (v : Value) : Except ConversionError FormField :=
  match f.type.extract v with
  | .ok a => .ok { f with value := a }
  | .error e => .error e

/-- The value of a field, packed. -/
def current (f : FormField) : Value := f.type.render f.value

def decl (f : FormField) : ParameterDecl := ⟨f.name, f.type.valueType, f.required⟩

end FormField

/-- The fields of one level. -/
abbrev FormLevel := List FormField

namespace FormLevel

/-- The first field of a name. -/
def find? (level : FormLevel) (name : String) : Option FormField :=
  List.find? (fun f : FormField => f.name == name) level

/-- Store into the first field of a name; nothing if the level has none. -/
def assign? (name : String) (v : Value) : FormLevel → Option (Except ConversionError FormLevel)
  | [] => none
  | f :: rest =>
    if f.name == name then
      match f.store v with
      | .ok f => some (.ok (f :: rest))
      | .error e => some (.error e)
    else
      match assign? name v rest with
      | none => none
      | some (.ok rest) => some (.ok (f :: rest))
      | some (.error e) => some (.error e)

end FormLevel

/-- An instance given by its levels, the most derived one first. -/
abbrev Form := List FormLevel

namespace Form

/-- The declarations of a form: those of the base, included, and then the own ones. -/
def declarations : Form → List SchemaStep
  | [] => []
  | [level] => level.map fun f => .declare f.decl
  | level :: base => .include (declarations base) :: level.map fun f => .declare f.decl

/-- The value of the most derived field of a name. -/
def read : Form → String → Option Value
  | [], _ => none
  | level :: base, name =>
    match FormLevel.find? level name with
    | some f => some f.current
    | none => read base name

/-- Store into the most derived field of a name. -/
def assign : Form → String → Value → Except ConversionError Form
  | [], name, _ => .error (.unknownParameter name)
  | level :: base, name, v =>
    match FormLevel.assign? name v level with
    | some (.ok level) => .ok (level :: base)
    | some (.error e) => .error e
    | none =>
      match assign base name v with
      | .ok base => .ok (level :: base)
      | .error e => .error e

/-- The bindable type of the forms with the fields of `shape`. -/
def bindable (key : TypeKey) (owner : String) (shape : Form) : Bindable Form where
  key := key
  owner := owner
  declarations := shape.declarations
  assign := assign
  read := read

end Form

end CommandBus
