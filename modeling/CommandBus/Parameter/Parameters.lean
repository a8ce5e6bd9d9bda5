import CommandBus.Parameter.Binding
import CommandBus.Text.Quoted

/-! # The parameters of a dispatch

`Parameters` are a base, nothing, a map or the fields of a prototype, and a layer of values
written on top.  The layer wins over the base, and a null in it hides the value below. -/

namespace CommandBus

open Text

/-- What lies below the layer of written values. -/
inductive ParameterBase where
  | empty
  | map (values : Entries Value)
  | prototype (source : Source)

/-- The parameters of one dispatch. -/
structure Parameters where
  base : ParameterBase := .empty
  overrides : Entries Value := []

namespace Parameters

def empty : Parameters := {}

def ofEntries (values : Entries Value) : Parameters := { base := .map values }

/-- The members of a JSON object. -/
def ofJson (members : Entries Json) : Parameters :=
  ofEntries (members.map fun (name, j) => (name, Value.ofJson j))

/-- The declared fields of an instance. -/
def ofPrototype {β : Type} (b : Bindable β) (prototype : β) : Parameters :=
  { base := .prototype (Source.ofPrototype b prototype) }

/-- Write a value on top. -/
def insert (p : Parameters) (name : String) (v : Value) : Parameters :=
  { p with overrides := Entries.insert name v p.overrides }

/-- Hide a value. -/
def remove (p : Parameters) (name : String) : Parameters := p.insert name .null

def isPrototype (p : Parameters) : Bool :=
  match p.base with
  | .prototype _ => true
  | _ => false

/-- The value below the layer. -/
def baseSource (p : Parameters) : Source :=
  match p.base with
  | .empty => Source.none
  | .map values => Source.ofEntries values
  | .prototype source => source

/-- The parameters as a source of values. -/
def source (p : Parameters) : Source := fun name =>
  match Entries.get? name p.overrides with
  | some v => if v.isNull then none else some v
  | none => p.baseSource name

/-- What parameters show of themselves. -/
def debugText (p : Parameters) : String :=
  let base := match p.base with
    | .empty => "empty"
    | .map _ => "map"
    | .prototype _ => "prototype"
  recordText "Parameters"
    [("source", quoted base), ("overrides", bracketed ((Entries.keys p.overrides).map quoted))] true

end Parameters

end CommandBus
