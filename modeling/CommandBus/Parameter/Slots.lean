import CommandBus.Parameter.Binding

/-! # Parameters in the fields of a structure

A structure becomes bindable by naming its fields: each `Slot` has a name, a type, and the two
functions that read and write its field. -/

namespace CommandBus

/-- A parameter that is kept in a field of a structure. -/
structure Slot (β : Type) where
  name : String
  type : ParamType
  required : Bool
  get : β → type.Carrier
  set : type.Carrier → β → β

namespace Slot

variable {β : Type}

def decl (slot : Slot β) : ParameterDecl := ⟨slot.name, slot.type.valueType, slot.required⟩

/-- Store a value in the field. -/
def store (slot : Slot β) (target : β) (v : Value) : Except ConversionError β :=
  match slot.type.extract v with
  | .ok a => .ok (slot.set a target)
  | .error e => .error e

/-- The value of the field. -/
def current (slot : Slot β) (target : β) : Value := slot.type.render (slot.get target)

/-- The first slot of a name. -/
def find? (slots : List (Slot β)) (name : String) : Option (Slot β) :=
  slots.find? fun slot => slot.name == name

end Slot

/-- The bindable type of a structure with the given slots. -/
def Bindable.ofSlots {β : Type} (key : TypeKey) (owner : String) (slots : List (Slot β)) :
    Bindable β where
  key := key
  owner := owner
  declarations := slots.map fun slot => .declare slot.decl
  assign target name v :=
    match Slot.find? slots name with
    | none => .error (.unknownParameter name)
    | some slot => slot.store target v
  read target name := (Slot.find? slots name).map fun slot => slot.current target

end CommandBus
