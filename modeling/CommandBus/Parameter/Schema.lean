import CommandBus.Json.Basic
import CommandBus.Value.Kind

/-! # Schemas

A type declares its parameters in steps: a declaration, or the steps of another type.  A later
declaration of a name replaces the earlier one and stands at its own place, so that a derived
type can tighten a parameter of its base.

`ParameterSchema.ofSteps` runs the steps.  `SchemaStep.flatten` is the plain sequence of their
declarations, includes spelled out.

A `SchemaCache` keeps the first schema that was computed for a type. -/

namespace CommandBus

/-- One declared parameter. -/
structure ParameterDecl where
  name : String
  type : ValueType
  required : Bool
  deriving DecidableEq, Repr

/-- The declared parameters of a type, in order. -/
structure ParameterSchema where
  owner : String
  params : List ParameterDecl
  deriving DecidableEq, Repr

/-- One step of declaring the parameters of a type. -/
inductive SchemaStep where
  | declare (decl : ParameterDecl)
  /-- All declarations of a base type. -/
  | include (steps : List SchemaStep)

namespace SchemaStep

/-- Declare a parameter at the end, in the place of an earlier one of its name. -/
def redeclare (params : List ParameterDecl) (decl : ParameterDecl) : List ParameterDecl :=
  params.filter (fun p => p.name != decl.name) ++ [decl]

mutual

/-- Run one step. -/
def run : List ParameterDecl → SchemaStep → List ParameterDecl
  | params, .declare decl => redeclare params decl
  | params, .include steps => runAll params steps

/-- Run steps in order. -/
def runAll : List ParameterDecl → List SchemaStep → List ParameterDecl
  | params, [] => params
  | params, step :: rest => runAll (run params step) rest

end

mutual

/-- The declarations of one step, in order. -/
def flatten : SchemaStep → List ParameterDecl
  | .declare decl => [decl]
  | .include steps => flattenAll steps

/-- The declarations of steps, in order. -/
def flattenAll : List SchemaStep → List ParameterDecl
  | [] => []
  | step :: rest => flatten step ++ flattenAll rest

end

end SchemaStep

namespace ParameterSchema

/-- The schema that steps declare. -/
def ofSteps (owner : String) (steps : List SchemaStep) : ParameterSchema :=
  ⟨owner, SchemaStep.runAll [] steps⟩

/-- The declaration of a name. -/
def get? (schema : ParameterSchema) (name : String) : Option ParameterDecl :=
  schema.params.find? fun p => p.name == name

/-- The parameters that must be given. -/
def required (schema : ParameterSchema) : List ParameterDecl :=
  schema.params.filter ParameterDecl.required

def names (schema : ParameterSchema) : List String := schema.params.map ParameterDecl.name

def size (schema : ParameterSchema) : Nat := schema.params.length

/-- The document of a declaration. -/
def declJson (decl : ParameterDecl) : Json :=
  .object [("name", .string decl.name), ("type", .string decl.type.name),
    ("required", .bool decl.required)]

/-- The document of a schema. -/
def toJson (schema : ParameterSchema) : Json :=
  .object [("owner", .string schema.owner), ("params", .array (schema.params.map declJson))]

end ParameterSchema

/-- What tells types apart. -/
abbrev TypeKey := Nat

/-- The schemas computed so far, one a type, in the order in which they were. -/
structure SchemaCache where
  schemas : List (TypeKey × ParameterSchema) := []
  deriving Repr

namespace SchemaCache

/-- The schema kept for a type. -/
def find? (cache : SchemaCache) (key : TypeKey) : Option ParameterSchema :=
  (cache.schemas.find? fun e => e.1 == key).map (·.2)

/-- The schema of a type, computed only if none is kept. -/
def getOrCompute (cache : SchemaCache) (key : TypeKey) (compute : ParameterSchema) :
    ParameterSchema × SchemaCache :=
  match cache.find? key with
  | some schema => (schema, cache)
  | none => (compute, ⟨cache.schemas ++ [(key, compute)]⟩)

/-- The number of a kept schema, in the order of computation. -/
def number? (cache : SchemaCache) (key : TypeKey) : Option Nat :=
  cache.schemas.findIdx? fun e => e.1 == key

def size (cache : SchemaCache) : Nat := cache.schemas.length

end SchemaCache

end CommandBus
