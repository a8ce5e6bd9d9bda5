import CommandBus.Conversion.Service

/-! # Sample conversions

Converters and mappers to put into a service: ones that change nothing, ones that forget the
value, and ones that refuse it. -/

namespace CommandBus.Sample

open Conversion (Converter Mapper Service)

/-- What a sample converter does. -/
inductive Conversion where
  | identity
  | null
  /-- The kind of the value, as a text. -/
  | tag
  | unsupported
  | reject

/-- The converter of a sample, for a target kind. -/
def Conversion.converter (target : Kind) : Conversion → Converter
  | .identity => fun v => .ok v
  | .null => fun _ => .ok .null
  | .tag => fun v => .ok (.string ("<" ++ v.kind.name ++ ">"))
  | .unsupported => fun v => .error (.unsupported v.kind (ValueType.ofKind target))
  | .reject => fun v => .error (.invalid v.kind (ValueType.ofKind target) "rejected by override")

/-- The sample of a name; a name that is not known rejects. -/
def Conversion.ofName : String → Conversion
  | "identity" => .identity
  | "null" => .null
  | "tag" => .tag
  | "unsupported" => .unsupported
  | _ => .reject

/-- The override of a pair by a sample. -/
def override (source target : Kind) (c : Conversion) : Service.Override :=
  ⟨source, target, c.converter target⟩

/-- The mapper of a name. -/
def mapper? : String → Option Mapper
  | "box" => some (.custom fun v _ => .ok (.map [("value", v)]))
  | "null" => some (.custom fun _ _ => .ok .null)
  | "fail" => some (.custom fun _ t => .error ["mapper", "closed", "no " ++ t.name ++ " today"])
  | "elementwise" => some .elementwise
  | _ => none

end CommandBus.Sample
