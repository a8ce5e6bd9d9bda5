import CommandBus.Entries
import CommandBus.Number.Binary64

/-! # JSON documents

A number is an integer that a signed or an unsigned word of 64 bits holds, or a double
precision number.  The members of an object are a list: a reader keeps them in key order,
a writer of a fixed shape lists them in the order of the shape. -/

namespace CommandBus

namespace Json

/-- The integers that a document holds exactly. -/
structure Integer where
  value : Int
  value_ge : -9223372036854775808 ≤ value := by decide
  value_lt : value < 18446744073709551616 := by decide
  deriving DecidableEq, Repr

namespace Integer

/-- An integer of the document range, if it is one. -/
def ofInt? (n : Int) : Option Integer :=
  if h : -9223372036854775808 ≤ n ∧ n < 18446744073709551616 then some ⟨n, h.1, h.2⟩ else none

/-- A signed word. -/
def ofInt64 (n : Int64) : Integer :=
  ⟨n.toInt, n.le_toInt, Int.lt_trans n.toInt_lt (by decide)⟩

/-- The integer as a signed word, if it fits. -/
def toInt64? (n : Integer) : Option Int64 :=
  if n.value < 9223372036854775808 then some (Int64.ofInt n.value) else none

/-- The integer as an unsigned word; meaningful for those that are not negative. -/
def toUInt64 (n : Integer) : UInt64 := UInt64.ofNat n.value.toNat

end Integer

end Json

/-- A JSON document. -/
inductive Json where
  | null
  | bool (b : Bool)
  | integer (n : Json.Integer)
  | double (x : Number.Binary64)
  | string (s : String)
  | array (items : List Json)
  | object (members : List (String × Json))
  deriving Inhabited, Repr

namespace Json

/-- The member of an object with a name. -/
def member? (name : String) : Json → Option Json
  | .object members => Entries.get? name members
  | _ => none

mutual

/-- A document with the members of every object in key order. -/
def sorted : Json → Json
  | .array items => .array (sortedItems items)
  | .object members => .object (Entries.ofList (sortedMembers members))
  | j => j

def sortedItems : List Json → List Json
  | [] => []
  | item :: rest => item.sorted :: sortedItems rest

def sortedMembers : List (String × Json) → List (String × Json)
  | [] => []
  | (name, item) :: rest => (name, item.sorted) :: sortedMembers rest

end

mutual

/-- Whether every double precision number in a document is finite. -/
def isFinite : Json → Bool
  | .double x => x.isFinite
  | .array items => allFinite items
  | .object members => allMembersFinite members
  | _ => true

def allFinite : List Json → Bool
  | [] => true
  | item :: rest => item.isFinite && allFinite rest

def allMembersFinite : List (String × Json) → Bool
  | [] => true
  | (_, item) :: rest => item.isFinite && allMembersFinite rest

end

end Json

end CommandBus
