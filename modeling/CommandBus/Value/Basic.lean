import CommandBus.Entries
import CommandBus.Instant
import CommandBus.Number.Binary64
import CommandBus.Number.Decimal
import CommandBus.Uuid
import CommandBus.Value.Kind

/-! # Values

The dynamic values that travel between a transport, the conversions and the commands.  A map
is the list of its entries; a reader of values keeps them in key order (`Entries`).

`satisfies` tells when a value can be handed to a type as it is.  Null elements of a list or a
map are passed over, and any map satisfies a record type.  `same` compares values: doubles
and decimals by number, all else by what it is. -/

namespace CommandBus

open Number

/-- An untyped parameter or result. -/
inductive Value where
  | null
  | bool (b : Bool)
  | short (n : Int16)
  | int (n : Int32)
  | long (n : Int64)
  | double (x : Binary64)
  | decimal (d : Decimal)
  | string (s : String)
  | date (t : Instant)
  | uuid (u : Uuid)
  | list (items : List Value)
  | map (entries : List (String × Value))
  deriving Inhabited

namespace Value

def kind : Value → Kind
  | .null => .null
  | .bool _ => .bool
  | .short _ => .short
  | .int _ => .int
  | .long _ => .long
  | .double _ => .double
  | .decimal _ => .decimal
  | .string _ => .string
  | .date _ => .date
  | .uuid _ => .uuid
  | .list _ => .list
  | .map _ => .map

def isNull : Value → Bool
  | .null => true
  | _ => false

/-- The text of a string. -/
def string? : Value → Option String
  | .string s => some s
  | _ => none

/-- The entries of a map. -/
def entries? : Value → Option (Entries Value)
  | .map entries => some entries
  | _ => none

mutual

/-- Whether a value can be handed to a type as it is. -/
def satisfies : Value → ValueType → Bool
  | _, .any => true
  | .list items, .list element => allSatisfy items element
  | .map entries, .map element => allEntriesSatisfy entries element
  | .map _, .record _ => true
  | v, t => t.scalarKind? == some v.kind

/-- Whether every item that is not null satisfies a type. -/
def allSatisfy : List Value → ValueType → Bool
  | [], _ => true
  | item :: rest, t => (item.isNull || item.satisfies t) && allSatisfy rest t

/-- Whether every entry that is not null satisfies a type. -/
def allEntriesSatisfy : List (String × Value) → ValueType → Bool
  | [], _ => true
  | (_, item) :: rest, t => (item.isNull || item.satisfies t) && allEntriesSatisfy rest t

end

mutual

/-- Whether two values are the same: numbers of one kind by what they stand for. -/
def same : Value → Value → Bool
  | .null, .null => true
  | .bool a, .bool b => a == b
  | .short a, .short b => a == b
  | .int a, .int b => a == b
  | .long a, .long b => a == b
  | .double a, .double b => a.same b
  | .decimal a, .decimal b => a.same b
  | .string a, .string b => a == b
  | .date a, .date b => a == b
  | .uuid a, .uuid b => a == b
  | .list a, .list b => sameItems a b
  | .map a, .map b => sameEntries a b
  | _, _ => false

def sameItems : List Value → List Value → Bool
  | [], [] => true
  | a :: as, b :: bs => a.same b && sameItems as bs
  | _, _ => false

def sameEntries : List (String × Value) → List (String × Value) → Bool
  | [], [] => true
  | (k, a) :: as, (l, b) :: bs => k == l && a.same b && sameEntries as bs
  | _, _ => false

end

theorem isNull_iff {v : Value} : v.isNull = true ↔ v = .null := by
  cases v <;> simp [isNull]

theorem satisfies_any (v : Value) : v.satisfies .any = true := by
  cases v <;> simp [satisfies]

theorem satisfies_scalar {v : Value} {t : ValueType} {k : Kind} (h : t.scalarKind? = some k) :
    v.satisfies t = (k == v.kind) := by
  cases t <;> simp only [ValueType.scalarKind?, Option.some.injEq, reduceCtorEq] at h <;> subst h <;>
    cases v <;> simp [satisfies, ValueType.scalarKind?, kind]

theorem satisfies_list (items : List Value) (t : ValueType) :
    (Value.list items).satisfies (.list t) = items.all fun v => v.isNull || v.satisfies t := by
  rw [satisfies]
  induction items with
  | nil => rfl
  | cons v rest ih => simp [allSatisfy, ih]

theorem satisfies_map (entries : List (String × Value)) (t : ValueType) :
    (Value.map entries).satisfies (.map t) =
      entries.all fun e => e.2.isNull || e.2.satisfies t := by
  rw [satisfies]
  induction entries with
  | nil => rfl
  | cons e rest ih => simp [allEntriesSatisfy, ih]

end Value

end CommandBus
