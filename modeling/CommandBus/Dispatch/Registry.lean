import CommandBus.Dispatch.Command

/-! # The registry of commands

Commands are found by their full name, or by their name relative to the root namespace.  A
command outside the namespace may be registered, and an exact match with it never hides the
command of the relative name.

A second index keeps the name that every type was registered under. -/

namespace CommandBus

/-- Commands by name, under a root namespace. -/
structure CommandRegistry (σ : Type) where
  root : String
  byName : SortedEntries (Command σ) := .empty
  /-- The names of the registered types, the latest one first. -/
  byType : List (TypeKey × String) := []

namespace CommandRegistry

variable {σ : Type}

/-- The error of a name that is taken. -/
def duplicate (name : String) : ConfigurationError :=
  ⟨"command '" ++ name ++ "' registered twice"⟩

/-- Register a command under its name.  The registry that the call leaves stands beside its
    result, also where it fails. -/
def register (registry : CommandRegistry σ) (c : Command σ) :
    Except ConfigurationError Unit × CommandRegistry σ :=
  if Entries.hasKey c.name registry.byName.entries then (.error (duplicate c.name), registry)
  else
    (.ok (), { registry with
      byName := registry.byName.insert c.name c
      byType := (c.key, c.name) :: registry.byType })

/-- Register commands in turn, up to the first one that is refused. -/
def registerAll : CommandRegistry σ → List (Command σ) →
    Except ConfigurationError (CommandRegistry σ)
  | registry, [] => .ok registry
  | registry, c :: rest =>
    match registry.register c with
    | (.error e, _) => .error e
    | (.ok _, registry) => registerAll registry rest

/-- Whether a name is the root, a point and something more; every name is under an empty root. -/
def inNamespace (root name : String) : Bool :=
  root.isEmpty ||
    match root.toList.isPrefixOf? name.toList with
    | some ('.' :: _ :: _) => true
    | _ => false

/-- The name that a relative name stands for. -/
def qualified (root name : String) : String := root ++ "." ++ name

/-- Refuse a command outside the namespace. -/
def ensureInNamespace (registry : CommandRegistry σ) (c : Command σ) : Except DispatchError Unit :=
  if inNamespace registry.root c.name then .ok () else .error (.noSuchCommand c.name)

/-- The command of a full name, where it is in the namespace. -/
def named? (registry : CommandRegistry σ) (name : String) : Option (Command σ) :=
  (Entries.get? name registry.byName.entries).filter fun c => inNamespace registry.root c.name

/-- The command that a full or relative name stands for. -/
def resolve (registry : CommandRegistry σ) (name : String) : Except DispatchError (Command σ) :=
  match registry.named? name with
  | some c => .ok c
  | none =>
    match Entries.get? (qualified registry.root name) registry.byName.entries with
    | some c => .ok c
    | none => .error (.noSuchCommand name)

/-- The registered command of a type: the one under the name that is kept for the type. -/
def ofType? (registry : CommandRegistry σ) (key : TypeKey) : Option (Command σ) :=
  (registry.byType.lookup key).bind fun name =>
    Entries.get? name registry.byName.entries

/-- The registered commands in the order of their names. -/
def commands (registry : CommandRegistry σ) : List (Command σ) := 
  Entries.values registry.byName.entries

def size (registry : CommandRegistry σ) : Nat := registry.byName.entries.length

end CommandRegistry

end CommandBus
