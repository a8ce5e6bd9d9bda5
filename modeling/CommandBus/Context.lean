import CommandBus.Identity

/-! # The context of a dispatch

A `Context` carries the caller's credentials, attributes, the identity found for the caller and
an id for the logs through one dispatch.

Attributes may be of any type: a value has the id of its type with it, and is read only as what
it is.  They have a write policy.  A mutable one may be overwritten and removed; an immutable
one is written once, where no attribute was, and stays.  A write or a removal gives its result
together with the context that it leaves, also where it fails. -/

namespace CommandBus

open Text

/-- Raw credentials by key. -/
abbrev Credentials := SortedEntries String

/-! ## Values of any type -/

/-- The types that attributes may have.  A type is told from the others by its id. -/
structure AttributeTypes where
  Id : Type
  Carrier : Id → Type
  decidableEqId : DecidableEq Id

attribute [instance] AttributeTypes.decidableEqId

/-- A value that has the id of its type with it. -/
structure AttributeValue (types : AttributeTypes) where
  type : types.Id
  value : types.Carrier type

/-- The value, if it is of the type that is asked for. -/
def AttributeValue.downcast? {types : AttributeTypes} (v : AttributeValue types) (t : types.Id) :
    Option (types.Carrier t) :=
  if h : v.type = t then some (h ▸ v.value) else none

/-- The ids of plain types. -/
inductive PlainType where
  | text
  | flag
  | number
  deriving DecidableEq, Repr

/-- Texts, flags and numbers: the types of a dispatch where nothing else is said. -/
@[reducible]
def AttributeTypes.plain : AttributeTypes where
  Id := PlainType
  Carrier
    | .text => String
    | .flag => Bool
    | .number => Int64
  decidableEqId := inferInstance

namespace AttributeValue

def text (s : String) : AttributeValue .plain := ⟨.text, s⟩

def flag (b : Bool) : AttributeValue .plain := ⟨.flag, b⟩

def number (n : Int64) : AttributeValue .plain := ⟨.number, n⟩

end AttributeValue

/-! ## Attributes -/

/-- An attribute and its write policy. -/
structure Attribute (types : AttributeTypes) where
  value : AttributeValue types
  immutable : Bool

/-- Why an attribute was not written or removed. -/
inductive ContextError where
  | immutableAttribute (key : String)
  | attributeExists (key : String)
  deriving DecidableEq, Repr

/-- The wording of an attribute error. -/
def ContextError.message : ContextError → String
  | .immutableAttribute key => "attribute '" ++ key ++ "' is immutable"
  | .attributeExists key => "attribute '" ++ key ++ "' is already set"

/-- What one dispatch knows of its caller and carries along. -/
structure Context (types : AttributeTypes := .plain) where
  credentials : Option Credentials := none
  attributes : Entries (Attribute types) := []
  identity : Option Identity := none
  correlationId : Option String := none

namespace Context

variable {types : AttributeTypes}

/-- The credential of a key. -/
def credential? (ctx : Context types) (key : String) : Option String :=
  ctx.credentials.bind fun cs => Entries.get? key cs.entries

/-- Whether there is an attribute that must stay as it is. -/
def isImmutable (ctx : Context types) (key : String) : Bool :=
  match Entries.get? key ctx.attributes with
  | some a => a.immutable
  | none => false

def hasAttribute (ctx : Context types) (key : String) : Bool :=
  (Entries.get? key ctx.attributes).isSome

/-- Write a mutable attribute. -/
def setAttribute (ctx : Context types) (key : String) (value : AttributeValue types) :
    Except ContextError Unit × Context types :=
  if ctx.isImmutable key then (.error (.immutableAttribute key), ctx)
  else (.ok (), { ctx with attributes := Entries.insert key ⟨value, false⟩ ctx.attributes })

/-- Write an attribute for good. -/
def setImmutableAttribute (ctx : Context types) (key : String) (value : AttributeValue types) :
    Except ContextError Unit × Context types :=
  if ctx.hasAttribute key then (.error (.attributeExists key), ctx)
  else (.ok (), { ctx with attributes := Entries.insert key ⟨value, true⟩ ctx.attributes })

/-- The value of an attribute, if there is one and it is of the type that is asked for. -/
def attribute? (ctx : Context types) (key : String) (t : types.Id) : Option (types.Carrier t) :=
  (Entries.get? key ctx.attributes).bind fun a => a.value.downcast? t

/-- Remove a mutable attribute, and tell whether there was one. -/
def removeAttribute (ctx : Context types) (key : String) :
    Except ContextError Bool × Context types :=
  if ctx.isImmutable key then (.error (.immutableAttribute key), ctx)
  else (.ok (ctx.hasAttribute key), { ctx with attributes := Entries.erase key ctx.attributes })

/-- Attach the authenticated caller. -/
def setIdentity (ctx : Context types) (identity : Identity) : Context types :=
  { ctx with identity := some identity }

def isAuthenticated (ctx : Context types) : Bool := ctx.identity.isSome

/-- What a context shows of itself: keys of credentials and attributes, never their values. -/
def debugText (ctx : Context types) : String :=
  let keyList (keys : List String) : String := bracketed (keys.map quoted)
  recordText "Context"
    [("credentials", optionText (ctx.credentials.map fun cs => keyList (Entries.keys cs.entries))),
      ("attributes", keyList (Entries.keys ctx.attributes)),
      ("identity", optionText (ctx.identity.map Identity.debugText)),
      ("correlation_id", optionText (ctx.correlationId.map quoted))] true

end Context

end CommandBus
