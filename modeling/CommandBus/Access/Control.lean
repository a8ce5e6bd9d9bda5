import CommandBus.Access.Authorizer
import CommandBus.Parameter.Schema

/-! # Access control

Access control classifies a command type once, at its first use, and keeps the result, also
when it is an error.  A check looks up the authorizer of the type and lets it decide.

`AccessRecords` is what was classified so far.  The authenticator is fixed. -/

namespace CommandBus

/-- Why an access check failed. -/
inductive AccessError where
  | denied (e : AccessDenied)
  | configuration (e : ConfigurationError)
  deriving DecidableEq, Repr

/-- The wording of a failed check. -/
def AccessError.message : AccessError → String
  | .denied e => e.message
  | .configuration e => e.message

/-- The outcome of classifying a type. -/
abbrev Classification := Except ConfigurationError Authorizer

/-- The classifications made so far, one a type, and the authorizers they share. -/
structure AccessRecords where
  authorizers : AuthorizerRegistry := {}
  classified : List (TypeKey × Classification) := []

namespace AccessRecords

/-- The classification kept for a type. -/
def find? (records : AccessRecords) (key : TypeKey) : Option Classification :=
  (records.classified.find? fun e => e.1 == key).map (·.2)

/-- Classify a type that has no classification yet. -/
def record (records : AccessRecords) (key : TypeKey) (command : String)
    (classifiers : List Access) : Classification × AccessRecords :=
  match AccessPolicy.classify command classifiers with
  | .error e =>
    (.error e, { records with classified := records.classified ++ [(key, .error e)] })
  | .ok policy =>
    let (authorizer, authorizers) := records.authorizers.authorizer policy
    (.ok authorizer, ⟨authorizers, records.classified ++ [(key, .ok authorizer)]⟩)

/-- The authorizer of a type; the first classification of a type stays. -/
def authorizer (records : AccessRecords) (key : TypeKey) (command : String)
    (classifiers : List Access) : Classification × AccessRecords :=
  match records.find? key with
  | some kept => (kept, records)
  | none => records.record key command classifiers

/-- The policy of a type. -/
def policy (records : AccessRecords) (key : TypeKey) (command : String)
    (classifiers : List Access) : Except ConfigurationError AccessPolicy × AccessRecords :=
  let (found, records) := records.authorizer key command classifiers
  (found.map Authorizer.policy, records)

/-- Check the caller of a context. -/
def check {σ : Type} (records : AccessRecords) (authenticator : Authenticator σ) (key : TypeKey)
    (command : String) (classifiers : List Access) (ctx : Context) (s : σ) :
    Decision AccessError σ × AccessRecords :=
  let (found, records) := records.authorizer key command classifiers
  match found with
  | .error e => (⟨.error (.configuration e), ctx, s⟩, records)
  | .ok authorizer =>
    let decision := authorizer.policy.authorize authenticator command ctx s
    (⟨decision.result.mapError AccessError.denied, decision.context, decision.state⟩, records)

end AccessRecords

end CommandBus
