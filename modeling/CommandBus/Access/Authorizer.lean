import CommandBus.Access.Authenticator
import CommandBus.Access.Policy

/-! # Authorizers

An authorizer applies one policy to a caller.  Only a caller that passes a policy with
authentication becomes the identity of the context; a refused context stays as it was.

Authorizers are shared: an `AuthorizerRegistry` has one for everyone, one for authenticated
callers, and one for every set of roles that was asked for.  Each has a number of its own. -/

namespace CommandBus

/-- Why access was refused. -/
inductive DenialReason where
  /-- There is no caller, whatever the cause. -/
  | unauthenticated
  | insufficientAuthority
  deriving DecidableEq, Repr

/-- The wording of a reason. -/
def DenialReason.message : DenialReason → String
  | .unauthenticated => "authentication required"
  | .insufficientAuthority => "insufficient authority"

/-- A refused command. -/
structure AccessDenied where
  command : String
  reason : DenialReason
  deriving DecidableEq, Repr

/-- The wording of a refusal. -/
def AccessDenied.message (e : AccessDenied) : String :=
  "access denied to '" ++ e.command ++ "': " ++ e.reason.message

/-- The end of an authorization: whether the caller passes, and the context and the environment
    afterwards. -/
structure Decision (ε σ : Type) where
  result : Except ε Unit
  context : Context
  state : σ

namespace AccessPolicy

variable {σ : Type}

/-- The caller that authentication found; none is the same refusal as a failure. -/
def caller (command : String) (answer : Authentication) : Except AccessDenied Identity :=
  match answer with
  | .ok (some identity) => .ok identity
  | .ok none => .error ⟨command, .unauthenticated⟩
  | .error _ => .error ⟨command, .unauthenticated⟩

/-- Whether a policy lets an authenticated caller pass. -/
def grants : AccessPolicy → Identity → Bool
  | .anyOf required, identity => identity.hasAnyAuthority required
  | _, _ => true

/-- Let the caller of a context pass or refuse it.  The context gets the caller only after the
    policy has let it pass. -/
def authorize (policy : AccessPolicy) (authenticator : Authenticator σ) (command : String)
    (ctx : Context) (s : σ) : Decision AccessDenied σ :=
  if policy.requiresAuthentication then
    let (answer, s) := authenticator ctx s
    match caller command answer with
    | .error e => ⟨.error e, ctx, s⟩
    | .ok identity =>
      if policy.grants identity then ⟨.ok (), ctx.setIdentity identity, s⟩
      else ⟨.error ⟨command, .insufficientAuthority⟩, ctx, s⟩
  else ⟨.ok (), ctx, s⟩

end AccessPolicy

/-- A shared authorizer: a policy and the number that tells it apart. -/
structure Authorizer where
  number : Nat
  policy : AccessPolicy
  deriving DecidableEq, Repr

/-- The authorizers handed out so far: those of role sets in the order of creation. -/
structure AuthorizerRegistry where
  roleSets : List AuthoritySet := []
  deriving DecidableEq, Repr

namespace AuthorizerRegistry

/-- The shared authorizer of a policy, made at the first use. -/
def authorizer (registry : AuthorizerRegistry) : AccessPolicy → Authorizer × AuthorizerRegistry
  | .anyone => (⟨0, .anyone⟩, registry)
  | .authenticated => (⟨1, .authenticated⟩, registry)
  | .anyOf required =>
    match registry.roleSets.idxOf? required with
    | some i => (⟨i + 2, .anyOf required⟩, registry)
    | none =>
      (⟨registry.roleSets.length + 2, .anyOf required⟩, ⟨registry.roleSets ++ [required]⟩)

/-- The number of role sets with an authorizer. -/
def roleGatedCount (registry : AuthorizerRegistry) : Nat := registry.roleSets.length

end AuthorizerRegistry

end CommandBus
