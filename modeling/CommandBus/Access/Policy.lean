import CommandBus.Conversion.Error
import CommandBus.Identity
import CommandBus.Number.Digits

/-! # Access policies

A command declares who may run it by classifiers, of which there must be exactly one.
`AccessPolicy.classify` turns them into a policy; no classifier, several of them or a role list
without roles is a mistake of the declaration and never a default. -/

namespace CommandBus

open Number

/-- Who may run a command, as declared. -/
inductive Access where
  | anyone
  | authenticated
  /-- Callers with at least one of the roles. -/
  | roles (names : List String)
  deriving DecidableEq, Repr

/-- Who may run a command, as decided. -/
inductive AccessPolicy where
  | anyone
  | authenticated
  | anyOf (required : AuthoritySet)
  deriving DecidableEq, Repr

namespace Access

/-- What a classifier shows of itself. -/
def debugText : Access → String
  | .anyone => "Public"
  | .authenticated => "Authenticated"
  | .roles names => "RolesAllowed(" ++ Text.bracketed (names.map Text.quoted) ++ ")"

end Access

namespace AccessPolicy

/-- The error of a command that declares no classifier. -/
def unclassified (command : String) : ConfigurationError :=
  ⟨"command '" ++ command ++ "' declares no access classifier"⟩

/-- The error of a role list without roles. -/
def emptyRoles (command : String) : ConfigurationError :=
  ⟨"command '" ++ command ++ "' allows an empty role list"⟩

/-- The error of several classifiers. -/
def overclassified (command : String) (count : Nat) : ConfigurationError :=
  ⟨"command '" ++ command ++ "' declares " ++ natText count
    ++ " mutually exclusive access classifiers"⟩

/-- The policy of the classifiers of a command. -/
def classify (command : String) : List Access → Except ConfigurationError AccessPolicy
  | [] => .error (unclassified command)
  | [.anyone] => .ok .anyone
  | [.authenticated] => .ok .authenticated
  | [.roles []] => .error (emptyRoles command)
  | [.roles names] => .ok (.anyOf (AuthoritySet.ofList names))
  | several => .error (overclassified command several.length)

def requiresAuthentication : AccessPolicy → Bool
  | .anyone => false
  | _ => true

/-- The text of a policy. -/
def text : AccessPolicy → String
  | .anyone => "public"
  | .authenticated => "authenticated"
  | .anyOf required => "any of " ++ Text.bracketed required.names

end AccessPolicy

end CommandBus
