import CommandBus.Context
import CommandBus.Conversion.Error
import CommandBus.Number.Digits

/-! # Authentication

An `Authenticator` finds out who the caller of a context is.  It answers with an identity, with
nothing when the credentials that it understands are absent, or with an error when they are
there and cannot be used.  It may look at the state of its environment and change it.

A chain asks its strategies in order and stops at the first identity or error
(`firstDecisive`).  A `Strategy` is a chain whose parts may be chains. -/

namespace CommandBus

/-- Why credentials cannot be used. -/
inductive AuthenticationError where
  | malformed (reason : String)
  | badCredentials
  deriving DecidableEq, Repr

/-- The wording of an authentication error. -/
def AuthenticationError.message : AuthenticationError → String
  | .malformed reason => "malformed credentials: " ++ reason
  | .badCredentials => "bad credentials"

/-- The caller that was found, if any. -/
abbrev Authentication := Except AuthenticationError (Option Identity)

/-- Finds the caller of a context; `σ` is the state of the environment. -/
abbrev Authenticator (σ : Type) := Context → σ → Authentication × σ

namespace Authenticator

variable {σ : Type}

/-- An authenticator that only looks at its environment. -/
def ofReader (read : Context → σ → Authentication) : Authenticator σ :=
  fun ctx s => (read ctx s, s)

/-- The answer of the first of several authenticators that gives an identity or an error. -/
def firstDecisive : List (Authenticator σ) → Authenticator σ
  | [], _, s => (.ok none, s)
  | ask :: rest, ctx, s =>
    match ask ctx s with
    | (.ok none, s) => firstDecisive rest ctx s
    | (answer, s) => (answer, s)

end Authenticator

/-- Authenticators that are asked in order; there is at least one. -/
structure AuthenticatorChain (σ : Type) where
  strategies : List (Authenticator σ)
  nonempty : strategies ≠ [] := by simp

namespace AuthenticatorChain

variable {σ : Type}

/-- The error of a chain without strategies. -/
def emptyError : ConfigurationError := ⟨"authenticator chain has no strategies"⟩

/-- The chain of a list of authenticators. -/
def ofList : List (Authenticator σ) → Except ConfigurationError (AuthenticatorChain σ)
  | [] => .error emptyError
  | ask :: rest => .ok ⟨ask :: rest, by simp⟩

def size (chain : AuthenticatorChain σ) : Nat := chain.strategies.length

/-- The chain as one authenticator. -/
def authenticate (chain : AuthenticatorChain σ) : Authenticator σ :=
  Authenticator.firstDecisive chain.strategies

/-- What a chain shows of itself: the number of its strategies. -/
def debugText (chain : AuthenticatorChain σ) : String :=
  Text.recordText "AuthenticatorChain" [("strategies", Number.natText chain.size)] true

end AuthenticatorChain

/-- A plan of authentication: a strategy, or a chain of plans. -/
inductive Strategy (σ : Type) where
  | single (ask : Authenticator σ)
  | chain (parts : List (Strategy σ))

namespace Strategy

variable {σ : Type}

mutual

/-- The authenticator of a plan; a chain without parts is an error at every level. -/
def build : Strategy σ → Except ConfigurationError (Authenticator σ)
  | .single ask => .ok ask
  | .chain parts =>
    match buildAll parts with
    | .error e => .error e
    | .ok asks => (AuthenticatorChain.ofList asks).map AuthenticatorChain.authenticate

/-- The authenticators of plans, or the first error. -/
def buildAll : List (Strategy σ) → Except ConfigurationError (List (Authenticator σ))
  | [] => .ok []
  | part :: rest =>
    match build part with
    | .error e => .error e
    | .ok ask =>
      match buildAll rest with
      | .error e => .error e
      | .ok asks => .ok (ask :: asks)

end

mutual

/-- The strategies of a plan in the order of asking. -/
def leaves : Strategy σ → List (Authenticator σ)
  | .single ask => [ask]
  | .chain parts => leavesAll parts

def leavesAll : List (Strategy σ) → List (Authenticator σ)
  | [] => []
  | part :: rest => leaves part ++ leavesAll rest

end

end Strategy

end CommandBus
