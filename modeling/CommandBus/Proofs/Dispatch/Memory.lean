import CommandBus.Proofs.Dispatch.Denial

/-!
# What dispatches leave in the access records

Nothing in a chain but the access check touches the access records: not the interceptors, which
see the environment only, and not the commands.  So the records of a dispatcher that is used by
name stay faithful to the commands that are registered, whatever is dispatched and however the
environment changes in between.

## Key results

- `keepsAccess_buildChain`: interceptors and commands leave the records alone
- `chain_access`: after a dispatch the records are as the look-up of the command left them
- `verifyCommands_fst`: what the startup check tells depends on nothing that was classified before
- `faithful_of_reached`: the records are faithful to what the registered commands declare in every
  state that a dispatcher gets into
-/

namespace CommandBus

/-- The declaration of a command. -/
def Command.declaration {σ : Type} (c : Command σ) : Declaration := ⟨c.name, c.access⟩

/-- The mistake in the classifiers of a command, if there is one. -/
def Command.mistake? {σ : Type} (c : Command σ) : Option ConfigurationError :=
  match c.declaration.policy with
  | .error e => some e
  | .ok _ => none

theorem Command.mistake?_eq_some_iff {σ : Type} {c : Command σ} {e : ConfigurationError} :
    c.mistake? = some e ↔ c.declaration.policy = .error e := by
  unfold mistake?
  split
  · next heq => simp [heq]
  · next heq => simp [heq]

/-! ## One dispatch -/

namespace Dispatcher

variable {σ : Type}

/-- An executor that leaves the access records as they are. -/
def KeepsAccess (e : Executor σ (Runtime σ)) : Prop :=
  ∀ c params ctx r, (e c params ctx r).state.access = r.access

/-- Making an instance, binding it and executing it leaves the records alone. -/
theorem keepsAccess_terminal (d : Dispatcher σ) : KeepsAccess d.terminal := by
  intro c params ctx r
  unfold terminal Command.invoke
  split
  split
  dsimp only
  split
  · rfl
  · rfl

/-- The course of an interceptor leaves the records alone if what it goes on to does. -/
private theorem access_run_lift {rest : Executor σ (Runtime σ)} (h : KeepsAccess rest)
    (link : Link σ σ) (r : Runtime σ) : ((link.lift r).run rest).state.access = r.access := by
  induction link generalizing r with
  | finish outcome => rfl
  -- what is done with the outcome is a course again, from the records of the outcome
  | next c params ctx s resume ih =>
    rw [Link.lift, Link.run, ih]
    exact h c params ctx { r with world := s }

/-- An interceptor leaves the records alone if what it stands around does. -/
theorem keepsAccess_around {rest : Executor σ (Runtime σ)} (h : KeepsAccess rest)
    (i : Interceptor σ σ) : KeepsAccess (i.lift.around rest) := by
  intro c params ctx r
  exact access_run_lift h (i c params ctx r.world) r

/-- Interceptors leave the records alone, and so does the command behind them. -/
theorem keepsAccess_buildChain (d : Dispatcher σ) (interceptors : List (Interceptor σ σ)) :
    KeepsAccess (buildChain (interceptors.map Interceptor.lift) d.terminal) := by
  induction interceptors with
  | nil => exact d.keepsAccess_terminal
  | cons i rest ih => exact keepsAccess_around ih i

/-- A caller that passes the check gets to the rest of the chain, as the check left the context
    and the runtime. -/
theorem chain_of_passed {d : Dispatcher σ} {a : Authenticator σ} (hd : d.authenticator = some a)
    {c : Command σ} {ctx : Context} {r : Runtime σ}
    (h : (checked a c ctx r).1.result = .ok ()) (params : Parameters) :
    d.chain c params ctx r =
      buildChain (d.interceptors.map Interceptor.lift) d.terminal c params
        (checked a c ctx r).1.context
        { r with access := (checked a c ctx r).2, world := (checked a c ctx r).1.state } := by
  rw [chain_eq_around hd]
  exact Interceptor.around_authorization_of_passed h _ params

/-- With access control, a dispatch leaves the records as the look-up of the command does. -/
theorem chain_access {d : Dispatcher σ} {a : Authenticator σ} (hd : d.authenticator = some a)
    (c : Command σ) (params : Parameters) (ctx : Context) (r : Runtime σ) :
    (d.chain c params ctx r).state.access =
      (r.access.authorizer c.key c.name c.access).2 := by
  have hlookup : (checked a c ctx r).2 = (r.access.authorizer c.key c.name c.access).2 :=
    AccessRecords.check_snd r.access a c.key c.name c.access ctx r.world
  cases hresult : (checked a c ctx r).1.result with
  | error e => rw [chain_of_denied hd hresult, refusal, hlookup]
  | ok _ => rw [chain_of_passed hd hresult, d.keepsAccess_buildChain, hlookup]

/-! ## States of a dispatcher -/

/-- The states that a dispatcher gets into when commands are dispatched by name, verified and
    described, while the environment changes as it likes. -/
inductive Reached (d : Dispatcher σ) : Runtime σ → Prop where
  | fresh (s : σ) : Reached d { world := s }
  | environment {r : Runtime σ} (h : Reached d r) (s : σ) : Reached d { r with world := s }
  | dispatched {r : Runtime σ} (h : Reached d r) (name : String) (params : Parameters)
    (ctx : Context) : Reached d (d.dispatch name params ctx r).state
  | verified {r : Runtime σ} (h : Reached d r) : Reached d (d.verifyAccess r).2
  | described {r : Runtime σ} (h : Reached d r) : Reached d (d.describe r).2

/-- What is declared for a type: the name and the classifiers of the registered command. -/
def declared (d : Dispatcher σ) (key : TypeKey) : Declaration :=
  ((d.registry.ofType? key).map Command.declaration).getD ⟨"", []⟩

/-- Every command is found under its name, and no type has two names. -/
structure WellKeyed (d : Dispatcher σ) : Prop where
  keyed : d.registry.Keyed
  types : ∀ c ∈ d.registry.commands, ∀ other ∈ d.registry.commands,
    other.key = c.key → other.name = c.name

/-- The declaration of a registered command is what is declared for its type. -/
theorem declared_key {d : Dispatcher σ} (h : d.WellKeyed) {c : Command σ}
    (hc : c ∈ d.registry.commands) : c.declaration = d.declared c.key := by
  rw [declared, CommandRegistry.ofType?_key_of_mem h.keyed hc (h.types c hc)]
  rfl

open AccessRecords

/-- Every registered command declares what is said of its type. -/
def DeclaredBy (d : Dispatcher σ) (declared : TypeKey → Declaration) : Prop :=
  ∀ c ∈ d.registry.commands, c.declaration = declared c.key

theorem WellKeyed.declaredBy {d : Dispatcher σ} (h : d.WellKeyed) : d.DeclaredBy d.declared :=
  fun _ hc => declared_key h hc

variable {d : Dispatcher σ} {declared : TypeKey → Declaration}

/-- Looking up a registered command keeps the records faithful. -/
private theorem faithful_lookup (h : d.DeclaredBy declared) {records : AccessRecords}
    (hf : Faithful declared records) {c : Command σ} (hc : c ∈ d.registry.commands) :
    Faithful declared (records.authorizer c.key c.name c.access).2 :=
  faithful_authorizer hf (h c hc)

/-- The chain on a command that declares what is said of its type keeps the records faithful. -/
theorem faithful_chain {c : Command σ} (hc : c.declaration = declared c.key) {r : Runtime σ}
    (hf : Faithful declared r.access) (params : Parameters) (ctx : Context) :
    Faithful declared (d.chain c params ctx r).state.access := by
  cases ha : d.authenticator with
  | some a =>
    rw [chain_access ha]
    exact faithful_authorizer hf hc
  | none =>
    -- without access control nobody looks anything up
    have hchain : d.chain = buildChain (d.interceptors.map Interceptor.lift) d.terminal := by
      simp [chain, guards, ha]
    rw [hchain, d.keepsAccess_buildChain d.interceptors c]
    exact hf

/-- A dispatch by name keeps the records faithful. -/
theorem faithful_dispatch (h : d.DeclaredBy declared) {r : Runtime σ}
    (hf : Faithful declared r.access) (name : String) (params : Parameters) (ctx : Context) :
    Faithful declared (d.dispatch name params ctx r).state.access := by
  unfold dispatch
  cases hr : d.registry.resolve name with
  | error e => exact hf
  | ok c => exact faithful_chain (h c (CommandRegistry.mem_commands_of_resolve hr)) hf params ctx

/-- Classifying registered commands keeps the records faithful. -/
private theorem faithful_verifyCommands (h : d.DeclaredBy declared) {cs : List (Command σ)}
    (hcs : ∀ c ∈ cs, c ∈ d.registry.commands) {records : AccessRecords}
    (hf : Faithful declared records) : Faithful declared (verifyCommands cs records).2 := by
  induction cs generalizing records with
  | nil => exact hf
  | cons c rest ih =>
    rw [List.forall_mem_cons] at hcs
    have hnext := faithful_lookup h hf hcs.1
    unfold verifyCommands
    split
    · next e records' heq => rw [heq] at hnext; exact hnext
    · next kept records' heq => rw [heq] at hnext; exact ih hcs.2 hnext

/-- Registered commands are verified up to the first mistake in their classifiers, whatever was
    classified before. -/
theorem verifyCommands_fst (h : d.DeclaredBy declared) {cs : List (Command σ)}
    (hcs : ∀ c ∈ cs, c ∈ d.registry.commands) {records : AccessRecords}
    (hf : Faithful declared records) :
    (verifyCommands cs records).1 =
      match cs.findSome? Command.mistake? with
      | some e => .error e
      | none => .ok () := by
  induction cs generalizing records with
  | nil => rfl
  | cons c rest ih =>
    rw [List.forall_mem_cons] at hcs
    have hfound := authorizer_policy hf (h c hcs.1)
    have hnext := faithful_lookup h hf hcs.1
    unfold verifyCommands
    -- in faithful records what is found is the declared policy, or the mistake in its place
    split
    · next e records' heq =>
      have hpolicy : c.declaration.policy = .error e := by
        rw [← hfound]
        exact congrArg (fun kept => kept.1.map Authorizer.policy) heq
      rw [List.findSome?_cons_of_isSome (by simp [Command.mistake?_eq_some_iff.2 hpolicy]),
        Command.mistake?_eq_some_iff.2 hpolicy]
    · next kept records' heq =>
      have hpolicy : c.declaration.policy = .ok kept.policy := by
        rw [← hfound]
        exact congrArg (fun kept => kept.1.map Authorizer.policy) heq
      have hnone : c.mistake? = none := by simp [Command.mistake?, hpolicy]
      rw [heq] at hnext
      rw [List.findSome?_cons_of_isNone (by simp [hnone])]
      exact ih hcs.2 hnext

/-- Registered commands without a mistake in their classifiers are verified. -/
theorem verifyCommands_ok (h : d.DeclaredBy declared) {cs : List (Command σ)}
    (hcs : ∀ c ∈ cs, c ∈ d.registry.commands)
    (hpolicy : ∀ c ∈ cs, ∃ policy, c.declaration.policy = .ok policy) {records : AccessRecords}
    (hf : Faithful declared records) : (verifyCommands cs records).1 = .ok () := by
  have hnone : cs.findSome? Command.mistake? = none := by
    rw [List.findSome?_eq_none_iff]
    intro c hc
    obtain ⟨policy, hp⟩ := hpolicy c hc
    simp [Command.mistake?, hp]
  rw [verifyCommands_fst h hcs hf, hnone]

/-- Telling the policy of a command looks it up. -/
private theorem policyText_snd (records : AccessRecords) (c : Command σ) :
    (policyText records c).2 = (records.authorizer c.key c.name c.access).2 := by
  have hpolicy : (records.policy c.key c.name c.access).2 =
      (records.authorizer c.key c.name c.access).2 := rfl
  rw [← hpolicy, policyText]
  split
  · next heq => rw [heq]
  · next heq => rw [heq]

/-- Describing registered commands keeps the records faithful. -/
private theorem faithful_describeCommands (h : d.DeclaredBy declared) (controlled : Bool)
    {cs : List (Command σ)} (hcs : ∀ c ∈ cs, c ∈ d.registry.commands) {r : Runtime σ}
    (hf : Faithful declared r.access) :
    Faithful declared (describeCommands controlled cs r).2.access := by
  induction cs generalizing r with
  | nil => exact hf
  | cons c rest ih =>
    rw [List.forall_mem_cons] at hcs
    cases controlled with
    | true =>
      -- to tell the policy of a command is to look it up, which may record it
      have hnext : Faithful declared (policyText r.access c).2 := by
        rw [policyText_snd]
        exact faithful_lookup h hf hcs.1
      exact ih hcs.2 hnext
    | false => exact ih hcs.2 hf

/-- The startup check keeps the records faithful. -/
theorem faithful_verifyAccess (h : d.DeclaredBy declared) {r : Runtime σ}
    (hf : Faithful declared r.access) : Faithful declared (d.verifyAccess r).2.access := by
  unfold verifyAccess
  cases d.authenticator with
  | none => exact hf
  | some a => exact faithful_verifyCommands h (fun c hc => hc) hf

/-- So does describing the commands. -/
theorem faithful_describe (h : d.DeclaredBy declared) {r : Runtime σ}
    (hf : Faithful declared r.access) : Faithful declared (d.describe r).2.access :=
  faithful_describeCommands h _ (fun _ hc => hc) hf

/-- In every state that a dispatcher gets into, its records are faithful to what the registered
    commands declare. -/
theorem faithful_of_reached (h : d.DeclaredBy declared) {r : Runtime σ} (hr : d.Reached r) :
    Faithful declared r.access := by
  induction hr with
  | fresh s => exact faithful_empty declared
  | environment _ s ih => exact ih
  | dispatched _ name params ctx ih => exact faithful_dispatch h ih name params ctx
  | verified _ ih => exact faithful_verifyAccess h ih
  | described _ ih => exact faithful_describe h ih

end Dispatcher

end CommandBus
