import CommandBus.Proofs.Access.Check
import CommandBus.Proofs.Dispatch.Building
import CommandBus.Sample.Interceptor

/-!
# Refused dispatches

The access check is the outermost link of the chain of a dispatcher with access control.  If it
refuses a command, the dispatch ends there: the outcome is the error of the check on the
context that came in, and the runtime is as the check alone leaves it.  Nothing else has a
part in the outcome, neither the parameters nor the interceptors nor the body of the command.

## Key results

- `chain_of_denied`: a refusal ends the chain, whatever stands behind the check
- `denied_dispatch_eq_refusal`: the same for every way into a dispatcher, and for two dispatchers
  that differ in anything but the check
-/

namespace CommandBus

namespace Dispatcher

variable {σ : Type}

/-- The access check of a dispatch. -/
def checked (a : Authenticator σ) (c : Command σ) (ctx : Context) (r : Runtime σ) :
    Decision AccessError σ × AccessRecords :=
  r.access.check a c.key c.name c.access ctx r.world

/-- The end of a dispatch that the access check refuses with `e`: what the check has remembered
    and what it has done to the environment is all that is new. -/
def refusal (a : Authenticator σ) (c : Command σ) (e : AccessError) (ctx : Context)
    (r : Runtime σ) : Outcome (Runtime σ) :=
  ⟨.error (.ofAccess e), ctx,
    { r with access := (checked a c ctx r).2, world := (checked a c ctx r).1.state }⟩

end Dispatcher

namespace Interceptor

open Dispatcher

variable {σ : Type}

/-- A refusal ends the course of the check: the rest of the chain is not run. -/
theorem around_authorization_of_denied {a : Authenticator σ} {c : Command σ} {ctx : Context}
    {r : Runtime σ} {e : AccessError} (h : (checked a c ctx r).1.result = .error e)
    (rest : Executor σ (Runtime σ)) (params : Parameters) :
    (authorization a).around rest c params ctx r = refusal a c e ctx r := by
  have hctx : (checked a c ctx r).1.context = ctx := AccessRecords.check_context_of_error h
  simp only [checked] at h hctx
  simp only [around, authorization, h, hctx, Link.run, refusal, checked]

/-- A caller that passes gets to the rest of the chain, as the check left the context and the
    runtime. -/
theorem around_authorization_of_passed {a : Authenticator σ} {c : Command σ} {ctx : Context}
    {r : Runtime σ} (h : (checked a c ctx r).1.result = .ok ()) (rest : Executor σ (Runtime σ))
    (params : Parameters) :
    (authorization a).around rest c params ctx r =
      rest c params (checked a c ctx r).1.context
        { r with access := (checked a c ctx r).2, world := (checked a c ctx r).1.state } := by
  simp only [checked] at h
  simp only [around, authorization, h, Link.run, checked]

end Interceptor

namespace Dispatcher

variable {σ : Type}

/-- With access control the check is around everything else. -/
theorem chain_eq_around {d : Dispatcher σ} {a : Authenticator σ}
    (h : d.authenticator = some a) :
    d.chain = (Interceptor.authorization a).around
      (buildChain (d.interceptors.map Interceptor.lift) d.terminal) := by
  simp [chain, guards, h, buildChain]

/-- A refusal ends the chain, whatever stands behind the check. -/
theorem chain_of_denied {d : Dispatcher σ} {a : Authenticator σ} (hd : d.authenticator = some a)
    {c : Command σ} {ctx : Context} {r : Runtime σ} {e : AccessError}
    (h : (checked a c ctx r).1.result = .error e) (params : Parameters) :
    d.chain c params ctx r = refusal a c e ctx r := by
  rw [chain_eq_around hd]
  exact Interceptor.around_authorization_of_denied h _ params

/-- The ways into a dispatcher that lead to the command `c`. -/
inductive Entry (d : Dispatcher σ) (c : Command σ) :
    (Parameters → Context → Runtime σ → Outcome (Runtime σ)) → Prop where
  /-- By a name that stands for it, full or relative. -/
  | name {name : String} (h : d.registry.resolve name = .ok c) : Entry d c (d.dispatch name)
  /-- By the command, which was found before. -/
  | command : Entry d c (d.dispatchTo c)
  /-- By its type. -/
  | type {wanted : Command σ} (h : d.registry.ofType? wanted.key = some c) :
    Entry d c (d.dispatchType wanted)

/-- Every way into a dispatcher runs the chain on a command of the namespace. -/
theorem Entry.eq_chain {d : Dispatcher σ} {c : Command σ}
    {enter : Parameters → Context → Runtime σ → Outcome (Runtime σ)} (h : d.Entry c enter)
    (hin : CommandRegistry.inNamespace d.registry.root c.name = true) : enter = d.chain c := by
  funext params ctx r
  cases h with
  | name hr => simp [dispatch, hr]
  | command => simp [dispatchTo, CommandRegistry.ensureInNamespace, hin]
  | type hk => simp [dispatchType, hk, dispatchTo, CommandRegistry.ensureInNamespace, hin]

/-- With a refusal, every way in ends in it. -/
theorem Entry.eq_refusal {d : Dispatcher σ} {a : Authenticator σ}
    (hd : d.authenticator = some a) {c : Command σ}
    (hin : CommandRegistry.inNamespace d.registry.root c.name = true) {ctx : Context}
    {r : Runtime σ} {e : AccessError} (h : (checked a c ctx r).1.result = .error e)
    {enter : Parameters → Context → Runtime σ → Outcome (Runtime σ)} (henter : d.Entry c enter)
    (params : Parameters) : enter params ctx r = refusal a c e ctx r := by
  rw [henter.eq_chain hin]
  exact chain_of_denied hd h params

/-- A registered command of the namespace is entered by its full name, as it is, and by its
    type if no other name has that type. -/
theorem entry_of_mem {d : Dispatcher σ} (hk : d.registry.Keyed) {c : Command σ}
    (hc : c ∈ d.registry.commands)
    (hin : CommandRegistry.inNamespace d.registry.root c.name = true) :
    d.Entry c (d.dispatch c.name) ∧ d.Entry c (d.dispatchTo c) ∧
      ((∀ other ∈ d.registry.commands, other.key = c.key → other.name = c.name) →
        d.Entry c (d.dispatchType c)) :=
  ⟨.name (CommandRegistry.resolve_name_of_mem hk hc hin), .command,
    fun htypes => .type (CommandRegistry.ofType?_key_of_mem hk hc htypes)⟩

/-- Let a dispatcher be built with access control, set at any point of the chain of calls, and
    let the check refuse a registered command of the namespace.  Then every way to dispatch the
    command, with any parameters, ends in the refusal: the error of the check, the context as it
    was, and a runtime that only the check has touched.  A command of the same type, name and
    classifiers in any other dispatcher with the same access control, with other parameters,
    other interceptors and another body, ends in the same outcome. -/
theorem denied_dispatch_eq_refusal {settings : DispatcherSettings}
    {calls : List (Blueprint.Call σ)} {a : Authenticator σ} {d : Dispatcher σ}
    (hd : Blueprint.Built settings calls a d) {c : Command σ} (hc : c ∈ d.registry.commands)
    (hin : CommandRegistry.inNamespace settings.root c.name = true) {ctx : Context}
    {r : Runtime σ} {e : AccessError} (hdenied : (checked a c ctx r).1.result = .error e) :
    (d.Entry c (d.dispatch c.name) ∧ d.Entry c (d.dispatchTo c) ∧
      ((∀ other ∈ d.registry.commands, other.key = c.key → other.name = c.name) →
        d.Entry c (d.dispatchType c))) ∧
    (∀ enter params, d.Entry c enter → enter params ctx r = refusal a c e ctx r) ∧
    ∀ calls' d', Blueprint.Built settings calls' a d' → ∀ c' ∈ d'.registry.commands,
      c'.key = c.key → c'.name = c.name → c'.access = c.access →
      ∀ enter params enter' params', d.Entry c enter → d'.Entry c' enter' →
        enter' params' ctx r = enter params ctx r := by
  have hroot : CommandRegistry.inNamespace d.registry.root c.name = true := by
    rw [hd.root]; exact hin
  refine ⟨entry_of_mem hd.keyed hc hroot,
    fun enter params henter => henter.eq_refusal hd.authenticator hroot hdenied params, ?_⟩
  intro calls' d' hd' c' _ hkey hname haccess enter params enter' params' henter henter'
  -- the check sees nothing of a command but its type, its name and its classifiers
  have hsame : checked a c' ctx r = checked a c ctx r := by
    simp only [checked, hkey, hname, haccess]
  have hroot' : CommandRegistry.inNamespace d'.registry.root c'.name = true := by
    rw [hd'.root, hname]; exact hin
  have hdenied' : (checked a c' ctx r).1.result = .error e := by rw [hsame]; exact hdenied
  -- both ways in end in the same refusal
  rw [henter.eq_refusal hd.authenticator hroot hdenied params,
    henter'.eq_refusal hd'.authenticator hroot' hdenied' params']
  simp only [refusal, hsame]

/-- A caller without credentials is refused by the relative name, with access control set before
    the interceptor, which leaves no entry in the log. -/
theorem denied_dispatch_users_create :
    let a : Authenticator Sample.Log := fun _ log => (.ok none, "asked" :: log)
    let c := Sample.commandAt {} 1
    let calls : List (Blueprint.Call Sample.Log) :=
      [.accessControl a, .interceptor (Sample.Interception.record "outer").interceptor, .command c]
    let r : Runtime Sample.Log := { world := [] }
    let e : AccessError := .denied ⟨"app.users.Create", .unauthenticated⟩
    ∃ d, Blueprint.Built {} calls a d ∧ c ∈ d.registry.commands ∧
      CommandRegistry.inNamespace "app" c.name = true ∧
      (checked a c {} r).1.result = .error e ∧
      d.dispatch "users.Create" {} {} r = refusal a c e {} r ∧
      (d.dispatch "users.Create" {} {} r).state.world = ["asked"] := by
  intro a c calls r e
  let d : Dispatcher Sample.Log :=
    ⟨{}, CommandRegistry.registerEach "app" [c], Conversion.Service.standard, some a,
      [(Sample.Interception.record "outer").interceptor]⟩
  have hd : Blueprint.Built {} calls a d := by
    refine ⟨⟨[], _, rfl, fun b hb => ?_⟩, rfl⟩
    simp at hb
  have hc : c ∈ d.registry.commands := List.mem_singleton.2 rfl
  have hin : CommandRegistry.inNamespace "app" c.name = true := by decide
  have hdenied : (checked a c {} r).1.result = .error e := rfl
  -- the relative name leads to the command
  have hentry : d.Entry c (d.dispatch "users.Create") := .name rfl
  have hout := (denied_dispatch_eq_refusal hd hc hin hdenied).2.1 _ {} hentry
  exact ⟨d, hd, hc, hin, hdenied, hout, by rw [hout]; rfl⟩

end Dispatcher

end CommandBus
