import CommandBus.Proofs.Dispatch.Memory
import CommandBus.Wire.Handler

/-!
# The standing of a caller

What a caller gets to with a command is its standing there: it is refused, or the command runs
and sees an identity or none.  The access check alone decides it, and in faithful records it
depends on nothing but the declaration of the command and the caller that was found.

## Key results

- `chain_of_standing`: what becomes of a dispatch, by the standing of its caller
- `standing_of_found`: the standing of a caller that authentication finds
- `handle_of_unauthenticated`: how a request is answered whose caller authentication does not find
-/

namespace CommandBus

/-- How a declaration treats a caller that was found: refused, or let pass with the identity
    that the command sees. -/
def Declaration.standing (d : Declaration) (i : Identity) : Option (Option Identity) :=
  match d.policy with
  | .error _ => none
  | .ok policy =>
    if policy.requiresAuthentication then
      if policy.grants i then some (some i) else none
    else some none

namespace Dispatcher

variable {σ : Type}

/-- Whether the caller of a context may run a command, and the identity that the command sees
    then.  Without access control everybody may, as whoever the context says. -/
def standing (d : Dispatcher σ) (c : Command σ) (ctx : Context) (r : Runtime σ) :
    Option (Option Identity) :=
  match d.authenticator with
  | none => some ctx.identity
  | some a =>
    match (checked a c ctx r).1.result with
    | .ok () => some (checked a c ctx r).1.context.identity
    | .error _ => none

/-- Without interceptors of its own, a dispatcher refuses a caller without a standing, and runs
    the command for any other on a context with the identity of the standing. -/
theorem chain_of_standing {d : Dispatcher σ}
    (hi : d.interceptors = [] ∨ d.interceptors = [Interceptor.tracing]) (c : Command σ)
    (ctx : Context) (r : Runtime σ) :
    match d.standing c ctx r with
    | none => ∃ e r', ∀ params, d.chain c params ctx r = ⟨.error (.ofAccess e), ctx, r'⟩
    | some seen => ∃ seeing r', seeing.identity = seen ∧
        ∀ params, d.chain c params ctx r = c.invoke d.service params seeing r' := by
  -- an interceptor that only traces is as good as none
  have hinner : buildChain (d.interceptors.map Interceptor.lift) d.terminal = d.terminal := by
    obtain hnone | htracing := hi
    · rw [hnone]
      rfl
    · rw [htracing]
      rfl
  unfold standing
  cases ha : d.authenticator with
  | none =>
    have hchain : d.chain = d.terminal := by
      rw [← hinner]
      simp [chain, guards, ha]
    exact ⟨ctx, r, rfl, fun params => by rw [hchain]; rfl⟩
  | some a =>
    -- a refusal ends the chain before the parameters are looked at
    cases hresult : (checked a c ctx r).1.result with
    | error e =>
      simp only [hresult]
      exact ⟨e, _, fun params => chain_of_denied ha hresult params⟩
    | ok _ =>
      simp only [hresult]
      refine ⟨(checked a c ctx r).1.context,
        { r with access := (checked a c ctx r).2, world := (checked a c ctx r).1.state }, rfl,
        fun params => ?_⟩
      rw [chain_of_passed ha hresult, hinner]
      rfl

open AccessRecords

/-- In faithful records a caller that authentication finds is treated as the declaration of the
    command says. -/
theorem standing_of_found {declared : TypeKey → Declaration} {r : Runtime σ}
    (hf : Faithful declared r.access) {c : Command σ} (hc : c.declaration = declared c.key)
    {d : Dispatcher σ} {a : Authenticator σ} (ha : d.authenticator = some a) {ctx : Context}
    (hctx : ctx.identity = none) {i : Identity} (hfound : (a ctx r.world).1 = .ok (some i)) :
    d.standing c ctx r = c.declaration.standing i := by
  have hcheck : (checked a c ctx r).1 = _ := check_fst hf hc a ctx r.world
  simp only [standing, ha, hcheck, Declaration.standing]
  cases hp : c.declaration.policy with
  | error e => rfl
  | ok policy =>
    cases hreq : policy.requiresAuthentication with
    | false =>
      -- nobody is asked, and the context stays without an identity
      have hopen : policy.authorize a c.declaration.command ctx r.world =
          ⟨.ok (), ctx, r.world⟩ := by
        simp [AccessPolicy.authorize, hreq]
      simp only [hopen, hreq, Bool.false_eq_true, if_false]
      exact congrArg some hctx
    | true =>
      simp only [AccessPolicy.authorize_of_requires hreq, hfound, hreq, if_true]
      by_cases hg : policy.grants i = true
      · simp only [hg, if_true]
        rfl
      · simp only [hg]
        rfl

/-! ## Requests -/

variable {d : Dispatcher σ}

/-- A request of the right version is answered as the command that it names is dispatched. -/
theorem handle_of_resolve {request : Request} {c : Command σ}
    (hversion : request.version = d.settings.version)
    (hc : d.registry.resolve request.command = .ok c) (freshId : String) (r : Runtime σ) :
    (d.handle freshId request r).1 =
      Response.ofResult (request.id.getD freshId)
        (d.chain c (Parameters.ofJson request.members)
          (request.context (request.id.getD freshId)) r).result := by
  simp only [handle, hversion, if_true, dispatch, hc]

/-- A request that the access check refuses is answered with the refusal. -/
theorem handle_of_denied {request : Request} {c : Command σ}
    (hversion : request.version = d.settings.version)
    (hc : d.registry.resolve request.command = .ok c) {a : Authenticator σ}
    (ha : d.authenticator = some a) {freshId : String} {r : Runtime σ} {denial : AccessDenied}
    (h : (checked a c (request.context (request.id.getD freshId)) r).1.result =
      .error (.denied denial)) :
    (d.handle freshId request r).1 =
      .failure (request.id.getD freshId) (.accessDenied denial) := by
  rw [handle_of_resolve hversion hc, chain_of_denied ha h]
  rfl

/-- A request for a command that asks for its caller is answered the same for every caller that
    is not found, whatever was wrong with the credentials. -/
theorem handle_of_unauthenticated {declared : TypeKey → Declaration} (h : d.DeclaredBy declared)
    {a : Authenticator σ} (ha : d.authenticator = some a) {r : Runtime σ} (hr : d.Reached r)
    {request : Request} (hversion : request.version = d.settings.version) {c : Command σ}
    (hc : d.registry.resolve request.command = .ok c)
    (hasks : Access.asksCaller c.access = true) {freshId : String}
    (hnobody : ∀ i, (a (request.context (request.id.getD freshId)) r.world).1 ≠ .ok (some i)) :
    (d.handle freshId request r).1 =
      .failure (request.id.getD freshId) (.accessDenied ⟨c.name, .unauthenticated⟩) := by
  have hdeclared := h c (CommandRegistry.mem_commands_of_resolve hc)
  have hdecides := decides_of_faithful (faithful_of_reached h hr) hdeclared a
    (request.context (request.id.getD freshId)) r.world
  exact handle_of_denied hversion hc ha (hdecides.unauthenticated hasks hnobody)

end Dispatcher

end CommandBus
