import CommandBus.Proofs.Dispatch.Memory
import CommandBus.Proofs.Dispatch.Starts
import CommandBus.Sample.Command

/-!
# The stages of a dispatch

Without interceptors of its own a dispatcher goes through five stages: it resolves the name,
checks the caller, binds a fresh instance, runs the body and writes down its output.  The first
stage that fails ends the dispatch with its error, and the later ones are not entered.
`Ending` lists the ways in which a dispatch can end, one for each stage and one for success,
with what the dispatch has started until then.

## Key results

- `admission_context`: an access check touches nothing of the context but the identity
- `dispatch_ending`: every dispatch ends in one of the ways of `Ending`
- `dispatch_inOrder`: the body is started once or not at all, and which of the two is decided by
  the stages before it
-/

namespace CommandBus

/-! ## The context after a check -/

/-- A caller that passes is the one that was found and becomes the identity, or nobody was asked
    and the context stays as it was. -/
theorem AccessPolicy.authorize_context_of_ok {σ : Type} {policy : AccessPolicy}
    {a : Authenticator σ} {command : String} {ctx : Context} {s : σ}
    (h : (policy.authorize a command ctx s).result = .ok ()) :
    (policy.authorize a command ctx s).context = ctx ∨
      ∃ i, (a ctx s).1 = .ok (some i) ∧
        (policy.authorize a command ctx s).context = ctx.setIdentity i := by
  cases hr : policy.requiresAuthentication with
  | false => exact .inl (by simp [authorize, hr])
  | true =>
    rw [authorize_of_requires hr] at h ⊢
    -- the caller was asked for, and passed only as somebody
    cases hc : (a ctx s).1 with
    | error e =>
      simp only [hc] at h
      cases h
    | ok found =>
      cases found with
      | none =>
        simp only [hc] at h
        cases h
      | some i =>
        simp only [hc] at h ⊢
        split at h
        · next hg => exact .inr ⟨i, rfl, by rw [if_pos hg]⟩
        · cases h

/-- The same of a check, whatever the records say of the type. -/
theorem AccessRecords.check_context_of_ok {σ : Type} {records : AccessRecords}
    {a : Authenticator σ} {key : TypeKey} {command : String} {classifiers : List Access}
    {ctx : Context} {s : σ}
    (h : (records.check a key command classifiers ctx s).1.result = .ok ()) :
    (records.check a key command classifiers ctx s).1.context = ctx ∨
      ∃ i, (a ctx s).1 = .ok (some i) ∧
        (records.check a key command classifiers ctx s).1.context = ctx.setIdentity i := by
  simp only [check] at h ⊢
  -- a mistake of the declaration does not pass, and a policy passes as it is authorized
  cases hf : (records.authorizer key command classifiers).1 with
  | error e => exact .inl rfl
  | ok authorizer =>
    rw [hf] at h
    cases hr : (authorizer.policy.authorize a command ctx s).result with
    | ok _ => exact AccessPolicy.authorize_context_of_ok hr
    | error e =>
      have hno : Except.error (AccessError.denied e) = Except.ok () :=
        (congrArg (Except.mapError AccessError.denied) hr).symm.trans h
      cases hno

namespace Dispatcher

variable {σ : Type}

/-- The end of the access check, with the runtime after it; without access control every caller
    passes and nothing is touched. -/
def admission (d : Dispatcher σ) (c : Command σ) (ctx : Context) (r : Runtime σ) :
    Decision AccessError (Runtime σ) :=
  match d.authenticator with
  | none => ⟨.ok (), ctx, r⟩
  | some a =>
    let (decision, access) := checked a c ctx r
    ⟨decision.result, decision.context, { r with access := access, world := decision.state }⟩

/-- A context is as it was, or it has got the identity of a caller that was found and that the
    check of the command has let pass. -/
def AtMostIdentified (d : Dispatcher σ) (c : Command σ) (r : Runtime σ) (before after : Context) :
    Prop :=
  after = before ∨ (d.admission c before r).result = .ok () ∧ ∃ a i, d.authenticator = some a ∧
    (a before r.world).1 = .ok (some i) ∧ after = before.setIdentity i

/-- The check touches nothing of the context but the identity, and that only if it passes. -/
theorem admission_context (d : Dispatcher σ) (c : Command σ) (ctx : Context) (r : Runtime σ) :
    d.AtMostIdentified c r ctx (d.admission c ctx r).context := by
  unfold AtMostIdentified admission
  cases d.authenticator with
  | none => exact .inl rfl
  | some a =>
    cases hresult : (checked a c ctx r).1.result with
    | error e => exact .inl (AccessRecords.check_context_of_error hresult)
    | ok _ =>
      obtain hsame | ⟨i, hi, hctx⟩ := AccessRecords.check_context_of_ok hresult
      · exact .inl hsame
      · exact .inr ⟨rfl, a, i, rfl, hi, hctx⟩

/-! ## The ways to end -/

section

variable (d : Dispatcher σ) (name : String) (params : Parameters) (ctx : Context) (r : Runtime σ)

/-- A dispatch gets as far as the body of `c`, on the instance `target`. -/
structure Reaches (c : Command σ) (target : c.Params) : Prop where
  resolved : d.registry.resolve name = .ok c
  admitted : (d.admission c ctx r).result = .ok ()
  bound : c.bound d.service params (d.admission c ctx r).state = .ok target

/-- The start of the body on an instance that was bound after the check. -/
def bodyStart (c : Command σ) (target : c.Params) : Start σ :=
  c.started target (d.admission c ctx r).context
    (c.prepared d.service params (d.admission c ctx r).state).world

/-- The end of a dispatch after the body, with a result. -/
def afterBody (c : Command σ) (target : c.Params) (result : Except DispatchError Value) :
    Outcome (Runtime σ) :=
  let ending := (d.bodyStart params ctx r c target).ending
  ⟨result, ending.context,
    { c.prepared d.service params (d.admission c ctx r).state with world := ending.state }⟩

/-- How a dispatch can end, and what it has started: each stage fails only after the stages
    before it have succeeded. -/
inductive Ending : Outcome (Runtime σ) → List (Start σ) → Prop where
  /-- No command for the name. -/
  | unresolved {e : DispatchError} (h : d.registry.resolve name = .error e) :
    Ending ⟨.error e, ctx, r⟩ []
  /-- The caller may not run the command. -/
  | refused {c : Command σ} {e : AccessError} (hc : d.registry.resolve name = .ok c)
      (h : (d.admission c ctx r).result = .error e) :
    Ending ⟨.error (.ofAccess e), (d.admission c ctx r).context, (d.admission c ctx r).state⟩ []
  /-- The parameters cannot be bound; the error has the name of the command. -/
  | unbound {c : Command σ} {e : BindingError} (hc : d.registry.resolve name = .ok c)
      (hadmitted : (d.admission c ctx r).result = .ok ())
      (h : c.bound d.service params (d.admission c ctx r).state = .error e) :
    Ending ⟨.error (.binding (e.forCommand c.name)), (d.admission c ctx r).context,
      c.prepared d.service params (d.admission c ctx r).state⟩ []
  /-- The body fails. -/
  | failed {c : Command σ} {target : c.Params} {e : CommandError}
      (hbody : d.Reaches name params ctx r c target)
      (h : (d.bodyStart params ctx r c target).ending.result = .error e) :
    Ending (d.afterBody params ctx r c target (.error (.ofCommand c.name e)))
      [d.bodyStart params ctx r c target]
  /-- The output cannot be written. -/
  | unwritable {c : Command σ} {target : c.Params} {reason : String}
      (hbody : d.Reaches name params ctx r c target)
      (h : (d.bodyStart params ctx r c target).ending.result = .ok (.error reason)) :
    Ending (d.afterBody params ctx r c target
        (.error (.execution c.name ["serializing command output", reason])))
      [d.bodyStart params ctx r c target]
  /-- The output is the result. -/
  | finished {c : Command σ} {target : c.Params} {document : Json}
      (hbody : d.Reaches name params ctx r c target)
      (h : (d.bodyStart params ctx r c target).ending.result = .ok (.ok document)) :
    Ending (d.afterBody params ctx r c target (.ok (Value.ofJson document.sorted)))
      [d.bodyStart params ctx r c target]

end

/-- Without interceptors the command is invoked on what the check leaves. -/
theorem chain_of_plain {d : Dispatcher σ} (hd : d.interceptors = []) (c : Command σ)
    (params : Parameters) (ctx : Context) (r : Runtime σ) :
    d.chain c params ctx r =
      match (d.admission c ctx r).result with
      | .error e =>
        ⟨.error (.ofAccess e), (d.admission c ctx r).context, (d.admission c ctx r).state⟩
      | .ok () =>
        c.invoke d.service params (d.admission c ctx r).context (d.admission c ctx r).state := by
  unfold admission
  -- without an authenticator there is no guard, and without interceptors nothing else
  cases ha : d.authenticator with
  | none => simp [chain, guards, ha, hd, buildChain, terminal]
  | some a =>
    cases hresult : (checked a c ctx r).1.result with
    | error e =>
      have hctx : (checked a c ctx r).1.context = ctx :=
        AccessRecords.check_context_of_error hresult
      rw [chain_of_denied ha hresult]
      simp only [refusal, hctx]
    | ok _ =>
      rw [chain_of_passed ha hresult, hd]
      rfl

/-- Without interceptors a chain starts what the command starts on what the check leaves. -/
theorem startsOf_of_plain {d : Dispatcher σ} (hd : d.interceptors = []) (c : Command σ)
    (params : Parameters) (ctx : Context) (r : Runtime σ) :
    d.startsOf c params ctx r =
      match (d.admission c ctx r).result with
      | .error _ => []
      | .ok () =>
        c.starts d.service params (d.admission c ctx r).context (d.admission c ctx r).state := by
  unfold admission startsOf guards
  rw [hd]
  cases d.authenticator with
  | none => rfl
  | some a =>
    simp only [List.map_nil, List.append_nil, chainStarts, Interceptor.starts,
      Interceptor.authorization, checked]
    cases (r.access.check a c.key c.name c.access ctx r.world).1.result with
    | error e => rfl
    | ok _ => simp only [Link.starts, List.append_nil]

/-- The body runs on what the stages before it leave, and the result is read off its end. -/
theorem run_eq_afterBody (d : Dispatcher σ) (params : Parameters) (ctx : Context) (r : Runtime σ)
    (c : Command σ) (target : c.Params) :
    c.run target (d.admission c ctx r).context
        (c.prepared d.service params (d.admission c ctx r).state) =
      d.afterBody params ctx r c target
        (match (d.bodyStart params ctx r c target).ending.result with
          | .error e => .error (.ofCommand c.name e)
          | .ok output => Command.resultOf c.name output) := rfl

/-- Without interceptors of its own every dispatch ends at the first stage that fails, or after
    the last one. -/
theorem dispatch_ending {d : Dispatcher σ} (hd : d.interceptors = []) (name : String)
    (params : Parameters) (ctx : Context) (r : Runtime σ) :
    d.Ending name params ctx r (d.dispatch name params ctx r) (d.starts name params ctx r) := by
  rw [starts_eq]
  unfold dispatch
  cases hc : d.registry.resolve name with
  | error e => exact .unresolved hc
  | ok c =>
    simp only [chain_of_plain hd, startsOf_of_plain hd]
    cases hadmitted : (d.admission c ctx r).result with
    | error e => exact .refused hc hadmitted
    | ok _ =>
      simp only [Command.invoke_eq, Command.starts]
      cases hbound : c.bound d.service params (d.admission c ctx r).state with
      | error e => exact .unbound hc hadmitted hbound
      | ok target =>
        have hbody : d.Reaches name params ctx r c target := ⟨hc, hadmitted, hbound⟩
        simp only [run_eq_afterBody]
        -- a body fails, gives something that cannot be written, or gives a document
        cases hresult : (d.bodyStart params ctx r c target).ending.result with
        | error e => exact .failed hbody hresult
        | ok output =>
          cases output with
          | error reason => exact .unwritable hbody hresult
          | ok document => exact .finished hbody hresult

/-! ## What the ending says of the starts and of the context -/

section

variable {d : Dispatcher σ} {name : String} {params : Parameters} {ctx : Context} {r : Runtime σ}
  {out : Outcome (Runtime σ)} {starts : List (Start σ)}

/-- A dispatch gets as far as one body at most. -/
theorem Reaches.bodyStart_eq {c c' : Command σ} {target : c.Params} {target' : c'.Params}
    (h : d.Reaches name params ctx r c target) (h' : d.Reaches name params ctx r c' target') :
    d.bodyStart params ctx r c' target' = d.bodyStart params ctx r c target := by
  obtain rfl : c' = c := Except.ok.inj (h'.resolved.symm.trans h.resolved)
  have htarget : target' = target := Except.ok.inj (h'.bound.symm.trans h.bound)
  rw [htarget]

/-- If the stages before the body succeed, the body is started, and nothing else. -/
theorem Ending.starts_of_reaches (h : d.Ending name params ctx r out starts) {c : Command σ}
    {target : c.Params} (hbody : d.Reaches name params ctx r c target) :
    starts = [d.bodyStart params ctx r c target] := by
  cases h with
  -- a stage that fails here would have to succeed there
  | unresolved he => exact nomatch hbody.resolved.symm.trans he
  | refused hc he =>
    obtain rfl := Except.ok.inj (hc.symm.trans hbody.resolved)
    exact nomatch hbody.admitted.symm.trans he
  | unbound hc _ he =>
    obtain rfl := Except.ok.inj (hc.symm.trans hbody.resolved)
    exact nomatch hbody.bound.symm.trans he
  | failed hbody' _ => rw [hbody.bodyStart_eq hbody']
  | unwritable hbody' _ => rw [hbody.bodyStart_eq hbody']
  | finished hbody' _ => rw [hbody.bodyStart_eq hbody']

/-- If one of them fails, nothing is started. -/
theorem Ending.starts_of_not_reaches (h : d.Ending name params ctx r out starts)
    (hno : ∀ c target, ¬ d.Reaches name params ctx r c target) : starts = [] := by
  cases h with
  | unresolved _ => rfl
  | refused _ _ => rfl
  | unbound _ _ _ => rfl
  | failed hbody _ => exact absurd hbody (hno _ _)
  | unwritable hbody _ => exact absurd hbody (hno _ _)
  | finished hbody _ => exact absurd hbody (hno _ _)

/-- With nothing started the context is as it was, or as the check has left it. -/
theorem Ending.context_of_no_start (h : d.Ending name params ctx r out []) :
    out.context = ctx ∨
      ∃ c, d.registry.resolve name = .ok c ∧ d.AtMostIdentified c r ctx out.context := by
  cases h with
  | unresolved _ => exact .inl rfl
  | refused hc _ => exact .inr ⟨_, hc, d.admission_context _ ctx r⟩
  | unbound hc _ _ => exact .inr ⟨_, hc, d.admission_context _ ctx r⟩

end

/-- What the stages of a dispatch must give. -/
structure InOrder (d : Dispatcher σ) (name : String) (params : Parameters) (ctx : Context)
    (r : Runtime σ) : Prop where
  /-- To watch the bodies changes nothing, whatever was started before. -/
  watched : ∀ earlier, d.watched.dispatch name params ctx (r.watched earlier) =
    (d.dispatch name params ctx r).watched (earlier ++ d.starts name params ctx r)
  /-- The earliest stage that fails decides the outcome. -/
  ending : d.Ending name params ctx r (d.dispatch name params ctx r) (d.starts name params ctx r)
  /-- The body is started once if the stages before it succeed. -/
  once : ∀ c target, d.Reaches name params ctx r c target →
    d.starts name params ctx r = [d.bodyStart params ctx r c target]
  /-- Otherwise no body is. -/
  never : (∀ c target, ¬ d.Reaches name params ctx r c target) → d.starts name params ctx r = []
  /-- Without a start nothing of the context is new but the identity of a caller that passed. -/
  frame : d.starts name params ctx r = [] →
    (d.dispatch name params ctx r).context = ctx ∨ ∃ c, d.registry.resolve name = .ok c ∧
      d.AtMostIdentified c r ctx (d.dispatch name params ctx r).context

/-- Without interceptors of its own a dispatcher goes through its stages in order: whatever is
    registered, however access is controlled and parameters are converted, and from any state,
    the first stage that fails decides the outcome, the body of the command that the name stands
    for is started once if the stages before it succeed and no body is otherwise, and until then
    the context gets nothing but the identity of a caller that passed the check. -/
theorem dispatch_inOrder {d : Dispatcher σ} (hd : d.interceptors = []) (name : String)
    (params : Parameters) (ctx : Context) (r : Runtime σ) : d.InOrder name params ctx r := by
  have h := dispatch_ending hd name params ctx r
  exact {
    watched := d.dispatch_watched name params ctx r
    ending := h
    once := fun c target hbody => h.starts_of_reaches hbody
    never := h.starts_of_not_reaches
    frame := fun hnone => by
      rw [hnone] at h
      exact h.context_of_no_start }

/-- A caller that passes the check is attached to the context.  Without the title that the
    command wants its body is not started, and with the title it is, once. -/
theorem inOrder_users_create :
    let eve := Identity.make "eve" ["ROLE_USER"]
    let a : Authenticator Sample.Log := fun _ log => (.ok (some eve), log)
    let c := Sample.commandAt { declarations := [.own "title" .string true (.string "")] } 1
    let d : Dispatcher Sample.Log :=
      ⟨{}, CommandRegistry.registerEach "app" [c], Conversion.Service.standard, some a, []⟩
    let r : Runtime Sample.Log := { world := [] }
    let title := Parameters.ofEntries [("title", .string "Go")]
    d.interceptors = [] ∧
      d.starts "users.Create" {} {} r = [] ∧
      (d.dispatch "users.Create" {} {} r).result =
        .error (.binding ⟨"app.users.Create", [.missing "title"]⟩) ∧
      (d.dispatch "users.Create" {} {} r).context = Context.setIdentity {} eve ∧
      d.starts "users.Create" title {} r =
        [c.started [("title", .string "Go")] (Context.setIdentity {} eve) []] := by
  intro eve a c d r title
  have hd : d.interceptors = [] := rfl
  have hc : d.registry.resolve "users.Create" = .ok c := rfl
  -- without a title there is nothing to start the body with
  have hout := (dispatch_inOrder hd "users.Create" {} {} r).never fun c' target hbody => by
    obtain rfl : c' = c := Except.ok.inj (hbody.resolved.symm.trans hc)
    exact nomatch hbody.bound
  have honce := (dispatch_inOrder hd "users.Create" title {} r).once c [("title", .string "Go")]
    ⟨hc, rfl, rfl⟩
  exact ⟨hd, hout, rfl, rfl, honce⟩

end Dispatcher

end CommandBus
