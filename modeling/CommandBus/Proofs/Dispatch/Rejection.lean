import CommandBus.Proofs.Dispatch.Registration
import CommandBus.Proofs.Dispatch.Starts
import CommandBus.Sample.Interceptor

/-!
# Rejected dispatches

A rejection is an error of the framework: every kind of error but the failure of the command
itself.  A dispatch ends with one before the body of a command is started, but not only then: a
body may fail with an error of the framework, which keeps its kind, and an interceptor that has
gone on may end with any error.

Interceptors apart, the two are told from each other by what the dispatcher's own chain has
started: nothing, or one body, which failed with the rejection itself.  Bodies that an
interceptor runs by itself, and those of dispatches that a body makes, are not started by the
chain, and no rejection tells of them.

## Key results

- `starts_of_buildChain`: what a chain has started when it ends with a rejection
- `starts_of_rejection`: the same of a dispatch
- `rejected_after_start`: bodies and interceptors that end with a rejection after a start, by the
  chain or by an interceptor itself
-/

namespace CommandBus

/-- The body failed with the error `e`, which keeps its kind. -/
def Start.Raises {σ : Type} (start : Start σ) (e : DispatchError) : Prop :=
  ∃ failure, start.ending.result = .error failure ∧
    DispatchError.ofCause? failure.cause = some e

/-- A rejection that a failure is told as is the cause of the failure. -/
theorem DispatchError.ofCause?_of_rejection {command : String} {failure : CommandError}
    (h : (ofCommand command failure).kind.isRejection = true) :
    ofCause? failure.cause = some (ofCommand command failure) := by
  obtain ⟨contexts, cause⟩ := failure
  cases cause with
  | other message => exact absurd h Bool.false_ne_true
  | dispatch e => rfl
  | denied e => rfl
  | access e => rfl
  | binding e => rfl
  | conversion e => rfl
  | configuration e => rfl

/-! ## The executor at the end of the chain -/

namespace Command

variable {σ : Type}

/-- A command that ends with a rejection was not started, or its body has failed with it. -/
theorem starts_of_rejected_invoke {c : Command σ} {s : Conversion.Service} {params : Parameters}
    {ctx : Context} {r : Runtime σ} {e : DispatchError}
    (h : (c.invoke s params ctx r).result = .error e) (hkind : e.kind.isRejection = true) :
    c.starts s params ctx r = [] ∨
      ∃ start, c.starts s params ctx r = [start] ∧ start.Raises e := by
  rw [invoke_eq] at h
  unfold starts
  cases hbound : c.bound s params r with
  | error _ => exact .inl rfl
  | ok target =>
    rw [hbound] at h
    refine .inr ⟨_, rfl, ?_⟩
    cases hresult : (c.execute target ctx (c.prepared s params r).world).result with
    | error failure =>
      simp only [run, hresult, Except.error.injEq] at h
      subst h
      exact ⟨failure, hresult, DispatchError.ofCause?_of_rejection hkind⟩
    -- the output of a body that succeeds leads to an execution failure at worst
    | ok output =>
      cases output with
      | error reason =>
        simp only [run, hresult, resultOf, Except.error.injEq] at h
        subst h
        cases hkind
      | ok document =>
        simp only [run, hresult, resultOf] at h
        cases h

end Command

/-! ## Interceptors -/

/-- A course that has gone on and got `given` ends there, and with the error `e` only if that is
    what it got. -/
def Link.HandsBack {σ τ : Type} (e : DispatchError) (given : Outcome τ) : Link σ τ → Prop
  | .finish outcome => outcome.result = .error e → given.result = .error e
  | .next .. => False

/-- In a run of a chain, every interceptor that goes on does so once, and does not end with the
    error `e` unless the rest of the chain has. -/
def AllHandBack {σ τ : Type} (e : DispatchError) (terminal : Executor σ τ) :
    List (Interceptor σ τ) → Command σ → Parameters → Context → τ → Prop
  | [], _, _, _, _ => True
  | i :: rest, c, params, ctx, s =>
    match i c params ctx s with
    | .finish _ => True
    | .next c params ctx s resume =>
      let given := buildChain rest terminal c params ctx s
      (resume given).HandsBack e given ∧ AllHandBack e terminal rest c params ctx s

/-- A chain of interceptors that hand back has started nothing when it ends with `e`, or the one
    body that the executor at its end has started failed with `e`. -/
theorem starts_of_buildChain {σ : Type} {terminal : Executor σ (Runtime σ)}
    {terminalStarts : Executor.Starts σ} {e : DispatchError}
    (hterminal : ∀ c params ctx r, (terminal c params ctx r).result = .error e →
      terminalStarts c params ctx r = [] ∨
        ∃ start, terminalStarts c params ctx r = [start] ∧ start.Raises e)
    {interceptors : List (Interceptor σ (Runtime σ))} {c : Command σ} {params : Parameters}
    {ctx : Context} {r : Runtime σ} (hback : AllHandBack e terminal interceptors c params ctx r)
    (h : (buildChain interceptors terminal c params ctx r).result = .error e) :
    let starts := chainStarts terminal terminalStarts interceptors c params ctx r
    starts = [] ∨ ∃ start, starts = [start] ∧ start.Raises e := by
  induction interceptors generalizing c params ctx r with
  | nil => exact hterminal c params ctx r h
  | cons i rest ih =>
    have hrun : (buildChain (i :: rest) terminal c params ctx r) =
        (i c params ctx r).run (buildChain rest terminal) := rfl
    rw [hrun] at h
    unfold AllHandBack at hback
    simp only [chainStarts, Interceptor.starts]
    cases hlink : i c params ctx r with
    | finish outcome => exact .inl rfl
    | next c params ctx r resume =>
      simp only [hlink] at hback
      obtain ⟨hend, hrest⟩ := hback
      -- the course ends after its one pass, so the pass is all that it starts
      cases hresume : resume (buildChain rest terminal c params ctx r) with
      | next _ _ _ _ _ =>
        rw [hresume] at hend
        exact hend.elim
      | finish outcome =>
        rw [hresume] at hend
        simp only [hlink, Link.run, hresume] at h
        simp only [Link.starts, hresume, List.append_nil]
        exact ih hrest (hend h)

namespace Dispatcher

variable {σ : Type}

/-- In a dispatch, every interceptor that goes on does so once, and does not end with the error
    `e` unless the rest of the chain has. -/
def HandsBack (d : Dispatcher σ) (e : DispatchError) (name : String) (params : Parameters)
    (ctx : Context) (r : Runtime σ) : Prop :=
  ∀ c, d.registry.resolve name = .ok c →
    AllHandBack e d.terminal (d.guards ++ d.interceptors.map Interceptor.lift) c params ctx r

end Dispatcher

/-! ## Interceptors that always hand back -/

/-- An interceptor that goes on once at most, and then ends with a rejection only if it got it. -/
def Interceptor.HandsBack {σ τ : Type} (i : Interceptor σ τ) : Prop :=
  ∀ c params ctx s, match i c params ctx s with
    | .finish _ => True
    | .next _ _ _ _ resume =>
      ∀ e given, e.kind.isRejection = true → (resume given).HandsBack e given

/-- What a course does with the environment makes no difference to what it hands back. -/
theorem Link.HandsBack.lift {σ : Type} {e : DispatchError} {given : Outcome (Runtime σ)}
    {link : Link σ σ} (r : Runtime σ)
    (h : link.HandsBack e ⟨given.result, given.context, given.state.world⟩) :
    (link.lift r).HandsBack e given := by
  cases link with
  | finish outcome => exact h
  | next _ _ _ _ _ => exact h.elim

/-- An interceptor of the environment that hands back does so inside a runtime. -/
theorem Interceptor.HandsBack.lift {σ : Type} {i : Interceptor σ σ} (h : i.HandsBack) :
    i.lift.HandsBack := by
  intro c params ctx r
  have hi := h c params ctx r.world
  unfold Interceptor.lift
  cases hlink : i c params ctx r.world with
  | finish outcome => trivial
  | next c params ctx s resume =>
    rw [hlink] at hi
    intro e given hkind
    exact (hi e _ hkind).lift _

/-- The access check hands back. -/
theorem Interceptor.handsBack_authorization {σ : Type} (a : Authenticator σ) :
    (authorization a).HandsBack := by
  intro c params ctx r
  simp only [authorization]
  cases (r.access.check a c.key c.name c.access ctx r.world).1.result with
  | error e => trivial
  | ok _ => exact fun e given _ hsame => hsame

namespace Dispatcher

variable {σ : Type}

/-- If every interceptor always hands back, all of them do in any run. -/
theorem allHandBack_of_handsBack {τ : Type} {terminal : Executor σ τ} {e : DispatchError}
    (hkind : e.kind.isRejection = true) {interceptors : List (Interceptor σ τ)}
    (h : ∀ i ∈ interceptors, i.HandsBack) (c : Command σ) (params : Parameters) (ctx : Context)
    (s : τ) : AllHandBack e terminal interceptors c params ctx s := by
  induction interceptors generalizing c params ctx s with
  | nil => trivial
  | cons i rest ih =>
    obtain ⟨hi, hrest⟩ := List.forall_mem_cons.1 h
    have hlink := hi c params ctx s
    unfold AllHandBack
    -- an interceptor that ends the chain has nothing after it to hand back
    split
    · trivial
    · next hnext =>
      rw [hnext] at hlink
      exact ⟨hlink e _ hkind, ih hrest _ _ _ _⟩

/-- A dispatcher hands back if its own interceptors do. -/
theorem handsBack_of_interceptors {d : Dispatcher σ} (h : ∀ i ∈ d.interceptors, i.HandsBack)
    {e : DispatchError} (hkind : e.kind.isRejection = true) (name : String)
    (params : Parameters) (ctx : Context) (r : Runtime σ) :
    d.HandsBack e name params ctx r := by
  intro c _
  refine allHandBack_of_handsBack hkind ?_ c params ctx r
  intro i hi
  -- in front there is the guard, if there is one, and behind it the interceptors that were added
  rcases List.mem_append.1 hi with hguard | huser
  · unfold guards at hguard
    cases hd : d.authenticator with
    | none =>
      rw [hd] at hguard
      exact nomatch hguard
    | some a =>
      rw [hd] at hguard
      obtain rfl := List.mem_singleton.1 hguard
      exact Interceptor.handsBack_authorization a
  · obtain ⟨user, hmem, rfl⟩ := List.mem_map.1 huser
    exact (h user hmem).lift

end Dispatcher

/-- Every scripted interceptor hands back. -/
theorem Sample.Interception.handsBack (i : Interception) : i.interceptor.HandsBack := by
  intro c params ctx log
  match i with
  | .record label => exact fun e given _ hsame => hsame
  | .inject name value => exact fun e given _ hsame => hsame
  | .remove name => exact fun e given _ hsame => hsame
  | .see name => exact fun e given _ hsame => hsame
  | .caller => exact fun e given _ hsame => hsame
  | .stop value => trivial
  | .stopFor name value =>
    by_cases hname : c.name = name
    · simp only [interceptor, hname, if_true]
    · simp only [interceptor, hname, if_false]
      exact fun e given _ hsame => hsame
  | .fail e => trivial
  | .attribute key value immutable =>
    simp only [interceptor]
    obtain ⟨result, ctx⟩ := write ctx key value immutable
    cases result with
    | ok _ => exact fun e given _ hsame => hsame
    | error e => trivial
  -- a value in a map is a value, and an error stays what it is
  | .wrap key =>
    intro e given _ hmapped
    obtain ⟨result, _, _⟩ := given
    cases result with
    | ok v => exact nomatch hmapped
    | error other => exact hmapped
  -- a value in the place of an error is no error
  | .recover value =>
    intro e given _
    obtain ⟨result, _, _⟩ := given
    cases result with
    | ok v => exact fun hsame => hsame
    | error other => exact fun (hvalue : Except.ok value = .error e) => nomatch hvalue
  | .tracing => exact fun e given _ hsame => hsame

/-! ## Dispatches -/

namespace Dispatcher

variable {σ : Type}

/-- In a dispatch that is rejected, in which the interceptors hand back what they got, the chain
    has not started the body of any command, or has started one body, which failed with the
    rejection itself. -/
theorem starts_of_rejection {d : Dispatcher σ} {name : String} {params : Parameters}
    {ctx : Context} {r : Runtime σ} {e : DispatchError}
    (h : (d.dispatch name params ctx r).result = .error e) (hkind : e.kind.isRejection = true)
    (hback : d.HandsBack e name params ctx r) :
    d.starts name params ctx r = [] ∨
      ∃ start, d.starts name params ctx r = [start] ∧ start.Raises e := by
  rw [starts_eq]
  unfold dispatch at h
  cases hc : d.registry.resolve name with
  | error _ => exact .inl rfl
  | ok c =>
    rw [hc] at h
    -- the end of the chain starts at most one body, and the interceptors hand its error back
    exact starts_of_buildChain
      (fun _ _ _ _ hinvoke => Command.starts_of_rejected_invoke hinvoke hkind) (hback c hc) h

/-- A body that fails with a refusal of its own, behind interceptors that hand back: the refusal
    is the result, and the body is the one that was started. -/
theorem starts_of_rejection_alpha :
    let e : DispatchError := .accessDenied ⟨"app.Alpha", .unauthenticated⟩
    let c := Sample.commandAt
      { behaviour := .fail ⟨["signing in"], .denied ⟨"app.Alpha", .unauthenticated⟩⟩ } 0
    let d : Dispatcher Sample.Log :=
      ⟨{}, CommandRegistry.registerEach "app" [c], Conversion.Service.standard, none,
        [.record "outer", .wrap "result"].map Sample.Interception.interceptor⟩
    let r : Runtime Sample.Log := { world := [] }
    (d.dispatch "Alpha" {} {} r).result = .error e ∧ e.kind.isRejection = true ∧
      d.HandsBack e "Alpha" {} {} r ∧
      ∃ start, d.starts "Alpha" {} {} r = [start] ∧ start.Raises e := by
  intro e c d r
  have hresult : (d.dispatch "Alpha" {} {} r).result = .error e := rfl
  have hkind : e.kind.isRejection = true := rfl
  have hback : d.HandsBack e "Alpha" {} {} r := by
    refine handsBack_of_interceptors (fun i hi => ?_) hkind _ _ _ _
    obtain ⟨script, -, rfl⟩ := List.mem_map.1 hi
    exact script.handsBack
  have hstarted : (d.starts "Alpha" {} {} r).length = 1 := rfl
  -- one body was started, so that it is the body that raised the error
  obtain hnone | hraised := starts_of_rejection hresult hkind hback
  · rw [hnone] at hstarted
    exact nomatch hstarted
  · exact ⟨hresult, hkind, hback, hraised⟩

/-- Dispatches that are rejected although a body was started.  The body fails with an error of
    the framework, or an interceptor that has gone on puts one in the place of the result, or it
    goes on again without the parameters that it was given.  Or it does not go on at all, and
    invokes the command by itself: the chain has started nothing, and yet the body has written
    into the log that it was run. -/
theorem rejected_after_start :
    let dispatcher (script : Sample.Script) (interceptors : List (Interceptor _ _)) :
        Dispatcher Sample.Log :=
      ⟨{}, CommandRegistry.registerEach "app" [Sample.commandAt script 0],
        Conversion.Service.standard, none, interceptors⟩
    let denied : AccessDenied := ⟨"app.Alpha", .unauthenticated⟩
    let failing := dispatcher { behaviour := .fail ⟨[], .denied denied⟩ } []
    let replacing := dispatcher {} [fun c params ctx log => .next c params ctx log fun o =>
      .finish ⟨.error (.accessDenied denied), o.context, o.state⟩]
    let repeating := dispatcher { declarations := [.own "title" .string true .null] }
      [fun c params ctx log => .next c params ctx log fun o =>
        .next c {} o.context o.state .finish]
    let invoking := dispatcher {} [fun c params ctx log =>
      let done := c.invoke Conversion.Service.standard params ctx { world := log }
      .finish ⟨.error (.accessDenied denied), done.context, done.state.world⟩]
    let title := Parameters.ofEntries [("title", .string "Go")]
    let r : Runtime Sample.Log := { world := [] }
    ((failing.dispatch "Alpha" {} {} r).result = .error (.accessDenied denied) ∧
      (failing.starts "Alpha" {} {} r).map Start.name = ["app.Alpha"]) ∧
    ((replacing.dispatch "Alpha" {} {} r).result = .error (.accessDenied denied) ∧
      (replacing.starts "Alpha" {} {} r).map Start.name = ["app.Alpha"]) ∧
    ((repeating.dispatch "Alpha" title {} r).result =
        .error (.binding ⟨"app.Alpha", [.missing "title"]⟩) ∧
      (repeating.starts "Alpha" title {} r).map Start.name = ["app.Alpha"]) ∧
    ((invoking.dispatch "Alpha" {} {} r).result = .error (.accessDenied denied) ∧
      invoking.starts "Alpha" {} {} r = [] ∧
      (invoking.dispatch "Alpha" {} {} r).state.world = ["exec:app.Alpha"]) := by
  -- the body raises a rejection; an interceptor puts one in its place, hands a second call on, or
  -- runs the body by itself
  exact ⟨⟨rfl, rfl⟩, ⟨rfl, rfl⟩, ⟨rfl, rfl⟩, rfl, rfl, rfl⟩

end Dispatcher

end CommandBus
