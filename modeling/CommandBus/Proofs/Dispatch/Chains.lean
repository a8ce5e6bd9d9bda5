import CommandBus.Dispatch.Chain
import CommandBus.Sample.Interceptor

/-!
# Chains of interceptors

Interceptors in a row are one interceptor: a chain can be cut anywhere, and its second part is the
executor at the end of the first one.  What an interceptor sees of the rest of its chain are the
outcomes of its own calls, so a chain depends on the executor at its end for the calls that get
there and for no others.

That is why a link that only watches can be put anywhere, and why nothing behind a link that ends
the dispatch matters.

## Key results

- `buildChain_append`: a chain can be cut anywhere
- `buildChain_of_traced`: watching links make no difference
- `answer_buildChain_congr`: a chain depends on its end for the calls that reach it
- `answer_of_stopped`: nothing behind a link that ends the dispatch makes a difference
- `buildChain_record`: what recording links leave in the log
- `buildChain_laws`: all of these together
-/

namespace CommandBus

/-! ## Calls -/

/-- What an executor is called with. -/
structure Call (σ τ : Type) where
  command : Command σ
  params : Parameters
  context : Context
  state : τ

/-- The outcome of a call. -/
def Executor.answer {σ τ : Type} (e : Executor σ τ) (call : Call σ τ) : Outcome τ :=
  e call.command call.params call.context call.state

/-- The course of an interceptor for a call. -/
def Interceptor.course {σ τ : Type} (i : Interceptor σ τ) (call : Call σ τ) : Link σ τ :=
  i call.command call.params call.context call.state

namespace Link

variable {σ τ : Type}

/-- The calls of the rest of the chain that a course makes, in their order. -/
def calls (rest : Executor σ τ) : Link σ τ → List (Call σ τ)
  | .finish _ => []
  | .next command params ctx state resume =>
    ⟨command, params, ctx, state⟩ :: calls rest (resume (rest command params ctx state))

/-- A course that makes the same calls to two executors and gets the same outcomes ends the same
    way, and its calls are the same. -/
theorem run_congr {rest rest' : Executor σ τ} {link : Link σ τ}
    (h : ∀ call ∈ link.calls rest, rest'.answer call = rest.answer call) :
    link.run rest' = link.run rest ∧ link.calls rest' = link.calls rest := by
  induction link with
  | finish outcome => exact ⟨rfl, rfl⟩
  | next command params ctx state resume ih =>
    obtain ⟨hfirst, hlater⟩ := List.forall_mem_cons.1 h
    have hsame : rest' command params ctx state = rest command params ctx state := hfirst
    simp only [run, calls, hsame]
    obtain ⟨hrun, hcalls⟩ := ih _ hlater
    exact ⟨hrun, congrArg _ hcalls⟩

end Link

section

variable {σ τ : Type}

/-- The calls that reach the executor at the end of a chain, in their order. -/
def chainCalls (terminal : Executor σ τ) : List (Interceptor σ τ) → Call σ τ → List (Call σ τ)
  | [], call => [call]
  | i :: rest, call =>
    ((i.course call).calls (buildChain rest terminal)).flatMap (chainCalls terminal rest)

/-! ## Cutting a chain -/

/-- A chain can be cut anywhere. -/
theorem buildChain_append (xs ys : List (Interceptor σ τ)) (terminal : Executor σ τ) :
    buildChain (xs ++ ys) terminal = buildChain xs (buildChain ys terminal) :=
  List.foldr_append

/-- The calls that reach the end of a chain are those that get through its second part, of the
    calls that get through the first. -/
theorem chainCalls_append (xs ys : List (Interceptor σ τ)) (terminal : Executor σ τ)
    (call : Call σ τ) :
    chainCalls terminal (xs ++ ys) call =
      (chainCalls (buildChain ys terminal) xs call).flatMap (chainCalls terminal ys) := by
  induction xs generalizing call with
  | nil => exact (List.flatMap_singleton _ _).symm
  | cons i rest ih =>
    have hinner : chainCalls terminal (rest ++ ys) = fun call =>
        (chainCalls (buildChain ys terminal) rest call).flatMap (chainCalls terminal ys) :=
      funext ih
    rw [List.cons_append, chainCalls, chainCalls, hinner, buildChain_append, List.flatMap_assoc]

/-- A chain depends on the executor at its end for the calls that reach it. -/
theorem answer_buildChain_congr {terminal terminal' : Executor σ τ}
    {interceptors : List (Interceptor σ τ)} {call : Call σ τ}
    (h : ∀ reached ∈ chainCalls terminal interceptors call,
      terminal'.answer reached = terminal.answer reached) :
    (buildChain interceptors terminal').answer call =
      (buildChain interceptors terminal).answer call := by
  induction interceptors generalizing call with
  | nil => exact h call List.mem_cons_self
  | cons i rest ih =>
    -- the rest of the chain answers each call of the first interceptor the same
    have hrest : ∀ inner ∈ (i.course call).calls (buildChain rest terminal),
        (buildChain rest terminal').answer inner = (buildChain rest terminal).answer inner := by
      intro inner hinner
      apply ih
      intro reached hreached
      exact h reached (List.mem_flatMap.2 ⟨inner, hinner, hreached⟩)
    exact (Link.run_congr hrest).1

/-! ## Links that watch -/

/-- The second chain is the first one with watching links put in at any places. -/
inductive Traced : List (Interceptor σ τ) → List (Interceptor σ τ) → Prop where
  | nil : Traced [] []
  | keep {xs ys : List (Interceptor σ τ)} (i : Interceptor σ τ) (h : Traced xs ys) :
    Traced (i :: xs) (i :: ys)
  | insert {xs ys : List (Interceptor σ τ)} (h : Traced xs ys) :
    Traced xs (Interceptor.tracing :: ys)

/-- A link that watches is as good as none. -/
theorem Interceptor.around_tracing (rest : Executor σ τ) :
    (tracing : Interceptor σ τ).around rest = rest := rfl

/-- Watching links make no difference, wherever they are. -/
theorem buildChain_of_traced {xs ys : List (Interceptor σ τ)} (h : Traced xs ys)
    (terminal : Executor σ τ) : buildChain ys terminal = buildChain xs terminal := by
  induction h with
  | nil => rfl
  | keep i _ ih => exact congrArg i.around ih
  | @insert xs ys _ ih =>
    show Interceptor.tracing.around (buildChain ys terminal) = buildChain xs terminal
    rw [Interceptor.around_tracing, ih]

/-! ## Links that end the dispatch -/

/-- For a call an interceptor ends the dispatch, without going on to the rest of the chain. -/
def Interceptor.EndsAt (i : Interceptor σ τ) (call : Call σ τ) : Prop :=
  ∃ outcome, i.course call = .finish outcome

/-- Nothing behind a link that ends the dispatch makes a difference, and no call gets to the end of
    the chain. -/
theorem answer_of_stopped {xs : List (Interceptor σ τ)} {i : Interceptor σ τ}
    {ys : List (Interceptor σ τ)} {terminal : Executor σ τ} {call : Call σ τ}
    (h : ∀ reached ∈ chainCalls (buildChain (i :: ys) terminal) xs call, i.EndsAt reached) :
    (∀ (ys' : List (Interceptor σ τ)) (terminal' : Executor σ τ),
      (buildChain (xs ++ i :: ys') terminal').answer call =
        (buildChain (xs ++ i :: ys) terminal).answer call) ∧
      chainCalls terminal (xs ++ i :: ys) call = [] := by
  constructor
  · intro ys' terminal'
    rw [buildChain_append, buildChain_append]
    apply answer_buildChain_congr
    intro reached hreached
    obtain ⟨outcome, hends⟩ := h reached hreached
    -- what ends at the interceptor does not run what is behind it
    show (i.course reached).run _ = (i.course reached).run _
    rw [hends]
    rfl
  · rw [chainCalls_append]
    apply List.flatMap_eq_nil_iff.2
    intro reached hreached
    obtain ⟨outcome, hends⟩ := h reached hreached
    rw [chainCalls, hends]
    rfl

end

/-! ## Links that record -/

namespace Sample

/-- Links that record, with their labels, the first one outermost. -/
def recorders (labels : List String) : List (Interceptor Log Log) :=
  labels.map fun label => (Interception.record label).interceptor

/-- What recording links write before they go on, in the order in which it happens. -/
def befores (labels : List String) : List String := labels.map fun label => label ++ ":before"

/-- What recording links write of a result, in the order in which it happens. -/
def afters (labels : List String) (result : Except DispatchError Value) : List String :=
  labels.reverse.map fun label => Interception.ending label result

/-- A call as it gets through recording links. -/
def announced (labels : List String) (call : Call Log Log) : Call Log Log :=
  { call with state := (befores labels).reverse ++ call.state }

/-- An outcome as recording links hand it on. -/
def handedOn (labels : List String) (ended : Outcome Log) : Outcome Log :=
  { ended with state := (afters labels ended.result).reverse ++ ended.state }

theorem announced_cons (label : String) (labels : List String) (call : Call Log Log) :
    announced (label :: labels) call =
      announced labels { call with state := (label ++ ":before") :: call.state } := by
  simp [announced, befores]

theorem handedOn_cons (label : String) (labels : List String) (ended : Outcome Log) :
    handedOn (label :: labels) ended =
      let inner := handedOn labels ended
      { inner with state := Interception.ending label inner.result :: inner.state } := by
  simp [handedOn, afters]

/-- Recording links hand on the outcome of what is behind them, with what they write of it. -/
theorem buildChain_record (labels : List String) (terminal : Executor Log Log)
    (call : Call Log Log) :
    (buildChain (recorders labels) terminal).answer call =
      handedOn labels (terminal.answer (announced labels call)) := by
  induction labels generalizing call with
  | nil => rfl
  | cons label labels ih =>
    -- the first link writes its label, and the others do what they do in the longer log
    have hinner := ih { call with state := (label ++ ":before") :: call.state }
    rw [announced_cons, handedOn_cons, ← hinner]
    rfl

/-- One call gets through recording links. -/
theorem chainCalls_record (labels : List String) (terminal : Executor Log Log)
    (call : Call Log Log) :
    chainCalls terminal (recorders labels) call = [announced labels call] := by
  induction labels generalizing call with
  | nil => rfl
  | cons label labels ih =>
    rw [announced_cons, ← ih]
    exact List.append_nil _

/-- How a call must end in front of recording links, if it ends with `ended` behind them. -/
structure Recorded (labels : List String) (terminal : Executor Log Log) (call : Call Log Log)
    (ended outcome : Outcome Log) : Prop where
  /-- What is behind the links is called once, after all of them have said that they go on. -/
  once : chainCalls terminal (recorders labels) call = [announced labels call]
  /-- Its result is the result, whether it is a value or an error. -/
  unchanged : outcome.result = ended.result ∧ outcome.context = ended.context
  /-- The log, from the oldest entry on: what was there, the links from the first to the last, what
      was written behind them, and the links from the last to the first, each with what it was
      that it handed on. -/
  log : ∀ written, ended.state.reverse = (announced labels call).state.reverse ++ written →
    outcome.state.reverse =
      call.state.reverse ++ befores labels ++ written ++ afters labels ended.result
  /-- The links only add to the log that is left behind them. -/
  added : outcome.state.reverse = ended.state.reverse ++ afters labels ended.result

/-- Every call ends behind recording links as it must. -/
theorem recorded_buildChain (labels : List String) (terminal : Executor Log Log)
    (call : Call Log Log) :
    Recorded labels terminal call (terminal.answer (announced labels call))
      ((buildChain (recorders labels) terminal).answer call) := by
  -- the log is kept newest first, so that it is turned round to be read
  have hadded : ((buildChain (recorders labels) terminal).answer call).state.reverse =
      (terminal.answer (announced labels call)).state.reverse ++
        afters labels (terminal.answer (announced labels call)).result := by
    rw [buildChain_record, handedOn]
    simp
  constructor
  · exact chainCalls_record labels terminal call
  · rw [buildChain_record]
    exact ⟨rfl, rfl⟩
  · intro written hwritten
    rw [hadded, hwritten]
    simp [announced]
  · exact hadded

end Sample

/-! ## All laws -/

open Sample in
/-- Chains can be cut anywhere; watching links make no difference; a link that ends the dispatch
    leaves nothing to the links behind it; recording links see each other's entries nested. -/
theorem buildChain_laws {σ τ : Type} (xs ys : List (Interceptor σ τ)) (terminal : Executor σ τ) :
    buildChain (xs ++ ys) terminal = buildChain xs (buildChain ys terminal) ∧
    (∀ traced, Traced xs traced → buildChain traced terminal = buildChain xs terminal) ∧
    (∀ i call, (∀ reached ∈ chainCalls (buildChain (i :: ys) terminal) xs call, i.EndsAt reached) →
      (∀ ys' terminal', (buildChain (xs ++ i :: ys') terminal').answer call =
        (buildChain (xs ++ i :: ys) terminal).answer call) ∧
      chainCalls terminal (xs ++ i :: ys) call = []) ∧
    ∀ labels (terminal : Executor Log Log) call,
      Recorded labels terminal call (terminal.answer (announced labels call))
        ((buildChain (recorders labels) terminal).answer call) := by
  refine ⟨buildChain_append xs ys terminal, ?_, ?_, ?_⟩
  · intro traced h
    exact buildChain_of_traced h terminal
  · intro i call h
    exact answer_of_stopped h
  · exact recorded_buildChain

open Sample in
/-- Of two links the second one ends the dispatch, so that it makes no difference which links are
    behind it and how the chain ends, nor that links watch before either of the two.  The first
    one records what it gets from the second. -/
theorem buildChain_laws_stopped :
    let call : Call Log Log := ⟨commandAt {} 0, {}, {}, []⟩
    let first := (Interception.record "first").interceptor
    let stop := (Interception.stopFor "app.Alpha" (.string "kept")).interceptor
    let last := (Interception.fail (.noSuchCommand "gone")).interceptor
    let terminal := Sample.terminal ["title"] (.ok .null)
    let kept : Outcome Log := ⟨.ok (.string "kept"), {}, ["first:ok", "first:before"]⟩
    Traced [first, stop] [.tracing, first, .tracing, stop] ∧
      (∀ reached ∈ chainCalls (buildChain [stop, last] terminal) [first] call,
        stop.EndsAt reached) ∧
      (buildChain [.tracing, first, .tracing, stop] terminal).answer call = kept ∧
      ∀ behind terminal', (buildChain (first :: stop :: behind) terminal').answer call = kept := by
  intro call first stop last terminal kept
  have htraced : Traced [first, stop] [.tracing, first, .tracing, stop] :=
    .insert (.keep _ (.insert (.keep _ .nil)))
  -- the second interceptor answers for this command by itself
  have hends : ∀ reached ∈ chainCalls (buildChain [stop, last] terminal) [first] call,
      stop.EndsAt reached := by
    intro reached hreached
    obtain rfl := List.mem_singleton.1 hreached
    exact ⟨_, rfl⟩
  have hwatched := (buildChain_laws [first, stop] [] terminal).2.1 _ htraced
  have hstopped := (buildChain_laws [first] [last] terminal).2.2.1 stop call hends
  refine ⟨htraced, hends, ?_, ?_⟩
  · rw [hwatched]
    rfl
  · intro behind terminal'
    exact hstopped.1 behind terminal'

end CommandBus
