import CommandBus.Dispatch.Dispatcher
import CommandBus.Proofs.Dispatch.Registration

/-!
# Building a dispatcher call by call

A dispatcher is built by a chain of calls in any order: commands and interceptors are added,
access control and conversions are set, the last call of each of these remaining.  `Calls` is
such a chain and `ofCalls` what it leaves to be built.

## Key results

- `authenticator_ofCalls`: access control is that of the last call, wherever it stands
- `build_eq`: what a successful build puts into the dispatcher
- `Built`: a dispatcher that was built with access control, by calls in some order
-/

namespace CommandBus

namespace Blueprint

variable {σ : Type}

/-- One call of the chain that a dispatcher is built by. -/
inductive Call (σ : Type) where
  | command (c : Command σ)
  | interceptor (i : Interceptor σ σ)
  | accessControl (a : Authenticator σ)
  | conversions (s : Conversion.Service)

/-- What is to be built after one more call. -/
def call (b : Blueprint σ) : Call σ → Blueprint σ
  | .command c => b.command c
  | .interceptor i => b.interceptor i
  | .accessControl a => b.accessControl a
  | .conversions s => b.conversions s

/-- What a chain of calls leaves to be built. -/
def ofCalls (settings : DispatcherSettings) (calls : List (Call σ)) : Blueprint σ :=
  calls.foldl call { settings := settings }

/-- The commands of a chain of calls, in the order of the calls. -/
def commandsOf (calls : List (Call σ)) : List (Command σ) :=
  calls.filterMap fun
    | .command c => some c
    | _ => none

/-- The last call of access control in a chain is one with `a`. -/
def Controls (calls : List (Call σ)) (a : Authenticator σ) : Prop :=
  ∃ before after, calls = before ++ .accessControl a :: after ∧ ∀ b, .accessControl b ∉ after

/-- Calls leave the settings alone. -/
private theorem foldl_call_settings (calls : List (Call σ)) (b : Blueprint σ) :
    (calls.foldl call b).settings = b.settings := by
  induction calls generalizing b with
  | nil => rfl
  | cons c calls ih =>
    rw [List.foldl_cons, ih]
    cases c <;> rfl

@[simp] theorem ofCalls_settings (settings : DispatcherSettings) (calls : List (Call σ)) :
    (ofCalls settings calls).settings = settings := foldl_call_settings calls _

/-- Calls add their commands behind those that are there. -/
private theorem foldl_call_commands (calls : List (Call σ)) (b : Blueprint σ) :
    (calls.foldl call b).commands = b.commands ++ commandsOf calls := by
  induction calls generalizing b with
  | nil => simp [commandsOf]
  | cons c calls ih =>
    rw [List.foldl_cons, ih]
    cases c with
    | command c => simp [call, command, commandsOf]
    | interceptor i => rfl
    | accessControl a => rfl
    | conversions s => rfl

theorem ofCalls_commands (settings : DispatcherSettings) (calls : List (Call σ)) :
    (ofCalls settings calls).commands = commandsOf calls := by
  rw [ofCalls, foldl_call_commands]
  rfl

/-- Calls without access control leave it alone. -/
private theorem foldl_call_authenticator {calls : List (Call σ)}
    (h : ∀ a, .accessControl a ∉ calls) (b : Blueprint σ) :
    (calls.foldl call b).authenticator = b.authenticator := by
  induction calls generalizing b with
  | nil => rfl
  | cons c calls ih =>
    rw [List.foldl_cons, ih fun a ha => h a (List.mem_cons_of_mem _ ha)]
    cases c with
    | command c => rfl
    | interceptor i => rfl
    | accessControl a => exact absurd List.mem_cons_self (h a)
    | conversions s => rfl

/-- The last call of access control counts, at whatever point of the chain it stands. -/
theorem authenticator_ofCalls {calls : List (Call σ)} {a : Authenticator σ}
    (h : Controls calls a) (settings : DispatcherSettings) :
    (ofCalls settings calls).authenticator = some a := by
  -- calls before it are replaced, calls after it set something else
  obtain ⟨before, after, rfl, hafter⟩ := h
  rw [ofCalls, List.foldl_append, List.foldl_cons, foldl_call_authenticator hafter]
  rfl

/-- `d` was built with the access control of `a`, by calls in some order. -/
structure Built (settings : DispatcherSettings) (calls : List (Call σ)) (a : Authenticator σ)
    (d : Dispatcher σ) : Prop where
  controls : Controls calls a
  build : (ofCalls settings calls).build = .ok d

/-- What a successful build puts into the dispatcher. -/
theorem build_eq {b : Blueprint σ} {d : Dispatcher σ} (h : b.build = .ok d) :
    d.registry = CommandRegistry.registerEach b.settings.root b.commands ∧
      d.authenticator = b.authenticator ∧ d.interceptors = b.interceptors ∧
      d.settings = b.settings := by
  simp only [build] at h
  split at h
  · exact nomatch h
  · next registry hr =>
    obtain rfl := Except.ok.inj h
    exact ⟨CommandRegistry.registerAll_eq hr, rfl, rfl, rfl⟩

/-- Parameters are converted by the service that was given, or by the built-in one. -/
theorem service_of_build {b : Blueprint σ} {d : Dispatcher σ} (h : b.build = .ok d) :
    d.service = b.service.getD Conversion.Service.standard := by
  simp only [build] at h
  split at h
  · exact nomatch h
  · obtain rfl := Except.ok.inj h
    rfl

namespace Built

variable {settings : DispatcherSettings} {calls : List (Call σ)} {a : Authenticator σ}
  {d : Dispatcher σ}

theorem authenticator (h : Built settings calls a d) : d.authenticator = some a := by
  rw [(build_eq h.build).2.1, authenticator_ofCalls h.controls]

theorem registry (h : Built settings calls a d) :
    d.registry = CommandRegistry.registerEach settings.root (commandsOf calls) := by
  rw [(build_eq h.build).1, ofCalls_settings, ofCalls_commands]

theorem root (h : Built settings calls a d) : d.registry.root = settings.root := by
  rw [h.registry, CommandRegistry.registerEach_root]

theorem keyed (h : Built settings calls a d) : d.registry.Keyed := by
  rw [h.registry]
  exact CommandRegistry.keyed_registerEach _ _

end Built

end Blueprint

end CommandBus
