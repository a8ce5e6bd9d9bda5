import CommandBus.Proofs.Dispatch.Consistency
import CommandBus.Proofs.Dispatch.Memory

/-!
# The startup check

With access control every command is classified at its first use, and a mistake in its
classifiers is told from then on.  The startup check classifies all registered commands at once,
in the order of their names, and stops at the first mistake.  It finds what the uses of the
commands would find, and nothing that was done before changes what it finds: the records that
it starts from are faithful after any operations.

## Key results

- `faithful_after`: operations keep the records faithful, one by one and then all together
- `checked_configuration_iff`: a check tells a mistake exactly if the classifiers are one
- `startup_checked`: what the startup check tells after any operations
-/

namespace CommandBus

namespace Dispatcher

variable {σ : Type}

/-! ## Operations -/

/-- A use of a dispatcher, or a change of the environment between two uses. -/
inductive Operation (σ : Type) where
  | dispatch (name : String) (params : Parameters) (ctx : Context)
  | dispatchTo (c : Command σ) (params : Parameters) (ctx : Context)
  | dispatchType (c : Command σ) (params : Parameters) (ctx : Context)
  | verifyAccess
  | describe
  | environment (s : σ)

namespace Operation

/-- The state after an operation. -/
def apply (d : Dispatcher σ) (r : Runtime σ) : Operation σ → Runtime σ
  | .dispatch name params ctx => (d.dispatch name params ctx r).state
  | .dispatchTo c params ctx => (d.dispatchTo c params ctx r).state
  | .dispatchType c params ctx => (d.dispatchType c params ctx r).state
  | .verifyAccess => (d.verifyAccess r).2
  | .describe => (d.describe r).2
  | .environment s => { r with world := s }

/-- A command that is dispatched as it is, registered or not, declares what is said of its
    type. -/
def Own (declared : TypeKey → Declaration) : Operation σ → Prop
  | .dispatchTo c _ _ => c.declaration = declared c.key
  | _ => True

end Operation

/-- The state after operations in turn. -/
def after (d : Dispatcher σ) (history : List (Operation σ)) (r : Runtime σ) : Runtime σ :=
  history.foldl (Operation.apply d) r

open AccessRecords CommandRegistry

variable {d : Dispatcher σ} {declared : TypeKey → Declaration}

/-- A dispatch of a command that was found before keeps the records faithful. -/
theorem faithful_dispatchTo {c : Command σ} (hc : c.declaration = declared c.key)
    {r : Runtime σ} (hf : Faithful declared r.access) (params : Parameters) (ctx : Context) :
    Faithful declared (d.dispatchTo c params ctx r).state.access := by
  unfold dispatchTo
  split
  · exact hf
  · exact faithful_chain hc hf params ctx

/-- A dispatch by type keeps the records faithful. -/
theorem faithful_dispatchType (hk : d.registry.Keyed) (h : d.DeclaredBy declared)
    (c : Command σ) {r : Runtime σ} (hf : Faithful declared r.access) (params : Parameters)
    (ctx : Context) : Faithful declared (d.dispatchType c params ctx r).state.access := by
  unfold dispatchType
  cases hfound : d.registry.ofType? c.key with
  | none => exact hf
  | some found => exact faithful_dispatchTo (h found (hk.of_ofType? hfound).1) hf params ctx

/-- One operation keeps the records faithful. -/
theorem faithful_operation (hk : d.registry.Keyed) (h : d.DeclaredBy declared) {r : Runtime σ}
    (hf : Faithful declared r.access) {operation : Operation σ} (hown : operation.Own declared) :
    Faithful declared (operation.apply d r).access := by
  cases operation with
  | dispatch name params ctx => exact faithful_dispatch h hf name params ctx
  | dispatchTo c params ctx => exact faithful_dispatchTo hown hf params ctx
  | dispatchType c params ctx => exact faithful_dispatchType hk h c hf params ctx
  | verifyAccess => exact faithful_verifyAccess h hf
  | describe => exact faithful_describe h hf
  | environment s => exact hf

/-- Operations in turn keep the records faithful. -/
theorem faithful_after (hk : d.registry.Keyed) (h : d.DeclaredBy declared)
    {history : List (Operation σ)} (hown : ∀ operation ∈ history, operation.Own declared)
    {r : Runtime σ} (hf : Faithful declared r.access) :
    Faithful declared (d.after history r).access := by
  induction history generalizing r with
  | nil => exact hf
  | cons operation rest ih =>
    rw [List.forall_mem_cons] at hown
    exact ih hown.2 (faithful_operation hk h hf hown.1)

/-! ## Mistakes -/

/-- A check tells a mistake exactly if the classifiers are one, whoever the caller is. -/
theorem checked_configuration_iff {c : Command σ} (hc : c.declaration = declared c.key)
    {r : Runtime σ} (hf : Faithful declared r.access) (a : Authenticator σ) (ctx : Context)
    {e : ConfigurationError} :
    (checked a c ctx r).1.result = .error (.configuration e) ↔ c.mistake? = some e := by
  have hfst : (checked a c ctx r).1 = _ := check_fst hf hc a ctx r.world
  rw [hfst, Command.mistake?_eq_some_iff]
  cases c.declaration.policy with
  | error mistake => simp
  | ok policy =>
    -- an authorization passes or denies, and never tells a mistake
    cases hresult : (policy.authorize a c.declaration.command ctx r.world).result with
    | ok u => simp [hresult, Except.mapError]
    | error denied => simp [hresult, Except.mapError]

/-- The startup check tells the first mistake in the order of the registered commands. -/
theorem verifyAccess_fst {a : Authenticator σ} (ha : d.authenticator = some a)
    (h : d.DeclaredBy declared) {r : Runtime σ} (hf : Faithful declared r.access) :
    (d.verifyAccess r).1 =
      match d.registry.commands.findSome? Command.mistake? with
      | some e => .error e
      | none => .ok () := by
  rw [verifyAccess, ha]
  exact verifyCommands_fst h (fun _ hc => hc) hf

/-- A command with a mistake in its classifiers, and the one with the least name: every other
    one with a mistake has a name that is greater, byte by byte. -/
structure LeastMistaken (d : Dispatcher σ) (c : Command σ) (e : ConfigurationError) : Prop where
  registered : c ∈ d.registry.commands
  mistaken : AccessPolicy.classify c.name c.access = .error e
  least : ∀ other ∈ d.registry.commands,
    (∃ mistake, AccessPolicy.classify other.name other.access = .error mistake) →
      other = c ∨ Bytes.ofText c.name < Bytes.ofText other.name

/-- The first mistake in the order of the registered commands is that of the least name. -/
theorem leastMistaken_of_findSome? {e : ConfigurationError}
    (hsorted : d.registry.commands.Pairwise fun c other =>
      Bytes.ofText c.name < Bytes.ofText other.name)
    (h : d.registry.commands.findSome? Command.mistake? = some e) :
    ∃ c, d.LeastMistaken c e := by
  obtain ⟨before, c, after, hcs, hmistake, hbefore⟩ := List.findSome?_eq_some_iff.1 h
  refine ⟨c, by rw [hcs]; simp, Command.mistake?_eq_some_iff.1 hmistake, ?_⟩
  rintro other hother ⟨mistake, hpolicy⟩
  rw [hcs] at hsorted hother
  have hafter := (List.pairwise_append.1 hsorted).2.1
  rcases List.mem_append.1 hother with hother | hother
  -- no command before it has a mistake, and every command after it has a greater name
  · have hnone := hbefore other hother
    rw [Command.mistake?_eq_some_iff.2 hpolicy] at hnone
    exact nomatch hnone
  · rcases List.mem_cons.1 hother with rfl | hother
    · exact .inl rfl
    · exact .inr (List.rel_of_pairwise_cons hafter hother)

/-! ## The startup check -/

/-- No check of a command without a mistake tells one, and every check of a command with one. -/
theorem mistake?_eq_none_iff {c : Command σ} (hc : c.declaration = declared c.key)
    {r : Runtime σ} (hf : Faithful declared r.access) (a : Authenticator σ) :
    c.mistake? = none ↔ ∀ ctx s e,
      (checked a c ctx { r with world := s }).1.result ≠ .error (.configuration e) := by
  have hchecked : ∀ ctx s e,
      (checked a c ctx { r with world := s }).1.result = .error (.configuration e) ↔
        c.mistake? = some e :=
    fun ctx s e => checked_configuration_iff hc (show Faithful declared
      ({ r with world := s } : Runtime σ).access from hf) a ctx
  simp only [ne_eq, hchecked]
  cases hm : c.mistake? with
  | none => simp
  | some e => exact ⟨fun h => (nomatch h), fun h => absurd rfl (h {} r.world e)⟩

/-- Every dispatch of a command with a mistake tells the mistake. -/
theorem dispatch_mistake {a : Authenticator σ} (ha : d.authenticator = some a) {c : Command σ}
    (hc : c.declaration = declared c.key) {e : ConfigurationError} (hmistake : c.mistake? = some e)
    (hin : inNamespace d.registry.root c.name = true)
    {enter : Parameters → Context → Runtime σ → Outcome (Runtime σ)} (henter : d.Entry c enter)
    {r : Runtime σ} (hf : Faithful declared r.access) (params : Parameters) (ctx : Context) :
    (enter params ctx r).result = .error (.configuration e) := by
  have hchecked := (checked_configuration_iff hc hf a ctx).2 hmistake
  rw [henter.eq_refusal ha hin hchecked params]
  rfl

/-- What the startup check tells in a state, where access is controlled by `a`. -/
structure StartupChecked (d : Dispatcher σ) (a : Authenticator σ) (r : Runtime σ) : Prop where
  /-- It passes if no check of a registered command tells a mistake, in any context. -/
  passes : (d.verifyAccess r).1 = .ok () ↔
    ∀ c ∈ d.registry.commands, ∀ ctx s e,
      (checked a c ctx { r with world := s }).1.result ≠ .error (.configuration e)
  /-- Otherwise it tells the mistake of the least name. -/
  least : ∀ e, (d.verifyAccess r).1 = .error e → ∃ c, d.LeastMistaken c e
  /-- A command with a mistake tells it in every dispatch, if it is in the namespace. -/
  dispatched : ∀ c ∈ d.registry.commands, ∀ e, AccessPolicy.classify c.name c.access = .error e →
    inNamespace d.registry.root c.name = true →
    (d.Entry c (d.dispatch c.name) ∧ d.Entry c (d.dispatchTo c) ∧ d.Entry c (d.dispatchType c)) ∧
      ∀ enter, d.Entry c enter → ∀ params ctx s,
        (enter params ctx { r with world := s }).result = .error (.configuration e)
  /-- It tells what it would tell if nothing had been done before. -/
  independent : ∀ s, (d.verifyAccess r).1 = (d.verifyAccess { world := s }).1

/-- A dispatcher with access control is built, and starts with records that are faithful to what
    the types declare.  After any operations under the types' own declarations the startup check
    passes if no registered command is ever refused for its classifiers.  Otherwise it tells the
    mistake of the least name, which every dispatch of that command tells too.  What was done
    before changes nothing. -/
theorem startup_checked {b : Blueprint σ} (hb : b.build = .ok d) {a : Authenticator σ}
    (ha : d.authenticator = some a) (h : d.DeclaredBy declared) {start : Runtime σ}
    (hf : Faithful declared start.access) {history : List (Operation σ)}
    (hown : ∀ operation ∈ history, operation.Own declared) :
    d.StartupChecked a (d.after history start) := by
  have hregistry := (Blueprint.build_eq hb).1
  have hk : d.registry.Keyed := by
    rw [hregistry]
    exact keyed_registerEach _ _
  have hsorted : d.registry.commands.Pairwise fun c other =>
      Bytes.ofText c.name < Bytes.ofText other.name := by
    rw [hregistry]
    exact pairwise_commands_registerEach _ _
  -- all that is used of the operations is that they left faithful records
  have hafter := faithful_after hk h hown hf
  generalize d.after history start = r at hafter
  have hverify := verifyAccess_fst ha h hafter
  refine ⟨?passes, ?least, ?dispatched, ?independent⟩
  case passes =>
    -- a command without a mistake is never refused for its configuration
    have hnone : d.registry.commands.findSome? Command.mistake? = none ↔
        ∀ c ∈ d.registry.commands, ∀ ctx s e,
          (checked a c ctx { r with world := s }).1.result ≠ .error (.configuration e) := by
      rw [List.findSome?_eq_none_iff]
      exact forall₂_congr fun c hc => mistake?_eq_none_iff (h c hc) hafter a
    rw [hverify, ← hnone]
    cases d.registry.commands.findSome? Command.mistake? <;> simp
  case least =>
    intro e he
    rw [hverify] at he
    cases hfirst : d.registry.commands.findSome? Command.mistake? with
    | none => simp [hfirst] at he
    | some mistake =>
      -- the commands are in the order of their names, so that the first mistake is the least
      obtain rfl : mistake = e := by simpa [hfirst] using he
      exact leastMistaken_of_findSome? hsorted hfirst
  case dispatched =>
    intro c hc e he hin
    obtain ⟨hname, hcommand, htype⟩ := entry_of_mem hk hc hin
    -- commands of one type declare the same, their names included
    have htypes : ∀ other ∈ d.registry.commands, other.key = c.key → other.name = c.name := by
      intro other hother hkey
      have hsame : other.declaration = c.declaration := by rw [h other hother, h c hc, hkey]
      exact congrArg Declaration.command hsame
    refine ⟨⟨hname, hcommand, htype htypes⟩, fun enter henter params ctx s => ?_⟩
    exact dispatch_mistake ha (h c hc) (Command.mistake?_eq_some_iff.2 he) hin henter
      (r := { r with world := s }) hafter params ctx
  case independent =>
    intro s
    have hfresh : Faithful declared ({ world := s } : Runtime σ).access := faithful_empty declared
    rw [hverify, verifyAccess_fst ha h hfresh]

/-- Two commands have mistakes in their classifiers.  After one of them was dispatched and all
    were described, the startup check tells the mistake of the other one, whose name is less, and
    so does every dispatch of that one. -/
theorem startup_checked_empty_roles :
    let a : Authenticator Sample.Log := fun _ log => (.ok none, "asked" :: log)
    let cs : List (Command Sample.Log) := [8, 10, 0].map (Sample.commandAt {})
    let b : Blueprint Sample.Log := { settings := {}, commands := cs, authenticator := some a }
    let declared : TypeKey → Declaration := fun key => (Sample.commandAt {} key).declaration
    let history : List (Operation Sample.Log) := [.dispatch "Unclassified" {} {}, .describe]
    let mistake : ConfigurationError := ⟨"command 'app.EmptyRoles' allows an empty role list"⟩
    ∃ d, b.build = .ok d ∧ d.authenticator = some a ∧ d.DeclaredBy declared ∧
      Faithful declared ({ world := [] } : Runtime Sample.Log).access ∧
      (∀ operation ∈ history, operation.Own declared) ∧
      (d.verifyAccess (d.after history { world := [] })).1 = .error mistake ∧
      ∀ params ctx s,
        (d.dispatch "EmptyRoles" params ctx
          { d.after history { world := [] } with world := s }).result =
            .error (.configuration mistake) := by
  intro a cs b declared history mistake
  let d : Dispatcher Sample.Log :=
    ⟨{}, registerEach "app" cs, Conversion.Service.standard, some a, []⟩
  have hb : b.build = .ok d := Blueprint.build_of_nodup (b := b) (by decide)
  have hdeclared : d.DeclaredBy declared := by
    intro c hc
    have hmem : c ∈ cs := (mem_commands_registerEach.1 hc).mem
    simp only [cs, List.map_cons, List.map_nil, List.mem_cons, List.not_mem_nil, or_false] at hmem
    obtain rfl | rfl | rfl := hmem
    all_goals rfl
  have hown : ∀ operation ∈ history, operation.Own declared := by
    intro operation hoperation
    obtain rfl | rfl : operation = .dispatch "Unclassified" {} {} ∨ operation = .describe := by
      simpa [history] using hoperation
    all_goals exact True.intro
  have hstart : Faithful declared ({ world := [] } : Runtime Sample.Log).access :=
    faithful_empty declared
  have hchecked := startup_checked hb rfl hdeclared hstart hown
  -- the check does not depend on what was dispatched before
  have hverify : (d.verifyAccess (d.after history { world := [] })).1 = .error mistake := by
    rw [hchecked.independent []]
    decide
  refine ⟨d, hb, rfl, hdeclared, hstart, hown, hverify, fun params ctx s => ?_⟩
  -- the command with the empty list of roles is registered as the second one
  have hempty : Sample.commandAt {} 10 ∈ d.registry.commands :=
    mem_commands_registerEach.2
      (succeeds_iff.2 ⟨[Sample.commandAt {} 8], [Sample.commandAt {} 0], rfl, by decide⟩)
  exact (hchecked.dispatched _ hempty mistake (by decide) (by decide)).2 (d.dispatch "EmptyRoles")
    (.name (by rfl)) params ctx s

end Dispatcher

end CommandBus
