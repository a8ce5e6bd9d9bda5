import CommandBus.Demo.App
import CommandBus.Proofs.Dispatch.Isolation
import CommandBus.Proofs.Dispatch.Standing

/-!
# The demo application as it is built

Whatever its settings are, the application has the same five commands, each with a type and a
name of its own and with classifiers that are in order.  So it is built whenever the settings of
its tokens can be used, and in every state that it gets into its access records are faithful.

## Key results

- `registry_eq`, `authenticator_eq`, `interceptors_eq`: what a built application is made of
- `wellKeyed`, `typed`: its commands are told apart by type and by name, and declare the same
  whenever they are looked at
- `exists_build`: it is built unless the settings of tokens are at fault
-/

namespace CommandBus.Demo

open Dispatcher AccessRecords

/-- The commands of the application. -/
def commands (provider : TokenProvider) (directory : UserDirectory) : List (Command Instant) :=
  [ping, add, whoAmI, login provider directory, listUsers directory]

/-- No two commands share a type or a name. -/
private theorem name_eq_of_key_eq {provider : TokenProvider} {directory : UserDirectory}
    {c other : Command Instant} (hc : c ∈ commands provider directory)
    (hother : other ∈ commands provider directory) (h : other.key = c.key) :
    other.name = c.name := by
  -- the name of a command is a function of its type
  have hname : ∀ c ∈ commands provider directory,
      c.name = ["", "app.Ping", "app.math.Add", "app.WhoAmI", "app.auth.Login",
        "app.admin.ListUsers"].getD c.key "" := by
    intro c hc
    simp only [commands, List.mem_cons, List.not_mem_nil, or_false] at hc
    obtain rfl | rfl | rfl | rfl | rfl := hc <;> rfl
  rw [hname c hc, hname other hother, h]

namespace App

variable {options : DispatcherSettings} {settings : AppSettings} {provider : TokenProvider}
  {directory : UserDirectory} {d : Dispatcher Instant}

/-- The settings of the tokens of a built application can be used. -/
theorem provider_of_build (hd : build settings = .ok d) :
    ∃ provider, TokenProvider.ofSettings settings.token = .ok provider := by
  unfold build at hd
  split at hd
  · exact nomatch hd
  · next provider hp => exact ⟨provider, hp⟩

/-- A built application is what its blueprint gives. -/
theorem blueprint_of_build (hd : build settings = .ok d)
    (hp : TokenProvider.ofSettings settings.token = .ok provider) :
    (blueprint settings.dispatcher provider (UserDirectory.ofUsers settings.users)).build =
      .ok d := by
  unfold build at hd
  rw [hp] at hd
  dsimp only at hd
  split at hd
  · exact nomatch hd
  -- the access check afterwards does not change what was built
  · next built hbuilt =>
    split at hd
    · exact nomatch hd
    · obtain rfl := Except.ok.inj hd
      exact hbuilt

/-- The commands of the application are registered, and nothing else. -/
theorem registry_eq (h : (blueprint options provider directory).build = .ok d) :
    d.registry = CommandRegistry.registerEach options.root (commands provider directory) :=
  (Blueprint.build_eq h).1

/-- Callers of the application are found by their token, and then by name and password. -/
theorem authenticator_eq (h : (blueprint options provider directory).build = .ok d) :
    d.authenticator = some (callers provider directory).authenticate :=
  (Blueprint.build_eq h).2.1

theorem settings_eq (h : (blueprint options provider directory).build = .ok d) :
    d.settings = options :=
  (Blueprint.build_eq h).2.2.2

/-- The only interceptor of the application watches for the logs. -/
theorem interceptors_eq (h : (blueprint options provider directory).build = .ok d) :
    d.interceptors = [Interceptor.tracing] :=
  (Blueprint.build_eq h).2.2.1

theorem mem_commands_of_registered (h : (blueprint options provider directory).build = .ok d)
    {c : Command Instant} (hc : c ∈ d.registry.commands) : c ∈ commands provider directory := by
  rw [registry_eq h] at hc
  have hget := (CommandRegistry.keyed_registerEach _ _).get?_of_mem hc
  rw [CommandRegistry.get?_registerEach] at hget
  exact List.mem_of_find?_eq_some hget

theorem registered_of_mem_commands (h : (blueprint options provider directory).build = .ok d)
    {c : Command Instant} (hc : c ∈ commands provider directory) :
    c ∈ d.registry.commands := by
  have hget : Entries.get? c.name d.registry.byName.entries = some c := by
    rw [registry_eq h, CommandRegistry.get?_registerEach]
    -- no two commands share a name, so that the first one of the name is the command
    simp only [commands, List.mem_cons, List.not_mem_nil, or_false] at hc
    obtain rfl | rfl | rfl | rfl | rfl := hc <;> rfl
  exact List.mem_map.2 ⟨(c.name, c), Entries.mem_of_get? hget, rfl⟩

theorem wellKeyed (h : (blueprint options provider directory).build = .ok d) : d.WellKeyed where
  keyed := by
    rw [registry_eq h]
    exact CommandRegistry.keyed_registerEach _ _
  types := by
    intro c hc other hother
    exact name_eq_of_key_eq (mem_commands_of_registered h hc) (mem_commands_of_registered h hother)

/-- A registered command is known by its name. -/
theorem eq_of_name_eq (h : (blueprint options provider directory).build = .ok d)
    {c other : Command Instant} (hc : c ∈ d.registry.commands)
    (hother : other ∈ commands provider directory) (hname : c.name = other.name) : c = other := by
  have hget := (wellKeyed h).keyed.get?_of_mem hc
  rw [hname, (wellKeyed h).keyed.get?_of_mem (registered_of_mem_commands h hother)] at hget
  exact (Option.some.inj hget).symm

/-- A command inside the namespace is found by its full name. -/
theorem resolve_name (h : (blueprint options provider directory).build = .ok d)
    {c : Command Instant} (hc : c ∈ commands provider directory)
    (hin : CommandRegistry.inNamespace options.root c.name = true) :
    d.registry.resolve c.name = .ok c := by
  have hmem := registered_of_mem_commands h hc
  refine CommandRegistry.resolve_name_of_mem (wellKeyed h).keyed hmem ?_
  rw [registry_eq h, CommandRegistry.registerEach_root]
  exact hin

/-- The application goes on with no command but the one that is dispatched. -/
theorem typed (h : (blueprint options provider directory).build = .ok d) : d.Typed d.typing := by
  refine (wellKeyed h).typed fun i hi => ?_
  rw [interceptors_eq h] at hi
  obtain rfl := List.mem_singleton.1 hi
  exact Interceptor.wellTyped_tracing d.typing

/-- A caller that passes the check gets to the command itself. -/
theorem chain_of_passed (h : (blueprint options provider directory).build = .ok d)
    {c : Command Instant} {ctx : Context} {r : Runtime Instant}
    (hpassed : (checked (callers provider directory).authenticate c ctx r).1.result = .ok ())
    (params : Parameters) :
    d.chain c params ctx r =
      c.invoke d.service params
        (checked (callers provider directory).authenticate c ctx r).1.context
        { r with
          access := (checked (callers provider directory).authenticate c ctx r).2
          world := (checked (callers provider directory).authenticate c ctx r).1.state } := by
  rw [Dispatcher.chain_of_passed (authenticator_eq h) hpassed, interceptors_eq h]
  rfl

/-- No command of the application has a mistake in its classifiers. -/
theorem policy_ok {c : Command Instant} (hc : c ∈ commands provider directory) :
    ∃ policy, c.declaration.policy = .ok policy := by
  simp only [commands, List.mem_cons, List.not_mem_nil, or_false] at hc
  obtain rfl | rfl | rfl | rfl | rfl := hc <;> exact ⟨_, rfl⟩

/-- With settings of tokens that can be used, the application is built. -/
theorem exists_build (hp : TokenProvider.ofSettings settings.token = .ok provider) :
    ∃ d, build settings = .ok d := by
  -- the five names are fixed, and different
  have hnames : ((commands provider (UserDirectory.ofUsers settings.users)).map
      Command.name).Nodup := by
    have hlist : (commands provider (UserDirectory.ofUsers settings.users)).map Command.name =
        ["app.Ping", "app.math.Add", "app.WhoAmI", "app.auth.Login", "app.admin.ListUsers"] := rfl
    rw [hlist]
    decide
  have hfree : ∀ c ∈ commands provider (UserDirectory.ofUsers settings.users),
      Entries.get? c.name
        ({ root := settings.dispatcher.root } : CommandRegistry Instant).byName.entries = none :=
    fun _ _ => rfl
  obtain ⟨registry, hregistry⟩ := CommandRegistry.exists_registerAll hfree hnames
  obtain ⟨d, hd⟩ : ∃ d, (blueprint settings.dispatcher provider
      (UserDirectory.ofUsers settings.users)).build = .ok d := by
    unfold Blueprint.build
    split
    · next e herror =>
      have hboth : Except.error e = Except.ok registry := herror.symm.trans hregistry
      exact nomatch hboth
    · exact ⟨_, rfl⟩
  -- no command is misconfigured, so that the last look at the dispatcher finds nothing
  have hverify : (d.verifyAccess { world := Instant.epoch }).1 = .ok () := by
    unfold verifyAccess
    split
    · rfl
    · exact verifyCommands_ok (wellKeyed hd).declaredBy (fun c hc => hc)
        (fun c hc => policy_ok (mem_commands_of_registered hd hc)) (faithful_empty _)
  refine ⟨d, ?_⟩
  unfold build
  simp only [hp, hd]
  split
  · next heq => rw [heq] at hverify; exact nomatch hverify
  · rfl

end App

end CommandBus.Demo
