import CommandBus.Proofs.Dispatch.Naming

/-!
# What a name is resolved to

Of the commands that register calls were made with, the first one of every name is kept.  A name is
resolved to the one of that very name if it is in the namespace, otherwise to the one of the name
behind the root, and otherwise it is unknown.  Behind the root every name but the empty one is in
the namespace, so that only the empty name can depend on a command outside of it.

## Key results

- `resolve_registerEach`: resolving a name is looking for two names among the commands
- `resolve_eq_iff_standsFor`: what a name stands for, and when it is unknown
- `resolve_congr_inside`: commands outside the namespace do not matter to a name that is not empty
- `resolve_exact`: all of it, for any register calls
-/

namespace CommandBus.CommandRegistry

variable {σ : Type}

/-! ## Two names to look for -/

/-- The first command of a name. -/
def given? (cs : List (Command σ)) (name : String) : Option (Command σ) :=
  cs.find? fun c => c.name == name

/-- The first command of a name, if the name is in the namespace. -/
def givenInside? (root : String) (cs : List (Command σ)) (name : String) : Option (Command σ) :=
  if inNamespace root name then given? cs name else none

theorem given?_eq_some_iff (root : String) {cs : List (Command σ)} {name : String}
    {c : Command σ} : given? cs name = some c ↔ Succeeds root cs c ∧ c.name = name :=
  find?_name_eq_some_iff root

theorem given?_eq_none_iff (root : String) {cs : List (Command σ)} {name : String} :
    given? cs name = none ↔ ∀ c, Succeeds root cs c → c.name ≠ name := by
  rw [Option.eq_none_iff_forall_ne_some]
  simp only [Ne, given?_eq_some_iff root, not_and]

theorem givenInside?_eq_some_iff {root : String} {cs : List (Command σ)} {name : String}
    {c : Command σ} :
    givenInside? root cs name = some c ↔
      Succeeds root cs c ∧ c.name = name ∧ inNamespace root c.name = true := by
  unfold givenInside?
  split
  -- the full name decides where the command is in the namespace, and nothing does elsewhere
  · next hin =>
    rw [given?_eq_some_iff root]
    constructor
    · rintro ⟨hc, rfl⟩
      exact ⟨hc, rfl, hin⟩
    · rintro ⟨hc, hname, -⟩
      exact ⟨hc, hname⟩
  · next hout =>
    constructor
    · exact nofun
    · rintro ⟨-, rfl, hin⟩
      exact absurd hin hout

theorem givenInside?_eq_none_iff {root : String} {cs : List (Command σ)} {name : String} :
    givenInside? root cs name = none ↔
      ∀ c, Succeeds root cs c → inNamespace root c.name = true → c.name ≠ name := by
  rw [Option.eq_none_iff_forall_ne_some]
  simp only [Ne, givenInside?_eq_some_iff, not_and]
  exact forall_congr' fun c => forall_congr' fun _ => imp_not_comm

/-- The first look-up finds the first command of the name, if the name is in the namespace. -/
theorem named?_registerEach (root : String) (cs : List (Command σ)) (name : String) :
    (registerEach root cs).named? name = givenInside? root cs name := by
  apply Option.ext
  intro c
  rw [named?, Option.filter_eq_some_iff, get?_registerEach_iff, registerEach_root,
    givenInside?_eq_some_iff, and_assoc]

/-- A name is looked for among the commands, and then the name behind the root. -/
theorem resolve_registerEach (root : String) (cs : List (Command σ)) (name : String) :
    (registerEach root cs).resolve name =
      match (givenInside? root cs name).or (given? cs (qualified root name)) with
      | some c => .ok c
      | none => .error (.noSuchCommand name) := by
  rw [resolve, named?_registerEach, registerEach_root, get?_registerEach, given?]
  cases givenInside? root cs name with
  | some c => rfl
  | none => cases cs.find? fun c => c.name == qualified root name <;> rfl

/-! ## What a name stands for -/

/-- What a name stands for after the register calls with `cs`. -/
inductive StandsFor (root : String) (cs : List (Command σ)) (name : String) :
    Except DispatchError (Command σ) → Prop where
  /-- The command of that very name, which is in the namespace. -/
  | full {c : Command σ} (hc : Succeeds root cs c) (hname : c.name = name)
      (hin : inNamespace root c.name = true) : StandsFor root cs name (.ok c)
  /-- The command of the name behind the root, where no other one is in the way. -/
  | relative {c : Command σ}
      (hfree : ∀ other, Succeeds root cs other → inNamespace root other.name = true →
        other.name ≠ name)
      (hc : Succeeds root cs c) (hname : c.name = qualified root name) :
      StandsFor root cs name (.ok c)
  /-- No command, where there is neither. -/
  | unknown
      (hfree : ∀ other, Succeeds root cs other → inNamespace root other.name = true →
        other.name ≠ name)
      (hnone : ∀ other, Succeeds root cs other → other.name ≠ qualified root name) :
      StandsFor root cs name (.error (.noSuchCommand name))

/-- A name is resolved to what it stands for. -/
theorem resolve_eq_iff_standsFor {root : String} {cs : List (Command σ)} {name : String}
    {result : Except DispatchError (Command σ)} :
    (registerEach root cs).resolve name = result ↔ StandsFor root cs name result := by
  rw [resolve_registerEach]
  constructor
  · rintro rfl
    -- the full name is tried first, and the relative one only where it is free
    cases hfull : givenInside? root cs name with
    | some c =>
      obtain ⟨hc, hname, hin⟩ := givenInside?_eq_some_iff.1 hfull
      exact .full hc hname hin
    | none =>
      have hfree := givenInside?_eq_none_iff.1 hfull
      cases hrelative : given? cs (qualified root name) with
      | some c =>
        obtain ⟨hc, hname⟩ := (given?_eq_some_iff root).1 hrelative
        exact .relative hfree hc hname
      | none => exact .unknown hfree ((given?_eq_none_iff root).1 hrelative)
  · intro h
    cases h with
    | full hc hname hin => rw [givenInside?_eq_some_iff.2 ⟨hc, hname, hin⟩, Option.some_or]
    | relative hfree hc hname =>
      rw [givenInside?_eq_none_iff.2 hfree, Option.none_or,
        (given?_eq_some_iff root).2 ⟨hc, hname⟩]
    | unknown hfree hnone =>
      rw [givenInside?_eq_none_iff.2 hfree, Option.none_or, (given?_eq_none_iff root).2 hnone]

/-- A command outside the namespace is not found by its name alone: it is refused as it is when it
    is dispatched itself. -/
theorem resolve_outside {root : String} {cs : List (Command σ)} {c : Command σ}
    (hout : inNamespace root c.name = false)
    (hnone : ∀ other, Succeeds root cs other → other.name ≠ qualified root c.name) :
    (registerEach root cs).resolve c.name =
      ((registerEach root cs).ensureInNamespace c).map fun _ => c := by
  have hfree : ∀ other, Succeeds root cs other → inNamespace root other.name = true →
      other.name ≠ c.name := by
    intro other _ hin hname
    rw [hname, hout] at hin
    exact nomatch hin
  rw [resolve_eq_iff_standsFor.2 (.unknown hfree hnone), ensureInNamespace, registerEach_root, hout]
  rfl

/-! ## Commands outside the namespace -/

/-- The commands in the namespace of a root. -/
def inside (root : String) (cs : List (Command σ)) : List (Command σ) :=
  cs.filter fun c => inNamespace root c.name

/-- A name of the namespace is looked for among the commands in the namespace. -/
theorem given?_inside {root name : String} (hin : inNamespace root name = true)
    (cs : List (Command σ)) : given? (inside root cs) name = given? cs name := by
  rw [given?, inside, List.find?_filter, given?]
  congr 1
  funext c
  -- a command of the name is in the namespace as the name is
  by_cases hname : c.name = name
  · simp [hname, hin]
  · simp [hname]

/-- What a name that is not empty is resolved to is told by the commands in the namespace. -/
theorem resolve_congr_inside {root : String} {cs others : List (Command σ)}
    (h : inside root others = inside root cs) {name : String} (hname : name ≠ "") :
    (registerEach root others).resolve name = (registerEach root cs).resolve name := by
  have hgiven : ∀ {wanted : String}, inNamespace root wanted = true →
      given? others wanted = given? cs wanted := by
    intro wanted hin
    rw [← given?_inside hin others, h, given?_inside hin cs]
  -- a name outside the root is never looked up as a full one
  have hfull : givenInside? root others name = givenInside? root cs name := by
    unfold givenInside?
    split
    · next hin => exact hgiven hin
    · rfl
  rw [resolve_registerEach, resolve_registerEach, hfull,
    hgiven (inNamespace_qualified.2 (.inr hname))]

/-! ## All of it -/

/-- After any register calls a name is resolved to what it stands for.

    A command of the namespace is found by its full name, and, if the root is not empty, by its name
    relative to the root, unless that is the full name of another command of the namespace.  A
    command outside the namespace is refused under its own name, and it makes no difference to any
    name but the empty one whether it was registered. -/
theorem resolve_exact (root : String) (cs : List (Command σ)) :
    let registry := registerEach root cs
    (∀ name result, registry.resolve name = result ↔ StandsFor root cs name result) ∧
    (∀ c, Succeeds root cs c → inNamespace root c.name = true →
      registry.resolve c.name = .ok c ∧
      (root ≠ "" → ∃ relative, relative ≠ "" ∧ c.name = qualified root relative ∧
        (registry.resolve relative = .ok c ↔ ¬ registry.Claimed relative))) ∧
    (∀ c, Succeeds root cs c → inNamespace root c.name = false →
      (∀ other, Succeeds root cs other → other.name ≠ qualified root c.name) →
      registry.resolve c.name = (registry.ensureInNamespace c).map fun _ => c) ∧
    ∀ others : List (Command σ), inside root others = inside root cs → ∀ name, name ≠ "" →
      (registerEach root others).resolve name = registry.resolve name := by
  intro registry
  refine ⟨fun name result => resolve_eq_iff_standsFor, fun c hc hin => ⟨?full, fun hroot => ?_⟩,
    fun c _ hout hnone => resolve_outside hout hnone,
    fun others hothers name hname => resolve_congr_inside hothers hname⟩
  case full => exact resolve_eq_iff_standsFor.2 (.full hc rfl hin)
  -- under a root every name in the namespace has a relative one
  obtain ⟨relative, hne, hname⟩ := exists_relative hroot hin
  have hmem : c ∈ registry.commands := mem_commands_registerEach.2 hc
  exact ⟨relative, hne, hname, resolve_relative_iff hmem hname⟩

/-- `orders.List` is outside the namespace and does not hide `app.orders.List`, whether it was
    registered or not; alone it is unknown.  `app.app.Alpha` is found by its full name, but not by
    `app.Alpha`, which is another command. -/
theorem resolve_exact_orders :
    let cs : List (Command Sample.Log) := [5, 4, 0, 15].map (Sample.commandAt {})
    let registry := registerEach "app" cs
    let nested := Sample.commandAt {} 15
    (Succeeds "app" cs nested ∧ inNamespace "app" nested.name = true) ∧
      registry.resolve "orders.List" = .ok (Sample.commandAt {} 4) ∧
      registry.resolve "app.app.Alpha" = .ok nested ∧
      registry.resolve "app.Alpha" ≠ .ok nested ∧
      (registerEach "app" ([4, 7, 0, 15].map (Sample.commandAt {}))).resolve "orders.List" =
        registry.resolve "orders.List" ∧
      (registerEach "app" [Sample.commandAt {} 5]).resolve "orders.List" =
        .error (.noSuchCommand "orders.List") := by
  intro cs registry nested
  obtain ⟨hstands, hinside, -, hothers⟩ := resolve_exact "app" cs
  have horders : Succeeds "app" cs (Sample.commandAt {} 4) :=
    succeeds_iff.2 ⟨[Sample.commandAt {} 5], _, rfl, by decide⟩
  have hnested : Succeeds "app" cs nested :=
    succeeds_iff.2 ⟨[5, 4, 0].map (Sample.commandAt {}), [], rfl, by decide⟩
  have halpha : Succeeds "app" cs (Sample.commandAt {} 0) :=
    succeeds_iff.2 ⟨[5, 4].map (Sample.commandAt {}), [nested], rfl, by decide⟩
  have hshadowed : registry.resolve "app.Alpha" = .ok (Sample.commandAt {} 0) :=
    (hstands _ _).2 (.full halpha rfl (by decide))
  -- the lists differ in commands outside of the namespace alone
  have hsame : inside "app" ([4, 7, 0, 15].map (Sample.commandAt {})) = inside "app" cs := rfl
  refine ⟨⟨hnested, by decide⟩, (hstands _ _).2 (.relative ?_ horders rfl),
    (hinside nested hnested (by decide)).1, fun heq => ?_, hothers _ hsame _ (by decide), ?_⟩
  · intro other _ hin hname
    rw [hname] at hin
    exact absurd hin (by decide)
  -- the full name is that of another command
  · have hboth := Except.ok.inj (hshadowed.symm.trans heq)
    exact absurd (congrArg Command.name hboth) (by decide)
  · obtain ⟨-, -, hrefused, -⟩ := resolve_exact "app" [Sample.commandAt {} 5]
    have halone : ∀ other, Succeeds "app" [Sample.commandAt {} 5] other →
        other.name ≠ qualified "app" "orders.List" := by
      intro other hother
      rw [List.mem_singleton.1 hother.mem]
      decide
    exact hrefused _ (succeeds_iff.2 ⟨[], [], rfl, nofun⟩) (by decide) halone

end CommandBus.CommandRegistry
