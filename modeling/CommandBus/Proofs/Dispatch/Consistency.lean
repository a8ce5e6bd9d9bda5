import CommandBus.Proofs.Bytes.Utf8
import CommandBus.Proofs.Dispatch.Building
import CommandBus.Sample.Command

/-!
# What register calls leave behind

A call whose name is taken fails, any other one succeeds: of all calls with a name the first one
`Succeeds`.  After any calls the registry holds the commands of those that succeeded and nothing
else, under their names, in the order of the bytes of the names, and under their types.

A dispatcher is built from commands by the same calls, but the first one that fails ends it.

## Key results

- `succeeds_iff`: of the calls with a name the first one succeeds
- `mem_commands_registerEach`: the commands are those of the calls that succeeded
- `pairwise_commands_registerEach`: their names ascend
- `registerAll_error_iff`: building ends at the first name that is given again
- `registerEach_consistent`: all that a registry tells after any calls
-/

namespace CommandBus

namespace CommandRegistry

variable {σ : Type}

/-! ## Calls that fail and calls that succeed -/

/-- A call fails if the name is taken, and tells the name. -/
theorem register_eq_error_iff {registry : CommandRegistry σ} {c : Command σ}
    {e : ConfigurationError} :
    (registry.register c).1 = .error e ↔
      Entries.hasKey c.name registry.byName.entries = true ∧ e = duplicate c.name := by
  cases hk : Entries.hasKey c.name registry.byName.entries with
  | true => simp [register, hk, eq_comm]
  | false => simp [register, hk]

/-- A call succeeds if the name is free. -/
theorem register_eq_ok_iff {registry : CommandRegistry σ} {c : Command σ} :
    (registry.register c).1 = .ok () ↔ Entries.hasKey c.name registry.byName.entries = false := by
  cases hk : Entries.hasKey c.name registry.byName.entries with
  | true => simp [register, hk]
  | false => simp [register, hk]

/-- One of the calls in turn was with `c` and did not fail. -/
def Succeeds (root : String) (cs : List (Command σ)) (c : Command σ) : Prop :=
  ∃ before after, cs = before ++ c :: after ∧ ((registerEach root before).register c).1 = .ok ()

/-- A name is taken after it was given once. -/
theorem hasKey_registerEach (root : String) (cs : List (Command σ)) (name : String) :
    Entries.hasKey name (registerEach root cs).byName.entries = true ↔ ∃ c ∈ cs, c.name = name := by
  rw [Entries.hasKey, get?_registerEach, List.find?_isSome]
  simp only [beq_iff_eq]

/-- Of the calls with a name the first one succeeds. -/
theorem succeeds_iff {root : String} {cs : List (Command σ)} {c : Command σ} :
    Succeeds root cs c ↔
      ∃ before after, cs = before ++ c :: after ∧ ∀ other ∈ before, other.name ≠ c.name := by
  have hfree : ∀ before : List (Command σ),
      ((registerEach root before).register c).1 = .ok () ↔
        ∀ other ∈ before, other.name ≠ c.name := by
    intro before
    rw [register_eq_ok_iff, ← Bool.not_eq_true, hasKey_registerEach]
    simp
  simp only [Succeeds, hfree]

theorem Succeeds.mem {root : String} {cs : List (Command σ)} {c : Command σ}
    (h : Succeeds root cs c) : c ∈ cs := by
  obtain ⟨before, after, rfl, -⟩ := h
  exact List.mem_append_right before List.mem_cons_self

/-- The first command that was given with a name is that of the call that succeeded. -/
theorem find?_name_eq_some_iff (root : String) {cs : List (Command σ)} {name : String}
    {c : Command σ} :
    (cs.find? fun c => c.name == name) = some c ↔ Succeeds root cs c ∧ c.name = name := by
  rw [List.find?_eq_some_iff_append, succeeds_iff]
  constructor
  · rintro ⟨hname, before, after, hcs, hbefore⟩
    obtain rfl := eq_of_beq hname
    exact ⟨⟨before, after, hcs, fun other hother => by simpa using hbefore other hother⟩, rfl⟩
  · rintro ⟨⟨before, after, hcs, hbefore⟩, rfl⟩
    exact ⟨BEq.rfl, before, after, hcs, fun other hother => by simpa using hbefore other hother⟩

/-- What is found under a name is the command that succeeded under it. -/
theorem get?_registerEach_iff {root : String} {cs : List (Command σ)} {name : String}
    {c : Command σ} :
    Entries.get? name (registerEach root cs).byName.entries = some c ↔
      Succeeds root cs c ∧ c.name = name := by
  rw [get?_registerEach, find?_name_eq_some_iff root]

/-- No two calls with one name succeed. -/
theorem Succeeds.eq_of_name {root : String} {cs : List (Command σ)} {c other : Command σ}
    (h : Succeeds root cs c) (hother : Succeeds root cs other) (hname : c.name = other.name) :
    c = other := by
  have hget := get?_registerEach_iff.2 ⟨h, hname⟩
  rw [get?_registerEach_iff.2 ⟨hother, rfl⟩] at hget
  exact (Option.some.inj hget).symm

/-! ## The commands in order -/

/-- The commands are those of the calls that succeeded. -/
theorem mem_commands_registerEach {root : String} {cs : List (Command σ)} {c : Command σ} :
    c ∈ (registerEach root cs).commands ↔ Succeeds root cs c := by
  constructor
  · intro hc
    exact (get?_registerEach_iff.1 ((keyed_registerEach root cs).get?_of_mem hc)).1
  · intro hc
    exact mem_commands_of_get? (get?_registerEach_iff.2 ⟨hc, rfl⟩)

/-- The commands are listed in the order of the bytes of their names. -/
theorem pairwise_commands_registerEach (root : String) (cs : List (Command σ)) :
    (registerEach root cs).commands.Pairwise fun c other =>
      Bytes.ofText c.name < Bytes.ofText other.name := by
  have hk := keyed_registerEach root cs
  rw [commands, Entries.values, List.pairwise_map]
  -- every entry stands under the name of its command
  refine (registerEach root cs).byName.sorted.imp_of_mem fun he he' hlt => ?_
  rw [Bytes.ofText_lt_ofText_iff, ← (hk.named _ he).1, ← (hk.named _ he').1]
  exact hlt

/-! ## What a name stands for -/

/-- A name stands for the command that succeeded under it, if it is in the namespace, and
    otherwise for the one that succeeded under the name behind the root. -/
theorem resolve_registerEach_iff {root : String} {cs : List (Command σ)} {name : String}
    {c : Command σ} :
    (registerEach root cs).resolve name = .ok c ↔
      Succeeds root cs c ∧ (c.name = name ∧ inNamespace root name = true ∨
        c.name = qualified root name ∧
          ¬ (inNamespace root name = true ∧ ∃ other ∈ cs, other.name = name)) := by
  -- the first look-up finds the command of the whole name, if that is inside
  have hnamed : ∀ found, (registerEach root cs).named? name = some found ↔
      (Succeeds root cs found ∧ found.name = name) ∧ inNamespace root name = true := by
    intro found
    rw [named?, Option.filter_eq_some_iff, get?_registerEach_iff, registerEach_root]
    constructor
    · rintro ⟨⟨hfound, hname⟩, hin⟩
      exact ⟨⟨hfound, hname⟩, hname ▸ hin⟩
    · rintro ⟨⟨hfound, hname⟩, hin⟩
      exact ⟨⟨hfound, hname⟩, hname ▸ hin⟩
  cases hf : (registerEach root cs).named? name with
  | some found =>
    obtain ⟨⟨hfound, hname⟩, hin⟩ := (hnamed found).1 hf
    have hresolve : (registerEach root cs).resolve name = .ok found := by simp [resolve, hf]
    rw [hresolve, Except.ok.injEq]
    constructor
    · rintro rfl
      exact ⟨hfound, .inl ⟨hname, hin⟩⟩
    · rintro ⟨hc, ⟨hcname, -⟩ | ⟨-, hnone⟩⟩
      · exact Option.some.inj (hf.symm.trans ((hnamed c).2 ⟨⟨hc, hcname⟩, hin⟩))
      -- the second look-up is not made after the first one found something
      · exact absurd ⟨hin, found, hfound.mem, hname⟩ hnone
  | none =>
    -- what the first look-up misses was not given, or is outside
    have hnone : ¬ (inNamespace root name = true ∧ ∃ other ∈ cs, other.name = name) := by
      rintro ⟨hin, hgiven⟩
      obtain ⟨found, hget⟩ :=
        Option.isSome_iff_exists.1 ((hasKey_registerEach root cs name).2 hgiven)
      rw [(hnamed found).2 ⟨get?_registerEach_iff.1 hget, hin⟩] at hf
      exact absurd hf (Option.some_ne_none _)
    have hresolve : (registerEach root cs).resolve name = .ok c ↔
        Entries.get? (qualified root name) (registerEach root cs).byName.entries = some c := by
      rw [resolve, hf, registerEach_root]
      cases Entries.get? (qualified root name) (registerEach root cs).byName.entries <;> simp
    rw [hresolve, get?_registerEach_iff]
    constructor
    · rintro ⟨hc, hname⟩
      exact ⟨hc, .inr ⟨hname, hnone⟩⟩
    · rintro ⟨hc, ⟨hname, hin⟩ | ⟨hname, -⟩⟩
      · exact absurd ⟨hin, c, hc.mem, hname⟩ hnone
      · exact ⟨hc, hname⟩

/-! ## What a type stands for -/

/-- A type stands for the command that succeeded with it, if no other name has the type. -/
theorem ofType?_registerEach_iff (root : String) {cs : List (Command σ)}
    (htypes : ∀ c ∈ cs, ∀ other ∈ cs, other.key = c.key → other.name = c.name) {key : TypeKey}
    {c : Command σ} :
    (registerEach root cs).ofType? key = some c ↔ Succeeds root cs c ∧ c.key = key := by
  have hk := keyed_registerEach root cs
  constructor
  · intro h
    obtain ⟨hc, hkey⟩ := hk.of_ofType? h
    exact ⟨mem_commands_registerEach.1 hc, hkey⟩
  · rintro ⟨hc, rfl⟩
    refine ofType?_key_of_mem hk (mem_commands_registerEach.2 hc) fun other hother => ?_
    exact htypes c hc.mem other (mem_commands_registerEach.1 hother).mem

/-! ## Building -/

/-- A list goes on with the registry of its first call, if that succeeds. -/
private theorem registerAll_cons_of_free {registry : CommandRegistry σ} {c : Command σ}
    (hk : Entries.hasKey c.name registry.byName.entries = false) (cs : List (Command σ)) :
    registry.registerAll (c :: cs) = (registry.attempt c).registerAll cs := by
  simp [registerAll, attempt, register, hk]

/-- A list whose first call fails is not registered any further. -/
private theorem registerAll_cons_of_taken {registry : CommandRegistry σ} {c : Command σ}
    (hk : Entries.hasKey c.name registry.byName.entries = true) (cs : List (Command σ)) :
    registry.registerAll (c :: cs) = .error (duplicate c.name) := by
  simp [registerAll, register, hk]

/-- Registering a list fails at a call that fails, after calls that succeeded. -/
theorem registerAll_error_iff {registry : CommandRegistry σ} {cs : List (Command σ)}
    {e : ConfigurationError} :
    registry.registerAll cs = .error e ↔ ∃ before c after filled, cs = before ++ c :: after ∧
      registry.registerAll before = .ok filled ∧ (filled.register c).1 = .error e := by
  induction cs generalizing registry with
  | nil => simp [registerAll]
  | cons c cs ih =>
    cases hk : Entries.hasKey c.name registry.byName.entries with
    | true =>
      rw [registerAll_cons_of_taken hk, Except.error.injEq]
      constructor
      · rintro rfl
        exact ⟨[], c, cs, registry, rfl, rfl, register_eq_error_iff.2 ⟨hk, rfl⟩⟩
      · rintro ⟨before, failed, after, filled, hcs, hbefore, hfailed⟩
        -- no call can have succeeded before this one, which is the first
        cases before with
        | nil =>
          obtain ⟨rfl, rfl⟩ := List.cons.inj hcs
          obtain rfl : registry = filled := by simpa [registerAll] using hbefore
          exact (register_eq_error_iff.1 hfailed).2.symm
        | cons first before =>
          obtain ⟨rfl, -⟩ := List.cons.inj hcs
          rw [registerAll_cons_of_taken hk] at hbefore
          cases hbefore
    | false =>
      rw [registerAll_cons_of_free hk, ih]
      constructor
      · rintro ⟨before, failed, after, filled, rfl, hbefore, hfailed⟩
        exact ⟨c :: before, failed, after, filled, rfl,
          (registerAll_cons_of_free hk before).trans hbefore, hfailed⟩
      · rintro ⟨before, failed, after, filled, hcs, hbefore, hfailed⟩
        cases before with
        | nil =>
          -- the first call succeeds, so that the one that fails is a later one
          obtain ⟨rfl, rfl⟩ := List.cons.inj hcs
          obtain rfl : registry = filled := by simpa [registerAll] using hbefore
          exact absurd (hk.symm.trans (register_eq_error_iff.1 hfailed).1) Bool.false_ne_true
        | cons first before =>
          obtain ⟨rfl, rfl⟩ := List.cons.inj hcs
          exact ⟨before, failed, after, filled, rfl,
            (registerAll_cons_of_free hk before).symm.trans hbefore, hfailed⟩

/-- Commands that were registered without an error had names that were free, each its own. -/
theorem free_of_registerAll {registry filled : CommandRegistry σ} {cs : List (Command σ)}
    (h : registry.registerAll cs = .ok filled) :
    (∀ c ∈ cs, Entries.get? c.name registry.byName.entries = none) ∧
      (cs.map Command.name).Nodup := by
  induction cs generalizing registry with
  | nil => simp
  | cons c cs ih =>
    cases hk : Entries.hasKey c.name registry.byName.entries with
    | true =>
      rw [registerAll_cons_of_taken hk] at h
      exact nomatch h
    | false =>
      obtain ⟨hfree, hnodup⟩ := ih ((registerAll_cons_of_free hk cs).symm.trans h)
      -- what is free after the call of `c` was free before it, and is not the name of `c`
      have hboth : ∀ other ∈ cs,
          Entries.get? other.name registry.byName.entries = none ∧ c.name ≠ other.name := by
        intro other hother
        have hnone := hfree other hother
        rw [get?_attempt, Option.or_eq_none_iff] at hnone
        exact ⟨hnone.1, by simpa using hnone.2⟩
      have hc : Entries.get? c.name registry.byName.entries = none := by
        simpa [Entries.hasKey] using hk
      refine ⟨List.forall_mem_cons.2 ⟨hc, fun other hother => (hboth other hother).1⟩, ?_⟩
      refine List.nodup_cons.2 ⟨fun hmem => ?_, hnodup⟩
      obtain ⟨other, hother, hname⟩ := List.mem_map.1 hmem
      exact (hboth other hother).2 hname.symm

/-- Registering a list under a root succeeds if no name is given twice. -/
theorem registerAll_ok_iff {root : String} {cs : List (Command σ)} {filled : CommandRegistry σ} :
    registerAll { root := root } cs = .ok filled ↔
      (cs.map Command.name).Nodup ∧ filled = registerEach root cs := by
  constructor
  · intro h
    exact ⟨(free_of_registerAll h).2, registerAll_eq h⟩
  · rintro ⟨hnodup, rfl⟩
    have hfree : ∀ c ∈ cs,
        Entries.get? c.name ({ root := root } : CommandRegistry σ).byName.entries = none :=
      fun c _ => rfl
    obtain ⟨filled, hfilled⟩ := exists_registerAll hfree hnodup
    rw [hfilled, registerAll_eq hfilled]
    rfl

end CommandRegistry

namespace Blueprint

open CommandRegistry

variable {σ : Type}

/-- The first command of a list with a name that stood before it. -/
def FirstRepeated (cs : List (Command σ)) (c : Command σ) : Prop :=
  ∃ before after, cs = before ++ c :: after ∧ (before.map Command.name).Nodup ∧
    ∃ other ∈ before, other.name = c.name

/-- Building fails at the first repeated name, and tells it. -/
theorem build_error_iff {b : Blueprint σ} {e : ConfigurationError} :
    b.build = .error e ↔ ∃ c, FirstRepeated b.commands c ∧ e = duplicate c.name := by
  -- the settings and the rest of the blueprint cannot fail
  have hbuild : b.build = .error e ↔
      registerAll { root := b.settings.root } b.commands = .error e := by
    rw [build]
    cases registerAll { root := b.settings.root } b.commands <;> simp
  rw [hbuild, registerAll_error_iff]
  constructor
  · rintro ⟨before, c, after, filled, hcs, hbefore, hfailed⟩
    obtain ⟨hnodup, rfl⟩ := registerAll_ok_iff.1 hbefore
    obtain ⟨hkey, rfl⟩ := register_eq_error_iff.1 hfailed
    exact ⟨c, ⟨before, after, hcs, hnodup, (hasKey_registerEach _ _ _).1 hkey⟩, rfl⟩
  · rintro ⟨c, ⟨before, after, hcs, hnodup, hgiven⟩, rfl⟩
    exact ⟨before, c, after, registerEach b.settings.root before, hcs,
      registerAll_ok_iff.2 ⟨hnodup, rfl⟩,
      register_eq_error_iff.2 ⟨(hasKey_registerEach _ _ _).2 hgiven, rfl⟩⟩

/-- A blueprint whose commands have names of their own is built, with the registry that they are
    registered in one by one. -/
theorem build_of_nodup {b : Blueprint σ} (h : (b.commands.map Command.name).Nodup) :
    b.build = .ok ⟨b.settings, registerEach b.settings.root b.commands,
      b.service.getD Conversion.Service.standard, b.authenticator, b.interceptors⟩ := by
  have hall : registerAll { root := b.settings.root } b.commands = .ok _ :=
    registerAll_ok_iff.2 ⟨h, rfl⟩
  rw [build, hall]

/-- Building fails if two commands share a name. -/
theorem exists_build_error_iff {b : Blueprint σ} :
    (∃ e, b.build = .error e) ↔ ¬ (b.commands.map Command.name).Nodup := by
  constructor
  · rintro ⟨e, he⟩ hnodup
    rw [build_of_nodup hnodup] at he
    exact nomatch he
  · intro hrepeated
    cases hb : b.build with
    | error e => exact ⟨e, rfl⟩
    | ok d =>
      -- a build that ends well has registered every command
      unfold build at hb
      split at hb
      · exact nomatch hb
      · next hall => exact absurd (registerAll_ok_iff.1 hall).1 hrepeated

end Blueprint

namespace CommandRegistry

variable {σ : Type}

/-- What the calls with `cs` in turn make of a registry that was empty. -/
structure Consistent (root : String) (cs : List (Command σ)) : Prop where
  /-- A call fails if its name was given before. -/
  fails : ∀ before c after, cs = before ++ c :: after →
    ((∃ e, ((registerEach root before).register c).1 = .error e) ↔
      ∃ other ∈ before, other.name = c.name)
  /-- A call that fails tells its name and leaves the registry as it was. -/
  untouched : ∀ before c after e left, cs = before ++ c :: after →
    (registerEach root before).register c = (.error e, left) →
    e = duplicate c.name ∧ left = registerEach root before ∧
      registerEach root (before ++ [c]) = left
  /-- Of the calls with a name the first one succeeds. -/
  first : ∀ c, Succeeds root cs c ↔
    ∃ before after, cs = before ++ c :: after ∧ ∀ other ∈ before, other.name ≠ c.name
  /-- A name stands for the command that succeeded under it, inside the namespace, or under the
      name behind the root. -/
  resolves : ∀ name c, (registerEach root cs).resolve name = .ok c ↔
    Succeeds root cs c ∧ (c.name = name ∧ inNamespace root name = true ∨
      c.name = qualified root name ∧
        ¬ (inNamespace root name = true ∧ ∃ other ∈ cs, other.name = name))
  /-- The commands that succeeded are listed, and no others. -/
  lists : ∀ c, c ∈ (registerEach root cs).commands ↔ Succeeds root cs c
  /-- Their names ascend strictly, byte by byte. -/
  ascends : (registerEach root cs).commands.Pairwise fun c other =>
    Bytes.ofText c.name < Bytes.ofText other.name
  /-- A type stands for the command that succeeded with it. -/
  types : ∀ key c, (registerEach root cs).ofType? key = some c ↔
    Succeeds root cs c ∧ c.key = key

/-- Register calls keep a registry consistent, where no type has two names.  A dispatcher is
    built of the same commands if no two of them share a name, and the error of the build tells
    the first name that is repeated. -/
theorem registerEach_consistent (root : String) (cs : List (Command σ))
    (htypes : ∀ c ∈ cs, ∀ other ∈ cs, other.key = c.key → other.name = c.name) :
    Consistent root cs ∧
      ∀ b : Blueprint σ, b.commands = cs →
        ((∃ e, b.build = .error e) ↔ ¬ (cs.map Command.name).Nodup) ∧
        ∀ e, b.build = .error e ↔ ∃ c, Blueprint.FirstRepeated cs c ∧ e = duplicate c.name := by
  -- a call fails exactly on a name that an earlier call asked for
  have hfails : ∀ before : List (Command σ), ∀ c e,
      ((registerEach root before).register c).1 = .error e ↔
        (∃ other ∈ before, other.name = c.name) ∧ e = duplicate c.name := by
    intro before c e
    rw [register_eq_error_iff, hasKey_registerEach]
  refine ⟨⟨?fails, ?untouched, fun c => succeeds_iff, fun name c => resolve_registerEach_iff,
    fun c => mem_commands_registerEach, pairwise_commands_registerEach root cs,
    fun key c => ofType?_registerEach_iff root htypes⟩, ?build⟩
  case fails =>
    intro before c after _
    simp only [hfails, exists_and_left, exists_eq, and_true]
  case untouched =>
    intro before c after e left _ he
    obtain ⟨hkey, rfl⟩ := register_eq_error_iff.1 (congrArg Prod.fst he)
    have hleft : (registerEach root before).attempt c = left := congrArg Prod.snd he
    refine ⟨rfl, hleft.symm.trans (attempt_of_taken hkey), ?_⟩
    rw [registerEach, List.foldl_append]
    exact hleft
  case build =>
    rintro b rfl
    exact ⟨Blueprint.exists_build_error_iff, fun e => Blueprint.build_error_iff⟩

/-- Two types claim one name: the call with the second one fails, so the type stands for no
    command, and the name stands for the command of the first one. -/
theorem registerEach_consistent_claimed_twice :
    let cs : List (Command Sample.Log) := [1, 11, 0].map (Sample.commandAt {})
    (∀ c ∈ cs, ∀ other ∈ cs, other.key = c.key → other.name = c.name) ∧
      (∀ c, (registerEach "app" cs).ofType? 11 ≠ some c) ∧
      (registerEach "app" cs).resolve "users.Create" = .ok (Sample.commandAt {} 1) ∧
      Blueprint.build { settings := {}, commands := cs } =
        .error ⟨"command 'app.users.Create' registered twice"⟩ := by
  intro cs
  have hkeys : ∀ c ∈ cs, ∀ other ∈ cs, other.key = c.key → other.name = c.name := by
    simp only [cs, List.map_cons, List.map_nil, List.forall_mem_cons, List.not_mem_nil,
      false_implies, implies_true, and_true]
    decide
  obtain ⟨hconsistent, hbuild⟩ := registerEach_consistent "app" cs hkeys
  -- the call with the first type succeeds, so that the one with the second type does not
  have hfirst : Succeeds "app" cs (Sample.commandAt {} 1) :=
    (hconsistent.first _).2 ⟨[], _, rfl, fun other hother => nomatch hother⟩
  refine ⟨hkeys, fun c hc => ?_, ?_, ?_⟩
  · obtain ⟨hsucceeds, hkey⟩ := (hconsistent.types 11 c).1 hc
    have hname : (Sample.commandAt {} 1).name = c.name :=
      hkeys c hsucceeds.mem (Sample.commandAt {} 11) (by simp [cs]) hkey.symm
    obtain rfl := hfirst.eq_of_name hsucceeds hname
    exact absurd hkey (by decide)
  · exact (hconsistent.resolves "users.Create" _).2 ⟨hfirst, .inr ⟨by decide, by decide⟩⟩
  · refine ((hbuild { settings := {}, commands := cs } rfl).2 _).2 ⟨Sample.commandAt {} 11, ?_, rfl⟩
    exact ⟨[Sample.commandAt {} 1], [Sample.commandAt {} 0], rfl, by decide, _,
      List.mem_singleton_self _, by decide⟩

end CommandRegistry

end CommandBus
