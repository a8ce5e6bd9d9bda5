import CommandBus.Proofs.Dispatch.Consistency
import CommandBus.Proofs.Dispatch.Denial
import CommandBus.Proofs.Dispatch.Namespace

/-!
# Ways of naming a command

A registered command of the namespace is called by its full name, by its name relative to the
root, as it is, or by its type.  Each way has a look-up of its own, and all of them lead to the
same command, so that a dispatch ends alike however the command was named.

The relative name has one exception.  Where it is the full name of another command of the
namespace, as `app.Alpha` is both that and the relative name of `app.app.Alpha`, it stands for
the other one: the command is shadowed.

## Key results

- `exists_relative`: every command of the namespace has a relative name, if the root is not empty
- `resolve_relative_iff`: a relative name stands for its command unless that is shadowed
- `dispatch_same_by_every_name`: all ways of naming a command end in the same outcome
-/

namespace CommandBus

namespace CommandRegistry

variable {σ : Type}

/-- The full name of a registered command of the namespace. -/
def Claimed (registry : CommandRegistry σ) (name : String) : Prop :=
  inNamespace registry.root name = true ∧ ∃ other ∈ registry.commands, other.name = name

/-- Under a root that is not empty every name of the namespace has something behind the root. -/
theorem exists_relative {root name : String} (hroot : root ≠ "")
    (hin : inNamespace root name = true) :
    ∃ relative, relative ≠ "" ∧ name = qualified root relative :=
  (inNamespace_iff.1 hin).resolve_left hroot

/-- A name is shorter than the name that it stands for behind a root. -/
theorem qualified_ne_self (root name : String) : qualified root name ≠ name := by
  intro heq
  have hlength := congrArg String.length heq
  simp only [qualified, String.length_append] at hlength
  have hpoint : ".".length = 1 := rfl
  omega

/-- The names of the registered commands are those that register calls were made with. -/
theorem exists_mem_commands_iff (root : String) (cs : List (Command σ)) (name : String) :
    (∃ c ∈ (registerEach root cs).commands, c.name = name) ↔ ∃ c ∈ cs, c.name = name := by
  rw [← hasKey_registerEach root cs name, Entries.hasKey, Option.isSome_iff_exists]
  constructor
  · rintro ⟨c, hc, rfl⟩
    exact ⟨c, (keyed_registerEach root cs).get?_of_mem hc⟩
  · rintro ⟨c, hget⟩
    exact ⟨c, mem_commands_of_get? hget, (keyed_registerEach root cs).name_of_get? hget⟩

/-- A relative name stands for its command, unless it is itself the full name of one. -/
theorem resolve_relative_iff {root : String} {cs : List (Command σ)} {c : Command σ}
    (hc : c ∈ (registerEach root cs).commands) {relative : String}
    (hname : c.name = qualified root relative) :
    (registerEach root cs).resolve relative = .ok c ↔
      ¬ (registerEach root cs).Claimed relative := by
  have hsucceeds := mem_commands_registerEach.1 hc
  -- the first look-up does not find the command, whose name is longer
  have hne : c.name ≠ relative := hname ▸ qualified_ne_self root relative
  rw [resolve_registerEach_iff, Claimed, registerEach_root, exists_mem_commands_iff]
  constructor
  · rintro ⟨-, ⟨heq, -⟩ | ⟨-, hfree⟩⟩
    · exact absurd heq hne
    · exact hfree
  · exact fun hfree => ⟨hsucceeds, .inr ⟨hname, hfree⟩⟩

end CommandRegistry

namespace Dispatcher

open CommandRegistry

variable {σ : Type}

/-- Let a dispatcher be built from commands of which no type has two names, and let one of those
    that are registered be in the namespace.  Then it is the command itself that is dispatched by
    its full name, and by every other way of naming it: as it is, by its type, and by its name
    relative to the root where no command of the namespace has that for its full name.  Result,
    context and state are the same by all of them.  There is a relative name if the root is not
    empty; where it is the full name of a command of the namespace, that one is dispatched. -/
theorem dispatch_same_by_every_name {b : Blueprint σ} {d : Dispatcher σ} (hb : b.build = .ok d)
    (htypes : ∀ c ∈ b.commands, ∀ other ∈ b.commands, other.key = c.key → other.name = c.name)
    {c : Command σ} (hc : c ∈ d.registry.commands)
    (hin : inNamespace d.settings.root c.name = true) :
    (∀ params ctx r,
      let outcome := d.chain c params ctx r
      d.dispatch c.name params ctx r = outcome ∧
      d.dispatchTo c params ctx r = outcome ∧
      (∀ wanted : Command σ, wanted.key = c.key → d.dispatchType wanted params ctx r = outcome) ∧
      ∀ relative, c.name = qualified d.settings.root relative → ¬ d.registry.Claimed relative →
        d.dispatch relative params ctx r = outcome) ∧
    (d.settings.root ≠ "" →
      ∃ relative, relative ≠ "" ∧ c.name = qualified d.settings.root relative) ∧
    ∀ relative, c.name = qualified d.settings.root relative →
      ∀ other ∈ d.registry.commands, other.name = relative →
        inNamespace d.settings.root relative = true →
        d.dispatch relative = d.chain other ∧ d.registry.resolve relative ≠ .ok c := by
  obtain ⟨hregistry, -, -, hsettings⟩ := Blueprint.build_eq hb
  rw [← hsettings] at hregistry
  have hroot : d.registry.root = d.settings.root := by rw [hregistry, registerEach_root]
  have hk : d.registry.Keyed := hregistry ▸ keyed_registerEach _ _
  have hmem : ∀ {other}, other ∈ d.registry.commands → other ∈ b.commands := by
    intro other hother
    rw [hregistry] at hother
    exact (mem_commands_registerEach.1 hother).mem
  -- relative to the root the command is found unless the name is claimed by another one
  have hrelative : ∀ relative, c.name = qualified d.settings.root relative →
      (d.registry.resolve relative = .ok c ↔ ¬ d.registry.Claimed relative) := by
    intro relative hname
    rw [hregistry] at hc ⊢
    exact resolve_relative_iff hc hname
  rw [← hroot] at hin
  refine ⟨fun params ctx r => ?same, fun hne => exists_relative hne (hroot ▸ hin), ?shadowed⟩
  case same =>
    obtain ⟨hfull, hitself, htype⟩ := entry_of_mem hk hc hin
    -- an entry by a type is an entry by any command of the type
    have hfound : d.registry.ofType? c.key = some c :=
      ofType?_key_of_mem hk hc fun other hother => htypes c (hmem hc) other (hmem hother)
    refine ⟨by rw [hfull.eq_chain hin], by rw [hitself.eq_chain hin], fun wanted hkey => ?_,
      fun relative hname hfree => ?_⟩
    · rw [(Entry.type (hkey ▸ hfound)).eq_chain hin]
    · rw [(Entry.name ((hrelative relative hname).2 hfree)).eq_chain hin]
  case shadowed =>
    rintro relative hname other hother rfl hinother
    rw [← hroot] at hinother
    refine ⟨(entry_of_mem hk hother hinother).1.eq_chain hinother, fun hresolve => ?_⟩
    exact (hrelative other.name hname).1 hresolve ⟨hinother, other, hother, rfl⟩

/-- `app.Alpha` is dispatched by `Alpha` as by its full name, and `app.app.Alpha`, whose relative
    name is `app.Alpha`, is shadowed. -/
theorem dispatch_same_by_every_name_alpha :
    let cs : List (Command Sample.Log) := [0, 15].map (Sample.commandAt {})
    let b : Blueprint Sample.Log := { settings := {}, commands := cs }
    let alpha := Sample.commandAt {} 0
    let nested := Sample.commandAt {} 15
    ∃ d, b.build = .ok d ∧
      (∀ c ∈ cs, ∀ other ∈ cs, other.key = c.key → other.name = c.name) ∧
      (alpha ∈ d.registry.commands ∧ inNamespace d.settings.root alpha.name = true) ∧
      (nested ∈ d.registry.commands ∧ inNamespace d.settings.root nested.name = true) ∧
      (∀ params ctx r, d.dispatch "Alpha" params ctx r = d.dispatchType alpha params ctx r ∧
        d.dispatch "app.Alpha" params ctx r = d.dispatchType alpha params ctx r) ∧
      d.registry.resolve "app.Alpha" ≠ .ok nested := by
  intro cs b alpha nested
  let d : Dispatcher Sample.Log :=
    ⟨{}, registerEach "app" cs, Conversion.Service.standard, none, []⟩
  have hb : b.build = .ok d := Blueprint.build_of_nodup (b := b) (by decide)
  have htypes : ∀ c ∈ cs, ∀ other ∈ cs, other.key = c.key → other.name = c.name := by
    simp only [cs, List.map_cons, List.map_nil, List.forall_mem_cons, List.not_mem_nil,
      false_implies, implies_true, and_true]
    decide
  have halpha : alpha ∈ d.registry.commands :=
    mem_commands_registerEach.2 (succeeds_iff.2 ⟨[], [nested], rfl, by simp⟩)
  have hnested : nested ∈ d.registry.commands :=
    mem_commands_registerEach.2 (succeeds_iff.2 ⟨[alpha], [], rfl, by decide⟩)
  -- nobody has the relative name as a full one
  have hfree : ¬ d.registry.Claimed "Alpha" := fun h => absurd h.1 (by decide)
  obtain ⟨hsame, -, -⟩ := dispatch_same_by_every_name hb htypes halpha (by decide)
  obtain ⟨-, -, hshadowed⟩ := dispatch_same_by_every_name hb htypes hnested (by decide)
  refine ⟨d, hb, htypes, ⟨halpha, by decide⟩, ⟨hnested, by decide⟩, fun params ctx r => ?_, ?_⟩
  · obtain ⟨hfull, -, htype, hrelative⟩ := hsame params ctx r
    rw [htype alpha rfl]
    exact ⟨hrelative "Alpha" rfl hfree, hfull⟩
  · exact (hshadowed "app.Alpha" rfl alpha halpha rfl (by decide)).2

end Dispatcher

end CommandBus
