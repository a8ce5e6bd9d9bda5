import CommandBus.Dispatch.Dispatcher
import CommandBus.Proofs.Dispatch.Registration
import CommandBus.Sample.Command
import Mathlib.Data.List.Basic

/-!
# Staying inside the root namespace

A name is in the namespace of a root if it is the root, a point and something more, or if the
root is empty.  A name that is resolved is looked up twice, the second time behind the root and
a point.  Only the first look-up tests the namespace: the second one finds a name of the
namespace by its form, with one exception.  The empty name stands for the root and a point
alone, which is no name of the namespace but may be registered.

## Key results

- `inNamespace_iff`: the names of a namespace
- `resolve_cases`: what is resolved is in the namespace, or is the exception
- `resolve_inside_iff`: when nothing outside is ever resolved or dispatched
- `resolve_empty_outside`: the exception happens
-/

namespace CommandBus

namespace CommandRegistry

/-- The characters of a name behind a root. -/
private theorem toList_qualified (root name : String) :
    (qualified root name).toList = root.toList ++ '.' :: name.toList := by
  simp [qualified, String.toList_append]

/-- A name is in the namespace if the root is empty, or if the name is the root, a point and
    something more. -/
theorem inNamespace_iff {root name : String} :
    inNamespace root name = true ↔
      root = "" ∨ ∃ rest, rest ≠ "" ∧ name = qualified root rest := by
  simp only [inNamespace, Bool.or_eq_true, String.isEmpty_iff]
  refine or_congr_right ⟨fun h => ?_, ?_⟩
  -- behind the root there is a point and at least one character more
  · split at h
    · next c cs hp =>
      refine ⟨String.ofList (c :: cs), by simp [← String.toList_inj], ?_⟩
      rw [← String.toList_inj, toList_qualified, String.toList_ofList]
      exact (List.isPrefixOf?_eq_some_iff_append_eq.1 hp).symm
    · exact nomatch h
  · rintro ⟨rest, hrest, rfl⟩
    have hp : root.toList.isPrefixOf? (qualified root rest).toList = some ('.' :: rest.toList) :=
      List.isPrefixOf?_eq_some_iff_append_eq.2 (toList_qualified root rest).symm
    rw [hp]
    cases hc : rest.toList with
    | nil => exact absurd (by simpa using hc) hrest
    | cons c cs => rfl

/-- Behind the root every name is in the namespace but the empty one. -/
theorem inNamespace_qualified {root name : String} :
    inNamespace root (qualified root name) = true ↔ root = "" ∨ name ≠ "" := by
  rw [inNamespace_iff]
  refine or_congr_right ⟨?_, fun h => ⟨name, h, rfl⟩⟩
  rintro ⟨rest, hrest, heq⟩ rfl
  rw [← String.toList_inj, toList_qualified, toList_qualified] at heq
  have htail := List.append_cancel_left heq
  exact hrest (by simpa using htail.symm)

variable {σ : Type}

/-- What is found is kept under the name of the command. -/
theorem Keyed.name_of_get? {registry : CommandRegistry σ} (h : registry.Keyed) {name : String}
    {c : Command σ} (hg : Entries.get? name registry.byName.entries = some c) : c.name = name :=
  (h.named _ (Entries.mem_of_get? hg)).1.symm

/-- Where a resolved command comes from: it was found under the name, in the namespace, or under
    the name behind the root. -/
theorem get?_of_resolve {registry : CommandRegistry σ} {name : String} {c : Command σ}
    (h : registry.resolve name = .ok c) :
    (Entries.get? name registry.byName.entries = some c ∧ inNamespace registry.root c.name = true) ∨
      Entries.get? (qualified registry.root name) registry.byName.entries = some c := by
  unfold resolve at h
  split at h
  -- found by the full name and inside, by the name under the root, or not at all
  · next found hf =>
    obtain rfl := Except.ok.inj h
    exact .inl (Option.filter_eq_some_iff.1 hf)
  · split at h
    · next found hg =>
      obtain rfl := Except.ok.inj h
      exact .inr hg
    · exact nomatch h

/-- A resolved command is registered, under its own name. -/
theorem get?_name_of_resolve {registry : CommandRegistry σ} (hk : registry.Keyed)
    {name : String} {c : Command σ} (h : registry.resolve name = .ok c) :
    Entries.get? c.name registry.byName.entries = some c := by
  obtain ⟨hg, -⟩ | hg := get?_of_resolve h
  · rw [hk.name_of_get? hg]
    exact hg
  · rw [hk.name_of_get? hg]
    exact hg

/-- A command that is resolved is in the namespace, unless the name was empty and the command
    has the root and a point for its name. -/
theorem resolve_cases {registry : CommandRegistry σ} (hk : registry.Keyed) {name : String}
    {c : Command σ} (h : registry.resolve name = .ok c) :
    inNamespace registry.root c.name = true ∨
      (registry.root ≠ "" ∧ name = "" ∧ c.name = qualified registry.root "") := by
  obtain ⟨-, hin⟩ | hg := get?_of_resolve h
  · exact .inl hin
  · rw [hk.name_of_get? hg]
    by_cases hroot : registry.root = ""
    · exact .inl (inNamespace_qualified.2 (.inl hroot))
    · by_cases hname : name = ""
      · exact .inr ⟨hroot, hname, by rw [hname]⟩
      · exact .inl (inNamespace_qualified.2 (.inr hname))

/-- The exception: under a root that is not empty, the empty name is resolved to the command
    with the root and a point for its name. -/
theorem resolve_empty_of_get? {registry : CommandRegistry σ} (hk : registry.Keyed)
    (hroot : registry.root ≠ "") {c : Command σ}
    (hg : Entries.get? (qualified registry.root "") registry.byName.entries = some c) :
    registry.resolve "" = .ok c := by
  have hout : registry.named? "" = none := by
    rw [named?, Option.filter_eq_none_iff]
    intro found hf hin
    rw [hk.name_of_get? hf, inNamespace_iff] at hin
    obtain hempty | ⟨rest, -, heq⟩ := hin
    · exact hroot hempty
    · rw [← String.toList_inj, toList_qualified] at heq
      simp at heq
  simp [resolve, hout, hg]

end CommandRegistry

namespace Dispatcher

open CommandRegistry

variable {σ : Type}

/-- A way into the dispatcher leads to nothing outside the namespace: it is refused as an
    unknown command and touches nothing, or it is the chain on a command of the namespace. -/
def Inside (d : Dispatcher σ)
    (enter : Parameters → Context → Runtime σ → Outcome (Runtime σ)) : Prop :=
  (∃ name, ∀ params ctx r, enter params ctx r = ⟨.error (.noSuchCommand name), ctx, r⟩) ∨
    ∃ c, inNamespace d.registry.root c.name = true ∧ enter = d.chain c

/-- A command that was found before is dispatched inside or not at all. -/
theorem inside_dispatchTo (d : Dispatcher σ) (c : Command σ) : d.Inside (d.dispatchTo c) := by
  cases hin : inNamespace d.registry.root c.name with
  | true =>
    refine .inr ⟨c, hin, ?_⟩
    funext params ctx r
    simp [dispatchTo, ensureInNamespace, hin]
  | false =>
    refine .inl ⟨c.name, fun params ctx r => ?_⟩
    simp [dispatchTo, ensureInNamespace, hin]

/-- So is the registered command of a type. -/
theorem inside_dispatchType (d : Dispatcher σ) (c : Command σ) : d.Inside (d.dispatchType c) := by
  cases hf : d.registry.ofType? c.key with
  | none =>
    refine .inl ⟨c.name, fun params ctx r => ?_⟩
    simp [dispatchType, hf]
  | some found =>
    have heq : d.dispatchType c = d.dispatchTo found := by
      funext params ctx r
      simp [dispatchType, hf]
    rw [heq]
    exact inside_dispatchTo d found

/-- So is what a name is resolved to, if that is in the namespace. -/
theorem inside_dispatch {d : Dispatcher σ} {name : String}
    (h : ∀ c, d.registry.resolve name = .ok c → inNamespace d.registry.root c.name = true) :
    d.Inside (d.dispatch name) := by
  cases hr : d.registry.resolve name with
  | error e =>
    -- a name that stands for nothing is the one that the error names
    have he : e = .noSuchCommand name := by
      unfold resolve at hr
      split at hr
      · exact nomatch hr
      · split at hr
        · exact nomatch hr
        · exact (Except.error.inj hr).symm
    refine .inl ⟨name, fun params ctx r => ?_⟩
    simp [dispatch, hr, he]
  | ok c =>
    refine .inr ⟨c, h c hr, ?_⟩
    funext params ctx r
    simp [dispatch, hr]

end Dispatcher

namespace CommandRegistry

variable {σ : Type}

/-- What a name is resolved to is inside, but for the empty name where it is the root and a point
    alone. -/
private theorem inside_of_resolve {root name : String} {cs : List (Command σ)} {c : Command σ}
    (hr : (registerEach root cs).resolve name = .ok c)
    (hcond : name ≠ "" ∨ root = "" ∨ ∀ c ∈ cs, c.name ≠ qualified root "") :
    inNamespace root c.name = true := by
  have hk := keyed_registerEach root cs
  have hcases := resolve_cases hk hr
  rw [registerEach_root] at hcases
  refine hcases.resolve_right ?_
  rintro ⟨hroot, hname, hc⟩
  -- only the fall-through leads outside, and the condition leaves it no way
  obtain hne | hempty | hnone := hcond
  · exact hne hname
  · exact hroot hempty
  · have hget := get?_name_of_resolve hk hr
    rw [get?_registerEach] at hget
    exact hnone c (List.mem_of_find?_eq_some hget) hc

/-- With a command that is named the root and a point alone, the empty name is resolved to
    something outside. -/
private theorem outside_of_mem {root : String} (hroot : root ≠ "") {cs : List (Command σ)}
    {c : Command σ} (hc : c ∈ cs) (hname : c.name = qualified root "") :
    ∃ kept, (registerEach root cs).resolve "" = .ok kept ∧
      inNamespace root kept.name = false := by
  have hk := keyed_registerEach root cs
  -- another command of the name may have been registered first
  have hfound : ∃ kept, cs.find? (fun c => c.name == qualified root "") = some kept := by
    rw [← Option.isSome_iff_exists, List.find?_isSome]
    exact ⟨c, hc, by simp [hname]⟩
  obtain ⟨kept, hkept⟩ := hfound
  rw [← get?_registerEach root cs] at hkept
  refine ⟨kept, resolve_empty_of_get? hk (by simpa using hroot) (by simpa using hkept), ?_⟩
  rw [hk.name_of_get? hkept, ← Bool.not_eq_true, inNamespace_qualified]
  simpa using hroot

/-- For any register calls under a root, nothing outside the namespace is ever resolved exactly
    if the root is empty or no command has the root and a point alone for its name.  Dispatches
    by command and by type stay inside without a condition; dispatches by name do for every
    name but the empty one, and for that one under the same condition. -/
theorem resolve_inside_iff (root : String) (cs : List (Command σ)) :
    ((∀ name c, (registerEach root cs).resolve name = .ok c → inNamespace root c.name = true) ↔
      root = "" ∨ ∀ c ∈ cs, c.name ≠ qualified root "") ∧
    ∀ d : Dispatcher σ, d.registry = registerEach root cs →
      (∀ c, d.Inside (d.dispatchTo c)) ∧ (∀ c, d.Inside (d.dispatchType c)) ∧
      ∀ name, name ≠ "" ∨ root = "" ∨ (∀ c ∈ cs, c.name ≠ qualified root "") →
        d.Inside (d.dispatch name) := by
  refine ⟨⟨fun hall => ?_, fun hcond name c hr => inside_of_resolve hr (.inr hcond)⟩,
    fun d hd => ⟨d.inside_dispatchTo, d.inside_dispatchType, fun name hcond => ?_⟩⟩
  · by_cases hroot : root = ""
    · exact .inl hroot
    · refine .inr fun c hc hname => ?_
      -- the command whose name is the root and a point is found under the empty name
      obtain ⟨kept, hres, hout⟩ := outside_of_mem hroot hc hname
      have hin := hall "" kept hres
      rw [hout] at hin
      exact nomatch hin
  · refine Dispatcher.inside_dispatch fun c hr => ?_
    rw [hd] at hr ⊢
    rw [registerEach_root]
    exact inside_of_resolve hr hcond

/-- With a command inside the root and one outside it, every dispatch by name stays inside. -/
theorem resolve_inside_app :
    let cs : List (Command Sample.Log) := [Sample.commandAt {} 0, Sample.commandAt {} 6]
    let d : Dispatcher Sample.Log :=
      ⟨{}, registerEach "app" cs, Conversion.Service.standard, none, []⟩
    (∀ name, d.Inside (d.dispatch name)) ∧
      (d.dispatch "Alpha" {} {} { world := [] }).state.world = ["exec:app.Alpha"] ∧
      (d.dispatch "other.Escaped" {} {} { world := [] }).state.world = [] := by
  intro cs d
  have hnone : ∀ c ∈ cs, c.name ≠ qualified "app" "" := by
    intro c hc
    simp only [cs, List.mem_cons, List.not_mem_nil, or_false] at hc
    obtain rfl | rfl := hc <;> decide
  exact ⟨fun name => ((resolve_inside_iff "app" cs).2 d rfl).2.2 name (.inr (.inr hnone)),
    by decide, by decide⟩

/-- With `app.` registered under the root `app`, the empty name is resolved to it although it is
    outside the namespace, and a dispatch of the empty name runs it. -/
theorem resolve_empty_outside :
    let registry := registerEach "app" [Sample.commandAt {} 13]
    let d : Dispatcher Sample.Log := ⟨{}, registry, Conversion.Service.standard, none, []⟩
    ¬ (∀ name c, registry.resolve name = .ok c → inNamespace "app" c.name = true) ∧
      (d.dispatch "" {} {} { world := [] }).state.world = ["exec:app."] := by
  refine ⟨fun h => ?_, by decide⟩
  exact absurd (h "" (Sample.commandAt {} 13) rfl) (by decide)

end CommandRegistry

end CommandBus
