import CommandBus.Proofs.Access.Records

/-!
# Handing out authorizers

A registry hands out authorizers by policy.  One that it has handed out is `Issued`: the registry
hands it out again for its policy, whatever it hands out in between, and its number tells it apart
from the authorizers of all other policies.  For every set of roles there is one at most.

## Key results

- `authorizer_cases`: what a registry can do when it is asked for an authorizer
- `issued_authorizer`, `Issued.authorizer`: an authorizer that was handed out is handed out again
- `Issued.number_eq_iff`: the number of an authorizer stands for its policy
- `mem_roleSets_authorizer`, `nodup_authorizer`: the sets of roles that have an authorizer
-/

namespace CommandBus

namespace AuthorizerRegistry

/-- A registry has handed out an authorizer: it hands it out again for the same policy, and makes
    nothing new. -/
def Issued (registry : AuthorizerRegistry) (x : Authorizer) : Prop :=
  registry.authorizer x.policy = (x, registry)

/-- Handing out makes nothing new, or it makes the authorizer of a set of roles that had none. -/
theorem authorizer_cases (registry : AuthorizerRegistry) (policy : AccessPolicy) :
    ((registry.authorizer policy).2 = registry ∧
      ∀ required, policy = .anyOf required → required ∈ registry.roleSets) ∨
    ∃ required, policy = .anyOf required ∧ required ∉ registry.roleSets ∧
      registry.authorizer policy =
        (⟨registry.roleSets.length + 2, policy⟩, ⟨registry.roleSets ++ [required]⟩) := by
  cases policy with
  | anyone => exact .inl ⟨rfl, fun _ h => nomatch h⟩
  | authenticated => exact .inl ⟨rfl, fun _ h => nomatch h⟩
  | anyOf required =>
    -- a set of roles that was asked for before has its place in the list
    cases hi : registry.roleSets.idxOf? required with
    | some i =>
      refine .inl ⟨by rw [authorizer, hi], fun other h => ?_⟩
      rw [← AccessPolicy.anyOf.inj h, ← List.isSome_idxOf?, hi]
      rfl
    | none =>
      exact .inr ⟨required, rfl, List.idxOf?_eq_none_iff.1 hi, by rw [authorizer, hi]⟩

/-- Sets that were there keep their places when one more is put behind them. -/
private theorem idxOf?_concat (sets : List AuthoritySet) (added required : AuthoritySet) :
    (sets ++ [added]).idxOf? required =
      (sets.idxOf? required).or (if added = required then some sets.length else none) := by
  rw [List.idxOf?, List.findIdx?_append]
  by_cases h : added = required
  · simp [h]
  · simp [h]

/-- The authorizers that were handed out, by their numbers. -/
theorem issued_iff {registry : AuthorizerRegistry} {x : Authorizer} :
    registry.Issued x ↔
      x = ⟨0, .anyone⟩ ∨ x = ⟨1, .authenticated⟩ ∨
      ∃ i required, registry.roleSets.idxOf? required = some i ∧ x = ⟨i + 2, .anyOf required⟩ := by
  obtain ⟨number, policy⟩ := x
  cases policy with
  | anyone => simp [Issued, authorizer, eq_comm]
  | authenticated => simp [Issued, authorizer, eq_comm]
  | anyOf required =>
    cases hi : registry.roleSets.idxOf? required with
    | some i => simp [Issued, authorizer, hi, eq_comm]
    | none =>
      -- a set that has no authorizer yet would make the registry grow
      have hgrown : registry ≠ ⟨registry.roleSets ++ [required]⟩ := by
        intro h
        have hlength := congrArg (fun r => r.roleSets.length) h
        simp at hlength
      simp [Issued, authorizer, hi, hgrown.symm]

/-- An authorizer that is handed out is handed out again. -/
theorem issued_authorizer (registry : AuthorizerRegistry) (policy : AccessPolicy) :
    (registry.authorizer policy).2.Issued (registry.authorizer policy).1 := by
  rw [Issued, authorizer_fst_policy]
  obtain ⟨hsame, -⟩ | ⟨required, rfl, hnew, heq⟩ := registry.authorizer_cases policy
  · rw [hsame]
    exact Prod.ext rfl hsame
  · have hlast : (registry.roleSets ++ [required]).idxOf? required =
        some registry.roleSets.length := by
      rw [idxOf?_concat, List.idxOf?_eq_none_iff.2 hnew, if_pos rfl, Option.none_or]
    rw [heq, authorizer, hlast]

/-- It is so whatever is handed out in between. -/
theorem Issued.authorizer {registry : AuthorizerRegistry} {x : Authorizer}
    (h : registry.Issued x) (policy : AccessPolicy) :
    (registry.authorizer policy).2.Issued x := by
  obtain ⟨hsame, -⟩ | ⟨added, rfl, -, heq⟩ := registry.authorizer_cases policy
  · rwa [hsame]
  · rw [heq, issued_iff]
    refine (issued_iff.1 h).imp_right (Or.imp_right ?_)
    rintro ⟨i, required, hi, rfl⟩
    exact ⟨i, required, by rw [idxOf?_concat, hi, Option.some_or], rfl⟩

/-- Of authorizers that were handed out, the number stands for the policy. -/
theorem Issued.number_eq_iff {registry : AuthorizerRegistry} {x y : Authorizer}
    (hx : registry.Issued x) (hy : registry.Issued y) :
    x.number = y.number ↔ x.policy = y.policy := by
  constructor
  · intro h
    obtain rfl | rfl | ⟨i, required, hi, rfl⟩ := issued_iff.1 hx
    · obtain rfl | rfl | ⟨j, other, -, rfl⟩ := issued_iff.1 hy
      · rfl
      · exact nomatch h
      · exact nomatch h
    · obtain rfl | rfl | ⟨j, other, -, rfl⟩ := issued_iff.1 hy
      · exact nomatch h
      · rfl
      · exact nomatch h
    · obtain rfl | rfl | ⟨j, other, hj, rfl⟩ := issued_iff.1 hy
      · exact nomatch h
      · exact nomatch h
      -- one number is one place, where there is one set of roles
      · obtain rfl : i = j := Nat.add_right_cancel h
        obtain ⟨_, hrequired, -⟩ := List.idxOf?_eq_some_iff.1 hi
        obtain ⟨_, hother, -⟩ := List.idxOf?_eq_some_iff.1 hj
        rw [← hrequired, hother]
  · intro h
    unfold Issued at hx hy
    rw [h, hy] at hx
    rw [(Prod.mk.inj hx).1]

/-- The sets of roles that have an authorizer. -/
theorem mem_roleSets_authorizer {registry : AuthorizerRegistry} {policy : AccessPolicy}
    {required : AuthoritySet} :
    required ∈ (registry.authorizer policy).2.roleSets ↔
      required ∈ registry.roleSets ∨ policy = .anyOf required := by
  obtain ⟨hsame, hold⟩ | ⟨added, rfl, -, heq⟩ := registry.authorizer_cases policy
  · rw [hsame]
    exact ⟨.inl, fun h => h.elim id (hold required)⟩
  · rw [heq]
    simp [eq_comm]

/-- No set of roles gets a second authorizer. -/
theorem nodup_authorizer {registry : AuthorizerRegistry} (h : registry.roleSets.Nodup)
    (policy : AccessPolicy) : (registry.authorizer policy).2.roleSets.Nodup := by
  obtain ⟨hsame, -⟩ | ⟨added, -, hnew, heq⟩ := registry.authorizer_cases policy
  · rwa [hsame]
  · rw [heq]
    refine List.nodup_append.2 ⟨h, by simp, fun required hmem other hother => ?_⟩
    rintro rfl
    exact hnew (List.mem_singleton.1 hother ▸ hmem)

end AuthorizerRegistry

end CommandBus
