import CommandBus.Access.Authenticator
import CommandBus.Sample.Authenticator

/-!
# Strategies in a row

A chain asks its strategies one after the other until one of them decides, by an identity or by
an error.  Those before it have found nobody, and those behind it are not asked: neither the
outcome nor the environment afterwards depends on them.

A plan nests chains in chains.  Unless one of its chains is empty it can be built, and what it
comes to is the chain of its strategies in their order.

## Key results

- `firstDecisive_decided`, `firstDecisive_undecided`: the strategy that decides, or none
- `firstDecisive_firstDecisive`: a chain in front of strategies is its own strategies
- `Strategy.build_cases`: which plans can be built, and what they come to
- `Strategy.Flattens.build_eq`: a nested chain can be taken apart in place, at any depth
-/

namespace CommandBus

namespace Authenticator

variable {σ : Type}

/-! ## Asking in order -/

/-- The environment after authenticators were asked one after the other. -/
def worldAfter (asks : List (Authenticator σ)) (ctx : Context) (s : σ) : σ :=
  asks.foldl (fun s ask => (ask ctx s).2) s

/-- Authenticators that are asked one after the other, and none of them decides. -/
def NoneDecides : List (Authenticator σ) → Context → σ → Prop
  | [], _, _ => True
  | ask :: rest, ctx, s => (ask ctx s).1 = .ok none ∧ NoneDecides rest ctx (ask ctx s).2

/-- `ask` is the first to decide, after those `before` it. -/
def FirstToDecide (before : List (Authenticator σ)) (ask : Authenticator σ) (ctx : Context)
    (s : σ) : Prop :=
  NoneDecides before ctx s ∧ (ask ctx (worldAfter before ctx s)).1 ≠ .ok none

variable {ask : Authenticator σ} {asks before : List (Authenticator σ)} {ctx : Context} {s : σ}

/-- An authenticator that finds nobody leaves it to the others. -/
theorem firstDecisive_cons_of_nobody (h : (ask ctx s).1 = .ok none)
    (rest : List (Authenticator σ)) :
    firstDecisive (ask :: rest) ctx s = firstDecisive rest ctx (ask ctx s).2 := by
  have hask : ask ctx s = (.ok none, (ask ctx s).2) := Prod.ext h rfl
  rw [firstDecisive, hask]

/-- An authenticator that decides is the only one that is asked. -/
theorem firstDecisive_cons_of_decides (h : (ask ctx s).1 ≠ .ok none)
    (rest : List (Authenticator σ)) : firstDecisive (ask :: rest) ctx s = ask ctx s := by
  rw [firstDecisive]
  split
  · next hask => exact absurd (congrArg Prod.fst hask) h
  · next hask => exact hask.symm

/-- Those who do not decide leave it to the ones behind them. -/
theorem firstDecisive_append_of_noneDecides (h : NoneDecides before ctx s)
    (rest : List (Authenticator σ)) :
    firstDecisive (before ++ rest) ctx s = firstDecisive rest ctx (worldAfter before ctx s) := by
  induction before generalizing s with
  | nil => rfl
  | cons ask before ih =>
    rw [List.cons_append, firstDecisive_cons_of_nobody h.1, ih h.2]
    rfl

/-- The first to decide decides, whoever is behind it. -/
theorem firstDecisive_decided (h : FirstToDecide before ask ctx s)
    (later : List (Authenticator σ)) :
    firstDecisive (before ++ ask :: later) ctx s = ask ctx (worldAfter before ctx s) := by
  rw [firstDecisive_append_of_noneDecides h.1, firstDecisive_cons_of_decides h.2]

/-- Where none decides nobody is found, and all have been asked. -/
theorem firstDecisive_undecided (h : NoneDecides asks ctx s) :
    firstDecisive asks ctx s = (.ok none, worldAfter asks ctx s) := by
  have hall := firstDecisive_append_of_noneDecides h []
  rw [List.append_nil] at hall
  rw [hall]
  rfl

/-- Either none decides, or there is a first one that does. -/
theorem noneDecides_or_exists_first (asks : List (Authenticator σ)) (ctx : Context) (s : σ) :
    NoneDecides asks ctx s ∨
      ∃ before ask later, asks = before ++ ask :: later ∧ FirstToDecide before ask ctx s := by
  induction asks generalizing s with
  | nil => exact .inl trivial
  | cons ask rest ih =>
    by_cases h : (ask ctx s).1 = .ok none
    · obtain hnone | ⟨before, first, later, rfl, hbefore, hfirst⟩ := ih (ask ctx s).2
      · exact .inl ⟨h, hnone⟩
      · exact .inr ⟨ask :: before, first, later, rfl, ⟨h, hbefore⟩, hfirst⟩
    · exact .inr ⟨[], ask, rest, rfl, trivial, h⟩

/-! ## Chains in chains -/

/-- A chain of one is that one. -/
theorem firstDecisive_singleton (ask : Authenticator σ) : firstDecisive [ask] = ask := by
  funext ctx s
  by_cases h : (ask ctx s).1 = .ok none
  · rw [firstDecisive_cons_of_nobody h]
    exact Prod.ext h.symm rfl
  · exact firstDecisive_cons_of_decides h []

/-- A chain in front of other strategies is as good as its own strategies in front of them. -/
theorem firstDecisive_firstDecisive (asks rest : List (Authenticator σ)) :
    firstDecisive (firstDecisive asks :: rest) = firstDecisive (asks ++ rest) := by
  funext ctx s
  obtain hnone | ⟨before, ask, later, rfl, hfirst⟩ := noneDecides_or_exists_first asks ctx s
  · have hasks := firstDecisive_undecided hnone
    have hnobody : (firstDecisive asks ctx s).1 = .ok none := by rw [hasks]
    rw [firstDecisive_cons_of_nobody hnobody, firstDecisive_append_of_noneDecides hnone, hasks]
  · have hasks := firstDecisive_decided hfirst later
    have hdecides : (firstDecisive (before ++ ask :: later) ctx s).1 ≠ .ok none := by
      rw [hasks]
      exact hfirst.2
    rw [firstDecisive_cons_of_decides hdecides, List.append_assoc, List.cons_append, hasks,
      firstDecisive_decided hfirst]

/-- What strategies in front of others come to is decided by what the others come to. -/
theorem firstDecisive_append_congr {rest rest' : List (Authenticator σ)}
    (h : firstDecisive rest = firstDecisive rest') (asks : List (Authenticator σ)) :
    firstDecisive (asks ++ rest) = firstDecisive (asks ++ rest') := by
  rw [← firstDecisive_firstDecisive, ← firstDecisive_firstDecisive]
  funext ctx s
  by_cases hasks : (firstDecisive asks ctx s).1 = .ok none
  · rw [firstDecisive_cons_of_nobody hasks, firstDecisive_cons_of_nobody hasks, h]
  · rw [firstDecisive_cons_of_decides hasks, firstDecisive_cons_of_decides hasks]

/-- Chains in a row are all of their strategies in a row. -/
theorem firstDecisive_map_firstDecisive (chains : List (List (Authenticator σ))) :
    firstDecisive (chains.map firstDecisive) = firstDecisive chains.flatten := by
  induction chains with
  | nil => rfl
  | cons asks chains ih =>
    rw [List.map_cons, List.flatten_cons, firstDecisive_firstDecisive]
    exact firstDecisive_append_congr ih asks

/-! ## Who was asked -/

/-- An authenticator that writes down each time that it is asked. -/
def noted {α : Type} (label : α) (ask : Authenticator σ) : Authenticator (σ × List α) :=
  fun ctx s => ((ask ctx s.1).1, (ask ctx s.1).2, s.2 ++ [label])

section

variable {α : Type} {parts : List (α × Authenticator σ)} {ctx : Context}

/-- Labelled authenticators that write down when they are asked. -/
def notedAll (parts : List (α × Authenticator σ)) : List (Authenticator (σ × List α)) :=
  parts.map fun part => noted part.1 part.2

/-- To write something down is no decision. -/
theorem noneDecides_notedAll {s : σ × List α} :
    NoneDecides (notedAll parts) ctx s ↔ NoneDecides (parts.map Prod.snd) ctx s.1 := by
  induction parts generalizing s with
  | nil => exact Iff.rfl
  | cons part parts ih => exact and_congr_right fun _ => ih

/-- All who were asked have written it down, in order. -/
theorem worldAfter_notedAll (parts : List (α × Authenticator σ)) (ctx : Context) (s : σ)
    (told : List α) :
    worldAfter (notedAll parts) ctx (s, told) =
      (worldAfter (parts.map Prod.snd) ctx s, told ++ parts.map Prod.fst) := by
  induction parts generalizing s told with
  | nil => simp [worldAfter, notedAll]
  | cons part parts ih =>
    have hrest := ih (part.2 ctx s).2 (told ++ [part.1])
    rw [List.append_assoc] at hrest
    exact hrest

end

/-- How a chain of strategies must ask them. -/
structure AsksInOrder (asks : List (Authenticator σ)) (chain : Authenticator σ) : Prop where
  /-- The first strategy that decides makes the outcome, in the environment that those before it
      have left.  The ones behind it have no part in it. -/
  decided : ∀ before ask later ctx s, asks = before ++ ask :: later →
    FirstToDecide before ask ctx s → chain ctx s = ask ctx (worldAfter before ctx s)
  /-- Where none decides nobody is found. -/
  undecided : ∀ ctx s, NoneDecides asks ctx s → chain ctx s = (.ok none, worldAfter asks ctx s)
  /-- There are no other cases. -/
  either : ∀ ctx s, NoneDecides asks ctx s ∨
    ∃ before ask later, asks = before ++ ask :: later ∧ FirstToDecide before ask ctx s

theorem asksInOrder_firstDecisive (asks : List (Authenticator σ)) :
    AsksInOrder asks (firstDecisive asks) := by
  constructor
  · rintro before ask later ctx s rfl hfirst
    exact firstDecisive_decided hfirst later
  · intro ctx s hnone
    exact firstDecisive_undecided hnone
  · exact noneDecides_or_exists_first asks

/-- What must have been written down by labelled strategies when a chain of them has been asked. -/
structure NotesInOrder {α : Type} (parts : List (α × Authenticator σ))
    (chain : Authenticator (σ × List α)) : Prop where
  /-- Up to the first that decides, and that one, all were asked in order, and no other was. -/
  decided : ∀ before label ask later ctx s told, parts = before ++ (label, ask) :: later →
    FirstToDecide (before.map Prod.snd) ask ctx s →
    chain ctx (s, told) =
      let (answer, world) := ask ctx (worldAfter (before.map Prod.snd) ctx s)
      (answer, world, told ++ before.map Prod.fst ++ [label])
  /-- Where none decides all were asked in order. -/
  undecided : ∀ ctx s told, NoneDecides (parts.map Prod.snd) ctx s →
    chain ctx (s, told) =
      (.ok none, worldAfter (parts.map Prod.snd) ctx s, told ++ parts.map Prod.fst)

theorem notesInOrder_firstDecisive {α : Type} (parts : List (α × Authenticator σ)) :
    NotesInOrder parts (firstDecisive (notedAll parts)) := by
  constructor
  · rintro before label ask later ctx s told rfl ⟨hbefore, hask⟩
    -- the ones before leave their notes, oldest first
    have hworld := worldAfter_notedAll before ctx s told
    have hfirst : FirstToDecide (notedAll before) (noted label ask) ctx (s, told) := by
      refine ⟨noneDecides_notedAll.2 hbefore, ?_⟩
      rw [hworld]
      exact hask
    -- noting is one strategy at a time, so that the split of the parts is kept
    have hsplit : notedAll (before ++ (label, ask) :: later) =
        notedAll before ++ noted label ask :: notedAll later := by
      simp [notedAll]
    rw [hsplit, firstDecisive_decided hfirst, hworld]
    rfl
  · intro ctx s told hnone
    have hnoted : NoneDecides (notedAll parts) ctx (s, told) := noneDecides_notedAll.2 hnone
    rw [firstDecisive_undecided hnoted, worldAfter_notedAll]

end Authenticator

/-! ## Plans -/

namespace Strategy

open Authenticator

variable {σ : Type}

/-- Somewhere in a plan there is a chain without parts. -/
inductive HasEmpty : Strategy σ → Prop where
  | here : HasEmpty (.chain [])
  | inside {p : Strategy σ} {parts : List (Strategy σ)} (h : p ∈ parts) (hp : HasEmpty p) :
    HasEmpty (.chain parts)

theorem hasEmpty_chain_iff {parts : List (Strategy σ)} :
    HasEmpty (.chain parts) ↔ parts = [] ∨ ∃ p ∈ parts, p.HasEmpty := by
  constructor
  · intro h
    cases h with
    | here => exact .inl rfl
    | inside hmem hp => exact .inr ⟨_, hmem, hp⟩
  · rintro (rfl | ⟨p, hmem, hp⟩)
    · exact .here
    · exact .inside hmem hp

theorem not_hasEmpty_single (ask : Authenticator σ) : ¬ HasEmpty (.single ask) := by
  intro h
  cases h

/-- The strategies of several plans are those of each. -/
theorem leavesAll_eq_flatMap (parts : List (Strategy σ)) :
    leavesAll parts = parts.flatMap leaves := by
  induction parts with
  | nil => rfl
  | cons part rest ih => rw [leavesAll, ih, List.flatMap_cons]

mutual

/-- A plan with an empty chain in it is refused.  Any other one is the chain of its strategies. -/
theorem build_cases (p : Strategy σ) :
    p.HasEmpty ∧ p.build = .error AuthenticatorChain.emptyError ∨
      ¬ p.HasEmpty ∧ p.build = .ok (firstDecisive p.leaves) := by
  -- a single strategy is built as it is, and a chain of the parts that are built of it
  match p with
  | .single ask =>
    refine .inr ⟨not_hasEmpty_single ask, ?_⟩
    rw [build, leaves, firstDecisive_singleton]
  | .chain parts =>
    rw [hasEmpty_chain_iff, build]
    obtain ⟨hempty, hbuild⟩ | ⟨hnone, hbuild⟩ := buildAll_cases parts
    · exact .inl ⟨.inr hempty, by rw [hbuild]⟩
    · rw [hbuild]
      cases parts with
      | nil => exact .inl ⟨.inl rfl, rfl⟩
      | cons part rest =>
        refine .inr ⟨?_, ?_⟩
        · rintro (hnil | hpart)
          · exact nomatch hnil
          · exact hnone hpart
        -- chains inside of a chain ask in the order of their leaves
        · have hchain := firstDecisive_map_firstDecisive ((part :: rest).map leaves)
          rw [List.map_map] at hchain
          rw [leaves, leavesAll_eq_flatMap, List.flatMap_def, ← hchain]
          rfl

/-- The same of several plans, each of which is a chain by itself. -/
theorem buildAll_cases (parts : List (Strategy σ)) :
    (∃ p ∈ parts, p.HasEmpty) ∧ buildAll parts = .error AuthenticatorChain.emptyError ∨
      (¬ ∃ p ∈ parts, p.HasEmpty) ∧
        buildAll parts = .ok (parts.map fun p => firstDecisive p.leaves) := by
  match parts with
  | [] => exact .inr ⟨by simp, rfl⟩
  | part :: rest =>
    simp only [List.mem_cons, exists_eq_or_imp]
    rw [buildAll]
    -- the parts are built from the left, and the first empty one stops the building
    obtain ⟨hpart, hbuild⟩ | ⟨hpart, hbuild⟩ := build_cases part
    · exact .inl ⟨.inl hpart, by rw [hbuild]⟩
    · rw [hbuild]
      obtain ⟨hrest, hall⟩ | ⟨hrest, hall⟩ := buildAll_cases rest
      · exact .inl ⟨.inr hrest, by rw [hall]⟩
      · rw [hall]
        exact .inr ⟨not_or.2 ⟨hpart, hrest⟩, rfl⟩

end

variable {p q : Strategy σ}

theorem build_of_hasEmpty (h : p.HasEmpty) : p.build = .error AuthenticatorChain.emptyError := by
  obtain ⟨-, hbuild⟩ | ⟨hnot, -⟩ := build_cases p
  · exact hbuild
  · exact absurd h hnot

theorem build_of_not_hasEmpty (h : ¬ p.HasEmpty) : p.build = .ok (firstDecisive p.leaves) := by
  obtain ⟨hempty, -⟩ | ⟨-, hbuild⟩ := build_cases p
  · exact absurd hempty h
  · exact hbuild

/-- Plans with the same strategies are the same, if neither of them or both have an empty chain. -/
theorem build_congr (hempty : q.HasEmpty ↔ p.HasEmpty) (hleaves : q.leaves = p.leaves) :
    q.build = p.build := by
  by_cases hp : p.HasEmpty
  · rw [build_of_hasEmpty hp, build_of_hasEmpty (hempty.2 hp)]
  · rw [build_of_not_hasEmpty hp, build_of_not_hasEmpty (mt hempty.1 hp), hleaves]

/-! ## Taking chains apart -/

/-- In the second plan the parts of one chain inside of the first stand in its place. -/
inductive Flattens : Strategy σ → Strategy σ → Prop where
  | here {before parts after : List (Strategy σ)} (h : parts ≠ []) :
    Flattens (.chain (before ++ .chain parts :: after)) (.chain (before ++ parts ++ after))
  | inside {before after : List (Strategy σ)} {p q : Strategy σ} (h : Flattens p q) :
    Flattens (.chain (before ++ p :: after)) (.chain (before ++ q :: after))

/-- To take a chain apart moves no strategy. -/
theorem Flattens.leaves_eq (h : Flattens p q) : q.leaves = p.leaves := by
  induction h with
  | here _ => simp [leaves, leavesAll_eq_flatMap]
  | inside _ ih => simp [leaves, leavesAll_eq_flatMap, ih]

/-- To take a chain apart leaves no chain empty that was not, and fills none. -/
theorem Flattens.hasEmpty_iff (h : Flattens p q) : q.HasEmpty ↔ p.HasEmpty := by
  induction h with
  | here hparts => simp [hasEmpty_chain_iff, hparts, or_and_right, exists_or]
  | inside _ ih => simp [hasEmpty_chain_iff, ih, or_and_right, exists_or]

/-- To take a chain apart makes no difference, at any depth. -/
theorem Flattens.build_eq (h : Flattens p q) : q.build = p.build :=
  build_congr h.hasEmpty_iff h.leaves_eq

/-- The strategies of a plan in one chain. -/
def flat (p : Strategy σ) : Strategy σ := .chain (p.leaves.map single)

/-- A plan without empty chains has a strategy. -/
theorem leaves_ne_nil (p : Strategy σ) (h : ¬ p.HasEmpty) : p.leaves ≠ [] := by
  match p with
  | .single ask => exact List.cons_ne_nil _ _
  | .chain [] => exact absurd .here h
  | .chain (part :: rest) =>
    rw [leaves, leavesAll]
    exact List.append_ne_nil_of_left_ne_nil
      (leaves_ne_nil part fun hpart => h (.inside List.mem_cons_self hpart)) _

/-- With all of its chains taken apart a plan is the same. -/
theorem build_flat (h : ¬ p.HasEmpty) : p.flat.build = p.build := by
  apply build_congr
  · have hsome := leaves_ne_nil p h
    simp [flat, hasEmpty_chain_iff, hsome, h, not_hasEmpty_single]
  · simp [flat, leaves, leavesAll_eq_flatMap, List.flatMap_map]

end Strategy

/-! ## All together -/

open Authenticator in
/-- Chains ask their strategies in order, up to the first one that decides, and chains in chains
    do so as if they were one. -/
theorem strategies_asked {σ α : Type} :
    -- a chain of strategies
    (∀ asks : List (Authenticator σ),
      (asks = [] → AuthenticatorChain.ofList asks = .error AuthenticatorChain.emptyError) ∧
      (asks ≠ [] → ∃ chain, AuthenticatorChain.ofList asks = .ok chain ∧
        AsksInOrder asks chain.authenticate)) ∧
    -- chains in chains
    (∀ p : Strategy σ,
      (p.HasEmpty → p.build = .error AuthenticatorChain.emptyError) ∧
      (¬ p.HasEmpty → ∃ a, p.build = .ok a ∧ p.flat.build = .ok a ∧ AsksInOrder p.leaves a)) ∧
    (∀ p q : Strategy σ, p.Flattens q → q.build = p.build) ∧
    -- what strategies with labels write down
    ∀ (parts : List (α × Authenticator σ)) (p : Strategy (σ × List α)),
      p.leaves = notedAll parts → ¬ p.HasEmpty → ∃ a, p.build = .ok a ∧ NotesInOrder parts a := by
  refine ⟨?_, ?_, ?_, ?_⟩
  · intro asks
    cases asks with
    | nil => exact ⟨fun _ => rfl, fun h => absurd rfl h⟩
    | cons ask rest =>
      refine ⟨fun hnil => absurd hnil (List.cons_ne_nil _ _), fun _ => ?_⟩
      exact ⟨_, rfl, asksInOrder_firstDecisive _⟩
  · intro p
    refine ⟨Strategy.build_of_hasEmpty, fun h => ?_⟩
    -- a chain in a chain asks its leaves in their order
    have hbuild := Strategy.build_of_not_hasEmpty h
    exact ⟨_, hbuild, (Strategy.build_flat h).trans hbuild, asksInOrder_firstDecisive _⟩
  · intro p q h
    exact h.build_eq
  · intro parts p hparts h
    refine ⟨_, Strategy.build_of_not_hasEmpty h, ?_⟩
    rw [hparts]
    exact notesInOrder_firstDecisive parts

open Authenticator Sample in
/-- A chain in the middle of another one refuses what it is shown.  The strategy behind it is not
    asked, whether the two are one chain or not, although it would have found somebody. -/
theorem strategies_asked_refused :
    let nobody : Authenticator Log := Answer.none.authenticator
    let refuses := Answer.bad.authenticator
    let finds := (Answer.identity ⟨"ann", AuthoritySet.ofList []⟩).authenticator
    let plan : Strategy Log := .chain [.single nobody, .chain [.single refuses], .single finds]
    let labelled : Strategy (Log × List Nat) := .chain [.single (noted 1 nobody),
      .chain [.single (noted 2 refuses)], .single (noted 3 finds)]
    ¬ plan.HasEmpty ∧ FirstToDecide [nobody] refuses {} [] ∧
      (∃ a, plan.build = .ok a ∧
        a {} [] = (.error .badCredentials, ["strategy:bad", "strategy:none"])) ∧
      Strategy.build (.chain [.single nobody, .single refuses, .single finds]) = plan.build ∧
      ∃ a, labelled.build = .ok a ∧
        (a {} ([], [])).2 = (["strategy:bad", "strategy:none"], [1, 2]) := by
  intro nobody refuses finds plan labelled
  have hplan : ¬ plan.HasEmpty := by
    simp [plan, Strategy.hasEmpty_chain_iff, Strategy.not_hasEmpty_single]
  have hlabelled : ¬ labelled.HasEmpty := by
    simp [labelled, Strategy.hasEmpty_chain_iff, Strategy.not_hasEmpty_single]
  have hfirst : FirstToDecide [nobody] refuses {} [] := by
    refine ⟨⟨rfl, trivial⟩, ?_⟩
    exact fun h => nomatch h
  obtain ⟨-, hbuilt, hflattened, hnoted⟩ := strategies_asked (σ := Log) (α := Nat)
  obtain ⟨a, hbuild, -, hasks⟩ := (hbuilt plan).2 hplan
  obtain ⟨watching, hwatching, hnotes⟩ :=
    hnoted [(1, nobody), (2, refuses), (3, finds)] labelled rfl hlabelled
  -- the inner chain is dissolved where it stands
  have hflat : plan.Flattens (.chain [.single nobody, .single refuses, .single finds]) :=
    @Strategy.Flattens.here Log [.single nobody] _ _ (List.cons_ne_nil _ _)
  refine ⟨hplan, hfirst, ⟨a, hbuild, ?_⟩, hflattened plan _ hflat, watching, hwatching, ?_⟩
  · rw [hasks.decided [nobody] refuses [finds] {} [] rfl hfirst]
    rfl
  · rw [hnotes.decided [(1, nobody)] 2 refuses [(3, finds)] {} [] [] rfl hfirst]
    rfl

end CommandBus
