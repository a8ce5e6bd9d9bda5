import CommandBus.Proofs.Access.Issuing
import Mathlib.Data.Finset.Card
import Mathlib.Data.List.Induction

/-!
# Shared authorizers

A type is classified by the first call that looks it up, and what that call computed is what every
later one is given, whatever it declares: the same authorizer, or the same mistake with the name
of the first call.  Authorizers are made once for a policy, so that two types share one exactly
if their policies are the same, and there are as many for roles as there are sets of roles.

## Key results

- `policy_eq_iff`: which classifiers stand for one policy
- `recorded_run`: what any history leaves in the records
- `run_canonical`: classifications are made once, and authorizers are shared by policy
-/

namespace CommandBus

/-! ## Policies of declarations -/

namespace Access

/-- Classifiers that stand for one policy: lists of the same roles, in whatever order and however
    often they are named. -/
inductive SamePolicy : List Access → List Access → Prop where
  | anyone : SamePolicy [.anyone] [.anyone]
  | authenticated : SamePolicy [.authenticated] [.authenticated]
  | roles {names others : List String} (h : ∀ role, role ∈ names ↔ role ∈ others) :
    SamePolicy [.roles names] [.roles others]

end Access

namespace AuthoritySet

/-- The names of a set as a finite set. -/
def toFinset (s : AuthoritySet) : Finset String := s.names.toFinset

theorem toFinset_ofList (names : List String) : (ofList names).toFinset = names.toFinset := by
  ext role
  rw [toFinset, List.mem_toFinset, List.mem_toFinset, ← mem_def, mem_ofList]

theorem toFinset_injective : Function.Injective toFinset := by
  intro s t h
  refine ext_mem fun role => ?_
  simpa [toFinset, mem_def] using Finset.ext_iff.1 h role

theorem ofList_eq_iff {names others : List String} :
    ofList names = ofList others ↔ ∀ role, role ∈ names ↔ role ∈ others := by
  rw [← toFinset_injective.eq_iff, toFinset_ofList, toFinset_ofList, Finset.ext_iff]
  simp only [List.mem_toFinset]

end AuthoritySet

namespace Declaration

open Access

/-- The roles of which a declaration asks for one. -/
def roleSet? (d : Declaration) : Option (Finset String) :=
  match d.classifiers with
  | [.roles (name :: names)] => some (name :: names).toFinset
  | _ => none

/-- The declarations that have a policy. -/
theorem policy_eq_ok_iff {d : Declaration} {policy : AccessPolicy} :
    d.policy = .ok policy ↔
      (d.classifiers = [.anyone] ∧ policy = .anyone) ∨
      (d.classifiers = [.authenticated] ∧ policy = .authenticated) ∨
      ∃ name names, d.classifiers = [.roles (name :: names)] ∧
        policy = .anyOf (AuthoritySet.ofList (name :: names)) := by
  obtain ⟨command, classifiers⟩ := d
  simp only [Declaration.policy]
  -- the three declarations that are accepted, and the mistakes between them
  match classifiers with
  | [] => simp [AccessPolicy.classify]
  | [.anyone] => simp [AccessPolicy.classify, eq_comm]
  | [.authenticated] => simp [AccessPolicy.classify, eq_comm]
  | [.roles []] => simp [AccessPolicy.classify]
  | [.roles (name :: names)] => simp [AccessPolicy.classify, eq_comm]
  | first :: second :: rest =>
    rcases first with _ | _ | (_ | _) <;> simp [AccessPolicy.classify]

/-- Two declarations with a policy have the same one if their classifiers stand for one. -/
theorem policy_eq_iff {d e : Declaration} {policy other : AccessPolicy}
    (hd : d.policy = .ok policy) (he : e.policy = .ok other) :
    policy = other ↔ SamePolicy d.classifiers e.classifiers := by
  constructor
  · rintro rfl
    -- the policy tells which of the three forms both declarations have
    obtain ⟨hcs, rfl⟩ | ⟨hcs, rfl⟩ | ⟨name, names, hcs, rfl⟩ := policy_eq_ok_iff.1 hd
    · obtain ⟨hes, -⟩ | ⟨-, h⟩ | ⟨_, _, -, h⟩ := policy_eq_ok_iff.1 he
      · rw [hcs, hes]
        exact .anyone
      · exact nomatch h
      · exact nomatch h
    · obtain ⟨-, h⟩ | ⟨hes, -⟩ | ⟨_, _, -, h⟩ := policy_eq_ok_iff.1 he
      · exact nomatch h
      · rw [hcs, hes]
        exact .authenticated
      · exact nomatch h
    · obtain ⟨-, h⟩ | ⟨-, h⟩ | ⟨_, _, hes, h⟩ := policy_eq_ok_iff.1 he
      · exact nomatch h
      · exact nomatch h
      · rw [hcs, hes]
        exact .roles (AuthoritySet.ofList_eq_iff.1 (AccessPolicy.anyOf.inj h))
  -- the other way round, equal forms are classified alike
  · obtain ⟨command, classifiers⟩ := d
    obtain ⟨command', others⟩ := e
    intro h
    cases h with
    | anyone => exact Except.ok.inj (hd.symm.trans he)
    | authenticated => exact Except.ok.inj (hd.symm.trans he)
    | @roles names others h =>
      match names, others with
      | [], _ => exact nomatch hd
      | _ :: _, [] => exact nomatch he
      | name :: names, other :: others =>
        obtain rfl := Except.ok.inj hd
        obtain rfl := Except.ok.inj he
        rw [AuthoritySet.ofList_eq_iff.2 h]

/-- The roles of a declaration are those of its policy. -/
theorem roleSet?_eq_some_iff {d : Declaration} {roles : Finset String} :
    d.roleSet? = some roles ↔
      ∃ required, d.policy = .ok (.anyOf required) ∧ required.toFinset = roles := by
  constructor
  · intro h
    unfold roleSet? at h
    split at h
    · next name names hcs =>
      refine ⟨_, policy_eq_ok_iff.2 (.inr (.inr ⟨name, names, hcs, rfl⟩)), ?_⟩
      rw [AuthoritySet.toFinset_ofList]
      exact Option.some.inj h
    · exact nomatch h
  -- only the third declaration has a set of roles
  · rintro ⟨required, hd, rfl⟩
    obtain ⟨-, h⟩ | ⟨-, h⟩ | ⟨name, names, hcs, h⟩ := policy_eq_ok_iff.1 hd
    · exact nomatch h
    · exact nomatch h
    · rw [AccessPolicy.anyOf.inj h, AuthoritySet.toFinset_ofList, roleSet?, hcs]

end Declaration

/-! ## Histories -/

namespace AccessRecords

open Access

variable {σ : Type}

/-- The type that a use looks up, and the declaration that comes with it. -/
def Use.lookup? : Use σ → Option (TypeKey × Declaration)
  | .authorizer key d => some (key, d)
  | .policy key d => some (key, d)
  | .check key d _ _ => some (key, d)
  | .handOut _ => none

/-- The declaration that a type was first looked up with. -/
def first? (history : List (Use σ)) (key : TypeKey) : Option Declaration :=
  (history.filterMap Use.lookup?).lookup key

/-- The roles that a use in a history asks for: those that the first call for its type declares,
    or those of the policy whose authorizer it hands out. -/
def Use.roleSet? (history : List (Use σ)) : Use σ → Option (Finset String)
  | .handOut (.anyOf required) => some required.toFinset
  | use => use.lookup?.bind fun e => (first? history e.1).bind Declaration.roleSet?

/-- The sets of roles that a history asks for. -/
def roleSets (history : List (Use σ)) : Finset (Finset String) :=
  (history.filterMap (Use.roleSet? history)).toFinset

theorem first?_concat (history : List (Use σ)) (use : Use σ) (key : TypeKey) :
    first? (history ++ [use]) key =
      (first? history key).or (use.lookup?.bind fun e => if key = e.1 then some e.2 else none) := by
  rw [first?, List.filterMap_append, List.lookup_append]
  congr 1
  cases h : use.lookup? with
  | none => simp [h]
  | some e =>
    obtain ⟨looked, d⟩ := e
    by_cases hkey : key = looked
    · simp [h, hkey]
    · simp [h, hkey, List.lookup_cons, beq_false_of_ne hkey]

/-- A further use of a type that was looked up before is not its first. -/
theorem first?_concat_of_known {history : List (Use σ)} {use : Use σ} {key : TypeKey}
    {d known : Declaration} (hknown : first? history key = some known)
    (huse : use.lookup? = some (key, d)) (other : TypeKey) :
    first? (history ++ [use]) other = first? history other := by
  rw [first?_concat, huse, Option.bind_some]
  by_cases h : other = key
  · rw [h, hknown, Option.some_or]
  · rw [if_neg h, Option.or_none]

/-- The use of a new type is its first. -/
theorem first?_concat_of_new {history : List (Use σ)} {use : Use σ} {key : TypeKey}
    {d : Declaration} (hnew : first? history key = none) (huse : use.lookup? = some (key, d))
    (other : TypeKey) :
    first? (history ++ [use]) other = if other = key then some d else first? history other := by
  rw [first?_concat, huse, Option.bind_some]
  by_cases h : other = key
  · simp [h, hnew]
  · simp [h]

/-- A history asks for an authorizer of some roles: the first call for a type declares them, or
    their policy is given. -/
def Asks (history : List (Use σ)) (required : AuthoritySet) : Prop :=
  (∃ key d, first? history key = some d ∧ d.policy = .ok (.anyOf required)) ∨
    .handOut (.anyOf required) ∈ history

/-- The sets of roles that a history asks for, one by one. -/
theorem mem_roleSets_iff {history : List (Use σ)} {roles : Finset String} :
    roles ∈ roleSets history ↔ ∃ required, Asks history required ∧ required.toFinset = roles := by
  rw [roleSets, List.mem_toFinset, List.mem_filterMap]
  constructor
  · rintro ⟨use, hmem, hroles⟩
    unfold Use.roleSet? at hroles
    split at hroles
    · next required => exact ⟨required, .inr hmem, Option.some.inj hroles⟩
    · obtain ⟨e, -, hfirst⟩ := Option.bind_eq_some_iff.1 hroles
      obtain ⟨d, hd, hset⟩ := Option.bind_eq_some_iff.1 hfirst
      obtain ⟨required, hpolicy, heq⟩ := Declaration.roleSet?_eq_some_iff.1 hset
      exact ⟨required, .inl ⟨e.1, d, hd, hpolicy⟩, heq⟩
  · rintro ⟨required, ⟨key, d, hd, hpolicy⟩ | hmem, rfl⟩
    -- some use is the first call for the type
    · obtain ⟨before, after, hlookups, -⟩ := List.lookup_eq_some_iff.1 hd
      have hcall : (key, d) ∈ history.filterMap Use.lookup? := by simp [hlookups]
      obtain ⟨use, huse, hlookup⟩ := List.mem_filterMap.1 hcall
      refine ⟨use, huse, ?_⟩
      have hroles : d.roleSet? = some required.toFinset :=
        Declaration.roleSet?_eq_some_iff.2 ⟨required, hpolicy, rfl⟩
      cases use with
      | handOut wanted => exact nomatch hlookup
      | _ => simp only [Use.roleSet?, hlookup, Option.bind_some, hd, hroles]
    · exact ⟨_, hmem, rfl⟩

/-! ## What a history leaves in the records -/

/-- What the records are after a history. -/
structure Recorded (history : List (Use σ)) (records : AccessRecords) : Prop where
  /-- A type is kept with the policy that the first call for it declares, or the mistake. -/
  kept : ∀ key, (records.find? key).map (Except.map Authorizer.policy) =
    (first? history key).map Declaration.policy
  issued : ∀ key x, records.find? key = some (.ok x) → records.authorizers.Issued x
  nodup : records.authorizers.roleSets.Nodup
  asked : ∀ required, required ∈ records.authorizers.roleSets ↔ Asks history required

theorem recorded_nil : Recorded ([] : List (Use σ)) {} := by
  refine ⟨fun key => rfl, fun key x h => (nomatch h), List.nodup_nil, fun required => ?_⟩
  simp [Asks, first?]

/-- Classifying a type makes an authorizer if its classifiers are in order. -/
theorem authorizers_record (records : AccessRecords) (key : TypeKey) (d : Declaration) :
    (records.record key d.command d.classifiers).2.authorizers =
      match d.policy with
      | .error _ => records.authorizers
      | .ok policy => (records.authorizers.authorizer policy).2 := by
  rw [Declaration.policy, record]
  cases AccessPolicy.classify d.command d.classifiers <;> rfl

/-- What a first call for a type computes. -/
theorem record_fst (records : AccessRecords) (key : TypeKey) (d : Declaration) :
    (records.record key d.command d.classifiers).1 =
      d.policy.map fun policy => (records.authorizers.authorizer policy).1 := by
  rw [Declaration.policy, record]
  cases AccessPolicy.classify d.command d.classifiers <;> rfl

/-- A further call for a type leaves the records as they are. -/
theorem authorizer_of_kept {records : AccessRecords} {key : TypeKey} {found : Classification}
    (h : records.find? key = some found) (d : Declaration) :
    records.authorizer key d.command d.classifiers = (found, records) := by
  rw [authorizer, h]

/-- The first call for a type classifies it. -/
theorem authorizer_of_new {records : AccessRecords} {key : TypeKey}
    (h : records.find? key = none) (d : Declaration) :
    records.authorizer key d.command d.classifiers =
      records.record key d.command d.classifiers := by
  rw [authorizer, h]

/-- What a history with one more call for a known type asks for. -/
theorem asks_concat_of_known {history : List (Use σ)} {use : Use σ} {key : TypeKey}
    {d known : Declaration} (hknown : first? history key = some known)
    (huse : use.lookup? = some (key, d)) (required : AuthoritySet) :
    Asks (history ++ [use]) required ↔ Asks history required := by
  have hne : Use.handOut (.anyOf required) ≠ use := by
    rintro rfl
    exact nomatch huse
  simp only [Asks, first?_concat_of_known hknown huse, List.mem_append, List.mem_singleton, hne,
    or_false]

/-- What a history with a first call for a type asks for. -/
theorem asks_concat_of_new {history : List (Use σ)} {use : Use σ} {key : TypeKey}
    {d : Declaration} (hnew : first? history key = none) (huse : use.lookup? = some (key, d))
    (required : AuthoritySet) :
    Asks (history ++ [use]) required ↔
      Asks history required ∨ d.policy = .ok (.anyOf required) := by
  -- the use looks a type up, so it is no request for an authorizer
  have hne : Use.handOut (.anyOf required) ≠ use := by
    rintro rfl
    exact nomatch huse
  simp only [Asks, first?_concat_of_new hnew huse, List.mem_append, List.mem_singleton, hne,
    or_false]
  constructor
  · rintro (⟨other, e, he, hpolicy⟩ | hmem)
    -- the policy is that of the new type, or of a type that was looked up before
    · by_cases hkey : other = key
      · rw [if_pos hkey] at he
        exact .inr (Option.some.inj he ▸ hpolicy)
      · rw [if_neg hkey] at he
        exact .inl (.inl ⟨other, e, he, hpolicy⟩)
    · exact .inl (.inr hmem)
  · rintro ((⟨other, e, he, hpolicy⟩ | hmem) | hpolicy)
    · refine .inl ⟨other, e, ?_, hpolicy⟩
      rw [if_neg (by rintro rfl; rw [hnew] at he; exact nomatch he), he]
    · exact .inr hmem
    · exact .inl ⟨key, d, if_pos rfl, hpolicy⟩

/-- A call for a type leaves the records of the longer history. -/
theorem Recorded.lookup {history : List (Use σ)} {records : AccessRecords}
    (h : Recorded history records) {use : Use σ} {key : TypeKey} {d : Declaration}
    (huse : use.lookup? = some (key, d)) :
    Recorded (history ++ [use]) (records.authorizer key d.command d.classifiers).2 := by
  have hkey := h.kept key
  cases hfound : records.find? key with
  | some found =>
    rw [hfound, Option.map_some, eq_comm, Option.map_eq_some_iff] at hkey
    obtain ⟨known, hknown, -⟩ := hkey
    -- a type that was asked for before changes nothing
    rw [authorizer_of_kept hfound]
    refine ⟨fun other => ?_, h.issued, h.nodup, fun required => ?_⟩
    · rw [first?_concat_of_known hknown huse, h.kept]
    · rw [asks_concat_of_known hknown huse, h.asked]
  | none =>
    rw [hfound, Option.map_none, eq_comm, Option.map_eq_none_iff] at hkey
    rw [authorizer_of_new hfound]
    -- a new type is recorded, and its policy may need an authorizer of its own
    refine ⟨fun other => ?kept, fun other x hx => ?issued, ?nodup, fun required => ?asked⟩
    case kept =>
      rw [first?_concat_of_new hkey huse, find?_record]
      by_cases hother : other = key
      · rw [hother, hfound, Option.none_or, if_pos rfl, if_pos rfl, Option.map_some,
          Option.map_some, record_fst_policy, Declaration.policy]
      · rw [if_neg hother, if_neg (Ne.symm hother), Option.or_none, h.kept]
    case issued =>
      rw [authorizers_record]
      rw [find?_record, record_fst, Option.or_eq_some_iff] at hx
      obtain hold | ⟨-, hnew⟩ := hx
      -- an authorizer that was kept before, or the one of this call
      · cases d.policy with
        | error e => exact h.issued other x hold
        | ok policy => exact (h.issued other x hold).authorizer policy
      · split at hnew
        · cases hpolicy : d.policy with
          | error e => simp [hpolicy, Except.map] at hnew
          | ok policy =>
            rw [hpolicy] at hnew
            obtain rfl := Except.ok.inj (Option.some.inj hnew)
            exact AuthorizerRegistry.issued_authorizer _ policy
        · exact nomatch hnew
    case nodup =>
      rw [authorizers_record]
      cases d.policy with
      | error e => exact h.nodup
      | ok policy => exact AuthorizerRegistry.nodup_authorizer h.nodup policy
    case asked =>
      rw [asks_concat_of_new hkey huse, authorizers_record, ← h.asked]
      cases d.policy with
      | error e => simp
      | ok policy => simp [AuthorizerRegistry.mem_roleSets_authorizer]

/-- The authorizer of a policy is handed out, which classifies nothing. -/
theorem Recorded.handOut {history : List (Use σ)} {records : AccessRecords}
    (h : Recorded history records) (wanted : AccessPolicy) :
    Recorded (history ++ [.handOut wanted])
      { records with authorizers := (records.authorizers.authorizer wanted).2 } := by
  have hfirst : ∀ key, first? (history ++ [.handOut wanted]) key = first? history key := by
    intro key
    rw [first?_concat]
    exact Option.or_none
  refine ⟨fun key => by rw [hfirst]; exact h.kept key,
    fun key x hx => (h.issued key x hx).authorizer wanted,
    AuthorizerRegistry.nodup_authorizer h.nodup wanted, fun required => ?_⟩
  rw [AuthorizerRegistry.mem_roleSets_authorizer, h.asked]
  simp [Asks, hfirst, or_assoc, eq_comm]

/-- A use of a type changes the records as the look-up in it does. -/
theorem apply_of_lookup? {use : Use σ} {key : TypeKey} {d : Declaration}
    (huse : use.lookup? = some (key, d)) (a : Authenticator σ) (records : AccessRecords) :
    use.apply a records = (records.authorizer key d.command d.classifiers).2 := by
  cases use with
  | authorizer key d => cases huse; rfl
  | policy key d => cases huse; rfl
  | check key d ctx s => cases huse; exact check_snd records a _ _ _ ctx s
  | handOut wanted => exact nomatch huse

/-- One more use leaves the records of the longer history. -/
theorem Recorded.apply {history : List (Use σ)} {records : AccessRecords}
    (h : Recorded history records) (a : Authenticator σ) (use : Use σ) :
    Recorded (history ++ [use]) (use.apply a records) := by
  cases use with
  | handOut wanted => exact h.handOut wanted
  | _ =>
    rw [apply_of_lookup? rfl]
    exact h.lookup rfl

/-- What any history leaves in the records. -/
theorem recorded_run (a : Authenticator σ) (history : List (Use σ)) :
    Recorded history (run a history) := by
  induction history using List.reverseRecOn with
  | nil => exact recorded_nil
  | append_singleton history use ih =>
    rw [run, List.foldl_append]
    exact ih.apply a use

/-- What is kept for a type stays through any further uses. -/
theorem find?_foldl_apply {records : AccessRecords} {key : TypeKey} {found : Classification}
    (h : records.find? key = some found) (a : Authenticator σ) (history : List (Use σ)) :
    (history.foldl (Use.apply a) records).find? key = some found := by
  induction history generalizing records with
  | nil => exact h
  | cons use rest ih =>
    -- no single use changes what is kept for a type
    refine ih ?_
    cases huse : use.lookup? with
    | none =>
      cases use with
      | handOut wanted => exact h
      | _ => exact nomatch huse
    | some e =>
      obtain ⟨looked, d⟩ := e
      rw [apply_of_lookup? huse, find?_authorizer]
      by_cases hkey : looked = key
      · rw [if_pos hkey, hkey, authorizer_of_kept h]
      · rw [if_neg hkey, h]

/-! ## Classified once, shared by policy -/

/-- Every call for a type is answered by `found`, whatever it declares, and leaves the records as
    they are.  A check by a caller who is denied has the name of the call, and a mistake that is
    kept the name that it was found with. -/
structure Answers (a : Authenticator σ) (records : AccessRecords) (key : TypeKey)
    (found : Classification) : Prop where
  authorizer : ∀ d : Declaration,
    records.authorizer key d.command d.classifiers = (found, records)
  policy : ∀ d : Declaration,
    records.policy key d.command d.classifiers = (found.map Authorizer.policy, records)
  check : ∀ (d : Declaration) (ctx : Context) (s : σ),
    records.check a key d.command d.classifiers ctx s =
      (match found with
        | .error e => ⟨.error (.configuration e), ctx, s⟩
        | .ok x =>
          let decision := x.policy.authorize a d.command ctx s
          ⟨decision.result.mapError AccessError.denied, decision.context, decision.state⟩,
      records)

theorem answers_of_kept {records : AccessRecords} {key : TypeKey} {found : Classification}
    (h : records.find? key = some found) (a : Authenticator σ) : Answers a records key found := by
  refine ⟨authorizer_of_kept h, fun d => ?_, fun d ctx s => ?_⟩
  · rw [policy, authorizer_of_kept h]
  · rw [check, authorizer_of_kept h]
    cases found <;> rfl

/-- There are as many authorizers for roles as sets of roles were asked for. -/
theorem Recorded.roleGatedCount_eq {history : List (Use σ)} {records : AccessRecords}
    (h : Recorded history records) :
    records.authorizers.roleGatedCount = (roleSets history).card := by
  have hsets : roleSets history =
      (records.authorizers.roleSets.map AuthoritySet.toFinset).toFinset := by
    ext roles
    simp only [mem_roleSets_iff, List.mem_toFinset, List.mem_map, h.asked]
  rw [hsets, List.toFinset_card_of_nodup (h.nodup.map AuthoritySet.toFinset_injective),
    List.length_map, AuthorizerRegistry.roleGatedCount]

/-- A type whose first call declares a policy is kept with an authorizer of the policy. -/
theorem Recorded.exists_authorizer {history : List (Use σ)} {records : AccessRecords}
    (h : Recorded history records) {key : TypeKey} {d : Declaration}
    (hd : first? history key = some d) {policy : AccessPolicy} (hpolicy : d.policy = .ok policy) :
    ∃ x, records.find? key = some (.ok x) ∧ x.policy = policy := by
  have hkept := h.kept key
  rw [hd, Option.map_some, hpolicy, Option.map_eq_some_iff] at hkept
  obtain ⟨found, hfound, hmap⟩ := hkept
  cases found with
  | error e => exact nomatch hmap
  | ok x => exact ⟨x, hfound, Except.ok.inj hmap⟩

/-- What a history of uses makes of the types and the authorizers. -/
structure Canonical (a : Authenticator σ) (history : List (Use σ)) : Prop where
  /-- The first call for a type computes its classification from what it declares.  From then on
      every call for the type is answered by that. -/
  kept : ∀ before use after key d, history = before ++ use :: after →
    use.lookup? = some (key, d) → first? before key = none →
    ∃ found, ((run a before).authorizer key d.command d.classifiers).1 = found ∧
      found.map Authorizer.policy = d.policy ∧ Answers a (run a history) key found
  /-- Two types whose first calls succeed share an authorizer if the classifiers of these calls
      stand for one policy. -/
  shared : ∀ key d other e policy policy', first? history key = some d →
    first? history other = some e → d.policy = .ok policy → e.policy = .ok policy' →
    ∃ x y, Answers a (run a history) key (.ok x) ∧ Answers a (run a history) other (.ok y) ∧
      (x = y ↔ SamePolicy d.classifiers e.classifiers) ∧
      (x.number = y.number ↔ SamePolicy d.classifiers e.classifiers)
  counted : (run a history).authorizers.roleGatedCount = (roleSets history).card

/-- After any uses of access control, with any types, names and classifiers, a type has the
    classification that the first call for it computed, a mistake as well.  Types share their
    authorizers by policy, where the order and the repetitions of roles do not matter, and there
    is one for every set of roles that a first call declares or whose authorizer is handed out. -/
theorem run_canonical (a : Authenticator σ) (history : List (Use σ)) : Canonical a history := by
  have hrecorded := recorded_run a history
  refine ⟨?kept, ?shared, hrecorded.roleGatedCount_eq⟩
  case kept =>
    rintro before use after key d rfl huse hnew
    -- a type that was never looked up has nothing kept for it
    have hnone : (run a before).find? key = none := by
      have hkept := (recorded_run a before).kept key
      rwa [hnew, Option.map_none, Option.map_eq_none_iff] at hkept
    refine ⟨_, rfl, ?_, answers_of_kept ?_ a⟩
    · rw [authorizer_of_new hnone]
      exact record_fst_policy _ key d.command d.classifiers
    -- what the first look-up records stays through the rest of the history
    · rw [run, List.foldl_append, List.foldl_cons]
      refine find?_foldl_apply ?_ a after
      rw [apply_of_lookup? huse, find?_authorizer, if_pos rfl]
      rfl
  case shared =>
    intro key d other e policy policy' hd he hpolicy hpolicy'
    obtain ⟨x, hx, rfl⟩ := hrecorded.exists_authorizer hd hpolicy
    obtain ⟨y, hy, rfl⟩ := hrecorded.exists_authorizer he hpolicy'
    -- authorizers are numbered by their policies
    have hnumber := (hrecorded.issued key x hx).number_eq_iff (hrecorded.issued other y hy)
    have hsame : x.policy = y.policy ↔ SamePolicy d.classifiers e.classifiers :=
      Declaration.policy_eq_iff hpolicy hpolicy'
    refine ⟨x, y, answers_of_kept hx a, answers_of_kept hy a, ?_, hnumber.trans hsame⟩
    rw [← hsame]
    refine ⟨fun h => congrArg Authorizer.policy h, fun h => ?_⟩
    obtain ⟨number, policy⟩ := x
    obtain ⟨number', policy'⟩ := y
    obtain rfl : number = number' := hnumber.2 h
    obtain rfl : policy = policy' := h
    rfl

/-- Two types with the same roles in another order share one authorizer, and what a later call
    declares for one of them makes no other. -/
example :
    let a : Authenticator Unit := fun _ s => (.ok none, s)
    let history : List (Use Unit) :=
      [.authorizer 1 ⟨"app.A", [.roles ["X", "Y"]]⟩, .policy 2 ⟨"app.B", [.roles ["Y", "X", "Y"]]⟩,
        .check 1 ⟨"app.C", [.roles ["Z"]]⟩ {} ()]
    (run a history).authorizers.roleGatedCount = 1 := by
  decide

end AccessRecords

end CommandBus
