import CommandBus.Access.Control

/-!
# Histories of access records

Access control is used in four ways: to look up the authorizer of a type, to ask for its
policy, to check a caller, and to hand out the authorizer of a policy that is given.  A
history is a list of such uses, `run` the records that it leaves behind.

As long as every type is used under its own declaration, what is kept for a type is what its
classifiers say: the records are `Faithful`.

## Key results

- `find?_authorizer`: what one look-up changes in the records
- `faithful_run`: any history under the types' own declarations leaves faithful records
- `authorizer_policy`: in faithful records a look-up gives the declared policy
-/

namespace CommandBus

/-- What the type of a command declares: its name and who may run it. -/
structure Declaration where
  command : String
  classifiers : List Access
  deriving DecidableEq, Repr

namespace Declaration

/-- The policy that a declaration stands for, or the mistake in it. -/
def policy (d : Declaration) : Except ConfigurationError AccessPolicy :=
  AccessPolicy.classify d.command d.classifiers

end Declaration

namespace AuthorizerRegistry

/-- An authorizer applies the policy that it was asked for. -/
theorem authorizer_fst_policy (registry : AuthorizerRegistry) (policy : AccessPolicy) :
    (registry.authorizer policy).1.policy = policy := by
  cases policy with
  | anyone => rfl
  | authenticated => rfl
  | anyOf required =>
    simp only [authorizer]
    split <;> rfl

end AuthorizerRegistry

namespace AccessRecords

/-! ## One look-up -/

/-- A look-up in records with one more entry: an entry that was kept before wins. -/
private theorem find?_append_entry (authorizers : AuthorizerRegistry)
    (classified : List (TypeKey × Classification)) (key other : TypeKey) (found : Classification) :
    find? ⟨authorizers, classified ++ [(key, found)]⟩ other =
      (find? ⟨authorizers, classified⟩ other).or (if key = other then some found else none) := by
  simp only [find?, List.find?_append]
  cases classified.find? fun e => e.1 == other with
  | some e => simp
  | none =>
    by_cases h : key = other
    · simp [h]
    · simp [h]

/-- Classifying a type keeps the outcome for it and nothing else. -/
theorem find?_record (records : AccessRecords) (key other : TypeKey) (command : String)
    (classifiers : List Access) :
    (records.record key command classifiers).2.find? other =
      (records.find? other).or
        (if key = other then some (records.record key command classifiers).1 else none) := by
  simp only [record]
  cases hc : AccessPolicy.classify command classifiers with
  | error e => exact find?_append_entry _ _ _ _ _
  | ok policy => exact find?_append_entry _ _ _ _ _

/-- The outcome of a classification is the declared policy with an authorizer around it. -/
theorem record_fst_policy (records : AccessRecords) (key : TypeKey) (command : String)
    (classifiers : List Access) :
    (records.record key command classifiers).1.map Authorizer.policy =
      AccessPolicy.classify command classifiers := by
  simp only [record]
  cases hc : AccessPolicy.classify command classifiers with
  | error e => rfl
  | ok policy =>
    simp only [Except.map, AuthorizerRegistry.authorizer_fst_policy]

/-- After a look-up the type has an entry, the one that the look-up gave, and the entries of
    all other types are as they were. -/
theorem find?_authorizer (records : AccessRecords) (key other : TypeKey) (command : String)
    (classifiers : List Access) :
    (records.authorizer key command classifiers).2.find? other =
      if key = other then some (records.authorizer key command classifiers).1
      else records.find? other := by
  simp only [authorizer]
  cases hk : records.find? key with
  -- a key that is recorded keeps its record, and nothing is written
  | some kept =>
    by_cases h : key = other
    · subst h; simp [hk]
    · simp [h]
  | none =>
    rw [find?_record]
    by_cases h : key = other
    · subst h; simp [hk]
    · simp [h]

/-! ## Faithful records -/

/-- Every entry is what the classifiers that the type declares stand for. -/
def Faithful (declared : TypeKey → Declaration) (records : AccessRecords) : Prop :=
  ∀ key kept, records.find? key = some kept → kept.map Authorizer.policy = (declared key).policy

/-- In faithful records a look-up under the type's declaration gives the declared policy. -/
theorem authorizer_policy {declared : TypeKey → Declaration} {records : AccessRecords}
    (h : Faithful declared records) {key : TypeKey} {d : Declaration} (hd : d = declared key) :
    (records.authorizer key d.command d.classifiers).1.map Authorizer.policy = d.policy := by
  simp only [authorizer]
  -- an entry that is kept is faithful already, and a new one is made from the declaration
  cases hk : records.find? key with
  | some kept => rw [hd]; exact h key kept hk
  | none => exact record_fst_policy records key d.command d.classifiers

/-- No entries are faithful entries. -/
theorem faithful_empty (declared : TypeKey → Declaration) : Faithful declared {} := by
  intro key kept h
  simp [find?] at h

/-- A look-up under the type's declaration keeps records faithful. -/
theorem faithful_authorizer {declared : TypeKey → Declaration} {records : AccessRecords}
    (h : Faithful declared records) {key : TypeKey} {d : Declaration} (hd : d = declared key) :
    Faithful declared (records.authorizer key d.command d.classifiers).2 := by
  intro other kept hk
  rw [find?_authorizer] at hk
  split at hk
  · next he =>
    obtain rfl := Option.some.inj hk
    rw [authorizer_policy h hd, hd, he]
  · exact h other kept hk

/-! ## Histories -/

/-- One use of access control. -/
inductive Use (σ : Type) where
  | authorizer (key : TypeKey) (d : Declaration)
  | policy (key : TypeKey) (d : Declaration)
  | check (key : TypeKey) (d : Declaration) (ctx : Context) (s : σ)
  /-- The authorizer of a policy, which classifies nothing. -/
  | handOut (wanted : AccessPolicy)

namespace Use

variable {σ : Type}

/-- The records after one use. -/
def apply (a : Authenticator σ) (records : AccessRecords) : Use σ → AccessRecords
  | .authorizer key d => (records.authorizer key d.command d.classifiers).2
  | .policy key d => (records.policy key d.command d.classifiers).2
  | .check key d ctx s => (records.check a key d.command d.classifiers ctx s).2
  | .handOut wanted =>
    { records with authorizers := (records.authorizers.authorizer wanted).2 }

/-- The use names a type by its own declaration. -/
def Own (declared : TypeKey → Declaration) : Use σ → Prop
  | .authorizer key d => d = declared key
  | .policy key d => d = declared key
  | .check key d _ _ => d = declared key
  | .handOut _ => True

end Use

/-- The records that a history leaves behind. -/
def run {σ : Type} (a : Authenticator σ) (history : List (Use σ)) : AccessRecords :=
  history.foldl (Use.apply a) {}

/-- A check changes the records as the look-up in it does. -/
theorem check_snd {σ : Type} (records : AccessRecords) (a : Authenticator σ) (key : TypeKey)
    (command : String) (classifiers : List Access) (ctx : Context) (s : σ) :
    (records.check a key command classifiers ctx s).2 =
      (records.authorizer key command classifiers).2 := by
  simp only [check]
  split <;> rfl

/-- One use under the type's own declaration keeps records faithful. -/
theorem faithful_apply {σ : Type} {declared : TypeKey → Declaration} {records : AccessRecords}
    (h : Faithful declared records) (a : Authenticator σ) {use : Use σ}
    (hown : use.Own declared) : Faithful declared (use.apply a records) := by
  cases use with
  | authorizer key d => exact faithful_authorizer h hown
  | policy key d => exact faithful_authorizer h hown
  | check key d ctx s =>
    rw [Use.apply, check_snd]
    exact faithful_authorizer h hown
  | handOut wanted => exact h

/-- A history under the types' own declarations leaves faithful records. -/
theorem faithful_run {σ : Type} {declared : TypeKey → Declaration} (a : Authenticator σ)
    {history : List (Use σ)} (hown : ∀ use ∈ history, use.Own declared) :
    Faithful declared (run a history) := by
  -- the induction goes through for histories that start from any faithful records
  suffices ∀ records, Faithful declared records →
      Faithful declared (history.foldl (Use.apply a) records) from
    this {} (faithful_empty declared)
  induction history with
  | nil => intro records h; exact h
  | cons use rest ih =>
    intro records h
    rw [List.forall_mem_cons] at hown
    rw [List.foldl_cons]
    exact ih hown.2 _ (faithful_apply h a hown.1)

end AccessRecords

end CommandBus
