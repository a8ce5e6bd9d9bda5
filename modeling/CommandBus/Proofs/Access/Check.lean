import CommandBus.Proofs.Access.Records

/-!
# What an access check decides

The declared policy, said on its own: classifiers permit a caller (`Access.Permits`) if there
is exactly one of them and it is for everyone, or for callers that authentication finds, or for
found callers with one of its roles.  A check decides this and no more.  The caller becomes the
identity of the context only when it passes, and only its own credentials are looked at.

## Key results

- `check_context_of_error`: a refusal leaves the context as it was, whatever the records
- `check_fst`: in faithful records a check is the authorization of the declared policy
- `check_decides`: a check decides exactly what the declaration permits
-/

namespace CommandBus

namespace Access

/-- Whether classifiers let a caller pass, given what authentication found. -/
def Permits : List Access → Authentication → Prop
  | [.anyone], _ => True
  | [.authenticated], answer => ∃ i, answer = .ok (some i)
  | [.roles names], answer =>
    names ≠ [] ∧ ∃ i, answer = .ok (some i) ∧ ∃ role ∈ names, role ∈ i.authorities
  | _, _ => False

/-- Whether classifiers ask who the caller is: they are in order and not for everyone. -/
def asksCaller : List Access → Bool
  | [.authenticated] => true
  | [.roles (_ :: _)] => true
  | _ => false

end Access

/-- An authenticator that counts how often it is asked. -/
def Authenticator.counted {σ : Type} (a : Authenticator σ) : Authenticator (σ × Nat) :=
  fun ctx (s, n) => ((a ctx s).1, (a ctx s).2, n + 1)

/-! ## The declared policy -/

namespace Declaration

open Access

/-- What a declaration says, in three cases: it is for everyone, its policy looks at the caller
    that was found, or it is a mistake. -/
theorem policy_cases (d : Declaration) :
    (d.classifiers = [.anyone] ∧ d.policy = .ok .anyone) ∨
    (asksCaller d.classifiers = true ∧ d.classifiers ≠ [.anyone] ∧
      ∃ policy, d.policy = .ok policy ∧ policy.requiresAuthentication = true ∧
        ∀ answer, Permits d.classifiers answer ↔
          ∃ i, answer = .ok (some i) ∧ policy.grants i = true) ∨
    (asksCaller d.classifiers = false ∧ d.classifiers ≠ [.anyone] ∧
      (∀ answer, ¬ Permits d.classifiers answer) ∧ ∃ e, d.policy = .error e) := by
  obtain ⟨command, classifiers⟩ := d
  simp only [policy]
  -- one classifier decides, unless it is an empty list of roles; none and several are mistakes
  match classifiers with
  | [] => exact .inr (.inr ⟨rfl, by simp, fun _ h => h, _, rfl⟩)
  | [.anyone] => exact .inl ⟨rfl, rfl⟩
  | [.authenticated] =>
    refine .inr (.inl ⟨rfl, by simp, .authenticated, rfl, rfl, fun answer => ?_⟩)
    simp [Permits, AccessPolicy.grants]
  | [.roles []] => exact .inr (.inr ⟨rfl, by simp, fun _ h => h.1 rfl, _, rfl⟩)
  | [.roles (name :: names)] =>
    refine .inr (.inl ⟨rfl, by simp, .anyOf (AuthoritySet.ofList (name :: names)), rfl, rfl,
      fun answer => ?_⟩)
    simp only [Permits, AccessPolicy.grants, Identity.hasAnyAuthority_iff,
      AuthoritySet.mem_ofList]
    constructor
    · rintro ⟨-, i, hi, role, hrole, hheld⟩
      exact ⟨i, hi, role, hrole, hheld⟩
    · rintro ⟨i, hi, role, hrole, hheld⟩
      exact ⟨by simp, i, hi, role, hrole, hheld⟩
  | first :: second :: rest =>
    refine .inr (.inr ⟨?_, by simp, fun answer h => ?_,
      AccessPolicy.overclassified command (rest.length + 2), ?_⟩)
    -- with a second classifier the first one does not matter
    · rcases first with _ | _ | (_ | _) <;> rfl
    · rcases first with _ | _ | (_ | _) <;> exact h
    · rcases first with _ | _ | (_ | _) <;> rfl

end Declaration

/-! ## One authorization -/

namespace AccessPolicy

variable {σ : Type}

/-- A policy with authentication asks once, and only a caller that it grants passes and becomes
    the identity of the context. -/
theorem authorize_of_requires {policy : AccessPolicy}
    (h : policy.requiresAuthentication = true) (a : Authenticator σ) (command : String)
    (ctx : Context) (s : σ) :
    policy.authorize a command ctx s =
      match (a ctx s).1 with
      | .ok (some i) =>
        if policy.grants i then ⟨.ok (), ctx.setIdentity i, (a ctx s).2⟩
        else ⟨.error ⟨command, .insufficientAuthority⟩, ctx, (a ctx s).2⟩
      | _ => ⟨.error ⟨command, .unauthenticated⟩, ctx, (a ctx s).2⟩ := by
  simp only [authorize, h, if_true, caller]
  match (a ctx s).1 with
  | .ok (some i) => rfl
  | .ok none => rfl
  | .error e => rfl

/-- A refusal leaves the context as it was. -/
theorem authorize_context_of_error {policy : AccessPolicy} {a : Authenticator σ}
    {command : String} {ctx : Context} {s : σ} {e : AccessDenied}
    (h : (policy.authorize a command ctx s).result = .error e) :
    (policy.authorize a command ctx s).context = ctx := by
  cases hr : policy.requiresAuthentication with
  | false => simp [authorize, hr]
  | true =>
    rw [authorize_of_requires hr] at h ⊢
    match hc : (a ctx s).1 with
    -- the only branch that sets an identity is the one that grants
    | .ok (some i) =>
      simp only [hc] at h ⊢
      split at h
      · exact nomatch h
      · next hg => rw [if_neg hg]
    | .ok none => rfl
    | .error e => rfl

end AccessPolicy

/-! ## One check -/

namespace AccessRecords

open Access

variable {σ : Type}

/-- A refusal leaves the context as it was, whatever the records say of the type. -/
theorem check_context_of_error {records : AccessRecords} {a : Authenticator σ} {key : TypeKey}
    {command : String} {classifiers : List Access} {ctx : Context} {s : σ} {e : AccessError}
    (h : (records.check a key command classifiers ctx s).1.result = .error e) :
    (records.check a key command classifiers ctx s).1.context = ctx := by
  simp only [check] at h ⊢
  cases hf : (records.authorizer key command classifiers).1 with
  | error e => rfl
  | ok authorizer =>
    rw [hf] at h
    cases hr : (authorizer.policy.authorize a command ctx s).result with
    -- a passed check is no error, whatever the type of its errors
    | ok u =>
      have hok : Except.ok u = Except.error e :=
        (congrArg (Except.mapError AccessError.denied) hr).symm.trans h
      cases hok
    | error e => exact AccessPolicy.authorize_context_of_error hr

/-- In faithful records a check of a type under its declaration is the authorization of the
    declared policy, and a mistake in the declaration is told before anyone is asked. -/
theorem check_fst {declared : TypeKey → Declaration} {records : AccessRecords}
    (h : Faithful declared records) {key : TypeKey} {d : Declaration} (hd : d = declared key)
    (a : Authenticator σ) (ctx : Context) (s : σ) :
    (records.check a key d.command d.classifiers ctx s).1 =
      match d.policy with
      | .error e => ⟨.error (.configuration e), ctx, s⟩
      | .ok policy =>
        let decision := policy.authorize a d.command ctx s
        ⟨decision.result.mapError AccessError.denied, decision.context, decision.state⟩ := by
  have hp := authorizer_policy h hd
  simp only [check]
  -- what the records give is built, or kept from before, for the same declaration
  cases hf : (records.authorizer key d.command d.classifiers).1 with
  | error e =>
    rw [hf] at hp
    simp only [← hp, Except.map]
  | ok authorizer =>
    rw [hf] at hp
    simp only [← hp, Except.map]

/-- What a check of a declaration must give, `found` being the answer of the authenticator and
    the environment after it was asked. -/
structure Decides (d : Declaration) (found : Authentication × σ) (ctx : Context) (s : σ)
    (out : Decision AccessError σ) : Prop where
  /-- The caller passes exactly if the declaration permits it. -/
  passes : out.result = .ok () ↔ Permits d.classifiers found.1
  /-- A caller that was asked for and passes is the identity of the context. -/
  identified : out.result = .ok () → asksCaller d.classifiers = true →
    ∃ i, found.1 = .ok (some i) ∧ out.context = ctx.setIdentity i
  /-- What is for everyone leaves the context as it was. -/
  anonymous : d.classifiers = [.anyone] → out.context = ctx
  /-- A refusal leaves the context as it was. -/
  refused : out.result ≠ .ok () → out.context = ctx
  /-- Nothing but the identity is ever written. -/
  credentials : out.context.credentials = ctx.credentials
  attributes : out.context.attributes = ctx.attributes
  correlationId : out.context.correlationId = ctx.correlationId
  /-- The environment is as one question leaves it, or as it was. -/
  asked : out.state = if asksCaller d.classifiers then found.2 else s
  /-- No caller and a failed authentication are the same reason. -/
  unauthenticated : asksCaller d.classifiers = true → (∀ i, found.1 ≠ .ok (some i)) →
    out.result = .error (.denied ⟨d.command, .unauthenticated⟩)
  /-- A caller without any of the roles is the other one. -/
  insufficient : ∀ i, asksCaller d.classifiers = true → found.1 = .ok (some i) →
    ¬ Permits d.classifiers found.1 →
    out.result = .error (.denied ⟨d.command, .insufficientAuthority⟩)
  /-- Any other classifiers are a mistake, and told as the mistake that they are. -/
  misconfigured : asksCaller d.classifiers = false → d.classifiers ≠ [.anyone] →
    ∃ e, d.policy = .error e ∧ out.result = .error (.configuration e)

/-- A declaration for everyone lets everyone pass and touches nothing. -/
private theorem decides_anyone {d : Declaration} (hd : d.classifiers = [.anyone])
    (found : Authentication × σ) (ctx : Context) (s : σ) :
    Decides d found ctx s ⟨.ok (), ctx, s⟩ where
  passes := by simp [hd, Permits]
  identified _ h := by simp [hd, asksCaller] at h
  anonymous _ := rfl
  refused h := absurd rfl h
  credentials := rfl
  attributes := rfl
  correlationId := rfl
  asked := by simp [hd, asksCaller]
  unauthenticated h := by simp [hd, asksCaller] at h
  insufficient _ h := by simp [hd, asksCaller] at h
  misconfigured _ h := absurd hd h

/-- A mistake in a declaration is told, and touches nothing. -/
private theorem decides_mistake {d : Declaration} (hasks : asksCaller d.classifiers = false)
    (hno : ∀ answer, ¬ Permits d.classifiers answer)
    {e : ConfigurationError} (he : d.policy = .error e)
    (found : Authentication × σ) (ctx : Context) (s : σ) :
    Decides d found ctx s ⟨.error (.configuration e), ctx, s⟩ where
  passes := by simp [hno found.1]
  identified h := nomatch h
  anonymous _ := rfl
  refused _ := rfl
  credentials := rfl
  attributes := rfl
  correlationId := rfl
  asked := by simp [hasks]
  unauthenticated h := by simp [hasks] at h
  insufficient _ h := by simp [hasks] at h
  misconfigured _ _ := ⟨e, he, rfl⟩

/-- A refusal for one of the two reasons: the caller was asked for and is not permitted. -/
private theorem decides_denied {d : Declaration} (hasks : asksCaller d.classifiers = true)
    {found : Authentication × σ} (hno : ¬ Permits d.classifiers found.1) {reason : DenialReason}
    (hunknown : (∀ i, found.1 ≠ .ok (some i)) → reason = .unauthenticated)
    (hknown : ∀ i, found.1 = .ok (some i) → reason = .insufficientAuthority)
    (ctx : Context) (s : σ) :
    Decides d found ctx s ⟨.error (.denied ⟨d.command, reason⟩), ctx, found.2⟩ where
  passes := by simp [hno]
  identified h := nomatch h
  anonymous _ := rfl
  refused _ := rfl
  credentials := rfl
  attributes := rfl
  correlationId := rfl
  asked := by simp [hasks]
  unauthenticated _ h := by rw [hunknown h]
  insufficient i _ h _ := by rw [hknown i h]
  misconfigured h := by simp [hasks] at h

/-- The caller was asked for, is permitted, and becomes the identity. -/
private theorem decides_granted {d : Declaration} (hasks : asksCaller d.classifiers = true)
    (hne : d.classifiers ≠ [.anyone]) {found : Authentication × σ}
    (hyes : Permits d.classifiers found.1) {i : Identity} (hi : found.1 = .ok (some i))
    (ctx : Context) (s : σ) :
    Decides d found ctx s ⟨.ok (), ctx.setIdentity i, found.2⟩ where
  passes := by simp [hyes]
  identified _ _ := ⟨i, hi, rfl⟩
  anonymous h := absurd h hne
  refused h := absurd rfl h
  credentials := rfl
  attributes := rfl
  correlationId := rfl
  asked := by simp [hasks]
  unauthenticated _ h := absurd hi (h i)
  insufficient _ _ _ h := absurd hyes h
  misconfigured h := by simp [hasks] at h

/-- In faithful records a check under the type's declaration decides what it must. -/
theorem decides_of_faithful {declared : TypeKey → Declaration} {records : AccessRecords}
    (h : Faithful declared records) {key : TypeKey} {d : Declaration} (hd : d = declared key)
    (a : Authenticator σ) (ctx : Context) (s : σ) :
    Decides d (a ctx s) ctx s (records.check a key d.command d.classifiers ctx s).1 := by
  rw [check_fst h hd]
  obtain ⟨hany, hp⟩ | ⟨hasks, hne, policy, hp, hreq, hpermits⟩ | ⟨hasks, -, hno, e, hp⟩ :=
    d.policy_cases
  · rw [hp]
    exact decides_anyone hany _ ctx s
  · simp only [hp, AccessPolicy.authorize_of_requires hreq]
    have hno : (∀ i, (a ctx s).1 ≠ .ok (some i)) → ¬ Permits d.classifiers (a ctx s).1 := by
      intro hnone hyes
      obtain ⟨i, hi, -⟩ := (hpermits _).1 hyes
      exact hnone i hi
    -- one question, three answers: somebody, nobody, or credentials of no use
    match hc : (a ctx s).1 with
    | .ok (some i) =>
      by_cases hg : policy.grants i = true
      · simp only [hg, if_true]
        exact decides_granted hasks hne ((hpermits _).2 ⟨i, hc, hg⟩) hc ctx s
      · simp only [hg]
        refine decides_denied hasks (fun hyes => ?_) (fun hnone => absurd hc (hnone i))
          (fun _ _ => rfl) ctx s
        obtain ⟨j, hj, hgj⟩ := (hpermits _).1 hyes
        rw [hc] at hj
        obtain rfl : i = j := by simpa using hj
        exact hg hgj
    | .ok none =>
      have hnone : ∀ i, (a ctx s).1 ≠ .ok (some i) := by simp [hc]
      exact decides_denied hasks (hno hnone) (fun _ => rfl) (fun i hi => absurd hi (hnone i)) ctx s
    | .error e =>
      have hnone : ∀ i, (a ctx s).1 ≠ .ok (some i) := by simp [hc]
      exact decides_denied hasks (hno hnone) (fun _ => rfl) (fun i hi => absurd hi (hnone i)) ctx s
  · rw [hp]
    exact decides_mistake hasks hno hp _ ctx s

/-- After any history of uses under the types' own declarations, a check of a type decides
    exactly what its declaration permits, whatever the authenticator, the context and the
    environment.  It asks the authenticator once if the declaration is in order and not for
    everyone, and otherwise never. -/
theorem check_decides {declared : TypeKey → Declaration} {asker : Authenticator σ}
    {history : List (Use σ)} (hown : ∀ use ∈ history, use.Own declared) (a : Authenticator σ)
    (key : TypeKey) (ctx : Context) (s : σ) :
    let d := declared key
    let records := run asker history
    Decides d (a ctx s) ctx s (records.check a key d.command d.classifiers ctx s).1 ∧
      ∀ n, (records.check a.counted key d.command d.classifiers ctx (s, n)).1.state.2 =
        n + (asksCaller d.classifiers).toNat := by
  have hf := faithful_run asker hown
  -- the second half counts the asking of the same authenticator
  refine ⟨decides_of_faithful hf rfl a ctx s, fun n => ?_⟩
  rw [(decides_of_faithful hf rfl a.counted ctx (s, n)).asked]
  cases asksCaller (declared key).classifiers with
  | true => rfl
  | false => rfl

/-- After an administrator has deleted a user, a caller with another role is refused the same
    command, and the refusal changes nothing. -/
theorem check_refuses_after_use :
    let declared : TypeKey → Declaration := fun _ => ⟨"app.users.Delete", [.roles ["ROLE_ADMIN"]]⟩
    let admin : Authenticator Nat := fun _ s => (.ok (some (Identity.make "eve" ["ROLE_ADMIN"])), s)
    let user : Authenticator Nat := fun _ s => (.ok (some (Identity.make "bob" ["ROLE_USER"])), s)
    let history : List (Use Nat) := [.check 2 (declared 2) {} 0]
    let out := ((run admin history).check user 2 "app.users.Delete" [.roles ["ROLE_ADMIN"]] {} 0).1
    (∀ use ∈ history, use.Own declared) ∧
      out.result = .error (.denied ⟨"app.users.Delete", .insufficientAuthority⟩) ∧
      out.context = {} := by
  intro declared admin user history out
  have hown : ∀ use ∈ history, use.Own declared := by
    intro use hm
    obtain rfl := List.mem_singleton.1 hm
    rfl
  have h := (@check_decides Nat declared admin history hown user 2 {} 0).1
  -- the caller has the role of a user alone
  have hno : ¬ Permits (declared 2).classifiers (user {} 0).1 := by
    rintro ⟨-, i, hi, role, hrole, hheld⟩
    obtain rfl := Option.some.inj (Except.ok.inj hi)
    obtain rfl := List.mem_singleton.1 hrole
    exact absurd hheld (by simp [Identity.make, AuthoritySet.mem_ofList])
  have hresult := h.insufficient _ rfl rfl hno
  exact ⟨hown, hresult, h.refused (fun hok => nomatch hok.symm.trans hresult)⟩

end AccessRecords

end CommandBus
