import CommandBus.Proofs.Token.Headers

/-!
# The token that a caller presents

A caller presents the token of its `token` credential or, only where there is none, the token
that its `authorization` header bears.  Where the header is looked at and bears nothing, the caller
is in error.

## Key results

- `presentedToken_eq_some_iff`, `presentedToken_eq_none_iff`, `presentedToken_error_iff`: what a
  caller presents, in three cases
- `TokenProvider.authenticate_eq_some_iff`: whom the token of a caller stands for
- `TokenProvider.forms_agree`: a token counts the same in either credential, and nothing but a
  token is taken for one
-/

namespace CommandBus

open Text

namespace Credential

/-! ## Callers -/

/-- The token that a caller presents. -/
inductive Presents (ctx : Context) : String → Prop where
  /-- A token credential counts, whatever is in the header. -/
  | token {t : String} (h : ctx.credential? token = some t) : Presents ctx (trimmed t)
  | header {header t : String} (hno : ctx.credential? token = none)
    (h : ctx.credential? authorization = some header) (hbears : Bears header t) : Presents ctx t

/-- The header of a caller is looked at and bears no token. -/
def Misformed (ctx : Context) : Prop :=
  ctx.credential? token = none ∧
    ∃ header, ctx.credential? authorization = some header ∧ ∀ t, ¬ Bears header t

variable {ctx : Context}

/-- With a token credential no other token is presented. -/
theorem eq_trimmed_of_presents {given t : String} (h : Presents ctx t)
    (hgiven : ctx.credential? token = some given) : t = trimmed given := by
  cases h with
  | token h =>
    rw [Option.some.inj (hgiven.symm.trans h)]
  | header hno =>
    rw [hno] at hgiven
    exact nomatch hgiven

/-- With a token credential the header is not looked at. -/
theorem not_misformed_of_token {given : String} (hgiven : ctx.credential? token = some given) :
    ¬ Misformed ctx := by
  rintro ⟨hno, -⟩
  rw [hno] at hgiven
  exact nomatch hgiven

theorem presentedToken_eq_some_iff {t : String} :
    presentedToken ctx = .ok (some t) ↔ Presents ctx t := by
  unfold presentedToken
  -- the token credential comes first, and the header is read only without it
  cases htoken : ctx.credential? token with
  | some given =>
    constructor
    · intro h
      obtain rfl : trimmed given = t := Option.some.inj (Except.ok.inj h)
      exact .token htoken
    · intro h
      rw [eq_trimmed_of_presents h htoken]
  | none =>
    cases hheader : ctx.credential? authorization with
    | none =>
      constructor
      · intro h
        exact nomatch h
      · intro h
        cases h with
        | token h => exact nomatch htoken.symm.trans h
        | header _ h => exact nomatch hheader.symm.trans h
    | some header =>
      constructor
      · intro h
        -- without a token credential the header has to bear it
        cases hread : bearerToken header with
        | error e =>
          simp only [hread] at h
          exact nomatch h
        | ok read =>
          simp only [hread] at h
          obtain rfl : read = t := Option.some.inj (Except.ok.inj h)
          exact .header htoken hheader (bearerToken_eq_ok_iff.1 hread)
      · intro h
        cases h with
        | token h => exact nomatch htoken.symm.trans h
        | header _ h hbears =>
          obtain rfl := Option.some.inj (hheader.symm.trans h)
          simp only [bearerToken_eq_ok_iff.2 hbears]
          rfl

theorem presentedToken_eq_none_iff :
    presentedToken ctx = .ok none ↔
      ctx.credential? token = none ∧ ctx.credential? authorization = none := by
  unfold presentedToken
  cases ctx.credential? token with
  | some given => simp
  | none =>
    cases ctx.credential? authorization with
    | none => simp
    | some header =>
      cases hread : bearerToken header with
      | error e => simp [hread, Except.map]
      | ok read => simp [hread, Except.map]

theorem presentedToken_error_iff :
    (∃ e, presentedToken ctx = .error e) ↔ Misformed ctx := by
  unfold presentedToken Misformed
  cases ctx.credential? token with
  | some given => simp
  | none =>
    cases ctx.credential? authorization with
    | none => simp
    | some header =>
      simp only [true_and, Option.some.injEq, exists_eq_left', ← bearerToken_eq_ok_iff]
      cases hread : bearerToken header with
      | error e => simp [Except.map]
      | ok read => simp [Except.map]

end Credential

/-! ## Callers that a token stands for -/

namespace TokenProvider

open Credential

/-- The caller presents a token that stands for `i` at the moment. -/
def Vouches (provider : TokenProvider) (now : Instant) (ctx : Context) (i : Identity) : Prop :=
  ∃ t, Presents ctx t ∧ provider.verify? t now = some i

variable {provider : TokenProvider} {now : Instant} {ctx : Context}

/-- A caller is found by its token exactly if the token that it presents stands for somebody. -/
theorem authenticate_eq_some_iff {i : Identity} :
    provider.authenticate now ctx = .ok (some i) ↔ provider.Vouches now ctx i := by
  simp only [Vouches, ← presentedToken_eq_some_iff, authenticate]
  cases presentedToken ctx with
  | error e => simp
  | ok presented =>
    cases presented with
    | none => simp
    | some t => simp

/-- The token of a caller is an error only where a header is looked at and bears none. -/
theorem authenticate_error_iff :
    (∃ e, provider.authenticate now ctx = .error e) ↔ Misformed ctx := by
  rw [← presentedToken_error_iff, authenticate]
  cases presentedToken ctx with
  | error e => simp
  | ok presented =>
    cases presented with
    | none => simp
    | some t => simp

/-- Nobody is found by a token that stands for nobody, or without a token. -/
theorem authenticate_eq_none_iff :
    provider.authenticate now ctx = .ok none ↔
      (∀ i, ¬ provider.Vouches now ctx i) ∧ ¬ Misformed ctx := by
  have herror : (∃ e, provider.authenticate now ctx = .error e) ↔ Misformed ctx :=
    authenticate_error_iff
  simp only [← authenticate_eq_some_iff, ← herror]
  cases provider.authenticate now ctx with
  | error e => simp
  | ok found =>
    cases found with
    | none => simp
    | some i => simp

/-! ## Two forms of a token -/

/-- A token credential counts for what it is without the blanks around it, whatever else the caller
    gives. -/
theorem authenticate_of_token {given : String} (hgiven : ctx.credential? token = some given) :
    provider.authenticate now ctx = .ok (provider.verify? (trimmed given) now) := by
  rw [authenticate, presentedToken_eq_some_iff.2 (.token hgiven)]

/-- Without a token credential, what the header spells counts. -/
theorem authenticate_of_spells {header t : String} (hno : ctx.credential? token = none)
    (hheader : ctx.credential? authorization = some header) (h : Spells header t) :
    provider.authenticate now ctx = .ok (provider.verify? t now) := by
  rw [authenticate, presentedToken_eq_some_iff.2 (.header hno hheader (spells_iff_bears.1 h))]

/-- The empty text is no token. -/
theorem verify?_empty : provider.verify? "" now = none := rfl

/-- A token counts the same in either credential, and nothing but a token is taken for one.

    A header counts only without a token credential.  What it spells has the outcome that it has as
    a token credential, whatever blanks are around it there, and a header that spells nothing is
    malformed.  With a token credential the header is not looked at; a token that is not verified
    stands for nobody, the empty one among them, and is no error. -/
theorem forms_agree (provider : TokenProvider) (now : Instant) (ctx : Context) :
    (∀ header, ctx.credential? token = none → ctx.credential? authorization = some header →
      (∀ t, Spells header t → ∀ (other : Context) (given : String),
        other.credential? token = some given → IsTrimmed given.toList t.toList →
          provider.authenticate now ctx = provider.authenticate now other) ∧
      ((∀ t, ¬ Spells header t) →
        ∃ reason, provider.authenticate now ctx = .error (.malformed reason))) ∧
    ∀ given, ctx.credential? token = some given →
      (∀ other : Context, other.credential? token = some given →
        provider.authenticate now ctx = provider.authenticate now other) ∧
      provider.authenticate now ctx = .ok (provider.verify? (trimmed given) now) ∧
      (∀ e, provider.authenticate now ctx ≠ .error e) ∧
      (trimmed given = "" → provider.authenticate now ctx = .ok none) := by
  constructor
  · intro header hno hheader
    constructor
    · intro t hspells other given hgiven htrimmed
      -- the token is trimmed in either form
      have hsame : trimmed given = t := by
        rw [trimmed, trim_eq_iff.2 htrimmed, String.ofList_toList]
      rw [authenticate_of_spells hno hheader hspells, authenticate_of_token hgiven, hsame]
    · intro hnothing
      obtain ⟨reason, hread⟩ := bearerToken_of_not_spells hnothing
      refine ⟨reason, ?_⟩
      rw [authenticate, presentedToken, hno]
      simp only [hheader, hread]
      rfl
  · intro given hgiven
    have hfound : provider.authenticate now ctx = .ok (provider.verify? (trimmed given) now) :=
      authenticate_of_token hgiven
    refine ⟨fun other hother => ?_, hfound, fun e => ?_, fun hempty => ?_⟩
    · rw [hfound, authenticate_of_token hother]
    · rw [hfound]
      simp
    · rw [hfound, hempty, verify?_empty]

/-- Blanks and a scheme of mixed case in a header, blanks around the token itself: one outcome.  A
    tab after the scheme is no space, and a token of blanks stands for nobody. -/
theorem forms_agree_mixed_case :
    let provider : TokenProvider := ⟨[], 1, 1⟩
    let now : Instant := { seconds := 0, nanos := 0 }
    let headed (header : String) : Context :=
      { credentials := some (.single "authorization" header) }
    let given (t : String) : Context :=
      { credentials := some (.ofList [("authorization", "Basic"), ("token", t)]) }
    (Spells "\t bEARer  abc " "abc" ∧
      provider.authenticate now (headed "\t bEARer  abc ") =
        provider.authenticate now (given "abc\n")) ∧
    (∃ reason, provider.authenticate now (headed "Bearer\tabc") = .error (.malformed reason)) ∧
    provider.authenticate now (given " \t") = .ok none := by
  intro provider now headed given
  have hspells : Spells "\t bEARer  abc " "abc" :=
    spells_iff_bears.2 (bearerToken_eq_ok_iff.1 rfl)
  -- the scheme ends at a space, and a tab is none
  have htab : ∀ t, ¬ Spells "Bearer\tabc" t := by
    intro t h
    exact nomatch bearerToken_eq_ok_iff.2 (spells_iff_bears.1 h)
  have hheaded := (forms_agree provider now (headed "\t bEARer  abc ")).1 _ rfl rfl
  have htabbed := (forms_agree provider now (headed "Bearer\tabc")).1 _ rfl rfl
  have hblank := (forms_agree provider now (given " \t")).2 _ rfl
  refine ⟨⟨hspells, ?_⟩, htabbed.2 htab, hblank.2.2.2 rfl⟩
  exact hheaded.1 _ hspells (given "abc\n") _ rfl (trim_eq_iff.1 rfl)

end TokenProvider

end CommandBus
