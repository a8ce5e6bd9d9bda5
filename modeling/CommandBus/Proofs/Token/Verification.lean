import CommandBus.Proofs.Token.Claims
import CommandBus.Proofs.Token.Headers
import CommandBus.Proofs.Token.Signed

/-!
# Issued tokens are verified

A token that a provider issued is verified by the same provider from the moment of the issue on
and before the end of its window, and at no other moment.  It speaks for the identity that it
was issued for, as far as its authorities come back (`Identity.claimed`).  Both ways to carry a
token present it as it was issued.

## Key results

- `verify?_of_issue?`: when an issued token is verified, and whom it speaks for
- `presentedToken_of_carries`: the ways to carry a token present it as it is
- `authenticate_of_carries`: who the caller with an issued token is
-/

namespace CommandBus

open Text

namespace TokenProvider

variable {provider : TokenProvider} {identity : Identity} {remember : Bool} {issued now : Instant}
  {token : String}

/-- The settings of a provider leave no window without a length. -/
theorem window_pos {settings : TokenSettings} (h : ofSettings settings = .ok provider)
    (remember : Bool) : 0 < provider.window remember := by
  have pos_of_ne_zero : ∀ n : UInt64, n ≠ 0 → 0 < n.toNat := by
    intro n hn
    have hne : n.toNat ≠ 0 := fun h0 => hn (UInt64.toNat_inj.1 h0)
    omega
  -- a window is cut off at the longest one, which is not empty either
  have hmax : 0 < maxWindow := by decide
  unfold ofSettings at h
  split at h
  · exact nomatch h
  · next hvalid =>
    obtain rfl := Except.ok.inj h
    unfold TokenSettings.validate at hvalid
    split at hvalid
    · exact nomatch hvalid
    · next hvalidity =>
      split at hvalid
      · exact nomatch hvalid
      · next hremember =>
        have h₁ := pos_of_ne_zero _ hvalidity
        have h₂ := pos_of_ne_zero _ hremember
        cases remember with
        | true => exact Nat.lt_min.2 ⟨h₂, hmax⟩
        | false => exact Nat.lt_min.2 ⟨h₁, hmax⟩

/-- An issued token is the signed document of the claims between its issue and its expiry. -/
theorem exists_of_issue? (hw : 0 < provider.window remember)
    (h : provider.issue? identity remember issued = some token) :
    ∃ expires : Instant, expires.seconds = issued.seconds + provider.window remember ∧
      token.toList =
        Signed.sign provider.secret (TokenClaims.make identity issued expires).toJson.render := by
  unfold issue? claims? at h
  rw [Option.map_map] at h
  obtain ⟨expires, hexpires, rfl⟩ := Option.map_eq_some_iff.1 h
  refine ⟨expires, Instant.seconds_of_addSeconds? (by omega) hexpires, ?_⟩
  simp only [Function.comp_apply, write, String.toList_ofList]

/-- An issued token speaks for its identity inside its window, and for nobody outside of it. -/
theorem verify?_of_issue? (hw : 0 < provider.window remember)
    (h : provider.issue? identity remember issued = some token) (now : Instant) :
    provider.verify? token now =
      if issued.seconds ≤ now.seconds ∧
          now.seconds < issued.seconds + provider.window remember then
        some identity.claimed
      else none := by
  obtain ⟨expires, hexpires, htoken⟩ := exists_of_issue? hw h
  have hafter : issued.seconds < expires.seconds := by omega
  rw [verify?, htoken, Signed.open?_sign, Option.bind_some, Token.claims?_render]
  simp only [TokenClaims.validate_make hafter, Identity.identity_make]
  -- before the issue, behind the end, or inside the window
  by_cases hearly : now.seconds < issued.seconds
  · have hnot : ¬ (issued.seconds ≤ now.seconds ∧
        now.seconds < issued.seconds + provider.window remember) := by omega
    rw [if_pos hearly, if_neg hnot]
  · by_cases hlate : expires.seconds ≤ now.seconds
    · have hnot : ¬ (issued.seconds ≤ now.seconds ∧
          now.seconds < issued.seconds + provider.window remember) := by omega
      rw [if_neg hearly, if_pos hlate, if_neg hnot]
    · have hin : issued.seconds ≤ now.seconds ∧
          now.seconds < issued.seconds + provider.window remember := by omega
      rw [if_neg hearly, if_neg hlate, if_pos hin]

/-- There is no blank in an issued token. -/
theorem isBlank_of_mem_issued (hw : 0 < provider.window remember)
    (h : provider.issue? identity remember issued = some token) :
    (∀ c ∈ token.toList, isBlank c = false) ∧ token.toList ≠ [] := by
  obtain ⟨expires, -, htoken⟩ := exists_of_issue? hw h
  rw [htoken]
  exact ⟨fun c hc => Signed.isBlank_of_mem_sign hc, Signed.sign_ne_nil _ _⟩

end TokenProvider

/-! ## Carrying a token -/

namespace Credential

/-- The ways to carry a token and nothing else. -/
inductive Carries (t : String) : Credentials → Prop where
  | token : Carries t (.single "token" t)
  | bearer : Carries t (.single "authorization" ("Bearer " ++ t))

/-- The token of a bearer authorization is the one that was put there. -/
private theorem bearerToken_append {t : String} (hblank : ∀ c ∈ t.toList, isBlank c = false)
    (hne : t.toList ≠ []) : bearerToken ("Bearer " ++ t) = .ok t := by
  have hheader : ("Bearer " ++ t).toList =
      [] ++ ['B', 'e', 'a', 'r', 'e', 'r'] ++ ' ' :: t.toList := by
    rw [String.toList_append]
    rfl
  have hscheme : InEitherCase bearer ['B', 'e', 'a', 'r', 'e', 'r'] :=
    lowered_eq_bearer_iff.1 (by decide)
  have hschemed : Schemed ("Bearer " ++ t) t.toList := ⟨[], _, hheader, by simp, hscheme⟩
  have htrim : trim t.toList = t.toList := trim_eq_self (tight_of_forall hblank)
  rw [bearerToken_of_schemed hschemed, htrim, if_neg hne, String.ofList_toList]

/-- A token is presented as it is carried. -/
theorem presentedToken_of_carries {t : String} (hblank : ∀ c ∈ t.toList, isBlank c = false)
    (hne : t.toList ≠ []) {ctx : Context} {credentials : Credentials}
    (hctx : ctx.credentials = some credentials) (h : Carries t credentials) :
    presentedToken ctx = .ok (some t) := by
  cases h with
  | token =>
    have hfound : ctx.credential? token = some t := by
      simp [Context.credential?, hctx, token]
    rw [presentedToken, hfound]
    simp only [trimmed, trim_eq_self (tight_of_forall hblank), String.ofList_toList]
  | bearer =>
    -- without a token credential the header is looked at
    have hnone : ctx.credential? token = none := by
      simp [Context.credential?, hctx, token]
    have hfound : ctx.credential? authorization = some ("Bearer " ++ t) := by
      simp [Context.credential?, hctx, authorization]
    rw [presentedToken, hnone]
    simp only [hfound, bearerToken_append hblank hne]
    rfl

end Credential

/-- The caller with an issued token is who the token speaks for, inside its window. -/
theorem TokenProvider.authenticate_of_carries {provider : TokenProvider} {identity : Identity}
    {remember : Bool} {issued now : Instant} {token : String}
    (hw : 0 < provider.window remember)
    (h : provider.issue? identity remember issued = some token)
    (hnow : issued.seconds ≤ now.seconds ∧
      now.seconds < issued.seconds + provider.window remember)
    {ctx : Context} {credentials : Credentials} (hctx : ctx.credentials = some credentials)
    (hcarries : Credential.Carries token credentials) :
    provider.authenticate now ctx = .ok (some identity.claimed) := by
  obtain ⟨hblank, hne⟩ := isBlank_of_mem_issued hw h
  rw [authenticate, Credential.presentedToken_of_carries hblank hne hctx hcarries]
  simp only [verify?_of_issue? hw h, if_pos hnow]

end CommandBus
