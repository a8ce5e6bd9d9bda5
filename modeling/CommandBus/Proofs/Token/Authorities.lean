import CommandBus.Proofs.Token.Claims

/-!
# Authorities in claims

Claims keep the authorities of an identity as one text.  What comes back are the pieces between the
commas of the authorities, without the blanks around them and without the empty ones.  So an
identity comes back as it was only if each of its authorities is one such piece of itself.

## Key results

- `mem_claimed_iff`: which authorities come back
- `identity_make_exact`: the identity that claims speak for, and when it is the one they were
  made for
-/

namespace CommandBus

open Text

/-- A text lists a name if the name is not empty and is one of the text's pieces between commas,
    without the blanks around it. -/
def TokenClaims.Lists (text name : String) : Prop :=
  name ≠ "" ∧ ∃ piece, IsPiece ',' text.toList piece ∧ IsTrimmed piece name.toList

namespace Identity

/-- The authorities that come back are those that an authority lists. -/
theorem mem_claimed_iff {i : Identity} {x : String} :
    x ∈ i.claimed.authorities ↔ ∃ a ∈ i.authorities, TokenClaims.Lists a x := by
  -- an authority of the claims is a trimmed piece between the commas that is not empty
  have hread : x ∈ i.claimed.authorities ↔ ∃ a ∈ i.authorities.names,
      ∃ piece ∈ splitOn ',' a.toList, trim piece ≠ [] ∧ x = String.ofList (trim piece) :=
    AuthoritySet.mem_ofList.trans TokenClaims.mem_authorityNames_intercalate
  rw [hread]
  constructor
  · rintro ⟨a, ha, piece, hpiece, hne, rfl⟩
    refine ⟨a, ha, fun hempty => hne ?_, piece, mem_splitOn_iff.1 hpiece, ?_⟩
    · simpa using congrArg String.toList hempty
    · rw [String.toList_ofList]
      exact trim_eq_iff.1 rfl
  · rintro ⟨a, ha, hne, piece, hpiece, htrimmed⟩
    have htrim : trim piece = x.toList := trim_eq_iff.2 htrimmed
    refine ⟨a, ha, piece, mem_splitOn_iff.2 hpiece, ?_, ?_⟩
    · rw [htrim]
      simpa using hne
    · rw [htrim, String.ofList_toList]

-- names merge where authorities list the same one, and vanish where one lists none
example : (Identity.make "ada" ["", "ROLE_B", " ROLE_A\t", "X,,ROLE_B"]).claimed.authorities.names =
    ["ROLE_A", "ROLE_B", "X"] := by
  decide

end Identity

namespace TokenClaims

/-- The claims of an identity, whenever they were issued and expire, speak for its name and for what
    its authorities list.  That is the identity itself exactly if every authority is not empty, has
    no comma, and neither starts nor ends with a blank. -/
theorem identity_make_exact (i : Identity) (issued expires : Instant) :
    let back := (make i issued expires).identity
    back.name = i.name ∧
    (∀ x, x ∈ back.authorities ↔ ∃ a ∈ i.authorities, Lists a x) ∧
    (back = i ↔ ∀ a ∈ i.authorities, a ≠ "" ∧ ',' ∉ a.toList ∧
      (∀ c, a.toList.head? = some c → isBlank c = false) ∧
      ∀ c, a.toList.getLast? = some c → isBlank c = false) := by
  intro back
  refine ⟨rfl, fun x => Identity.mem_claimed_iff, ?_⟩
  rw [show back = i.claimed from rfl, Identity.claimed_eq_self_iff]
  constructor
  -- an authority comes back if it has no comma and no blank at its ends
  · intro ⟨hplain, hcomma⟩ a ha
    obtain ⟨hne, htight⟩ := hplain a ha
    exact ⟨hne, hcomma a ha, htight⟩
  · intro hall
    refine ⟨fun a ha => ?_, fun a ha => (hall a ha).2.1⟩
    obtain ⟨hne, -, htight⟩ := hall a ha
    exact ⟨hne, htight⟩

end TokenClaims

end CommandBus
