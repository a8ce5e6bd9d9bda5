import CommandBus.Proofs.Text.Cutting
import CommandBus.User.Credentials
import Mathlib.Data.List.Forall2

/-!
# Headers that bear a token

An `authorization` header bears a token if it is well formed: blanks, the scheme in letters of
either case, one space, and a text that is not blank throughout.  The token is that text without
the blanks around it.  Every other header is malformed, for one of two reasons.

## Key results

- `lowered_eq_iff`: letters are lowered to a word exactly if they spell it in either case
- `bearerToken_of_schemed`, `bearerToken_of_not_schemed`: how a header is read, with and without
  the scheme
- `bearerToken_eq_ok_iff`: a header is read exactly if it is well formed, as what it bears
- `bearerToken_of_not_spells`: every other header is malformed
-/

namespace CommandBus

open Text

namespace Credential

/-! ## Letters of either case -/

/-- A word that is written with each letter in lower or in upper case. -/
def InEitherCase (word cs : List Char) : Prop :=
  List.Forall₂ (fun l c => c = l ∨ c = l.toUpper) word cs

private theorem toNat_toLower (c : Char) :
    c.toLower.toNat = if 65 ≤ c.toNat ∧ c.toNat ≤ 90 then c.toNat + 32 else c.toNat := by
  have hcapital : c.val ≥ 'A'.val ∧ c.val ≤ 'Z'.val ↔ 65 ≤ c.toNat ∧ c.toNat ≤ 90 := by
    simp only [ge_iff_le, UInt32.le_iff_toNat_le]
    exact Iff.rfl
  unfold Char.toLower
  split
  · next h =>
    obtain ⟨hA, hZ⟩ := hcapital.1 h
    rw [if_pos ⟨hA, hZ⟩]
    -- the sum stays far below 2 ^ 32
    show (c.val + 32).toNat = c.val.toNat + 32
    rw [UInt32.toNat_add]
    show (c.toNat + 32) % 2 ^ 32 = c.toNat + 32
    omega
  · next h => rw [if_neg (mt hcapital.2 h)]

private theorem toNat_toUpper {l : Char} (hl : 97 ≤ l.toNat ∧ l.toNat ≤ 122) :
    l.toUpper.toNat = l.toNat - 32 := by
  have hsmall : 'a'.val ≤ l.val ∧ l.val ≤ 'z'.val := by
    simp only [UInt32.le_iff_toNat_le]
    exact hl
  unfold Char.toUpper
  rw [dif_pos hsmall]
  -- the distance down to the capitals is added modulo the size of the type
  show (l.val + 4294967264).toNat = l.val.toNat - 32
  rw [UInt32.toNat_add]
  show (l.toNat + 4294967264) % 2 ^ 32 = l.toNat - 32
  omega

/-- A character is lowered to a small letter exactly if it is the letter or its capital. -/
theorem toLower_eq_iff {c l : Char} (hl : l.isLower = true) :
    c.toLower = l ↔ c = l ∨ c = l.toUpper := by
  have hsmall : 97 ≤ l.toNat ∧ l.toNat ≤ 122 := by
    obtain ⟨ha, hz⟩ := Bool.and_eq_true_iff.1 hl
    exact ⟨UInt32.le_iff_toNat_le.1 (of_decide_eq_true ha),
      UInt32.le_iff_toNat_le.1 (of_decide_eq_true hz)⟩
  rw [← Char.toNat_inj, ← Char.toNat_inj, ← Char.toNat_inj, toNat_toLower, toNat_toUpper hsmall]
  split
  · omega
  · omega

/-- Letters are lowered to a word exactly if they spell it in either case. -/
theorem lowered_eq_iff {word cs : List Char} (hword : ∀ l ∈ word, l.isLower = true) :
    lowered cs = word ↔ InEitherCase word cs := by
  induction word generalizing cs with
  | nil => simp [lowered, InEitherCase]
  | cons l word ih =>
    have hrest : ∀ l ∈ word, l.isLower = true := fun l hl => hword l (List.mem_cons_of_mem _ hl)
    cases cs with
    | nil => simp [lowered, InEitherCase]
    | cons c cs =>
      show c.toLower :: lowered cs = l :: word ↔ InEitherCase (l :: word) (c :: cs)
      rw [List.cons.injEq, toLower_eq_iff (hword l List.mem_cons_self), ih hrest]
      simp only [InEitherCase, List.forall₂_cons]

/-! ## The scheme -/

/-- The scheme of a bearer authorization, in lower case. -/
def bearer : List Char := ['b', 'e', 'a', 'r', 'e', 'r']

/-- A header with the scheme, and what stands after the space that follows it. -/
def Schemed (header : String) (rest : List Char) : Prop :=
  ∃ blanks scheme, header.toList = blanks ++ scheme ++ ' ' :: rest ∧
    (∀ c ∈ blanks, isBlank c = true) ∧ InEitherCase bearer scheme

/-- The letters of the scheme are small. -/
theorem isLower_of_mem_bearer : ∀ l ∈ bearer, l.isLower = true := List.all_eq_true.1 rfl

theorem lowered_eq_bearer_iff {scheme : List Char} :
    lowered scheme = bearer ↔ InEitherCase bearer scheme := lowered_eq_iff isLower_of_mem_bearer

/-- No character of the scheme is blank, in whatever case it is written. -/
private theorem isBlank_of_mem_scheme {scheme : List Char} (h : InEitherCase bearer scheme)
    {c : Char} (hc : c ∈ scheme) : isBlank c = false := by
  -- neither the small nor the capital letters of the word are blank
  have hsmall : bearer.all (fun l => !isBlank l) = true := rfl
  have hcapital : bearer.all (fun l => !isBlank l.toUpper) = true := rfl
  have hmem : c.toLower ∈ bearer := by
    rw [← lowered_eq_bearer_iff.2 h]
    exact List.mem_map_of_mem hc
  cases (toLower_eq_iff (isLower_of_mem_bearer _ hmem)).1 rfl with
  | inl heq =>
    rw [heq]
    simpa using List.all_eq_true.1 hsmall _ hmem
  | inr heq =>
    rw [heq]
    simpa using List.all_eq_true.1 hcapital _ hmem

/-- Blanks in front of a scheme are all that is trimmed, and the first space is the one after it. -/
private theorem cutOnce_of_scheme {blanks scheme : List Char} (rest : List Char)
    (hblanks : ∀ c ∈ blanks, isBlank c = true) (hscheme : InEitherCase bearer scheme) :
    cutOnce ' ' (trimStart (blanks ++ scheme ++ ' ' :: rest)) = some (scheme, rest) := by
  have hspace : ' ' ∉ scheme := by
    intro hmem
    exact absurd (isBlank_of_mem_scheme hscheme hmem) (by decide)
  have hstart : trimStart (blanks ++ scheme ++ ' ' :: rest) = scheme ++ ' ' :: rest := by
    rw [List.append_assoc, trimStart, List.dropWhile_append_of_pos hblanks]
    cases scheme with
    | nil => cases hscheme
    | cons c cs => exact trimStart_eq_self (isBlank_of_mem_scheme hscheme List.mem_cons_self)
  rw [hstart, cutOnce_append hspace]

/-- The header with a scheme is read as what follows, without the blanks around it. -/
theorem bearerToken_of_schemed {header : String} {rest : List Char} (h : Schemed header rest) :
    bearerToken header = if trim rest = [] then .error (.malformed "empty bearer token")
      else .ok (String.ofList (trim rest)) := by
  obtain ⟨blanks, scheme, hheader, hblanks, hscheme⟩ := h
  have hlower : lowered scheme = ['b', 'e', 'a', 'r', 'e', 'r'] := lowered_eq_bearer_iff.2 hscheme
  rw [bearerToken, hheader, cutOnce_of_scheme rest hblanks hscheme]
  simp only [hlower, if_true, List.isEmpty_iff]

/-- What is cut at its first space, blanks at the start left out, has the scheme in front if the
    letters there are those of the scheme. -/
private theorem schemed_of_cutOnce {header : String} {scheme rest : List Char}
    (hcut : cutOnce ' ' (trimStart header.toList) = some (scheme, rest))
    (hscheme : InEitherCase bearer scheme) : Schemed header rest := by
  have hblanks : ∀ c ∈ header.toList.takeWhile isBlank, isBlank c = true :=
    List.all_eq_true.1 List.all_takeWhile
  have hparts : trimStart header.toList = scheme ++ ' ' :: rest := (eq_append_of_cutOnce hcut).1
  have hheader : header.toList = header.toList.takeWhile isBlank ++ scheme ++ ' ' :: rest := by
    rw [List.append_assoc, ← hparts]
    exact List.takeWhile_append_dropWhile.symm
  exact ⟨_, scheme, hheader, hblanks, hscheme⟩

/-- A header without the scheme is none of a bearer. -/
theorem bearerToken_of_not_schemed {header : String} (h : ∀ rest, ¬ Schemed header rest) :
    bearerToken header = .error (.malformed "authorization is not a bearer credential") := by
  unfold bearerToken
  cases hcut : cutOnce ' ' (trimStart header.toList) with
  | none => rfl
  | some parts =>
    obtain ⟨scheme, rest⟩ := parts
    have hother : ¬ lowered scheme = bearer := fun hlower =>
      h rest (schemed_of_cutOnce hcut (lowered_eq_bearer_iff.1 hlower))
    exact if_neg hother

/-! ## Well formed headers -/

/-- A well formed header and the token in it. -/
def Bears (header t : String) : Prop :=
  ∃ blanks scheme rest, header.toList = blanks ++ scheme ++ ' ' :: rest ∧
    (∀ c ∈ blanks, isBlank c = true) ∧ lowered scheme = bearer ∧
    t.toList = trim rest ∧ trim rest ≠ []

theorem bears_iff {header t : String} :
    Bears header t ↔ ∃ rest, Schemed header rest ∧ t.toList = trim rest ∧ trim rest ≠ [] := by
  constructor
  · intro ⟨blanks, scheme, rest, hheader, hblanks, hscheme, ht⟩
    exact ⟨rest, ⟨blanks, scheme, hheader, hblanks, lowered_eq_bearer_iff.1 hscheme⟩, ht⟩
  · intro ⟨rest, ⟨blanks, scheme, hheader, hblanks, hscheme⟩, ht⟩
    exact ⟨blanks, scheme, rest, hheader, hblanks, lowered_eq_bearer_iff.2 hscheme, ht⟩

/-- A header is read exactly if it is well formed, as the token that it bears. -/
theorem bearerToken_eq_ok_iff {header t : String} :
    bearerToken header = .ok t ↔ Bears header t := by
  rw [bears_iff]
  constructor
  · intro h
    by_cases hsome : ∃ rest, Schemed header rest
    · obtain ⟨rest, hrest⟩ := hsome
      rw [bearerToken_of_schemed hrest] at h
      -- behind the scheme there has to be more than blanks
      by_cases hblank : trim rest = []
      · rw [if_pos hblank] at h
        exact nomatch h
      · rw [if_neg hblank] at h
        obtain rfl := Except.ok.inj h
        exact ⟨rest, hrest, String.toList_ofList, hblank⟩
    · rw [bearerToken_of_not_schemed (not_exists.1 hsome)] at h
      exact nomatch h
  · intro ⟨rest, hrest, ht, hne⟩
    rw [bearerToken_of_schemed hrest, if_neg hne, ← ht, String.ofList_toList]

example : bearerToken "\t bEARer  abc " = .ok "abc" := by rfl

-- after the scheme there must be a space, and no other blank will do
example : bearerToken "Bearer\tabc" =
    .error (.malformed "authorization is not a bearer credential") := by rfl

/-- A header that spells a token out: the scheme, and what is the token without the blanks around
    it. -/
structure Spells (header t : String) : Prop where
  nonempty : t ≠ ""
  shape : ∃ rest, Schemed header rest ∧ IsTrimmed rest t.toList

theorem spells_iff_bears {header t : String} : Spells header t ↔ Bears header t := by
  rw [bears_iff]
  constructor
  · intro ⟨hne, rest, hrest, htrimmed⟩
    have htrim : trim rest = t.toList := trim_eq_iff.2 htrimmed
    refine ⟨rest, hrest, htrim.symm, ?_⟩
    rw [htrim]
    simpa using hne
  · intro ⟨rest, hrest, ht, hne⟩
    refine ⟨?_, rest, hrest, trim_eq_iff.1 ht.symm⟩
    rw [← ht] at hne
    simpa using hne

/-- A header that spells no token is malformed, with or without the scheme. -/
theorem bearerToken_of_not_spells {header : String} (h : ∀ t, ¬ Spells header t) :
    ∃ reason, bearerToken header = .error (.malformed reason) := by
  by_cases hsome : ∃ rest, Schemed header rest
  · obtain ⟨rest, hrest⟩ := hsome
    have hblank : trim rest = [] := by
      by_contra hne
      exact h (String.ofList (trim rest))
        (spells_iff_bears.2 (bears_iff.2 ⟨rest, hrest, String.toList_ofList, hne⟩))
    exact ⟨_, by rw [bearerToken_of_schemed hrest, if_pos hblank]⟩
  · exact ⟨_, bearerToken_of_not_schemed (not_exists.1 hsome)⟩

end Credential

end CommandBus
