import CommandBus.Proofs.Number.Digits
import CommandBus.Text.Blank
import CommandBus.Uuid
import Mathlib.Algebra.Ring.Nat

/-!
# Identifiers are read back from their texts

The text of an identifier is as long as five groups must be, in bytes as in characters, so that it
is taken for the five groups; without the hyphens they are the digits that were written, and these
have room for every identifier.

## Key results

- `mapM_hexValue?_paddedHex`: padded digits are read back as the number that they have room for
- `ofHyphenated?_hyphenate`: hyphens are taken out where they were put
- `read_chars`: an identifier is read back from its text
-/

namespace CommandBus

namespace Number

/-- Padded digits are those of values below sixteen. -/
theorem exists_hexChar_of_mem_paddedHex {width n : Nat} {c : Char} (h : c ∈ paddedHex width n) :
    ∃ d, c = hexChar d := by
  induction width generalizing n with
  | zero => exact nomatch h
  | succ width ih =>
    rcases List.mem_append.1 h with hfront | hlast
    · exact ih hfront
    · exact ⟨n, List.mem_singleton.1 hlast⟩

/-- Padded digits are read back as the number that they have room for. -/
theorem mapM_hexValue?_paddedHex (width n : Nat) :
    ∃ values, (paddedHex width n).mapM hexValue? = some values ∧ values.length = width ∧
      values.foldl (fun n d => n * 16 + d) 0 = n % 16 ^ width := by
  induction width generalizing n with
  | zero => exact ⟨[], rfl, rfl, (Nat.mod_one n).symm⟩
  | succ width ih =>
    obtain ⟨values, hvalues, hlength, hvalue⟩ := ih (n / 16)
    refine ⟨values ++ [n % 16], ?_, by simp [hlength], ?_⟩
    · rw [paddedHex, List.mapM_append, hvalues]
      simp [hexValue?_hexChar]
    · rw [List.foldl_append, hvalue, Nat.pow_succ', Nat.mod_mul]
      simp only [List.foldl_cons, List.foldl_nil]
      omega

end Number

namespace Uuid

open Number Text

/-! ## The characters of a text -/

/-- Only digits and hyphens are written. -/
theorem mem_chars {u : Uuid} {c : Char} (h : c ∈ u.chars) : c = '-' ∨ ∃ d, c = hexChar d := by
  have hdigits : ∀ {c}, c ∈ paddedHex 32 u.value → ∃ d, c = hexChar d :=
    exists_hexChar_of_mem_paddedHex
  have htake : ∀ {k n c}, c ∈ ((paddedHex 32 u.value).drop k).take n → ∃ d, c = hexChar d :=
    fun hc => hdigits (List.mem_of_mem_drop (List.mem_of_mem_take hc))
  simp only [chars, hyphenate, List.mem_append, List.mem_cons] at h
  -- five groups of digits and four hyphens between them
  rcases h with h | rfl | h | rfl | h | rfl | h | rfl | h
  · exact .inr (hdigits (List.mem_of_mem_take h))
  · exact .inl rfl
  · exact .inr (htake h)
  · exact .inl rfl
  · exact .inr (htake h)
  · exact .inl rfl
  · exact .inr (htake h)
  · exact .inl rfl
  · exact .inr (hdigits (List.mem_of_mem_drop h))

/-- What holds of the hyphen and of all digits holds of what is written. -/
theorem forall_mem_chars {P : Char → Prop} (hhyphen : P '-') (hdigit : ∀ d < 16, P (hexChar d))
    {u : Uuid} {c : Char} (h : c ∈ u.chars) : P c := by
  obtain rfl | ⟨d, rfl⟩ := mem_chars h
  · exact hhyphen
  · have hmod : hexChar d = hexChar (d % 16) := by simp only [hexChar, Nat.mod_mod]
    exact hmod ▸ hdigit _ (Nat.mod_lt _ (by decide))

theorem isBlank_of_mem_chars {u : Uuid} {c : Char} (h : c ∈ u.chars) : isBlank c = false :=
  forall_mem_chars (P := fun c => isBlank c = false) rfl (by decide) h

/-- A text of characters of one byte has as many bytes as characters. -/
theorem byteCount_eq_length {cs : List Char} (h : ∀ c ∈ cs, c.utf8Size = 1) :
    byteCount cs = cs.length := by
  have hfrom : ∀ n, cs.foldl (fun n c => n + c.utf8Size) n = n + cs.length := by
    induction cs with
    | nil => exact fun n => rfl
    | cons c cs ih =>
      intro n
      rw [List.forall_mem_cons] at h
      rw [List.foldl_cons, ih h.2, h.1, List.length_cons]
      omega
  exact (hfrom 0).trans (Nat.zero_add _)

/-! ## The five groups -/

theorem length_hyphenate {ds : List Char} (h : ds.length = 32) : (hyphenate ds).length = 36 := by
  simp [hyphenate, h]

/-- Digits that are cut are put together again. -/
private theorem take_drop_append (ds : List Char) {k n m : Nat} (h : k + n = m) :
    (ds.drop k).take n ++ ds.drop m = ds.drop k := by
  rw [← h, ← List.drop_drop, List.take_append_drop]

/-- Behind a group and its hyphen the next one begins. -/
private theorem drop_group {group : List Char} {n : Nat} (h : group.length = n)
    (rest : List Char) : (group ++ '-' :: rest).drop (n + 1) = rest := by
  rw [← h, List.drop_append, Nat.add_sub_cancel_left, List.drop_eq_nil_of_le (Nat.le_succ _)]
  rfl

/-- Groups of the right lengths are found where they are. -/
private theorem groups_append {a b c d : List Char} (ha : a.length = 8) (hb : b.length = 4)
    (hc : c.length = 4) (hd : d.length = 4) (e : List Char) {cs : List Char}
    (hcs : cs = a ++ '-' :: (b ++ '-' :: (c ++ '-' :: (d ++ '-' :: e)))) :
    cs.take 8 ++ (cs.drop 9).take 4 ++ (cs.drop 14).take 4 ++ (cs.drop 19).take 4 ++ cs.drop 24 =
      a ++ (b ++ (c ++ (d ++ e))) := by
  -- a group and its hyphen are dropped at a time
  have hsecond : cs.drop 9 = b ++ '-' :: (c ++ '-' :: (d ++ '-' :: e)) := by
    rw [hcs, drop_group ha]
  have hthird : cs.drop 14 = c ++ '-' :: (d ++ '-' :: e) := by
    rw [show 14 = 9 + 5 from rfl, ← List.drop_drop, hsecond, drop_group hb]
  have hfourth : cs.drop 19 = d ++ '-' :: e := by
    rw [show 19 = 14 + 5 from rfl, ← List.drop_drop, hthird, drop_group hc]
  have hfifth : cs.drop 24 = e := by
    rw [show 24 = 19 + 5 from rfl, ← List.drop_drop, hfourth, drop_group hd]
  rw [hfifth, hfourth, hthird, hsecond, hcs, List.take_left' ha, List.take_left' hb,
    List.take_left' hc, List.take_left' hd]
  simp only [List.append_assoc]

/-- Hyphens are taken out where they were put. -/
theorem ofHyphenated?_hyphenate {ds : List Char} (h : ds.length = 32) :
    ofHyphenated? (hyphenate ds) = ofHex? ds := by
  have hgroup : ∀ k n, k + n ≤ 32 → ((ds.drop k).take n).length = n := by
    intro k n hkn
    rw [List.length_take, List.length_drop]
    omega
  have hdigits := groups_append (hgroup 0 8 (by decide)) (hgroup 8 4 (by decide))
    (hgroup 12 4 (by decide)) (hgroup 16 4 (by decide)) (ds.drop 20) (Eq.refl (hyphenate ds))
  rw [take_drop_append ds rfl, take_drop_append ds rfl, take_drop_append ds rfl,
    take_drop_append ds rfl, List.drop_zero] at hdigits
  rw [ofHyphenated?]
  simp only [hdigits, if_true]

/-- The digits of an identifier are its number. -/
theorem ofHex?_paddedHex (u : Uuid) : ofHex? (paddedHex 32 u.value) = some u := by
  obtain ⟨values, hvalues, hlength, hvalue⟩ := mapM_hexValue?_paddedHex 32 u.value
  have hroom : u.value % 16 ^ 32 = u.value :=
    Nat.mod_eq_of_lt (Nat.lt_of_lt_of_eq u.value_lt (by decide))
  rw [hroom] at hvalue
  rw [ofHex?, hvalues]
  simp [hlength, hvalue, u.value_lt]

/-- An identifier is read back from its text. -/
theorem read_chars (u : Uuid) : Uuid.read u.chars = .ok u := by
  have hlength : (paddedHex 32 u.value).length = 32 := length_paddedHex 32 u.value
  have hbytes : byteCount u.chars = 36 := by
    have hone : ∀ c ∈ u.chars, c.utf8Size = 1 := fun c hc =>
      forall_mem_chars (P := fun c => c.utf8Size = 1) rfl (by decide) hc
    rw [byteCount_eq_length hone, chars, length_hyphenate hlength]
  -- the number of bytes alone tells that these are the five groups
  have hgroups : groups? u.chars = some u.chars := by
    rw [groups?, hbytes]
    rfl
  have hread : ofHyphenated? u.chars = some u := by
    rw [chars, ofHyphenated?_hyphenate hlength, ofHex?_paddedHex]
  rw [Uuid.read, hgroups]
  simp only [readHyphenated, hread]

end Uuid

end CommandBus
