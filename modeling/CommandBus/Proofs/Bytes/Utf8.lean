import CommandBus.Bytes.Utf8
import Mathlib.Data.List.Basic

/-!
# The bytes of a text

A text is written as the bytes of its characters, one character after the other.  A character of
ASCII is its own byte, and no byte of any other character is a byte of ASCII, so that line feeds
can be looked for in the bytes.

The bytes keep the order: texts compare by code points as their bytes do.

## Key results

- `ofText_eq_flatMap`: the bytes of a text are those of its characters
- `le_of_mem_utf8EncodeChar`: the bytes of a character beyond ASCII are beyond ASCII
- `ofText_lt_ofText_iff`: the order of texts is the order of their bytes
-/

namespace CommandBus.Bytes

open String (utf8EncodeChar)

/-- The bytes of a text are those of its characters. -/
theorem ofText_eq_flatMap (s : String) : ofText s = s.toList.flatMap utf8EncodeChar := by
  have hbytes : s.toByteArray = (s.toList.flatMap utf8EncodeChar).toByteArray := by
    rw [← String.utf8Encode_toList, List.utf8Encode]
  rw [ofText, String.toUTF8, hbytes, List.data_toByteArray]

/-! ## One character -/

/-- A code point is written with one to four bytes, six bits of it in each but the first. -/
private theorem utf8EncodeChar_cases (c : Char) :
    (c.val.toNat < 128 ∧ utf8EncodeChar c = [.ofNat c.val.toNat]) ∨
    (128 ≤ c.val.toNat ∧ c.val.toNat < 2048 ∧ utf8EncodeChar c =
      [.ofNat (c.val.toNat / 64 % 32 + 192), .ofNat (c.val.toNat % 64 + 128)]) ∨
    (2048 ≤ c.val.toNat ∧ c.val.toNat < 65536 ∧ utf8EncodeChar c =
      [.ofNat (c.val.toNat / 4096 % 16 + 224), .ofNat (c.val.toNat / 64 % 64 + 128),
        .ofNat (c.val.toNat % 64 + 128)]) ∨
    (65536 ≤ c.val.toNat ∧ c.val.toNat < 1114112 ∧ utf8EncodeChar c =
      [.ofNat (c.val.toNat / 262144 % 8 + 240), .ofNat (c.val.toNat / 4096 % 64 + 128),
        .ofNat (c.val.toNat / 64 % 64 + 128), .ofNat (c.val.toNat % 64 + 128)]) := by
  -- one byte up to 127, two up to 2047, three up to 65535, and four for the rest
  by_cases h₁ : c.val.toNat ≤ 127
  · exact .inl ⟨Nat.lt_succ_of_le h₁, by simp only [utf8EncodeChar, if_pos h₁]⟩
  by_cases h₂ : c.val.toNat ≤ 2047
  · refine .inr (.inl ⟨Nat.lt_of_not_le h₁, Nat.lt_succ_of_le h₂, ?_⟩)
    simp only [utf8EncodeChar, if_neg h₁, if_pos h₂]
  by_cases h₃ : c.val.toNat ≤ 65535
  · refine .inr (.inr (.inl ⟨Nat.lt_of_not_le h₂, Nat.lt_succ_of_le h₃, ?_⟩))
    simp only [utf8EncodeChar, if_neg h₁, if_neg h₂, if_pos h₃]
  · have hlt : c.val.toNat < 1114112 := by
      -- a character is no surrogate, and below the end of the code points
      rcases c.valid with h | ⟨-, h⟩
      · exact Nat.lt_trans h (by decide)
      · exact h
    refine .inr (.inr (.inr ⟨Nat.lt_of_not_le h₃, hlt, ?_⟩))
    simp only [utf8EncodeChar, if_neg h₁, if_neg h₂, if_neg h₃]

/-- A character of ASCII is its own byte. -/
theorem utf8EncodeChar_of_ascii {c : Char} (h : c.val.toNat < 128) :
    utf8EncodeChar c = [.ofNat c.val.toNat] := by
  obtain ⟨-, hc⟩ | ⟨hge, -⟩ | ⟨hge, -⟩ | ⟨hge, -⟩ := utf8EncodeChar_cases c
  · exact hc
  all_goals omega

/-- No byte of a character beyond ASCII is a byte of ASCII. -/
theorem le_of_mem_utf8EncodeChar {c : Char} (h : 128 ≤ c.val.toNat) {b : UInt8}
    (hb : b ∈ utf8EncodeChar c) : 128 ≤ b.toNat := by
  obtain ⟨hlt, -⟩ | ⟨-, -, hc⟩ | ⟨-, -, hc⟩ | ⟨-, -, hc⟩ := utf8EncodeChar_cases c
  · omega
  all_goals
    rw [hc] at hb
    simp only [List.mem_cons, List.not_mem_nil, or_false] at hb
  -- every byte has its highest bit set
  · rcases hb with rfl | rfl <;> rw [UInt8.toNat_ofNat'] <;> omega
  · rcases hb with rfl | rfl | rfl <;> rw [UInt8.toNat_ofNat'] <;> omega
  · rcases hb with rfl | rfl | rfl | rfl <;> rw [UInt8.toNat_ofNat'] <;> omega

/-- Of two code points in four bytes, the first byte that differs tells which is smaller. -/
private theorem fourBytes_lt {m n : Nat} (h : m < n) (hn : n < 1114112) :
    m / 262144 % 8 < n / 262144 % 8 ∨ m / 262144 % 8 = n / 262144 % 8 ∧
      (m / 4096 % 64 < n / 4096 % 64 ∨ m / 4096 % 64 = n / 4096 % 64 ∧
        (m / 64 % 64 < n / 64 % 64 ∨ m / 64 % 64 = n / 64 % 64 ∧ m % 64 < n % 64)) := by
  -- the first place at which the two numbers differ decides
  by_cases h₃ : m / 262144 = n / 262144
  · by_cases h₂ : m / 4096 = n / 4096
    · by_cases h₁ : m / 64 = n / 64
      · omega
      · omega
    · omega
  · have hlt : m / 262144 < n / 262144 := by omega
    have hsmall : n / 262144 < 8 := by omega
    rw [Nat.mod_eq_of_lt hsmall, Nat.mod_eq_of_lt (Nat.lt_trans hlt hsmall)]
    exact .inl hlt

/-- A character that comes before another one has bytes that come before the other's, whatever
    follows them. -/
theorem utf8EncodeChar_append_lt {c d : Char} (h : c.val.toNat < d.val.toNat)
    (xs ys : List UInt8) : utf8EncodeChar c ++ xs < utf8EncodeChar d ++ ys := by
  -- nothing is cut off a byte when it is put together
  have hbyte : ∀ n : Nat, (n % 64 + 128) % 256 = n % 64 + 128 ∧
      (n % 32 + 192) % 256 = n % 32 + 192 ∧ (n % 16 + 224) % 256 = n % 16 + 224 ∧
      (n % 8 + 240) % 256 = n % 8 + 240 := by
    intro n
    omega
  obtain ⟨hc, hcs⟩ | ⟨hc, hc', hcs⟩ | ⟨hc, hc', hcs⟩ | ⟨hc, -, hcs⟩ := utf8EncodeChar_cases c <;>
    obtain ⟨hd, hds⟩ | ⟨hd, hd', hds⟩ | ⟨hd, hd', hds⟩ | ⟨hd, hd', hds⟩ :=
      utf8EncodeChar_cases d <;>
    simp only [hcs, hds, List.cons_append, List.nil_append, List.cons_lt_cons_iff,
      UInt8.lt_iff_toNat_lt, ← UInt8.toNat_inj, UInt8.toNat_ofNat', Nat.reducePow, hbyte]
  -- the first byte shows the length, and of four bytes all are looked at
  case inr.inr.inr.inr.inr.inr =>
    have hbytes := fourBytes_lt h hd'
    omega
  all_goals omega

/-! ## The order of texts -/

/-- Lists of characters that are in order have bytes that are. -/
private theorem flatMap_lt_flatMap {cs ds : List Char} (h : cs < ds) :
    cs.flatMap utf8EncodeChar < ds.flatMap utf8EncodeChar := by
  induction cs generalizing ds with
  | nil =>
    cases ds with
    | nil => exact absurd h (List.lt_irrefl [])
    | cons d ds =>
      -- a character has at least one byte
      obtain ⟨b, bs, hb⟩ := List.exists_cons_of_ne_nil (String.utf8EncodeChar_ne_nil (c := d))
      rw [List.flatMap_cons, hb]
      exact List.nil_lt_cons _ _
  | cons c cs ih =>
    cases ds with
    | nil => exact absurd h (List.not_lt_nil _)
    | cons d ds =>
      rw [List.flatMap_cons, List.flatMap_cons]
      rcases List.cons_lt_cons_iff.1 h with hcd | ⟨rfl, hrest⟩
      · exact utf8EncodeChar_append_lt (UInt32.lt_iff_toNat_lt.1 hcd) _ _
      · exact List.append_left_lt (ih hrest)

/-- Texts compare as their bytes do. -/
theorem ofText_lt_ofText_iff (s t : String) : ofText s < ofText t ↔ s < t := by
  rw [ofText_eq_flatMap, ofText_eq_flatMap]
  refine ⟨fun h => ?_, flatMap_lt_flatMap⟩
  by_contra hnot
  -- a text that is not before another one is the same or behind it
  rcases List.le_iff_lt_or_eq.1 (List.not_lt.1 hnot) with hlt | heq
  · exact List.lt_asymm h (flatMap_lt_flatMap hlt)
  · rw [heq] at h
    exact List.lt_irrefl _ h

end CommandBus.Bytes
