import CommandBus.Bytes.Base64Url
import CommandBus.Text.Blank

/-!
# Base64 for URLs reads back

Bytes are cut into numbers of six bits (`sextets`), and each number is written as one digit.
Both steps can be undone: a digit stands for its number, and the numbers are put together to the
bytes again.

## Key results

- `encode_eq_map_digit`, `lt_of_mem_sextets`: encoding is writing the digits of numbers below 64
- `decodeValues_sextets`: the numbers are put together to the bytes
- `decode_encode`: what was encoded is decoded
- `point_not_mem_encode`, `isBlank_of_mem_encode`: what is not among the digits
-/

namespace CommandBus.Bytes.Base64Url

/-- The numbers of six bits that bytes are cut into. -/
def sextets : List UInt8 → List Nat
  | [] => []
  | [a] => [a.toNat / 4, a.toNat % 4 * 16]
  | [a, b] => [a.toNat / 4, a.toNat % 4 * 16 + b.toNat / 16, b.toNat % 16 * 4]
  | a :: b :: c :: rest =>
    a.toNat / 4 :: (a.toNat % 4 * 16 + b.toNat / 16) :: (b.toNat % 16 * 4 + c.toNat / 64) ::
      c.toNat % 64 :: sextets rest

/-- Encoding is writing the digits of the numbers. -/
theorem encode_eq_map_digit (bytes : List UInt8) : encode bytes = (sextets bytes).map digit := by
  fun_induction sextets bytes with
  | case1 => rfl
  | case2 a => rfl
  | case3 a b => rfl
  | case4 a b c rest ih => rw [encode, ih]; rfl

/-- The numbers have six bits. -/
theorem lt_of_mem_sextets {bytes : List UInt8} {n : Nat} (h : n ∈ sextets bytes) : n < 64 := by
  -- each sextet is a remainder by 64 or a quotient of a byte, put together of two bytes at most
  fun_induction sextets bytes with
  | case1 => exact nomatch h
  | case2 a =>
    have ha := a.toNat_lt
    simp only [List.mem_cons, List.not_mem_nil, or_false] at h
    omega
  | case3 a b =>
    have ha := a.toNat_lt
    have hb := b.toNat_lt
    simp only [List.mem_cons, List.not_mem_nil, or_false] at h
    omega
  | case4 a b c rest ih =>
    have ha := a.toNat_lt
    have hb := b.toNat_lt
    have hc := c.toNat_lt
    simp only [List.mem_cons] at h
    obtain h | h | h | h | h := h
    · omega
    · omega
    · omega
    · omega
    · exact ih h

/-- The numbers are put together to the bytes that were cut. -/
theorem decodeValues_sextets (bytes : List UInt8) :
    decodeValues (sextets bytes) = some bytes := by
  -- three bytes are four sextets; one or two bytes at the end are two or three of them
  fun_induction sextets bytes with
  | case1 => rfl
  | case2 a =>
    have ha := a.toNat_lt
    have hfirst : a.toNat / 4 * 4 + a.toNat % 4 * 16 / 16 = a.toNat := by omega
    rw [decodeValues, if_pos (by omega), hfirst, UInt8.ofNat_toNat]
  | case3 a b =>
    have ha := a.toNat_lt
    have hb := b.toNat_lt
    -- each byte is put together of the parts that it was cut into
    have hfirst : a.toNat / 4 * 4 + (a.toNat % 4 * 16 + b.toNat / 16) / 16 = a.toNat := by omega
    have hsecond : (a.toNat % 4 * 16 + b.toNat / 16) % 16 * 16 + b.toNat % 16 * 4 / 4 =
        b.toNat := by omega
    rw [decodeValues, if_pos (by omega), hfirst, hsecond, UInt8.ofNat_toNat, UInt8.ofNat_toNat]
  | case4 a b c rest ih =>
    have ha := a.toNat_lt
    have hb := b.toNat_lt
    have hc := c.toNat_lt
    have hfirst : a.toNat / 4 * 4 + (a.toNat % 4 * 16 + b.toNat / 16) / 16 = a.toNat := by omega
    have hsecond : (a.toNat % 4 * 16 + b.toNat / 16) % 16 * 16 +
        (b.toNat % 16 * 4 + c.toNat / 64) / 4 = b.toNat := by omega
    have hthird : (b.toNat % 16 * 4 + c.toNat / 64) % 4 * 64 + c.toNat % 64 = c.toNat := by omega
    rw [decodeValues, ih, hfirst, hsecond, hthird]
    simp only [Option.map_some, UInt8.ofNat_toNat]

/-- A digit stands for its number. -/
theorem value?_digit {n : Nat} (hn : n < 64) : value? (digit n) = some n := by
  have hall : ∀ m < 64, value? (digit m) = some m := by decide
  exact hall n hn

/-- The digits of numbers of six bits stand for the numbers. -/
private theorem mapM_value?_map_digit {ns : List Nat} (h : ∀ n ∈ ns, n < 64) :
    (ns.map digit).mapM value? = some ns := by
  induction ns with
  | nil => rfl
  | cons n ns ih =>
    rw [List.forall_mem_cons] at h
    rw [List.map_cons, List.mapM_cons, value?_digit h.1, ih h.2]
    rfl

/-- What was encoded is decoded. -/
theorem decode_encode (bytes : List UInt8) : decode (encode bytes) = some bytes := by
  have hlt : ∀ n ∈ sextets bytes, n < 64 := fun n hn => lt_of_mem_sextets hn
  have hvalues := mapM_value?_map_digit hlt
  rw [decode, encode_eq_map_digit, hvalues, Option.bind_some, decodeValues_sextets]

/-! ## What is not among the digits -/

/-- What holds of all digits holds of all characters that bytes are encoded as. -/
private theorem forall_mem_encode {P : Char → Prop} (h : ∀ n < 64, P (digit n))
    {bytes : List UInt8} {c : Char} (hc : c ∈ encode bytes) : P c := by
  rw [encode_eq_map_digit] at hc
  obtain ⟨n, hn, rfl⟩ := List.mem_map.1 hc
  exact h n (lt_of_mem_sextets hn)

theorem point_not_mem_encode (bytes : List UInt8) : '.' ∉ encode bytes := by
  intro h
  have hall : ∀ n < 64, digit n ≠ '.' := by decide
  exact forall_mem_encode (P := fun c => c ≠ '.') hall h rfl

theorem isBlank_of_mem_encode {bytes : List UInt8} {c : Char} (h : c ∈ encode bytes) :
    Text.isBlank c = false := by
  have hall : ∀ n < 64, Text.isBlank (digit n) = false := by decide
  exact forall_mem_encode (P := fun c => Text.isBlank c = false) hall h

end CommandBus.Bytes.Base64Url
