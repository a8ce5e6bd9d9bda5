import CommandBus.Proofs.Number.Digits
import CommandBus.Value.Json

/-!
# Documents through values, and values through documents

A document comes back from its value as it was, but for the integers that no signed word holds:
they are decimals as values, and so come back as the strings of their digits (`Json.spelled`).  A
value comes back from its document with the kinds that a document has (`Value.plain`), and nothing
more changes when it goes through a document again.

## Key results

- `Decimal.text_ofUInt64`: a word is written as its digits
- `Json.toJson_ofJson`: what is left of a document
- `Value.ofJson_toJson`: what is left of a value
- `Value.plain_plain`: nothing changes the second time
- `Value.json_predictable`: all of it
-/

namespace CommandBus

open Number

/-! ## Integers beyond the signed words -/

/-- A decimal that was a word is written as the digits of the word. -/
theorem Number.Decimal.text_ofUInt64 (n : UInt64) : (ofUInt64 n).text = natText n.toNat := by
  obtain ⟨first, rest, hdigits, -⟩ := toDigits_cons n.toNat
  -- with one digit or more there is no room to fill, and nothing behind a point
  have hcoefficient : (ofUInt64 n).coefficientDigits = toDigits n.toNat := by
    simp [coefficientDigits, ofUInt64, hdigits]
  have hchars : (ofUInt64 n).chars = toDigits n.toNat := by
    rw [chars, hcoefficient]
    simp [ofUInt64]
  rw [text, hchars, natText]

namespace Json

/-- An integer below the end of the signed words is the word that it is. -/
theorem Integer.toInt64?_eq_some {n : Integer} (h : n.value < 9223372036854775808) :
    ∃ word, n.toInt64? = some word ∧ ofInt64 word = n := by
  refine ⟨Int64.ofInt n.value, if_pos h, ?_⟩
  obtain ⟨value, hlow, hhigh⟩ := n
  simp only [ofInt64, Int64.toInt_ofInt_of_le hlow h]

/-- So is a word that is taken for an integer. -/
theorem Integer.toInt64?_of_value {n : Integer} {word : Int64} (h : n.value = word.toInt) :
    n.toInt64? = some word := by
  have hlt : n.value < 9223372036854775808 := h ▸ word.toInt_lt
  rw [toInt64?, if_pos hlt, h, Int64.ofInt_toInt]

theorem Integer.toNat_toUInt64 (n : Integer) : n.toUInt64.toNat = n.value.toNat := by
  have hlt : n.value.toNat < 18446744073709551616 := by
    have hvalue := n.value_lt
    omega
  exact UInt64.toNat_ofNat_of_lt hlt

mutual

/-- A document with every integer that no signed word holds spelled out, as the string of its
    digits. -/
def spelled : Json → Json
  | .integer n =>
    if 9223372036854775807 < n.value then .string (natText n.value.toNat) else .integer n
  | .array items => .array (spelledItems items)
  | .object members => .object (spelledMembers members)
  | j => j

def spelledItems : List Json → List Json
  | [] => []
  | item :: rest => item.spelled :: spelledItems rest

def spelledMembers : List (String × Json) → List (String × Json)
  | [] => []
  | (name, item) :: rest => (name, item.spelled) :: spelledMembers rest

end

/-! ## Documents through values -/

/-- An integer comes back, as a word or as the string of its digits. -/
theorem toJson_ofJson_integer (n : Integer) :
    (Value.ofJson (.integer n)).toJson = (Json.integer n).spelled := by
  -- the integers that stay as they are end where the signed words end
  by_cases h : n.value < 9223372036854775808
  · obtain ⟨word, hword, hback⟩ := Integer.toInt64?_eq_some h
    rw [Value.ofJson, hword, Value.toJson, hback, spelled, if_neg (by omega)]
  · have hword : n.toInt64? = none := if_neg h
    rw [Value.ofJson, hword, Value.toJson, Decimal.text_ofUInt64, n.toNat_toUInt64, spelled,
      if_pos (by omega)]

mutual

/-- A document with finite numbers comes back with its large integers spelled out. -/
theorem toJson_ofJson : (j : Json) → j.isFinite = true → (Value.ofJson j).toJson = j.spelled
  | .null, _ => rfl
  | .bool _, _ => rfl
  | .integer n, _ => toJson_ofJson_integer n
  | .double _, h => if_pos h
  | .string _, _ => rfl
  | .array items, h => congrArg Json.array (toJsonItems_ofJsonItems items h)
  | .object members, h => congrArg Json.object (toJsonEntries_ofJsonMembers members h)

/-- So do the items of a list. -/
theorem toJsonItems_ofJsonItems : (items : List Json) → allFinite items = true →
    Value.toJsonItems (Value.ofJsonItems items) = spelledItems items
  | [], _ => rfl
  | item :: rest, h => by
    obtain ⟨hitem, hrest⟩ := Bool.and_eq_true_iff.1 h
    rw [Value.ofJsonItems, Value.toJsonItems, toJson_ofJson item hitem,
      toJsonItems_ofJsonItems rest hrest, spelledItems]

/-- And the members of an object, under their names. -/
theorem toJsonEntries_ofJsonMembers : (members : List (String × Json)) →
    allMembersFinite members = true →
    Value.toJsonEntries (Value.ofJsonMembers members) = spelledMembers members
  | [], _ => rfl
  | (name, item) :: rest, h => by
    obtain ⟨hitem, hrest⟩ := Bool.and_eq_true_iff.1 h
    rw [Value.ofJsonMembers, Value.toJsonEntries, toJson_ofJson item hitem,
      toJsonEntries_ofJsonMembers rest hrest, spelledMembers]

end

end Json

/-! ## Values through documents -/

namespace Value

theorem ofJson_integer {n : Json.Integer} {word : Int64} (h : n.value = word.toInt) :
    ofJson (.integer n) = .long word := by
  rw [ofJson, Json.Integer.toInt64?_of_value h]

mutual

/-- A value comes back with the kinds that a document has. -/
theorem ofJson_toJson : (v : Value) → ofJson v.toJson = v.plain
  | .null => rfl
  | .bool _ => rfl
  | .short n => ofJson_integer (n.toInt_toInt64).symm
  | .int n => ofJson_integer (n.toInt_toInt64).symm
  | .long _ => ofJson_integer rfl
  | .double x => by
    -- a double that is not finite is null in a document, and null stays null
    rw [toJson, plain]
    split <;> rfl
  | .decimal _ => rfl
  | .string _ => rfl
  | .date _ => rfl
  | .uuid _ => rfl
  | .list items => congrArg Value.list (ofJsonItems_toJsonItems items)
  | .map entries => congrArg Value.map (ofJsonMembers_toJsonEntries entries)

theorem ofJsonItems_toJsonItems : (items : List Value) →
    ofJsonItems (toJsonItems items) = plainItems items
  | [] => rfl
  | item :: rest => by
    rw [toJsonItems, ofJsonItems, ofJson_toJson item, ofJsonItems_toJsonItems rest, plainItems]

theorem ofJsonMembers_toJsonEntries : (entries : List (String × Value)) →
    ofJsonMembers (toJsonEntries entries) = plainEntries entries
  | [] => rfl
  | (name, item) :: rest => by
    rw [toJsonEntries, ofJsonMembers, ofJson_toJson item, ofJsonMembers_toJsonEntries rest,
      plainEntries]

end

mutual

/-- A value with only the kinds that a document has is left as it is. -/
theorem plain_plain : (v : Value) → v.plain.plain = v.plain
  | .null => rfl
  | .bool _ => rfl
  | .short _ => rfl
  | .int _ => rfl
  | .long _ => rfl
  -- a double that is not finite becomes null, which stays
  | .double x => by
    cases hx : x.isFinite with
    | true => simp [plain, hx]
    | false => simp [plain, hx]
  | .decimal _ => rfl
  | .string _ => rfl
  | .date _ => rfl
  | .uuid _ => rfl
  | .list items => congrArg Value.list (plainItems_plainItems items)
  | .map entries => congrArg Value.map (plainEntries_plainEntries entries)

theorem plainItems_plainItems : (items : List Value) →
    plainItems (plainItems items) = plainItems items
  | [] => rfl
  | item :: rest => by
    rw [plainItems, plainItems, plain_plain item, plainItems_plainItems rest]

theorem plainEntries_plainEntries : (entries : List (String × Value)) →
    plainEntries (plainEntries entries) = plainEntries entries
  | [] => rfl
  | (name, item) :: rest => by
    rw [plainEntries, plainEntries, plain_plain item, plainEntries_plainEntries rest]

end

/-- A document with finite numbers that becomes a value and a document again is itself, with the
    integers that no signed word holds spelled out.  A value that becomes a document and a value
    again has the kinds that a document has, and stays so when it does it once more. -/
theorem json_predictable :
    (∀ j : Json, j.isFinite = true → (ofJson j).toJson = j.spelled) ∧
    ∀ v : Value, ofJson v.toJson = v.plain ∧
      ofJson (ofJson v.toJson).toJson = ofJson v.toJson := by
  refine ⟨Json.toJson_ofJson, fun v => ⟨ofJson_toJson v, ?_⟩⟩
  calc ofJson (ofJson v.toJson).toJson
    _ = (ofJson v.toJson).plain := ofJson_toJson _
    _ = v.plain.plain := by rw [ofJson_toJson v]
    _ = v.plain := plain_plain v
    _ = ofJson v.toJson := (ofJson_toJson v).symm

/-- The least and the greatest integer of a document, and the first one that no signed word
    holds, side by side under a key. -/
theorem json_predictable_extremes :
    let least : Json.Integer := ⟨-9223372036854775808, by decide, by decide⟩
    let beyond : Json.Integer := ⟨9223372036854775808, by decide, by decide⟩
    let greatest : Json.Integer := ⟨18446744073709551615, by decide, by decide⟩
    let j : Json := .object [("n", .array [.integer least, .integer beyond, .integer greatest])]
    j.isFinite = true ∧
      (ofJson j).toJson = .object [("n", .array [.integer least, .string "9223372036854775808",
        .string "18446744073709551615"])] := by
  intro least beyond greatest j
  have hbeyond : natText 9223372036854775808 = "9223372036854775808" := by decide +kernel
  have hgreatest : natText 18446744073709551615 = "18446744073709551615" := by decide +kernel
  refine ⟨rfl, (json_predictable.1 j rfl).trans ?_⟩
  rw [← hbeyond, ← hgreatest]
  rfl

end Value

end CommandBus
