import CommandBus.Proofs.Conversion.Elementwise

/-!
# Where conversions land

A converter lands in a kind if all its results are of that kind.  Every built-in converter lands
in the kind that it is registered for, so that a converted scalar satisfies its type; and as
containers are converted part by part, so does every other converted value that is not null.  A
converted value is then given back by any further conversion to the type, and the values that a
conversion gives back are those that satisfy the type, and null.

## Key results

- `lands_builtin`: the results of the built-in converters are of the wanted kind
- `convert_eq_ok_cases`: the ways in which a conversion succeeds
- `fits_of_convert`: a converted value is null where the value was, and otherwise satisfies the
  type
- `convert_standard_fixes`: what a conversion gives, and when it gives back the value itself
-/

namespace CommandBus.Conversion

/-- All results of a converter are of one kind. -/
def Lands (k : Kind) (c : Converter) : Prop := ∀ v r, c v = .ok r → r.kind = k

/-! ## The built-in converters -/

/-- What is given back as it stands is of the kind that it stands in. -/
private theorem kind_of_ok {k : Kind} {v r : Value} (hv : v.kind = k)
    (h : (Except.ok v : Except ConversionError Value) = .ok r) : r.kind = k :=
  Except.ok.inj h ▸ hv

/-- An integer type is landed in, whatever its range. -/
theorem lands_narrow (range : Number.IntegerRange) (t : ValueType) {wrap : Int → Value} {k : Kind}
    (h : ∀ n, (wrap n).kind = k) : Lands k (narrow range t wrap) := by
  intro v r hr
  unfold narrow at hr
  split at hr
  · exact nomatch hr
  · next n _ =>
    split at hr
    · exact kind_of_ok (h n) hr
    · exact nomatch hr

theorem lands_toDouble : Lands .double toDouble := by
  intro v r hr
  unfold toDouble at hr
  split at hr
  -- three integers and a decimal
  · exact kind_of_ok rfl hr
  · exact kind_of_ok rfl hr
  · exact kind_of_ok rfl hr
  · exact kind_of_ok rfl hr
  -- a text, which may be no number
  · split at hr
    · exact kind_of_ok rfl hr
    · exact nomatch hr
  · exact nomatch hr

theorem lands_toDecimal : Lands .decimal toDecimal := by
  intro v r hr
  unfold toDecimal at hr
  split at hr
  -- three integers
  · exact kind_of_ok rfl hr
  · exact kind_of_ok rfl hr
  · exact kind_of_ok rfl hr
  -- a double and a text, which may have no decimal
  · split at hr
    · exact kind_of_ok rfl hr
    · exact nomatch hr
  · split at hr
    · exact kind_of_ok rfl hr
    · exact nomatch hr
  · exact nomatch hr

theorem lands_toText : Lands .string toText := by
  intro v r hr
  unfold toText at hr
  split at hr
  -- every scalar has a text, the tenth alternative is whatever has none
  on_goal 10 => exact nomatch hr
  all_goals exact kind_of_ok rfl hr

theorem lands_toBool : Lands .bool toBool := by
  intro v r hr
  unfold toBool at hr
  split at hr
  · exact kind_of_ok rfl hr
  · exact nomatch hr

theorem lands_toUuid : Lands .uuid toUuid := by
  intro v r hr
  unfold toUuid at hr
  split at hr
  · split at hr
    · exact kind_of_ok rfl hr
    · exact nomatch hr
  · exact nomatch hr

theorem lands_toDate : Lands .date toDate := by
  intro v r hr
  unfold toDate at hr
  split at hr
  · split at hr
    · exact kind_of_ok rfl hr
    · exact nomatch hr
  · exact nomatch hr

theorem lands_toLong : Lands .long toLong := lands_narrow .long .long fun _ => rfl

/-- The converter into a kind of number lands there. -/
theorem lands_numberConverter? {target : Kind} {c : Converter}
    (h : Table.numberConverter? target = some c) : Lands target c := by
  cases target with
  | short => obtain rfl := Option.some.inj h; exact lands_narrow .short .short fun _ => rfl
  | int => obtain rfl := Option.some.inj h; exact lands_narrow .int .int fun _ => rfl
  | long => obtain rfl := Option.some.inj h; exact lands_toLong
  | double => obtain rfl := Option.some.inj h; exact lands_toDouble
  | decimal => obtain rfl := Option.some.inj h; exact lands_toDecimal
  | _ => exact nomatch h

/-- Every built-in converter lands in the kind that it is registered for. -/
theorem lands_builtin {source target : Kind} {c : Converter}
    (h : Table.builtin source target = some c) : Lands target c := by
  unfold Table.builtin at h
  split at h
  · exact nomatch h
  · split at h
    · obtain rfl := Option.some.inj h; exact lands_toBool
    · obtain rfl := Option.some.inj h; exact lands_toUuid
    · obtain rfl := Option.some.inj h; exact lands_toLong
    · obtain rfl := Option.some.inj h; exact lands_toDate
    -- into a text, and from numbers and texts into numbers
    · split at h
      · obtain rfl := Option.some.inj h; exact lands_toText
      · exact nomatch h
    · split at h
      · exact lands_numberConverter? h
      · exact nomatch h

/-! ## Converted values -/

namespace Service

/-- A service whose converters land where they are registered, with the elementwise mapper. -/
structure Landing (s : Service) : Prop where
  mapper : s.mapper = .elementwise
  lands : ∀ {source target c}, s.table source target = some c → Lands target c

theorem landing_standard : standard.Landing := ⟨rfl, lands_builtin⟩

/-- A value of the kind of a scalar type satisfies it. -/
theorem satisfies_of_kind {r : Value} {t : ValueType} {k : Kind} (ht : t.scalarKind? = some k)
    (hr : r.kind = k) : r.satisfies t = true := by
  rw [Value.satisfies_scalar ht, hr, beq_self_eq_true]

/-- No scalar type is satisfied by null. -/
theorem isNull_of_kind {r : Value} {t : ValueType} {k : Kind} (ht : t.scalarKind? = some k)
    (hr : r.kind = k) : r.isNull = false := by
  cases r with
  | null =>
    obtain rfl : Kind.null = k := hr
    cases t <;> exact nomatch ht
  | _ => rfl

/-- A result that comes about without a look at the parts of the value. -/
inductive Direct (s : Service) (v : Value) (t : ValueType) : Value → Prop where
  /-- The value is given back. -/
  | given (h : v.isNull = true ∨ v.satisfies t = true) : Direct s v t v
  /-- A converter of the table gives the result. -/
  | converted {k : Kind} {c : Converter} {r : Value} (hv : v.isNull = false)
    (ht : t.scalarKind? = some k) (hc : s.table v.kind k = some c) (hr : c v = .ok r) :
    Direct s v t r

/-- The ways in which a conversion succeeds: without a look at the parts, or as the conversion of
    a list into a list or of a map into a map. -/
theorem convert_eq_ok_cases {s : Service} (hs : s.mapper = .elementwise) {v r : Value}
    {t : ValueType} (h : s.convert v t = .ok r) :
    s.Direct v t r ∨ (∃ xs element, v = .list xs ∧ t = .list element) ∨
      ∃ es element, v = .map es ∧ t = .map element := by
  by_cases hready : v.isNull = true ∨ v.satisfies t = true
  · rw [s.convert_of_ready hready] at h
    obtain rfl := Except.ok.inj h
    exact .inl (.given hready)
  · have hnull : v.isNull = false := by simpa using fun hv => hready (.inl hv)
    unfold convert at h
    rw [if_neg (by simpa using hready)] at h
    split at h
    -- the table has a say
    · next result hresult =>
      unfold byTable at hresult
      split at hresult
      · cases hresult
      · next k hk =>
        split at hresult
        · next c hc =>
          obtain rfl := Option.some.inj hresult
          exact .inl (.converted hnull hk hc h)
        · split at hresult
          · obtain rfl := Option.some.inj hresult
            cases h
          · cases hresult
    -- the mapper is asked
    · rw [hs] at h
      dsimp only at h
      split at h
      · exact .inr (.inl ⟨_, _, rfl, rfl⟩)
      · exact .inr (.inr ⟨_, _, rfl, rfl⟩)
      · cases h

/-- A value that a conversion of another one may give: null for null, and otherwise something
    that satisfies the type. -/
def Fits (v : Value) (t : ValueType) (r : Value) : Prop :=
  r.isNull = v.isNull ∧ (r.isNull = true ∨ r.satisfies t = true)

theorem fits_of_direct {s : Service} (hs : s.Landing) {v r : Value} {t : ValueType}
    (h : s.Direct v t r) : Fits v t r := by
  cases h with
  | given hready => exact ⟨rfl, hready⟩
  | converted hv ht hc hr =>
    have hkind := hs.lands hc v r hr
    exact ⟨(isNull_of_kind ht hkind).trans hv.symm, .inr (satisfies_of_kind ht hkind)⟩

/-- In related lists every member on the right has a partner on the left. -/
private theorem exists_mem_of_forall₂ {α β : Type} {R : α → β → Prop} {xs : List α}
    {ys : List β} (h : List.Forall₂ R xs ys) {y : β} (hy : y ∈ ys) : ∃ x ∈ xs, R x y := by
  induction h with
  | nil => exact nomatch hy
  | cons hxy _ ih =>
    rcases List.mem_cons.1 hy with rfl | hrest
    · exact ⟨_, List.mem_cons_self, hxy⟩
    · obtain ⟨x, hx, hxy⟩ := ih hrest
      exact ⟨x, List.mem_cons_of_mem _ hx, hxy⟩

/-- A converted value fits: it is null exactly where the value was, and otherwise satisfies the
    type. -/
theorem fits_of_convert {s : Service} (hs : s.Landing) {v r : Value} {t : ValueType}
    (h : s.convert v t = .ok r) : Fits v t r := by
  induction v using Value.nested_induction generalizing t r with
  | scalar v hlist hmap =>
    obtain hdirect | ⟨xs, _, hv, -⟩ | ⟨es, _, hv, -⟩ := convert_eq_ok_cases hs.mapper h
    · exact fits_of_direct hs hdirect
    · exact absurd hv (hlist xs)
    · exact absurd hv (hmap es)
  | list xs ih =>
    obtain hdirect | ⟨_, element, -, rfl⟩ | ⟨_, _, hv, -⟩ := convert_eq_ok_cases hs.mapper h
    · exact fits_of_direct hs hdirect
    · obtain ⟨ys, rfl, hys⟩ := (convert_list_eq_ok_iff hs.mapper).1 h
      refine ⟨rfl, .inr ?_⟩
      rw [Value.satisfies_list, List.all_eq_true]
      intro y hy
      -- the result is that of some item, and fits it
      obtain ⟨x, hx, hxy⟩ := exists_mem_of_forall₂ hys hy
      simpa using (ih x hx hxy).2
    · exact nomatch hv
  | map es ih =>
    obtain hdirect | ⟨_, _, hv, -⟩ | ⟨_, element, -, rfl⟩ := convert_eq_ok_cases hs.mapper h
    · exact fits_of_direct hs hdirect
    · exact nomatch hv
    · obtain ⟨rs, rfl, hrs⟩ := (convert_map_eq_ok_iff hs.mapper).1 h
      refine ⟨rfl, .inr ?_⟩
      rw [Value.satisfies_map, List.all_eq_true]
      intro r hr
      obtain ⟨e, he, -, her⟩ := exists_mem_of_forall₂ hrs hr
      simpa using (ih e he her).2

/-- What a conversion of the built-in service gives: null for null and otherwise a value that
    satisfies the type, which any further conversion to the type gives back.  The value itself
    comes back exactly if it is null or satisfies the type. -/
theorem convert_standard_fixes (v : Value) (t : ValueType) :
    (∀ r, standard.convert v t = .ok r →
      (r = .null ↔ v = .null) ∧ (v ≠ .null → r.satisfies t = true) ∧
        standard.convert r t = .ok r) ∧
    (standard.convert v t = .ok v ↔ v = .null ∨ v.satisfies t = true) := by
  -- both halves of the statement are read off what a result fits
  have hfits : ∀ r, standard.convert v t = .ok r → Fits v t r := fun r hr =>
    fits_of_convert landing_standard hr
  refine ⟨fun r hr => ?_, fun hv => ?_, fun hv => ?_⟩
  · obtain ⟨hnull, hready⟩ := hfits r hr
    have hiff : r = .null ↔ v = .null := by
      rw [← Value.isNull_iff, ← Value.isNull_iff, hnull]
    refine ⟨hiff, fun hv => hready.resolve_left fun h => ?_, standard.convert_of_ready hready⟩
    exact hv (hiff.1 (Value.isNull_iff.1 h))
  · rw [← Value.isNull_iff]
    exact (hfits v hv).2
  · rw [← Value.isNull_iff] at hv
    exact standard.convert_of_ready hv

end Service

end CommandBus.Conversion
