import CommandBus.Proofs.Conversion.Narrowing

/-!
# Dates and epoch milliseconds

Outside a leap second an instant is told by the nanoseconds that have passed since the epoch, a
negative number before it.  As a long integer a date is the whole milliseconds among them, rounded
down, and a long integer is the date at its millisecond if the calendar goes that far.

## Key results

- `Instant.toMillis_eq`: the milliseconds of an instant, rounded down on both sides of the epoch
- `Instant.ofMillis?_eq_some_iff`: the instant at a millisecond
- `Service.datesByMillis_standard`: what becomes of dates and long integers on the way to each
  other and back
-/

namespace CommandBus

open Number

namespace Instant

/-! ## Milliseconds of an instant -/

/-- An instant outside a leap second. -/
def Ordinary (t : Instant) : Prop := t.nanos < 1000000000

/-- The nanoseconds from the epoch to an instant, leap seconds not counted. -/
def elapsed (t : Instant) : ℤ := t.seconds * 1000000000 + t.nanos

/-- Outside leap seconds no two instants are as far from the epoch. -/
theorem Ordinary.eq_of_elapsed {s t : Instant} (hs : s.Ordinary) (ht : t.Ordinary)
    (h : s.elapsed = t.elapsed) : s = t := by
  unfold Ordinary at hs ht
  unfold elapsed at h
  have hseconds : s.seconds = t.seconds := by omega
  have hnanos : s.nanos = t.nanos := by omega
  cases s
  cases t
  simp_all

/-- Milliseconds are rounded down, before the epoch too. -/
theorem toMillis_eq (t : Instant) : t.toMillis = t.elapsed / 1000000 := by
  unfold toMillis elapsed
  omega

/-- A later instant has no fewer milliseconds. -/
theorem toMillis_mono {s t : Instant} (h : s.elapsed ≤ t.elapsed) : s.toMillis ≤ t.toMillis := by
  rw [toMillis_eq, toMillis_eq]
  omega

/-- The milliseconds of an instant are long integers. -/
theorem holds_toMillis (t : Instant) : Conversion.IntegerType.long.Holds t.toMillis := by
  have hlow := t.seconds_ge
  have hhigh := t.seconds_le
  have hnanos := t.nanos_lt
  simp only [Conversion.IntegerType.Holds, Conversion.IntegerType.bits, toMillis]
  omega

/-- The instant at a millisecond is outside a leap second, and a whole number of milliseconds away
    from the epoch. -/
theorem ofMillis?_eq_some_iff {n : ℤ} {t : Instant} :
    ofMillis? n = some t ↔ t.Ordinary ∧ t.elapsed = n * 1000000 := by
  rw [ofMillis?, ofParts?_eq_some_iff, Ordinary, elapsed]
  omega

/-- There is an instant at every millisecond of the years that instants have. -/
theorem exists_ofMillis?_iff {n : ℤ} :
    (∃ t, ofMillis? n = some t) ↔ minSeconds * 1000 ≤ n ∧ n < (maxSeconds + 1) * 1000 := by
  unfold minSeconds maxSeconds
  constructor
  · intro ⟨t, ht⟩
    have hlow := t.seconds_ge
    have hhigh := t.seconds_le
    have hparts := ofParts?_eq_some_iff.mp ht
    omega
  · intro ⟨hlow, hhigh⟩
    have hnanos : (n % 1000).toNat * 1000000 < 1000000000 := by omega
    refine ⟨⟨n / 1000, (n % 1000).toNat * 1000000, by omega, by omega, by omega, by omega⟩, ?_⟩
    exact ofParts?_eq_some_iff.mpr ⟨rfl, rfl⟩

end Instant

namespace Conversion.Service

/-! ## Dates and long integers -/

/-- A date becomes the long integer of its milliseconds. -/
theorem convert_date_long (t : Instant) :
    ∃ n : Int64, standard.convert (.date t) .long = .ok (.long n) ∧ n.toInt = t.toMillis := by
  have hholds := t.holds_toMillis
  have hother : (Value.date t).kind ≠ .long := by simp [Value.kind]
  have hconvert : standard.convert (.date t) .long = toLong (.date t) :=
    convert_of_converter rfl rfl hother rfl
  have hlong : toLong (.date t) = .ok (.long (Int64.ofInt t.toMillis)) :=
    narrow_eq_ok_iff.mpr ⟨t.toMillis, rfl, IntegerType.range_holds_iff.mpr hholds, rfl⟩
  exact ⟨Int64.ofInt t.toMillis, hconvert.trans hlong, IntegerType.wrap_means hholds⟩

/-- A long integer becomes the date at its millisecond, if there is one. -/
theorem convert_long_date_eq_ok_iff {n : Int64} {d : Value} :
    standard.convert (.long n) .date = .ok d ↔
      ∃ t, Instant.ofMillis? n.toInt = some t ∧ d = .date t := by
  have hother : (Value.long n).kind ≠ .date := by simp [Value.kind]
  have hconvert : standard.convert (.long n) .date = toDate (.long n) :=
    convert_of_converter rfl rfl hother rfl
  rw [hconvert, toDate]
  cases Instant.ofMillis? n.toInt with
  | none => simp
  | some t => simp [eq_comm]

/-- How a service brings dates to long integers and long integers to dates. -/
structure DatesByMillis (s : Service) : Prop where
  /-- The long integers that become dates are the milliseconds of the years that dates have. -/
  converts : ∀ n : Int64, (∃ d, s.convert (.long n) .date = .ok d) ↔
    Instant.minSeconds * 1000 ≤ n.toInt ∧ n.toInt < (Instant.maxSeconds + 1) * 1000
  /-- A long integer that became a date comes back. -/
  returns : ∀ (n : Int64) (d : Value), s.convert (.long n) .date = .ok d →
    s.convert d .long = .ok (.long n)
  /-- A date outside a leap second comes back without what it has beyond whole milliseconds, and
      that is never a later date. -/
  truncates : ∀ t : Instant, t.Ordinary → ∃ (n : Int64) (r : Instant),
    s.convert (.date t) .long = .ok (.long n) ∧ s.convert (.long n) .date = .ok (.date r) ∧
      r.Ordinary ∧ r.elapsed = t.elapsed - t.elapsed % 1000000
  /-- A later date does not become a smaller long integer. -/
  monotone : ∀ t u : Instant, t.Ordinary → u.Ordinary → t.elapsed ≤ u.elapsed →
    ∃ m n : Int64, s.convert (.date t) .long = .ok (.long m) ∧
      s.convert (.date u) .long = .ok (.long n) ∧ m.toInt ≤ n.toInt

/-- The built-in service brings dates to epoch milliseconds and back, rounding down. -/
theorem datesByMillis_standard : standard.DatesByMillis where
  converts n := by
    rw [← Instant.exists_ofMillis?_iff]
    simp only [convert_long_date_eq_ok_iff]
    constructor
    · intro ⟨d, t, ht, _⟩
      exact ⟨t, ht⟩
    · intro ⟨t, ht⟩
      exact ⟨.date t, t, ht, rfl⟩
  returns n d h := by
    obtain ⟨t, ht, rfl⟩ := convert_long_date_eq_ok_iff.mp h
    obtain ⟨m, hm, hmillis⟩ := convert_date_long t
    have helapsed := (Instant.ofMillis?_eq_some_iff.mp ht).2
    -- a date that was made of milliseconds has no smaller parts to lose
    have hsame : m.toInt = n.toInt := by
      rw [hmillis, Instant.toMillis_eq, helapsed]
      omega
    rw [hm, Int64.toInt_inj.mp hsame]
  truncates t ht := by
    obtain ⟨n, hn, hmillis⟩ := convert_date_long t
    -- the milliseconds of a date are in the years that dates have
    have hrange : Instant.minSeconds * 1000 ≤ n.toInt ∧
        n.toInt < (Instant.maxSeconds + 1) * 1000 := by
      have hlow := t.seconds_ge
      have hhigh := t.seconds_le
      unfold Instant.Ordinary at ht
      rw [hmillis, Instant.toMillis]
      unfold Instant.minSeconds Instant.maxSeconds
      omega
    obtain ⟨r, hr⟩ := Instant.exists_ofMillis?_iff.mpr hrange
    have ⟨hordinary, helapsed⟩ := Instant.ofMillis?_eq_some_iff.mp hr
    refine ⟨n, r, hn, convert_long_date_eq_ok_iff.mpr ⟨r, hr, rfl⟩, hordinary, ?_⟩
    rw [helapsed, hmillis, Instant.toMillis_eq]
    omega
  monotone t u _ _ h := by
    obtain ⟨m, hm, htmillis⟩ := convert_date_long t
    obtain ⟨n, hn, humillis⟩ := convert_date_long u
    refine ⟨m, n, hm, hn, ?_⟩
    rw [htmillis, humillis]
    exact Instant.toMillis_mono h

/-- One nanosecond before the epoch is one millisecond before it, which is the date that comes
    back. -/
theorem datesByMillis_before_epoch :
    let last : Instant := ⟨-1, 999999999, by decide, by decide, by decide, by decide⟩
    last.Ordinary ∧ standard.convert (.date last) .long = .ok (.long (-1)) ∧
      standard.convert (.long (-1)) .date =
        .ok (.date ⟨-1, 999000000, by decide, by decide, by decide, by decide⟩) := by
  intro last
  have hlast : last.Ordinary := by unfold Instant.Ordinary; decide
  obtain ⟨n, r, hn, hr, hordinary, helapsed⟩ := datesByMillis_standard.truncates last hlast
  obtain ⟨m, hm, hmillis⟩ := convert_date_long last
  obtain rfl : m = -1 := Int64.toInt_inj.mp (hmillis.trans (by decide))
  obtain rfl : n = -1 := by simpa using hn.symm.trans hm
  have hsame : r = ⟨-1, 999000000, by decide, by decide, by decide, by decide⟩ :=
    hordinary.eq_of_elapsed (by unfold Instant.Ordinary; decide) helapsed
  exact ⟨hlast, hn, hsame ▸ hr⟩

end Conversion.Service

end CommandBus
