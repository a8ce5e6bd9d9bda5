import CommandBus.Proofs.Token.Verification

/-!
# How long a token holds

A provider has the windows that its settings choose, cut off at the longest one.  It issues a token
as long as the calendar goes so far, and the token holds for so many whole seconds: parts of a
second count neither at the issue nor when the token is looked at.  Settings with a window of no
length make no provider.

## Key results

- `ofSettings_eq_ok_iff`: which settings make a provider, and which one
- `exists_issue?_iff`: when a token is issued
- `lifetime_exact`: from when and until when an issued token holds
-/

namespace CommandBus

/-! ## The end of a window -/

/-- There is an instant so many seconds later if its second is in the calendar. -/
theorem Instant.exists_addSeconds?_iff {t : Instant} {n : Int} (hn : 0 < n) :
    (∃ later, t.addSeconds? n = some later) ↔ t.seconds + n ≤ maxSeconds := by
  have hlow := t.seconds_ge
  have hnanos := t.nanos_lt
  unfold maxSeconds
  constructor
  · intro ⟨later, hlater⟩
    have hseconds := seconds_of_addSeconds? hn hlater
    have hhigh := later.seconds_le
    omega
  · intro hhigh
    unfold addSeconds?
    rw [if_pos hn]
    -- the parts of a second stay, but those of a leap second lose the second that was put in
    by_cases hordinary : t.nanos < 1000000000
    · rw [if_pos hordinary]
      refine ⟨⟨t.seconds + n, t.nanos, by omega, hhigh, hnanos, by omega⟩, ?_⟩
      exact ofParts?_eq_some_iff.mpr ⟨rfl, rfl⟩
    · rw [if_neg hordinary]
      refine ⟨⟨t.seconds + n, t.nanos - 1000000000, by omega, hhigh, by omega, by omega⟩, ?_⟩
      exact ofParts?_eq_some_iff.mpr ⟨rfl, rfl⟩

/-! ## The windows of a provider -/

namespace TokenSettings

/-- The configured window of a login, in seconds. -/
def chosen (settings : TokenSettings) (remember : Bool) : UInt64 :=
  if remember then settings.rememberMe else settings.validity

/-- Settings can be used if neither window is empty. -/
theorem validate_eq_ok_iff {settings : TokenSettings} :
    settings.validate = .ok () ↔ ∀ remember, settings.chosen remember ≠ 0 := by
  rw [Bool.forall_bool]
  unfold validate chosen
  by_cases hvalidity : settings.validity = 0
  · simp [hvalidity]
  · by_cases hremember : settings.rememberMe = 0
    · simp [hvalidity, hremember]
    · simp [hvalidity, hremember]

end TokenSettings

namespace TokenProvider

variable {settings : TokenSettings} {provider : TokenProvider} {identity : Identity}
  {remember : Bool} {issued : Instant} {token : String}

/-- A provider is made of settings without an empty window, and cuts their windows off. -/
theorem ofSettings_eq_ok_iff :
    ofSettings settings = .ok provider ↔
      (∀ remember, settings.chosen remember ≠ 0) ∧
      provider = ⟨Bytes.ofText settings.secret, min settings.validity.toNat maxWindow,
        min settings.rememberMe.toNat maxWindow⟩ := by
  rw [← TokenSettings.validate_eq_ok_iff, ofSettings]
  cases settings.validate with
  | error e => simp
  | ok valid => simp [eq_comm (a := provider)]

/-- Settings with an empty window are refused, and no others. -/
theorem exists_ofSettings_error_iff :
    (∃ e, ofSettings settings = .error e) ↔ ∃ remember, settings.chosen remember = 0 := by
  have hrefused : (∃ e, ofSettings settings = .error e) ↔ ¬ settings.validate = .ok () := by
    rw [ofSettings]
    cases settings.validate <;> simp
  rw [hrefused, TokenSettings.validate_eq_ok_iff, Classical.not_forall]
  simp only [Ne, Classical.not_not]

/-- A window is the chosen one, or the longest one if that is shorter. -/
theorem window_of_ofSettings (h : ofSettings settings = .ok provider) (remember : Bool) :
    provider.window remember = min (settings.chosen remember).toNat maxWindow := by
  obtain ⟨-, rfl⟩ := ofSettings_eq_ok_iff.mp h
  cases remember <;> rfl

/-! ## Issued tokens -/

/-- A token is issued if the calendar goes as far as its window. -/
theorem exists_issue?_iff (hw : 0 < provider.window remember) :
    (∃ token, provider.issue? identity remember issued = some token) ↔
      issued.seconds + provider.window remember ≤ Instant.maxSeconds := by
  have hpos : (0 : Int) < provider.window remember := by omega
  rw [← Instant.exists_addSeconds?_iff hpos, issue?, claims?, Option.map_map]
  cases issued.addSeconds? (provider.window remember) <;> simp

/-- An issued token stands for somebody in its window, and for nobody outside of it. -/
theorem exists_verify?_iff (hw : 0 < provider.window remember)
    (h : provider.issue? identity remember issued = some token) (now : Instant) :
    (∃ caller, provider.verify? token now = some caller) ↔
      issued.seconds ≤ now.seconds ∧ now.seconds < issued.seconds + provider.window remember := by
  rw [verify?_of_issue? hw h]
  split
  · next hin => simp [hin]
  · next hout => simp [hout]

/-- Settings are refused exactly if one of their windows is empty.

    With any other settings, let `w` be the chosen window in seconds, but at most a hundred years of
    365 days.  As long as the calendar goes `w` seconds beyond the moment of the issue, a token is
    issued to whomever, and stands for a caller from the second of the issue on and before the
    second `w` later, and at no other moment.  So it does at the moment of its issue. -/
theorem lifetime_exact (settings : TokenSettings) :
    ((∃ e, ofSettings settings = .error e) ↔ ∃ remember, settings.chosen remember = 0) ∧
    ∀ provider, ofSettings settings = .ok provider →
      ∀ (remember : Bool) (identity : Identity) (issued : Instant),
        let w := min (settings.chosen remember).toNat (100 * 365 * 86400)
        issued.seconds + w ≤ Instant.maxSeconds →
        ∃ token, provider.issue? identity remember issued = some token ∧
          (∀ now : Instant, (∃ caller, provider.verify? token now = some caller) ↔
            issued.seconds ≤ now.seconds ∧ now.seconds < issued.seconds + w) ∧
          ∃ caller, provider.verify? token issued = some caller := by
  refine ⟨exists_ofSettings_error_iff, fun provider h remember identity issued => ?_⟩
  intro w hcalendar
  -- the provider was made with windows above zero, cut off at a hundred years
  have hw : 0 < provider.window remember := window_pos h remember
  have hwindow : provider.window remember = w := window_of_ofSettings h remember
  rw [← hwindow] at hcalendar ⊢
  obtain ⟨token, htoken⟩ : ∃ token, provider.issue? identity remember issued = some token :=
    (exists_issue?_iff hw).mpr hcalendar
  refine ⟨token, htoken, exists_verify?_iff hw htoken, ?_⟩
  exact (exists_verify?_iff hw htoken issued).mpr ⟨Int.le_refl _, by omega⟩

/-- With the longest window that can be configured, a token that is issued at the last nanosecond of
    a second holds until the end of the longest window that there is.  With a window of one second
    it holds for no more than that nanosecond. -/
theorem lifetime_exact_nanosecond :
    let settings : TokenSettings := ⟨"k", 18446744073709551615, 1⟩
    let provider : TokenProvider := ⟨Bytes.ofText "k", 3153600000, 1⟩
    let ada := Identity.make "ada" ["ROLE_USER"]
    let issued : Instant := ⟨-1, 999999999, by decide, by decide, by decide, by decide⟩
    let last : Instant := ⟨3153599998, 999999999, by decide, by decide, by decide, by decide⟩
    let next : Instant := ⟨3153599999, 0, by decide, by decide, by decide, by decide⟩
    ofSettings settings = .ok provider ∧
      (∃ token, provider.issue? ada false issued = some token ∧
        (∃ caller, provider.verify? token last = some caller) ∧
        ¬ ∃ caller, provider.verify? token next = some caller) ∧
      ∃ token, provider.issue? ada true issued = some token ∧
        (∃ caller, provider.verify? token issued = some caller) ∧
        ¬ ∃ caller, provider.verify? token Instant.epoch = some caller := by
  intro settings provider ada issued last next
  have hprovider : ofSettings settings = .ok provider := rfl
  obtain ⟨-, hlifetime⟩ := lifetime_exact settings
  obtain ⟨long, hlong, hlonglife, -⟩ := hlifetime provider hprovider false ada issued (by decide)
  obtain ⟨short, hshort, hshortlife, hnow⟩ :=
    hlifetime provider hprovider true ada issued (by decide)
  -- fractions of seconds are not looked at, so one token is good at the last nanosecond
  refine ⟨hprovider, ⟨long, hlong, (hlonglife _).mpr ?_, fun hlate => ?_⟩,
    short, hshort, hnow, fun hlate => ?_⟩
  · decide
  · exact absurd ((hlonglife _).mp hlate) (by decide)
  · exact absurd ((hshortlife _).mp hlate) (by decide)

end TokenProvider

end CommandBus
