import CommandBus.Dispatch.Registry

/-!
# Registering commands in turn

A registry is filled by register calls, of which those with a name that is taken fail and
change nothing: `registerEach` is the registry after any list of calls.  It keeps the first
command of every name, under that name, and the name of every type.

## Key results

- `get?_registerEach`: what is found under a name is the first command that was given with it
- `keyed_registerEach`: every command is kept under its own name, and only there, and the two
  indexes agree
- `registerAll_eq`: a registry that was built without an error is one of these
- `resolve_name_of_mem`, `ofType?_key_of_mem`: a registered command is found by its full name
  and by its type
-/

namespace CommandBus

universe u

namespace Entries

variable {α : Type u}

/-- A value that is found stands in the list under its key. -/
theorem mem_of_get? {key : String} {value : α} {entries : Entries α}
    (h : get? key entries = some value) : (key, value) ∈ entries := by
  induction entries with
  | nil => simp at h
  | cons e rest ih =>
    obtain ⟨k, v⟩ := e
    rw [get?_cons] at h
    split at h
    · next hk =>
      obtain rfl := Option.some.inj h
      rw [hk]
      exact List.mem_cons_self
    · exact List.mem_cons_of_mem _ (ih h)

end Entries

namespace CommandRegistry

variable {σ : Type}

/-- The registry after a register call, whether it failed or not. -/
def attempt (registry : CommandRegistry σ) (c : Command σ) : CommandRegistry σ :=
  (registry.register c).2

/-- The registry of a root after register calls in turn. -/
def registerEach (root : String) (cs : List (Command σ)) : CommandRegistry σ :=
  cs.foldl attempt { root := root }

/-! ## One call -/

/-- A call with a name that is taken changes nothing. -/
theorem attempt_of_taken {registry : CommandRegistry σ} {c : Command σ}
    (h : Entries.hasKey c.name registry.byName.entries = true) : registry.attempt c = registry := by
  simp [attempt, register, h]

/-- A call with a new name writes the command under it. -/
theorem attempt_of_free {registry : CommandRegistry σ} {c : Command σ}
    (h : Entries.hasKey c.name registry.byName.entries = false) :
    registry.attempt c =
      { registry with
        byName := registry.byName.insert c.name c
        byType := (c.key, c.name) :: registry.byType } := by
  simp [attempt, register, h]

@[simp] theorem attempt_root (registry : CommandRegistry σ) (c : Command σ) :
    (registry.attempt c).root = registry.root := by
  cases h : Entries.hasKey c.name registry.byName.entries with
  | true => rw [attempt_of_taken h]
  | false => rw [attempt_of_free h]

/-- What was found before is still found, and under the name of the call there is something. -/
theorem get?_attempt (registry : CommandRegistry σ) (c : Command σ) (name : String) :
    Entries.get? name (registry.attempt c).byName.entries =
      (Entries.get? name registry.byName.entries).or (if c.name = name then some c else none) := by
  cases h : Entries.hasKey c.name registry.byName.entries with
  | true =>
    rw [attempt_of_taken h]
    by_cases hn : c.name = name
    -- the name was taken, by whatever is kept under it
    · obtain ⟨kept, hk⟩ := Option.isSome_iff_exists.1 h
      rw [← hn, hk]
      rfl
    · simp [hn]
  | false =>
    rw [attempt_of_free h, SortedEntries.entries_insert]
    by_cases hn : c.name = name
    · have hnone : Entries.get? c.name registry.byName.entries = none := by
        simpa [Entries.hasKey] using h
      rw [← hn, Entries.get?_insert_self, hnone]
      simp
    · simp [Entries.get?_insert_ne (Ne.symm hn), hn]

/-! ## Many calls -/

/-- What is found after calls in turn, starting from any registry. -/
private theorem get?_foldl_attempt (cs : List (Command σ)) (registry : CommandRegistry σ)
    (name : String) :
    Entries.get? name (cs.foldl attempt registry).byName.entries =
      (Entries.get? name registry.byName.entries).or (cs.find? fun c => c.name == name) := by
  induction cs generalizing registry with
  | nil => simp
  | cons c cs ih =>
    rw [List.foldl_cons, ih, get?_attempt, Option.or_assoc, List.find?_cons]
    by_cases hn : c.name = name
    · simp [hn]
    · have hb : (c.name == name) = false := by simpa using hn
      simp [hn, hb]

/-- Under a name there is the first command that was given with it. -/
theorem get?_registerEach (root : String) (cs : List (Command σ)) (name : String) :
    Entries.get? name (registerEach root cs).byName.entries = cs.find? fun c => c.name == name := by
  rw [registerEach, get?_foldl_attempt]
  simp

/-- Register calls do not change the root. -/
private theorem foldl_attempt_root (cs : List (Command σ)) (registry : CommandRegistry σ) :
    (cs.foldl attempt registry).root = registry.root := by
  induction cs generalizing registry with
  | nil => rfl
  | cons c cs ih => rw [List.foldl_cons, ih, attempt_root]

@[simp] theorem registerEach_root (root : String) (cs : List (Command σ)) :
    (registerEach root cs).root = root := foldl_attempt_root cs _

/-- The two indexes of a registry agree. -/
structure Keyed (registry : CommandRegistry σ) : Prop where
  /-- Every command stands under its own name, where it is found. -/
  named : ∀ e ∈ registry.byName.entries,
    e.1 = e.2.name ∧ Entries.get? e.1 registry.byName.entries = some e.2
  /-- The name that is kept for a type is that of a registered command of the type. -/
  typeOf : ∀ key name, registry.byType.lookup key = some name →
    ∃ c ∈ registry.commands, c.key = key ∧ c.name = name
  /-- A name is kept for the type of every registered command. -/
  nameOf : ∀ c ∈ registry.commands, (registry.byType.lookup c.key).isSome

/-- The name that is kept for a type after one more entry. -/
private theorem lookup_cons_eq (key other : TypeKey) (name : String)
    (index : List (TypeKey × String)) :
    ((key, name) :: index).lookup other =
      if other = key then some name else index.lookup other := by
  rw [List.lookup_cons]
  by_cases h : other = key
  · simp [h]
  · simp [h, beq_false_of_ne h]

/-- A registered command is found under its name. -/
theorem Keyed.get?_of_mem {registry : CommandRegistry σ} (h : registry.Keyed) {c : Command σ}
    (hc : c ∈ registry.commands) : Entries.get? c.name registry.byName.entries = some c := by
  obtain ⟨e, he, rfl⟩ := List.mem_map.1 hc
  obtain ⟨hname, hget⟩ := h.named e he
  rw [← hname]
  exact hget

/-- What is found under a name is registered. -/
theorem mem_commands_of_get? {registry : CommandRegistry σ} {name : String} {c : Command σ}
    (h : Entries.get? name registry.byName.entries = some c) : c ∈ registry.commands :=
  List.mem_map.2 ⟨(name, c), Entries.mem_of_get? h, rfl⟩

/-- What was registered before a register call is so after it. -/
theorem Keyed.mem_commands_attempt {registry : CommandRegistry σ} (h : registry.Keyed)
    (c : Command σ) {other : Command σ} (hother : other ∈ registry.commands) :
    other ∈ (registry.attempt c).commands := by
  have hget : Entries.get? other.name (registry.attempt c).byName.entries = some other := by
    rw [get?_attempt, h.get?_of_mem hother]
    rfl
  exact mem_commands_of_get? hget

/-- One register call keeps the indexes in agreement. -/
theorem keyed_attempt {registry : CommandRegistry σ} (h : registry.Keyed) (c : Command σ) :
    (registry.attempt c).Keyed := by
  cases hk : Entries.hasKey c.name registry.byName.entries with
  | true => rw [attempt_of_taken hk]; exact h
  | false =>
    have hold : ∀ other ∈ registry.commands, other ∈ (registry.attempt c).commands :=
      fun other hother => h.mem_commands_attempt c hother
    have hget : Entries.get? c.name (registry.attempt c).byName.entries = some c := by
      rw [attempt_of_free hk]
      exact Entries.get?_insert_self _ _ _
    have hnew := mem_commands_of_get? hget
    rw [attempt_of_free hk] at hold hnew ⊢
    refine ⟨fun e he => ?_, fun key name hlookup => ?_, fun other hother => ?_⟩
    · rcases Entries.mem_insert he with rfl | hbefore
      · exact ⟨rfl, Entries.get?_insert_self _ _ _⟩
      -- an entry that was there has another name, for the name of the call was free
      · obtain ⟨hname, hget⟩ := h.named e hbefore
        have hne : e.1 ≠ c.name := by
          intro heq
          rw [Entries.hasKey, ← heq, hget] at hk
          exact nomatch hk
        exact ⟨hname, by rw [SortedEntries.entries_insert, Entries.get?_insert_ne hne, hget]⟩
    · rw [lookup_cons_eq] at hlookup
      by_cases hkey : key = c.key
      -- the type of the call has the name of the call, and every other type the name it had
      · rw [if_pos hkey] at hlookup
        exact ⟨c, hnew, hkey.symm, Option.some.inj hlookup⟩
      · rw [if_neg hkey] at hlookup
        obtain ⟨other, hother, hboth⟩ := h.typeOf key name hlookup
        exact ⟨other, hold other hother, hboth⟩
    · rw [lookup_cons_eq]
      by_cases hkey : other.key = c.key
      · rw [if_pos hkey]
        rfl
      · rw [if_neg hkey]
        obtain ⟨e, he, rfl⟩ := List.mem_map.1 hother
        rcases Entries.mem_insert he with rfl | hbefore
        · exact absurd rfl hkey
        · exact h.nameOf e.2 (List.mem_map.2 ⟨e, hbefore, rfl⟩)

/-- Register calls in turn keep the indexes in agreement. -/
theorem keyed_registerEach (root : String) (cs : List (Command σ)) :
    (registerEach root cs).Keyed := by
  have hfold : ∀ registry : CommandRegistry σ, registry.Keyed →
      (cs.foldl attempt registry).Keyed := by
    induction cs with
    | nil => intro registry h; exact h
    | cons c cs ih => intro registry h; exact ih _ (keyed_attempt h c)
  refine hfold _ ⟨fun e he => ?_, fun key name h => ?_, fun c hc => ?_⟩
  · exact nomatch he
  · exact nomatch h
  · exact nomatch hc

/-- A list that is registered without an error is registered call by call. -/
theorem registerAll_eq {registry filled : CommandRegistry σ} {cs : List (Command σ)}
    (h : registry.registerAll cs = .ok filled) : filled = cs.foldl attempt registry := by
  induction cs generalizing registry with
  | nil => simpa [registerAll] using h.symm
  | cons c cs ih =>
    simp only [registerAll] at h
    split at h
    · exact nomatch h
    · next next hn =>
      have hnext : registry.attempt c = next := congrArg Prod.snd hn
      rw [List.foldl_cons, hnext]
      exact ih h

/-- A list of commands with names of their own that are all free is registered without an
    error. -/
theorem exists_registerAll {registry : CommandRegistry σ} {cs : List (Command σ)}
    (hfree : ∀ c ∈ cs, Entries.get? c.name registry.byName.entries = none)
    (hnames : (cs.map Command.name).Nodup) :
    ∃ filled, registry.registerAll cs = .ok filled := by
  induction cs generalizing registry with
  | nil => exact ⟨registry, rfl⟩
  | cons c cs ih =>
    rw [List.forall_mem_cons] at hfree
    rw [List.map_cons, List.nodup_cons] at hnames
    have hkey : Entries.hasKey c.name registry.byName.entries = false := by
      simp [Entries.hasKey, hfree.1]
    have hregister : registry.register c = (.ok (), registry.attempt c) := by
      simp [attempt_of_free hkey, register, hkey]
    -- the names that are left are still free after this one is taken
    have hleft : ∀ other ∈ cs,
        Entries.get? other.name (registry.attempt c).byName.entries = none := by
      intro other hother
      have hne : c.name ≠ other.name := by
        intro heq
        exact hnames.1 (heq ▸ List.mem_map_of_mem hother)
      rw [get?_attempt, hfree.2 other hother, if_neg hne]
      rfl
    obtain ⟨filled, hfilled⟩ := ih hleft hnames.2
    refine ⟨filled, ?_⟩
    simp only [registerAll, hregister, hfilled]

/-! ## Finding a registered command -/

/-- What a name is resolved to is registered. -/
theorem mem_commands_of_resolve {registry : CommandRegistry σ} {name : String} {c : Command σ}
    (h : registry.resolve name = .ok c) : c ∈ registry.commands := by
  unfold resolve at h
  split at h
  · next found hnamed =>
    obtain rfl := Except.ok.inj h
    exact mem_commands_of_get? (Option.filter_eq_some_iff.1 hnamed).1
  · split at h
    · next found hget =>
      obtain rfl := Except.ok.inj h
      exact mem_commands_of_get? hget
    · exact nomatch h

/-- A registered command inside the namespace is resolved by its full name. -/
theorem resolve_name_of_mem {registry : CommandRegistry σ} (h : registry.Keyed)
    {c : Command σ} (hc : c ∈ registry.commands)
    (hin : inNamespace registry.root c.name = true) : registry.resolve c.name = .ok c := by
  have hnamed : registry.named? c.name = some c := by
    simp [named?, h.get?_of_mem hc, hin]
  simp [resolve, hnamed]

/-- What is found by a type is registered and of the type. -/
theorem Keyed.of_ofType? {registry : CommandRegistry σ} (h : registry.Keyed) {key : TypeKey}
    {c : Command σ} (hfound : registry.ofType? key = some c) :
    c ∈ registry.commands ∧ c.key = key := by
  obtain ⟨name, hlookup, hget⟩ := Option.bind_eq_some_iff.1 hfound
  -- under the name that is kept for the type there is the command that it was kept for
  obtain ⟨other, hother, hkey, hname⟩ := h.typeOf key name hlookup
  have hsame := h.get?_of_mem hother
  rw [hname, hget] at hsame
  obtain rfl := Option.some.inj hsame
  exact ⟨hother, hkey⟩

/-- A registered command is found by its type, if no other name has the type. -/
theorem ofType?_key_of_mem {registry : CommandRegistry σ} (h : registry.Keyed)
    {c : Command σ} (hc : c ∈ registry.commands)
    (htypes : ∀ other ∈ registry.commands, other.key = c.key → other.name = c.name) :
    registry.ofType? c.key = some c := by
  -- the name that is kept for the type of `c` is the name of `c`, under which there is only `c`
  obtain ⟨name, hlookup⟩ := Option.isSome_iff_exists.1 (h.nameOf c hc)
  obtain ⟨other, hother, hkey, hname⟩ := h.typeOf c.key name hlookup
  rw [ofType?, hlookup, ← hname, htypes other hother hkey]
  exact h.get?_of_mem hc

end CommandRegistry

end CommandBus
