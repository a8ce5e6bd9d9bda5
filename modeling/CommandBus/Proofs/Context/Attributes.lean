import CommandBus.Context
import CommandBus.Proofs.History

/-!
# Attributes and their write policies

A run of calls writes attributes of any types, writes them for good and removes them, in any
order and under any keys.  A call that fails leaves the context as it is, so that what an attribute
is after a run is what the last call that succeeded under its key has left.  What was written for
good is the end of it: no later call under the key succeeds.

## Key results

- `call_cases`: what a call that succeeds changes and leaves; one that fails changes nothing
- `recorded_course`: what is under a key after a run is what the last call there left
- `attributes_keep_policies`: which calls of a run fail, and what can be read after it
-/

namespace CommandBus

variable {types : AttributeTypes}

/-- What is read of a value is the value, and only as of its own type. -/
theorem AttributeValue.downcast?_eq_some_iff {v : AttributeValue types} {t : types.Id}
    {x : types.Carrier t} : v.downcast? t = some x ↔ v = ⟨t, x⟩ := by
  obtain ⟨own, value⟩ := v
  unfold downcast?
  constructor
  · intro h
    split at h
    · next hown =>
      cases hown
      cases h
      rfl
    · exact nomatch h
  · intro h
    cases h
    exact dif_pos rfl

/-! ## Calls -/

/-- A call that may change an attribute. -/
inductive AttributeCall (types : AttributeTypes) where
  | set (key : String) (value : AttributeValue types)
  | setImmutable (key : String) (value : AttributeValue types)
  | remove (key : String)

namespace AttributeCall

/-- The key that a call is about. -/
def key : AttributeCall types → String
  | .set key _ => key
  | .setImmutable key _ => key
  | .remove key => key

/-- What a call leaves under its key if it succeeds. -/
def leaves : AttributeCall types → Option (Attribute types)
  | .set _ value => some ⟨value, false⟩
  | .setImmutable _ value => some ⟨value, true⟩
  | .remove _ => none

end AttributeCall

namespace Context

/-- The attribute under a key. -/
def found? (ctx : Context types) (key : String) : Option (Attribute types) :=
  Entries.get? key ctx.attributes

theorem isImmutable_iff {ctx : Context types} {key : String} :
    ctx.isImmutable key = true ↔ ∃ value, ctx.found? key = some ⟨value, true⟩ := by
  unfold isImmutable found?
  cases Entries.get? key ctx.attributes with
  | none => simp
  | some a =>
    obtain ⟨value, immutable⟩ := a
    simp

theorem hasAttribute_iff {ctx : Context types} {key : String} :
    ctx.hasAttribute key = true ↔ ∃ a, ctx.found? key = some a := Option.isSome_iff_exists

/-- How a call ends, and the context that it leaves. -/
def call (ctx : Context types) : AttributeCall types → Except ContextError Unit × Context types
  | .set key value => ctx.setAttribute key value
  | .setImmutable key value => ctx.setImmutableAttribute key value
  | .remove key =>
    let (removed, next) := ctx.removeAttribute key
    (removed.map fun _ => (), next)

/-- What a call that succeeds makes of a context. -/
structure CallOk (ctx : Context types) (c : AttributeCall types) (next : Context types) :
    Prop where
  /-- Nothing was written for good under the key, -/
  free : ∀ value, ctx.found? c.key ≠ some ⟨value, true⟩
  left : next.found? c.key = c.leaves
  /-- and no other attribute changes, nor anything else in the context. -/
  others : ∀ other, other ≠ c.key → next.found? other = ctx.found? other
  rest : next = { ctx with attributes := next.attributes }

/-- A call either succeeds, or fails and leaves the context as it was. -/
theorem call_cases (ctx : Context types) (c : AttributeCall types) :
    (∃ next, ctx.call c = (.ok (), next) ∧ CallOk ctx c next) ∨
      ∃ e, ctx.call c = (.error e, ctx) := by
  -- each call is refused as a whole or writes the one entry of its key
  cases c with
  | set key value =>
    simp only [call, setAttribute]
    split
    · exact .inr ⟨_, rfl⟩
    · next himmutable =>
      exact .inl ⟨_, rfl, fun v hv => himmutable (isImmutable_iff.2 ⟨v, hv⟩),
        Entries.get?_insert_self _ _ _, fun other hne => Entries.get?_insert_ne hne _ _, rfl⟩
  | setImmutable key value =>
    simp only [call, setImmutableAttribute]
    split
    · exact .inr ⟨_, rfl⟩
    · next hpresent =>
      exact .inl ⟨_, rfl, fun v hv => hpresent (hasAttribute_iff.2 ⟨_, hv⟩),
        Entries.get?_insert_self _ _ _, fun other hne => Entries.get?_insert_ne hne _ _, rfl⟩
  | remove key =>
    simp only [call, removeAttribute]
    split
    · exact .inr ⟨_, rfl⟩
    · next himmutable =>
      exact .inl ⟨_, rfl, fun v hv => himmutable (isImmutable_iff.2 ⟨v, hv⟩),
        Entries.get?_erase_self _ _, fun other hne => Entries.get?_erase_ne hne _, rfl⟩

/-! ## Runs -/

/-- A context, and the calls on it that have succeeded, in their order. -/
structure Course (types : AttributeTypes) where
  context : Context types
  history : List (AttributeCall types) := []

/-- One call more: the context is what the call leaves, however it ends. -/
def Course.call (r : Course types) (c : AttributeCall types) : Course types :=
  match r.context.call c with
  | (.ok _, next) => ⟨next, r.history ++ [c]⟩
  | (.error _, next) => ⟨next, r.history⟩

/-- The course of a run of calls. -/
def course (ctx : Context types) (calls : List (AttributeCall types)) : Course types :=
  calls.foldl Course.call ⟨ctx, []⟩

theorem Course.call_of_ok {r : Course types} {c : AttributeCall types} {next : Context types}
    (h : r.context.call c = (.ok (), next)) : r.call c = ⟨next, r.history ++ [c]⟩ := by
  rw [Course.call, h]

theorem Course.call_of_error {r : Course types} {c : AttributeCall types} {e : ContextError}
    (h : r.context.call c = (.error e, r.context)) : r.call c = r := by
  rw [Course.call, h]

/-- What the attributes are after the calls that have succeeded. -/
structure Recorded (r : Course types) : Prop where
  found : ∀ key, r.context.found? key =
    (r.history.reverse.find? fun c => c.key == key).bind AttributeCall.leaves
  forGood : ∀ key value, .setImmutable key value ∈ r.history →
    r.context.found? key = some ⟨value, true⟩

/-- A call keeps the attributes what the calls have left. -/
theorem Recorded.call {r : Course types} (h : Recorded r) (c : AttributeCall types) :
    Recorded (r.call c) := by
  obtain ⟨next, hcall, hok⟩ | ⟨e, hcall⟩ := r.context.call_cases c
  -- a call that succeeds becomes the last one of its key, and leaves the other keys alone
  · rw [Course.call_of_ok hcall]
    constructor
    · intro key
      rw [List.reverse_concat, List.find?_cons]
      by_cases hkey : c.key = key
      · subst hkey
        rw [hok.left, BEq.rfl]
        rfl
      · rw [hok.others key (Ne.symm hkey), h.found, beq_false_of_ne hkey]
    · intro key value hmem
      rw [List.mem_append, List.mem_singleton] at hmem
      rcases hmem with hearlier | rfl
      · -- the call is about another key, for it would have failed under this one
        have hbefore := h.forGood key value hearlier
        have hkey : key ≠ c.key := by
          rintro rfl
          exact hok.free value hbefore
        exact (hok.others key hkey).trans hbefore
      · exact hok.left
  -- a call that fails is not part of the history, and changed nothing
  · rw [Course.call_of_error hcall]
    exact h

theorem recorded_foldl {r : Course types} (h : Recorded r) (calls : List (AttributeCall types)) :
    Recorded (calls.foldl Course.call r) :=
  List.foldlRecOn calls Course.call h fun _ hr c _ => hr.call c

/-- After a run the attributes are what the calls that have succeeded left. -/
theorem recorded_course {ctx : Context types} (hnew : ctx.attributes = [])
    (calls : List (AttributeCall types)) : Recorded (ctx.course calls) := by
  apply recorded_foldl
  refine ⟨fun key => ?_, fun key value hmem => (nomatch hmem)⟩
  simp [found?, hnew]

/-- No call is taken out of the history. -/
theorem history_foldl_subset (r : Course types) (calls : List (AttributeCall types)) :
    r.history ⊆ (calls.foldl Course.call r).history := by
  induction calls generalizing r with
  | nil => exact fun _ h => h
  | cons c rest ih =>
    refine List.Subset.trans ?_ (ih (r.call c))
    obtain ⟨next, hcall, -⟩ | ⟨e, hcall⟩ := r.context.call_cases c
    · rw [Course.call_of_ok hcall]
      exact List.subset_append_left _ _
    · rw [Course.call_of_error hcall]
      exact fun _ h => h

/-! ## What can be told from the calls that have succeeded -/

/-- The value was written for good under the key. -/
def ForGood (history : List (AttributeCall types)) (key : String)
    (value : AttributeValue types) : Prop :=
  .setImmutable key value ∈ history

/-- The value was the last to be written under the key, and was not removed since. -/
def LastWritten (history : List (AttributeCall types)) (key : String)
    (value : AttributeValue types) : Prop :=
  LastOn AttributeCall.key history key (.set key value) ∨
    LastOn AttributeCall.key history key (.setImmutable key value)

variable {r : Course types} {key : String} {value : AttributeValue types}

/-- What is under a key was left by the last call about it. -/
theorem Recorded.found?_eq_some_iff (h : Recorded r) {a : Attribute types} :
    r.context.found? key = some a ↔
      ∃ c, LastOn AttributeCall.key r.history key c ∧ c.leaves = some a := by
  simp only [h.found, Option.bind_eq_some_iff, find?_reverse_eq_some_iff]

/-- There is an attribute of a value where the value was the last to be written. -/
theorem Recorded.lastWritten_iff (h : Recorded r) :
    LastWritten r.history key value ↔
      ∃ immutable, r.context.found? key = some ⟨value, immutable⟩ := by
  constructor
  · rintro (hset | hset)
    · exact ⟨false, h.found?_eq_some_iff.2 ⟨_, hset, rfl⟩⟩
    · exact ⟨true, h.found?_eq_some_iff.2 ⟨_, hset, rfl⟩⟩
  · rintro ⟨immutable, ha⟩
    obtain ⟨c, hlast, hleaves⟩ := h.found?_eq_some_iff.1 ha
    -- of the three calls the two that set a value leave it, and the third leaves nothing
    cases c with
    | set k v =>
      obtain rfl : k = key := hlast.about_eq
      obtain rfl : v = value := congrArg Attribute.value (Option.some.inj hleaves)
      exact .inl hlast
    | setImmutable k v =>
      obtain rfl : k = key := hlast.about_eq
      obtain rfl : v = value := congrArg Attribute.value (Option.some.inj hleaves)
      exact .inr hlast
    | remove k => exact nomatch hleaves

theorem Recorded.forGood_iff (h : Recorded r) :
    ForGood r.history key value ↔ r.context.found? key = some ⟨value, true⟩ := by
  constructor
  · exact h.forGood key value
  · intro ha
    obtain ⟨c, hlast, hleaves⟩ := h.found?_eq_some_iff.1 ha
    cases c with
    | set k v => exact nomatch congrArg Attribute.immutable (Option.some.inj hleaves)
    | setImmutable k v =>
      obtain rfl : k = key := hlast.about_eq
      obtain rfl : v = value := congrArg Attribute.value (Option.some.inj hleaves)
      exact hlast.mem
    | remove k => exact nomatch hleaves

/-! ## The policies -/

/-- What the policies of attributes make of a run. -/
structure KeepsPolicies (ctx : Context types) (calls : List (AttributeCall types))
    (now : Course types) : Prop where
  /-- A value that was written for good stays, whatever calls follow. -/
  stays : ∀ key value more, ForGood now.history key value →
    (ctx.course (calls ++ more)).context.found? key = some ⟨value, true⟩
  /-- An attribute cannot be written where one was written for good, -/
  set_error : ∀ key value e, (now.context.setAttribute key value).1 = .error e ↔
    e = .immutableAttribute key ∧ ∃ kept, ForGood now.history key kept
  /-- it cannot be written for good where there is one, -/
  setImmutable_error : ∀ key value e, (now.context.setImmutableAttribute key value).1 = .error e ↔
    e = .attributeExists key ∧ ∃ present, LastWritten now.history key present
  /-- and it cannot be removed if it was written for good. -/
  remove_error : ∀ key e, (now.context.removeAttribute key).1 = .error e ↔
    e = .immutableAttribute key ∧ ∃ kept, ForGood now.history key kept
  /-- Who removes one is told whether there was one. -/
  remove_ok : ∀ key removed, (now.context.removeAttribute key).1 = .ok removed →
    (removed = true ↔ ∃ present, LastWritten now.history key present)
  /-- A call that fails leaves the whole context as it was, -/
  failed : ∀ c e next, now.context.call c = (.error e, next) →
    next = now.context ∧ ctx.course (calls ++ [c]) = now
  /-- and one that succeeds changes nothing but the attribute under its key. -/
  succeeded : ∀ c next, now.context.call c = (.ok (), next) →
    ctx.course (calls ++ [c]) = ⟨next, now.history ++ [c]⟩ ∧
      next = { now.context with attributes := next.attributes } ∧
      ∀ other, other ≠ c.key → next.found? other = now.context.found? other
  /-- What is read is the value that was written last, if it is of the type that is asked for. -/
  read : ∀ key t x, now.context.attribute? key t = some x ↔ LastWritten now.history key ⟨t, x⟩

/-- Something was written for good exactly where a context refuses to write again. -/
theorem Recorded.exists_forGood_iff (h : Recorded r) :
    (∃ kept, ForGood r.history key kept) ↔ r.context.isImmutable key = true := by
  simp only [isImmutable_iff, h.forGood_iff]

/-- Something was written and not removed exactly where there is an attribute. -/
theorem Recorded.exists_lastWritten_iff (h : Recorded r) :
    (∃ present, LastWritten r.history key present) ↔ r.context.hasAttribute key = true := by
  simp only [h.lastWritten_iff, hasAttribute_iff]
  constructor
  · rintro ⟨value, immutable, ha⟩
    exact ⟨_, ha⟩
  · rintro ⟨a, ha⟩
    exact ⟨a.value, a.immutable, ha⟩

/-- An attribute is read as what was written last. -/
theorem Recorded.attribute?_eq_some_iff (h : Recorded r) {t : types.Id} {x : types.Carrier t} :
    r.context.attribute? key t = some x ↔ LastWritten r.history key ⟨t, x⟩ := by
  rw [h.lastWritten_iff, attribute?, Option.bind_eq_some_iff]
  constructor
  · rintro ⟨⟨value, immutable⟩, ha, hread⟩
    obtain rfl := AttributeValue.downcast?_eq_some_iff.1 hread
    exact ⟨immutable, ha⟩
  · rintro ⟨immutable, ha⟩
    exact ⟨_, ha, AttributeValue.downcast?_eq_some_iff.2 rfl⟩

/-- What is refused under a condition fails exactly under it. -/
private theorem refused_iff {α β : Type} {condition : Bool} {e refusal : ContextError} {a : α}
    {before after : β} :
    (if condition = true then (Except.error refusal, before) else (.ok a, after)).1 = .error e ↔
      e = refusal ∧ condition = true := by
  cases condition with
  | true => simp [eq_comm]
  | false => simp

/-- Attributes keep their policies through any run of calls on a context that had none, whatever
    types they are of. -/
theorem attributes_keep_policies {ctx : Context types} (hnew : ctx.attributes = [])
    (calls : List (AttributeCall types)) : KeepsPolicies ctx calls (ctx.course calls) := by
  have hnow := recorded_course hnew calls
  have hmore : ∀ more, ctx.course (calls ++ more) = more.foldl Course.call (ctx.course calls) :=
    fun more => List.foldl_append
  constructor
  case stays =>
    intro key value more hgood
    -- what is set for good stays so in any longer course
    rw [hmore]
    exact (recorded_foldl hnow more).forGood key value (history_foldl_subset _ more hgood)
  case set_error =>
    intro key value e
    rw [hnow.exists_forGood_iff, setAttribute, refused_iff]
  case setImmutable_error =>
    intro key value e
    rw [hnow.exists_lastWritten_iff, setImmutableAttribute, refused_iff]
  case remove_error =>
    intro key e
    rw [hnow.exists_forGood_iff, removeAttribute, refused_iff]
  case remove_ok =>
    intro key removed h
    rw [hnow.exists_lastWritten_iff]
    rw [removeAttribute] at h
    split at h
    · exact nomatch h
    -- what is told is whether there was an attribute before the call
    · have hremoved : (ctx.course calls).context.hasAttribute key = removed := Except.ok.inj h
      rw [hremoved]
  case failed =>
    intro c e next h
    obtain ⟨other, hcall, -⟩ | ⟨e', hcall⟩ := (ctx.course calls).context.call_cases c
    · exact nomatch congrArg Prod.fst (hcall.symm.trans h)
    -- the context beside the error is the one before the call, so the course stays where it was
    · refine ⟨congrArg Prod.snd (h.symm.trans hcall), ?_⟩
      rw [hmore, List.foldl_cons, List.foldl_nil, Course.call_of_error hcall]
  case succeeded =>
    intro c next h
    obtain ⟨other, hcall, hok⟩ | ⟨e, hcall⟩ := (ctx.course calls).context.call_cases c
    · obtain rfl : other = next := congrArg Prod.snd (hcall.symm.trans h)
      refine ⟨?_, hok.rest, hok.others⟩
      rw [hmore, List.foldl_cons, List.foldl_nil, Course.call_of_ok h]
    · exact nomatch congrArg Prod.fst (hcall.symm.trans h)
  case read =>
    intro key t x
    exact hnow.attribute?_eq_some_iff

/-- A key that was in use, and is free again, is written for good: the calls before and after it
    that fail leave no trace, and a call under another key is no matter. -/
theorem attributes_keep_policies_reused :
    let calls : List (AttributeCall .plain) :=
      [.set "k" (.number 1), .setImmutable "k" (.number 2), .remove "k", .set "on" (.flag true),
        .setImmutable "k" (.text "a"), .set "k" (.text "b"), .remove "k"]
    let now := course {} calls
    ({} : Context).attributes = [] ∧
      now.history =
        [.set "k" (.number 1), .remove "k", .set "on" (.flag true), .setImmutable "k" (.text "a")] ∧
      (∀ more, (course {} (calls ++ more)).context.found? "k" = some ⟨.text "a", true⟩) ∧
      now.context.attribute? "k" .text = some "a" ∧
      now.context.attribute? "k" .number = none ∧
      now.context.attribute? "on" .flag = some true := by
  intro calls now
  have hkeeps : KeepsPolicies {} calls now := attributes_keep_policies rfl calls
  have hhistory : now.history =
      [.set "k" (.number 1), .remove "k", .set "on" (.flag true),
        .setImmutable "k" (.text "a")] := rfl
  -- of the last three calls two were refused, for the value was set for good
  have hgood : ForGood now.history "k" (.text "a") := by
    rw [ForGood, hhistory]
    simp
  have hlast : LastWritten now.history "k" (.text "a") := by
    rw [hhistory]
    exact .inr ⟨[.set "k" (.number 1), .remove "k", .set "on" (.flag true)], [], rfl, rfl,
      List.forall_mem_nil _⟩
  have hon : LastWritten now.history "on" (.flag true) := by
    rw [hhistory]
    refine .inl ⟨[.set "k" (.number 1), .remove "k"], [.setImmutable "k" (.text "a")], rfl, rfl, ?_⟩
    exact List.forall_mem_singleton.2 (by decide)
  refine ⟨rfl, hhistory, fun more => hkeeps.stays "k" _ more hgood, ?_, ?_, ?_⟩
  · exact (hkeeps.read "k" .text "a").2 hlast
  · rfl
  · exact (hkeeps.read "on" .flag true).2 hon

end Context

end CommandBus
