import CommandBus.Dispatch.Error

/-!
# Errors that commands raise

A command raises a cause, and everyone between it and the framework may put a text around what
comes up.  `Raised` is such an error, layer by layer.  The framework tries the types of its own
errors one after the other and looks for each of them below all the texts; if it finds none, the
command has failed by itself, and every layer is a cause of the failure.

The order of the tries makes no difference, since there is one cause below the texts and it has
one type.  What comes out is the `DispatchError.ofCommand` of the texts and the cause.

## Key results

- `find?_wrap`: a search sees the cause through any texts
- `classify_wrap_of_becomes`, `classify_wrap_of_unknown`: tried in any order, the types lead to
  the same error of the dispatch
- `ofCommand_told`: what every error that a command can raise is told as
-/

namespace CommandBus

/-! ## Causes -/

/-- The types of errors that the framework knows as its own. -/
inductive CauseType where
  | dispatch
  | denied
  | access
  | binding
  | conversion
  | configuration
  deriving DecidableEq, Repr

/-- All types, in the order in which they are tried. -/
def CauseType.all : List CauseType :=
  [.dispatch, .denied, .access, .binding, .conversion, .configuration]

theorem CauseType.mem_all (t : CauseType) : t ∈ CauseType.all := by
  cases t <;> decide

namespace Cause

/-- The type of a cause, if the framework knows it. -/
def type? : Cause → Option CauseType
  | .dispatch _ => some .dispatch
  | .denied _ => some .denied
  | .access _ => some .access
  | .binding _ => some .binding
  | .conversion _ => some .conversion
  | .configuration _ => some .configuration
  | .other _ => none

/-- The wording of a cause. -/
def message : Cause → String
  | .dispatch e => e.message
  | .denied e => e.message
  | .access e => e.message
  | .binding e => e.message
  | .conversion e => e.message
  | .configuration e => e.message
  | .other message => message

/-- The messages below a cause.  Only the failure of another command has any. -/
def below : Cause → List String
  | .dispatch (.execution _ causes) => causes
  | _ => []

/-- The kind of error that a cause is. -/
def kind : Cause → ErrorKind
  | .dispatch e => e.kind
  | .denied _ => .accessDenied
  | .access (.denied _) => .accessDenied
  | .access (.configuration _) => .configurationError
  | .binding e => if e.isMissing then .missingParameter else .conversionError
  | .conversion _ => .conversionError
  | .configuration _ => .configurationError
  | .other _ => .executionFailure

/-- The error of a dispatch that each error of the framework stands for. -/
inductive Becomes : Cause → DispatchError → Prop where
  | dispatch (e : DispatchError) : Becomes (.dispatch e) e
  | denied (e : AccessDenied) : Becomes (.denied e) (.accessDenied e)
  | accessDenied (e : AccessDenied) : Becomes (.access (.denied e)) (.accessDenied e)
  | accessConfiguration (e : ConfigurationError) :
    Becomes (.access (.configuration e)) (.configuration e)
  | binding (e : BindingError) : Becomes (.binding e) (.binding e)
  | conversion (e : ConversionError) : Becomes (.conversion e) (.conversion e)
  | configuration (e : ConfigurationError) : Becomes (.configuration e) (.configuration e)

variable {cause : Cause} {e : DispatchError}

/-- The framework takes a cause for what it stands for, and knows no other causes. -/
theorem ofCause?_eq_some_iff : DispatchError.ofCause? cause = some e ↔ cause.Becomes e := by
  constructor
  · intro h
    -- one row for each error that keeps its kind
    cases cause with
    | dispatch inner => cases h; exact .dispatch _
    | denied inner => cases h; exact .denied _
    | access inner =>
      cases inner with
      | denied inner => cases h; exact .accessDenied _
      | configuration inner => cases h; exact .accessConfiguration _
    | binding inner => cases h; exact .binding _
    | conversion inner => cases h; exact .conversion _
    | configuration inner => cases h; exact .configuration _
    | other message => exact nomatch h
  · intro h
    cases h <;> rfl

/-- Every cause of a known type stands for an error of a dispatch. -/
theorem exists_becomes {t : CauseType} (h : cause.type? = some t) : ∃ e, cause.Becomes e := by
  cases cause with
  | dispatch inner => exact ⟨_, .dispatch inner⟩
  | denied inner => exact ⟨_, .denied inner⟩
  | access inner =>
    cases inner with
    | denied inner => exact ⟨_, .accessDenied inner⟩
    | configuration inner => exact ⟨_, .accessConfiguration inner⟩
  | binding inner => exact ⟨_, .binding inner⟩
  | conversion inner => exact ⟨_, .conversion inner⟩
  | configuration inner => exact ⟨_, .configuration inner⟩
  | other message => exact nomatch h

/-- A cause of no known type is a message and nothing else. -/
theorem eq_other_of_type? (h : cause.type? = none) : ∃ message, cause = .other message := by
  cases cause with
  | other message => exact ⟨message, rfl⟩
  | _ => exact nomatch h

/-- The error has the wording of the cause. -/
theorem Becomes.message_eq (h : cause.Becomes e) : e.message = cause.message := by
  cases h <;> rfl

/-- The error is of the kind of the cause. -/
theorem Becomes.kind_eq (h : cause.Becomes e) : e.kind = cause.kind := by
  cases h <;> rfl

/-- Below the error there is what is below the cause. -/
theorem Becomes.trace_eq (h : cause.Becomes e) : e.trace = cause.below := by
  cases h with
  | dispatch e => cases e <;> rfl
  | _ => rfl

end Cause

/-! ## Layers -/

/-- An error on its way up to the framework. -/
inductive Raised where
  /-- What the command raised. -/
  | root (cause : Cause)
  /-- An error with a text put around it. -/
  | within (text : String) (inner : Raised)

namespace Raised

/-- A cause with texts put around it, the first one outermost. -/
def wrap (texts : List String) (cause : Cause) : Raised :=
  texts.foldr within (root cause)

/-- The error of a command, put together layer by layer. -/
def error : Raised → CommandError
  | root cause => { cause := cause }
  | within text inner => inner.error.within text

/-- The messages down to the last cause, the outermost first. -/
def messages : Raised → List String
  | root cause => cause.message :: cause.below
  | within text inner => text :: inner.messages

/-- The cause, if it has the type; texts around it are no obstacle. -/
def find? (t : CauseType) : Raised → Option Cause
  | root cause => if cause.type? = some t then some cause else none
  | within _ inner => inner.find? t

/-- Try types in turn.  The first one that is found decides, and without one the command has
    failed by itself. -/
def classify (command : String) : List CauseType → Raised → DispatchError
  | [], raised => .execution command raised.messages
  | t :: types, raised =>
    match (raised.find? t).bind DispatchError.ofCause? with
    | some e => e
    | none => classify command types raised

variable {command : String} {texts : List String} {cause : Cause}

theorem error_wrap : (wrap texts cause).error = ⟨texts, cause⟩ := by
  induction texts with
  | nil => rfl
  | cons text texts ih => exact congrArg (CommandError.within · text) ih

theorem messages_wrap :
    (wrap texts cause).messages = texts ++ cause.message :: cause.below := by
  induction texts with
  | nil => rfl
  | cons text texts ih => exact congrArg (text :: ·) ih

/-- A search sees the cause through any texts. -/
theorem find?_wrap (t : CauseType) :
    (wrap texts cause).find? t = if cause.type? = some t then some cause else none := by
  induction texts with
  | nil => rfl
  | cons text texts ih => exact ih

/-- A cause of a known type is found as soon as its type is tried. -/
theorem classify_wrap_of_becomes {t : CauseType} {e : DispatchError}
    (ht : cause.type? = some t) (h : cause.Becomes e) {types : List CauseType} (hmem : t ∈ types) :
    classify command types (wrap texts cause) = e := by
  induction types with
  | nil => exact nomatch hmem
  | cons tried types ih =>
    rw [classify, find?_wrap]
    by_cases hfound : cause.type? = some tried
    · simp only [if_pos hfound, Option.bind_some, Cause.ofCause?_eq_some_iff.2 h]
    · simp only [if_neg hfound, Option.bind_none]
      -- another type was tried, so that the type of the cause is still to come
      have hne : t ≠ tried := by
        intro heq
        exact hfound (heq ▸ ht)
      exact ih ((List.mem_cons.1 hmem).resolve_left hne)

/-- A cause of no known type is found by no try. -/
theorem classify_wrap_of_unknown (h : cause.type? = none) (types : List CauseType) :
    classify command types (wrap texts cause) =
      .execution command (texts ++ cause.message :: cause.below) := by
  induction types with
  | nil => rw [classify, messages_wrap]
  | cons tried types ih =>
    rw [classify, find?_wrap, h]
    exact ih

end Raised

/-! ## What is told -/

namespace DispatchError

open Cause

/-- What a cause under some texts must be told as, if a command raises it. -/
structure Told (command : String) (texts : List String) (cause : Cause) (told : DispatchError) :
    Prop where
  /-- The types of the framework can be tried in any order, through all the texts. -/
  tried : ∀ types : List CauseType, (∀ t, t ∈ types) →
    (Raised.wrap texts cause).classify command types = told
  /-- An error of the framework is told as what it stands for, with its own message and kind and
      with nothing below it that was not there before. -/
  known : ∀ t, cause.type? = some t → cause.Becomes told ∧ told.message = cause.message ∧
    told.kind = cause.kind ∧ told.trace = cause.below
  /-- Neither the texts around it nor the command that raises it make a difference. -/
  anywhere : ∀ t, cause.type? = some t → ∀ command texts, ofCommand command ⟨texts, cause⟩ = told
  /-- Any other error is a failure of the command, and nothing of it is lost. -/
  unknown : ∀ message, cause = .other message →
    told = .execution command (texts ++ [message]) ∧ told.kind = .executionFailure ∧
      told.trace = texts ++ [message]

/-- An error of the framework is told as what it stands for. -/
theorem ofCommand_of_becomes {cause : Cause} {e : DispatchError} (h : cause.Becomes e)
    (command : String) (texts : List String) : ofCommand command ⟨texts, cause⟩ = e := by
  cases h <;> rfl

/-- Every error that a command can raise is told as it must be. -/
theorem ofCommand_told (command : String) (texts : List String) (cause : Cause) :
    Told command texts cause (ofCommand command (Raised.wrap texts cause).error) := by
  rw [Raised.error_wrap]
  -- a cause of a known type keeps its kind, however often it is wrapped
  cases htype : cause.type? with
  | some t =>
    obtain ⟨e, he⟩ := exists_becomes htype
    rw [ofCommand_of_becomes he]
    constructor
    · intro types hall
      exact Raised.classify_wrap_of_becomes htype he (hall t)
    · intro _ _
      exact ⟨he, he.message_eq, he.kind_eq, he.trace_eq⟩
    · intro _ _ other texts
      exact ofCommand_of_becomes he other texts
    · intro message hother
      subst hother
      exact nomatch htype
  | none =>
    -- any other cause is known by its message alone
    obtain ⟨message, rfl⟩ := eq_other_of_type? htype
    constructor
    · intro types _
      exact Raised.classify_wrap_of_unknown htype types
    · intro t ht
      exact nomatch htype.symm.trans ht
    · intro t ht
      exact nomatch htype.symm.trans ht
    · intro other hother
      cases hother
      exact ⟨rfl, rfl, rfl⟩

/-- The failure of another command stays what it was, whoever passes it on and under whatever
    text.  A failure of the command's own has all its texts below it. -/
theorem ofCommand_told_report :
    let failed : DispatchError := .execution "app.Disk" ["flushing", "disk full"]
    (ofCommand "app.Report" ⟨["writing report"], .dispatch failed⟩ = failed ∧
      (Raised.wrap [] (.dispatch failed)).classify "app.Audit" CauseType.all = failed ∧
      failed.message = "command 'app.Disk' failed" ∧ failed.trace = ["flushing", "disk full"]) ∧
    ofCommand "app.Report" ⟨["writing report", "flushing"], .other "disk full"⟩ =
      .execution "app.Report" ["writing report", "flushing", "disk full"] := by
  intro failed
  have hknown := ofCommand_told "app.Audit" [] (.dispatch failed)
  have hunknown := ofCommand_told "app.Report" ["writing report", "flushing"] (.other "disk full")
  obtain ⟨-, hmessage, -, htrace⟩ := hknown.known .dispatch rfl
  have htried := hknown.tried CauseType.all CauseType.mem_all
  refine ⟨⟨hknown.anywhere .dispatch rfl _ _, htried, hmessage, htrace⟩, ?_⟩
  exact (hunknown.unknown "disk full" rfl).1

end DispatchError

end CommandBus
