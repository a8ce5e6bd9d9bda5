import CommandBus.Parameter.Parameters
import CommandBus.Proofs.History
import CommandBus.Proofs.Parameter.Binding

/-!
# Values written over parameters

Parameters are made of nothing, of a map, of the members of a document or of an instance, and values
are then written over them and removed from them in any order.  What a name stands for is what the
last of these calls about it says, and what the parameters were made of only where there is none: a
removed value is a null that was written, and a null is no value wherever it stands.

## Key results

- `source_after`: what a name stands for is told by the last call about it
- `ParameterOrigin.baseSource_eq_some_iff`: what a name stands for where there is no such call
- `last_write_wins`: what a name stands for, and what plays no part in it; no source has a null
-/

namespace CommandBus

/-! ## What is below -/

/-- What parameters are made of. -/
inductive ParameterOrigin where
  | nothing
  | map (values : Entries Value)
  | document (members : Entries Json)
  | prototype {β : Type} (b : Bindable β) (object : β)

namespace ParameterOrigin

/-- The parameters that are made. -/
def parameters : ParameterOrigin → Parameters
  | .nothing => .empty
  | .map values => .ofEntries values
  | .document members => .ofJson members
  | .prototype b object => .ofPrototype b object

/-- There is a value under the name, and it is not null. -/
inductive Has : ParameterOrigin → String → Value → Prop where
  | map {values : Entries Value} {name : String} {v : Value}
    (hv : Entries.get? name values = some v) (hnull : v ≠ .null) : Has (.map values) name v
  | document {members : Entries Json} {name : String} {j : Json}
    (hj : Entries.get? name members = some j) (hnull : j ≠ .null) :
    Has (.document members) name (Value.ofJson j)
  | prototype {β : Type} {b : Bindable β} {object : β} {name : String} {v : Value}
    (hv : b.read object name = some v) (hnull : v ≠ .null) : Has (.prototype b object) name v

/-- Only a null is read as a null. -/
theorem ofJson_eq_null_iff {j : Json} : Value.ofJson j = .null ↔ j = .null := by
  cases j with
  | integer n =>
    rw [Value.ofJson]
    split <;> simp
  | _ => simp [Value.ofJson]

theorem get?_ofJson (members : Entries Json) (name : String) :
    Entries.get? name (members.map fun (key, j) => (key, Value.ofJson j)) =
      (Entries.get? name members).map Value.ofJson :=
  Entries.get?_mapValues Value.ofJson name members

/-- Parameters that nothing was written over have the values that they were made of. -/
theorem baseSource_eq_some_iff {origin : ParameterOrigin} {name : String} {v : Value} :
    origin.parameters.baseSource name = some v ↔ origin.Has name v := by
  -- each base has what is not null in it
  cases origin with
  | nothing => exact ⟨fun h => (nomatch h), fun h => (nomatch h)⟩
  | map values =>
    refine Source.present_eq_some_iff.trans ⟨fun ⟨hv, hnull⟩ => .map hv hnull, fun h => ?_⟩
    cases h with
    | map hv hnull => exact ⟨hv, hnull⟩
  | document members =>
    refine Source.present_eq_some_iff.trans ?_
    rw [get?_ofJson, Option.map_eq_some_iff]
    constructor
    · rintro ⟨⟨j, hj, rfl⟩, hnull⟩
      exact .document hj fun h => hnull (ofJson_eq_null_iff.2 h)
    · intro h
      cases h with
      | document hj hnull => exact ⟨⟨_, hj, rfl⟩, fun h => hnull (ofJson_eq_null_iff.1 h)⟩
  | prototype b object =>
    refine Source.present_eq_some_iff.trans ⟨fun ⟨hv, hnull⟩ => .prototype hv hnull, fun h => ?_⟩
    cases h with
    | prototype hv hnull => exact ⟨hv, hnull⟩

end ParameterOrigin

/-! ## What is on top -/

/-- A call that writes a value over parameters, or removes one. -/
inductive LayerCall where
  | insert (name : String) (value : Value)
  | remove (name : String)

namespace LayerCall

/-- The name that a call is about. -/
def name : LayerCall → String
  | .insert name _ => name
  | .remove name => name

/-- The value that a call writes: a null where one is removed. -/
def written : LayerCall → Value
  | .insert _ value => value
  | .remove _ => .null

end LayerCall

namespace Parameters

/-- Parameters after a call. -/
def call (p : Parameters) : LayerCall → Parameters
  | .insert name value => p.insert name value
  | .remove name => p.remove name

/-- Parameters after calls in turn. -/
def after (p : Parameters) (calls : List LayerCall) : Parameters := calls.foldl call p

theorem call_eq_insert (p : Parameters) (c : LayerCall) : p.call c = p.insert c.name c.written := by
  cases c <;> rfl

/-- Calls do not reach what is below. -/
theorem baseSource_after (p : Parameters) (calls : List LayerCall) :
    (p.after calls).baseSource = p.baseSource := by
  induction calls generalizing p with
  | nil => rfl
  | cons c rest ih =>
    refine (ih (p.call c)).trans ?_
    rw [call_eq_insert]
    rfl

/-- On top is what the last call about a name has written. -/
theorem get?_overrides_after (p : Parameters) (calls : List LayerCall) (name : String) :
    Entries.get? name (p.after calls).overrides =
      ((calls.reverse.find? fun c => c.name == name).map LayerCall.written).or
        (Entries.get? name p.overrides) := by
  -- every call writes one entry: a value, or null for a removal
  have hwrites : (p.after calls).overrides =
      (calls.map fun c => (c.name, c.written)).foldl
        (fun m e => Entries.insert e.1 e.2 m) p.overrides := by
    induction calls generalizing p with
    | nil => rfl
    | cons c rest ih =>
      refine (ih (p.call c)).trans ?_
      rw [call_eq_insert]
      rfl
  rw [hwrites, Entries.get?_foldl_insert, ← List.map_reverse, List.find?_map, Option.map_map]
  rfl

/-- A name stands for what the last call about it wrote, and for what is below if there is none. -/
theorem source_after (origin : ParameterOrigin) (calls : List LayerCall) (name : String) :
    (origin.parameters.after calls).source name =
      match calls.reverse.find? fun c => c.name == name with
      | some c => Source.present (some c.written)
      | none => origin.parameters.baseSource name := by
  have hempty : origin.parameters.overrides = [] := by cases origin <;> rfl
  rw [source, get?_overrides_after, hempty, Entries.get?_nil, Option.or_none, baseSource_after]
  cases calls.reverse.find? fun c => c.name == name with
  | none => rfl
  | some c =>
    show (if c.written.isNull then none else some c.written) = Source.present (some c.written)
    rw [Source.present, Option.filter_some]
    cases c.written.isNull <;> rfl

variable {origin : ParameterOrigin} {calls : List LayerCall} {name : String}

theorem source_of_lastOn {c : LayerCall} (h : LastOn LayerCall.name calls name c) :
    (origin.parameters.after calls).source name = Source.present (some c.written) := by
  rw [source_after, find?_reverse_eq_some_iff.2 h]

theorem source_of_untouched (h : ∀ c ∈ calls, c.name ≠ name) :
    (origin.parameters.after calls).source name = origin.parameters.baseSource name := by
  rw [source_after, find?_reverse_eq_none_iff.2 h]

/-- What a name stands for in parameters that were made and written over. -/
structure LastWriteWins (origin : ParameterOrigin) (calls : List LayerCall)
    (now : Parameters) : Prop where
  /-- A value that was written last is there, -/
  written : ∀ name v, LastOn LayerCall.name calls name (.insert name v) → v ≠ .null →
    now.source name = some v
  /-- nothing is there if the last call removed the value or wrote a null, -/
  hidden : ∀ name, LastOn LayerCall.name calls name (.remove name) ∨
    LastOn LayerCall.name calls name (.insert name .null) → now.source name = none
  /-- and if there is no call, the value that the parameters were made of. -/
  untouched : ∀ name, (∀ c ∈ calls, c.name ≠ name) →
    ∀ v, now.source name = some v ↔ origin.Has name v
  /-- Calls about other names can be left out. -/
  others : ∀ name, now.source name =
    (origin.parameters.after (calls.filter fun c => c.name == name)).source name
  /-- A value that was removed can be written again. -/
  again : ∀ name v, v ≠ .null →
    (origin.parameters.after (calls ++ [.remove name, .insert name v])).source name = some v

end Parameters

/-- A source that is made of nothing, a map or an instance, or is that of parameters. -/
inductive Source.IsMade : Source → Prop where
  | none : IsMade Source.none
  | entries (values : Entries Value) : IsMade (Source.ofEntries values)
  | prototype {β : Type} (b : Bindable β) (object : β) : IsMade (Source.ofPrototype b object)
  | parameters (origin : ParameterOrigin) (calls : List LayerCall) :
    IsMade (origin.parameters.after calls).source

namespace Parameters

theorem lastWriteWins (origin : ParameterOrigin) (calls : List LayerCall) :
    LastWriteWins origin calls (origin.parameters.after calls) := by
  constructor
  case written =>
    intro name v hlast hnull
    rw [source_of_lastOn hlast]
    exact Source.present_eq_some_iff.2 ⟨rfl, hnull⟩
  case hidden =>
    rintro name (hlast | hlast)
    · exact source_of_lastOn hlast
    · exact source_of_lastOn hlast
  case untouched =>
    intro name hnone v
    rw [source_of_untouched hnone]
    exact ParameterOrigin.baseSource_eq_some_iff
  case others =>
    intro name
    -- the calls on other names are not looked at, whether there is one on this name or none
    rcases lastOn_or_none LayerCall.name calls name with ⟨c, hlast⟩ | hnone
    · rw [source_of_lastOn hlast, source_of_lastOn (lastOn_filter.2 hlast)]
    · have hfilter : calls.filter (fun c => c.name == name) = [] := by simpa using hnone
      rw [source_of_untouched hnone, hfilter]
      exact (source_of_untouched (List.forall_mem_nil _)).symm
  case again =>
    intro name v hnull
    have hlast : LastOn LayerCall.name (calls ++ [.remove name, .insert name v]) name
        (.insert name v) := ⟨calls ++ [.remove name], [], by simp, rfl, List.forall_mem_nil _⟩
    rw [source_of_lastOn hlast]
    exact Source.present_eq_some_iff.2 ⟨rfl, hnull⟩

/-- No source has a null. -/
theorem source_ne_null {source : Source} (h : source.IsMade) (name : String) :
    source name ≠ some .null := by
  have hpresent : ∀ v : Option Value, Source.present v ≠ some .null := fun v hv =>
    (Source.present_eq_some_iff.1 hv).2 rfl
  cases h with
  | none => exact nofun
  | entries values => exact hpresent _
  | prototype b object => exact hpresent _
  | parameters origin calls =>
    -- the last call decides, and without one the base does
    rcases lastOn_or_none LayerCall.name calls name with ⟨c, hlast⟩ | hnone
    · rw [source_of_lastOn hlast]
      exact hpresent _
    · rw [source_of_untouched hnone]
      cases origin with
      | nothing => exact nofun
      | _ => exact hpresent _

/-- Values that are written over parameters and removed from them, in any order and over whatever
    the parameters were made of: the last call about a name wins, calls about other names play no
    part in it, and no source has a null. -/
theorem last_write_wins :
    (∀ (origin : ParameterOrigin) (calls : List LayerCall),
      LastWriteWins origin calls (origin.parameters.after calls)) ∧
    ∀ source : Source, source.IsMade → ∀ name, source name ≠ some .null :=
  ⟨lastWriteWins, fun _ h => source_ne_null h⟩

/-- A value that was removed and written again, one that was removed, one that is still that of the
    document, and nulls of both kinds. -/
theorem last_write_wins_again :
    let origin := ParameterOrigin.document
      [("again", .bool true), ("gone", .string "x"), ("kept", .string "y"), ("null", .null)]
    let calls : List LayerCall :=
      [.remove "again", .remove "gone", .insert "again" (.string "z"), .insert "hidden" .null]
    let now := origin.parameters.after calls
    now.source "again" = some (.string "z") ∧ now.source "gone" = none ∧
      now.source "hidden" = none ∧ now.source "kept" = some (.string "y") ∧
      now.source.IsMade ∧ ∀ name, now.source name ≠ some .null := by
  intro origin calls now
  have hwins : LastWriteWins origin calls now := last_write_wins.1 origin calls
  have hmade : now.source.IsMade := .parameters origin calls
  -- the name was hidden first and written again after it
  have hagain : LastOn LayerCall.name calls "again" (.insert "again" (.string "z")) :=
    ⟨[.remove "again", .remove "gone"], [.insert "hidden" .null], rfl, rfl, by decide⟩
  have hgone : LastOn LayerCall.name calls "gone" (.remove "gone") :=
    ⟨[.remove "again"], [.insert "again" (.string "z"), .insert "hidden" .null], rfl, rfl,
      by decide⟩
  have hhidden : LastOn LayerCall.name calls "hidden" (.insert "hidden" .null) :=
    ⟨[.remove "again", .remove "gone", .insert "again" (.string "z")], [], rfl, rfl, by decide⟩
  have hkept : origin.Has "kept" (.string "y") := .document (j := .string "y") rfl nofun
  exact ⟨hwins.written _ _ hagain nofun, hwins.hidden _ (.inl hgone),
    hwins.hidden _ (.inr hhidden), (hwins.untouched "kept" (by decide) _).2 hkept, hmade,
    last_write_wins.2 _ hmade⟩

end Parameters

end CommandBus
