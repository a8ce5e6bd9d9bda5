import CommandBus.Proofs.Json.Rereading
import CommandBus.Wire.Request
import CommandBus.Wire.Response

/-!
# Reading back requests and responses

A request or a response is written as a document, and is read from a document or from the text of
one.  What is left out of a document is unset, and what is empty but set is written, so that all
comes back from the document.  One thing does not: a result that is null is written, since it is
set, but is read as no result.  The text brings the limits of its reader: double precision numbers
that are not read as themselves, and brackets that are too deep.

## Key results

- `Request.decode_toJson`, `Request.parse_render_iff`: what comes back of a request
- `Response.decode_toJson`: what comes back of a response, all but a null result
- `Response.decode_eq_self_iff`, `Response.parse_render_iff`: which responses come back
- `shapes_come_back`: requests, and the responses to a value and to an error
-/

namespace CommandBus

open Json (Codec Reads Gives)
open Json.Codec (Gathers Fills)

/-! ## Requests -/

namespace Request

private theorem ordered_credentialsJson (cs : Credentials) : (credentialsJson cs).Ordered := by
  refine Json.ordered_object_iff.2 ⟨(cs.mapValues Json.string).sorted, fun m hm => ?_⟩
  obtain ⟨e, -, rfl⟩ := List.mem_map.1 hm
  rfl

private theorem decode_credentials (cs : Credentials) :
    (Codec.optional (.entries .string)).decode (credentialsJson cs) = .ok (some cs) :=
  Codec.decode_optional Json.noConfusion (Codec.decode_entries (fun _ => rfl) cs)

private theorem reads_credentials (cs : Credentials) :
    Reads ((Codec.optional (.entries .string)).read 127) (credentialsJson cs).chars (some cs) := by
  have hentries : Reads ((Codec.entries .string).read 127) (credentialsJson cs).chars cs :=
    Codec.reads_entries (fun _ => rfl) (by decide) fun e _ => Json.reads_string _ e.2
  rw [credentialsJson, Json.chars] at hentries ⊢
  exact Json.reads_optional (by decide) (by decide) hentries

private theorem reads_id (id : String) :
    Reads ((Codec.optional .string).read 127) (Json.string id).chars (some id) :=
  Json.reads_optional (by decide) (by decide) (Json.reads_string _ id)

/-- The members of a request in key order. -/
private theorem sorted_toJson (request : Request) :
    request.toJson.sorted = .object
      ((request.credentials.map fun cs => ("auth", credentialsJson cs)).toList
        ++ (("command", .string request.command)
          :: (request.id.map fun id => ("id", Json.string id)).toList)
        ++ [("parameters", .object request.members),
          ("protocol-version", .string request.version)]) := by
  obtain ⟨id, version, command, parameters, credentials⟩ := request
  -- every member is in order in itself
  have hid : ∀ m ∈ (id.map fun id => ("id", Json.string id)).toList, m.2.Ordered := by
    intro m hm
    obtain ⟨s, -, rfl⟩ := Option.map_eq_some_iff.1 (Option.mem_toList.1 hm)
    rfl
  have hauth : ∀ m ∈ (credentials.map fun cs => ("auth", credentialsJson cs)).toList,
      m.2.Ordered := by
    intro m hm
    obtain ⟨cs, -, rfl⟩ := Option.map_eq_some_iff.1 (Option.mem_toList.1 hm)
    exact ordered_credentialsJson cs
  rw [toJson, Json.sorted_object_of_ordered]
  · -- the keys are put in order whatever their values are
    cases id <;> cases credentials <;>
      simp only [Option.map_none, Option.map_some, Option.toList_none, Option.toList_some,
        List.nil_append, List.cons_append, List.append_nil, Entries.ofList, List.foldl_cons,
        List.foldl_nil, Entries.insert, String.reduceEq, String.reduceLT, if_true, if_false]
  · simp only [List.forall_mem_append, List.forall_mem_cons]
    exact ⟨⟨hid, rfl, rfl, Document.ordered_object parameters, List.forall_mem_nil _⟩, hauth⟩

/-- A request comes back from its document. -/
theorem decode_toJson (request : Request) :
    codec.decode request.toJson.sorted = .ok request := by
  rw [sorted_toJson]
  obtain ⟨id, version, command, parameters, credentials⟩ := request
  have hmembers := Json.decode_members parameters
  -- the members are gathered in the order of their keys
  refine Codec.decode_record
    (.append (.append
        (?credentials : Fills _ _ _ { credentials := credentials.map some })
        (?id : Fills _ _ _
          { id := id.map some, command := some command, credentials := credentials.map some }))
      (.field rfl rfl (Codec.decode_field hmembers _ _ _ _ _) (.field rfl rfl rfl .nil))) ?finish _
  case credentials =>
    cases credentials with
    | none => exact .nil
    | some cs =>
      have hcs := decode_credentials cs
      exact .field rfl rfl (Codec.decode_field hcs _ _ _ _ _) .nil
  case id =>
    cases id with
    | none => exact .field rfl rfl rfl .nil
    | some id => exact .field rfl rfl rfl (.field rfl rfl rfl .nil)
  case finish => cases id <;> cases credentials <;> rfl

/-- A request is read as what its parameters are. -/
private theorem gives_toJson {request : Request} {outcome : Option (SortedEntries Document)}
    (hparameters : Gives ((Codec.entries .document).read 127) (Json.object request.members).chars
      outcome) :
    Gives (codec.read Json.maxDepth) request.toJson.chars
      (outcome.map fun ps => { request with parameters := ps }) := by
  obtain ⟨id, version, command, parameters, credentials⟩ := request
  -- the parameters are the only member that may not be read
  have hmembers : toJson ⟨id, version, command, parameters, credentials⟩ = .object
      (((id.map fun id => ("id", Json.string id)).toList
          ++ [("protocol-version", .string version), ("command", .string command)])
        ++ ("parameters", .object (Entries.mapValues Document.json parameters.entries))
          :: (credentials.map fun cs => ("auth", credentialsJson cs)).toList) := by
    simp [toJson, members]
  rw [hmembers]
  refine Codec.gives_record
    (.append (?id : Gathers _ _ _ _ { id := id.map some })
      (.field rfl rfl (Codec.reads_field (Json.reads_string _ _) _ _ _ _ _)
        (.field rfl rfl (Codec.reads_field (Json.reads_string _ _) _ _ _ _ _) .nil)))
    rfl rfl (Codec.gives_field hparameters _ _ _ _ _) (fun ps => ?credentials) (by decide) _
  case id =>
    cases id with
    | none => exact .nil
    | some id => exact .field rfl rfl (Codec.reads_field (reads_id id) _ _ _ _ _) .nil
  case credentials =>
    cases credentials with
    | none => exact ⟨_, .nil, by cases id <;> rfl⟩
    | some cs =>
      have hcs := reads_credentials cs
      exact ⟨_, .field rfl rfl (Codec.reads_field hcs _ _ _ _ _) .nil, by cases id <;> rfl⟩

/-- A request comes back from its text if and only if its parameters are legible inside of its own
    brace, which takes one of the 128 levels. -/
theorem parse_render_iff (request : Request) :
    codec.parse request.toJson.render = .ok request ↔
      (Json.object request.members).Legible 127 := by
  obtain ⟨outcome, hparameters, hlegible⟩ :=
    Json.exists_gives_members (show 126 ≠ 0 by decide) request.parameters
  rw [Codec.parse_eq_ok_iff (gives_toJson hparameters)]
  refine Iff.trans ?_ hlegible
  obtain ⟨id, version, command, parameters, credentials⟩ := request
  cases outcome with
  | none => simp
  | some ps => simp

end Request

/-! ## Errors -/

namespace ErrorBody

private theorem variantOf_name (k : ErrorKind) :
    Codec.variantOf (ErrorKind.all.map fun k => (k.name, k)) k.name = .ok k := by
  cases k <;> rfl

private theorem ordered_trace (trace : List String) :
    (Json.array (trace.map Json.string)).Ordered := by
  refine Json.ordered_array_iff.2 fun j hj => ?_
  obtain ⟨s, -, rfl⟩ := List.mem_map.1 hj
  rfl

/-- The members of an error in key order. -/
theorem sorted_toJson (e : ErrorBody) : e.toJson.sorted = .object
    [("message", .string e.message), ("trace", .array (e.trace.map Json.string)),
      ("type", .string e.kind.name)] := by
  rw [toJson, Json.sorted_object_of_ordered]
  · simp only [Entries.ofList, List.foldl_cons, List.foldl_nil, Entries.insert, String.reduceEq,
      String.reduceLT, if_true, if_false]
  · simp only [List.forall_mem_cons]
    exact ⟨rfl, rfl, ordered_trace e.trace, List.forall_mem_nil _⟩

theorem decode_toJson (e : ErrorBody) : codec.decode e.toJson.sorted = .ok e := by
  have htrace : (Codec.list .string).decode (.array (e.trace.map Json.string)) = .ok e.trace :=
    Codec.decode_list (fun _ => rfl) e.trace
  have hkind : (Codec.variants (ErrorKind.all.map fun k => (k.name, k))).decode
      (.string e.kind.name) = .ok e.kind := variantOf_name e.kind
  rw [sorted_toJson]
  apply Codec.decode_record
  · exact .field rfl rfl rfl (.field rfl rfl (Codec.decode_field htrace _ _ _ _ _)
      (.field rfl rfl (Codec.decode_field hkind _ _ _ _ _) .nil))
  · rfl

theorem reads_toJson (e : ErrorBody) : Reads (codec.read 127) e.toJson.chars e := by
  have htrace : Reads ((Codec.list .string).read 126)
      (Json.array (e.trace.map Json.string)).chars e.trace :=
    Codec.reads_list (fun _ => rfl) (by decide) fun s _ => Json.reads_string _ s
  have hkind := Json.reads_variants (variantOf_name e.kind) 126
  unfold codec toJson
  apply Codec.reads_record
  · exact .field rfl rfl (Codec.reads_field (Json.reads_string _ _) _ _ _ _ _)
      (.field rfl rfl (Codec.reads_field hkind _ _ _ _ _)
        (.field rfl rfl (Codec.reads_field htrace _ _ _ _ _) .nil))
  · rfl
  · decide

end ErrorBody

/-! ## Responses -/

namespace Response

/-- What is read of the result of a response: null is none. -/
def heard : Option Document → Option Document
  | some ⟨.null, _⟩ => none
  | result => result

theorem heard_eq_self_iff {result : Option Document} :
    heard result = result ↔ ∀ d ∈ result, d.json ≠ .null := by
  unfold heard
  split
  · simp
  · next h =>
    refine ⟨fun _ d hd hnull => ?_, fun _ => rfl⟩
    obtain ⟨j, hj⟩ := d
    subst hnull
    exact h hj hd

private theorem decode_result (d : Document) :
    (Codec.optional .document).decode d.json = .ok (heard (some d)) := by
  by_cases hnull : d.json = .null
  · obtain ⟨j, hj⟩ := d
    subst hnull
    rfl
  · have hheard : heard (some d) = some d := by
      rw [heard_eq_self_iff]
      rintro _ ⟨⟩
      exact hnull
    rw [hheard]
    exact Codec.decode_optional hnull (Json.decode_document d)

private theorem decode_error (e : ErrorBody) :
    (Codec.optional ErrorBody.codec).decode e.toJson.sorted = .ok (some e) := by
  have hne : e.toJson.sorted ≠ .null := by
    rw [ErrorBody.sorted_toJson]
    exact Json.noConfusion
  exact Codec.decode_optional hne e.decode_toJson

/-- The members of a response in key order. -/
private theorem sorted_toJson (response : Response) :
    response.toJson.sorted = .object
      ((response.error.map fun e => ("error", e.toJson.sorted)).toList
        ++ ("id", .string response.id)
          :: (response.result.map fun d => ("result", d.json)).toList) := by
  obtain ⟨id, result, error⟩ := response
  rw [toJson, Json.sorted_object]
  cases result <;> cases error <;>
    simp only [Option.map_none, Option.map_some, Option.toList_none, Option.toList_some,
      List.nil_append, List.cons_append, Entries.mapValues, List.map_cons, List.map_nil,
      Json.sorted, Document.sorted_json, Entries.ofList, List.foldl_cons, List.foldl_nil,
      Entries.insert, String.reduceEq, String.reduceLT, if_true, if_false]

/-- A response comes back from its document, all but a null result. -/
theorem decode_toJson (response : Response) :
    codec.decode response.toJson.sorted =
      .ok { response with result := heard response.result } := by
  rw [sorted_toJson]
  obtain ⟨id, result, error⟩ := response
  refine Codec.decode_record
    (.append (?error : Fills _ _ _ { error := error.map some })
      (.field rfl rfl rfl (?result : Fills _ _ _
        { id := some id, result := result.map fun d => heard (some d),
          error := error.map some }))) ?finish _
  case error =>
    cases error with
    | none => exact .nil
    | some e => exact .field rfl rfl (Codec.decode_field (decode_error e) _ _ _ _ _) .nil
  case result =>
    cases result with
    | none => exact .nil
    | some d => exact .field rfl rfl (Codec.decode_field (decode_result d) _ _ _ _ _) .nil
  case finish => cases result <;> cases error <;> rfl

theorem decode_eq_self_iff {response : Response} :
    codec.decode response.toJson.sorted = .ok response ↔
      ∀ d ∈ response.result, d.json ≠ .null := by
  rw [decode_toJson, ← heard_eq_self_iff]
  obtain ⟨id, result, error⟩ := response
  simp

private theorem reads_error (e : ErrorBody) :
    Reads ((Codec.optional ErrorBody.codec).read 127) e.toJson.chars (some e) := by
  have hread := e.reads_toJson
  rw [ErrorBody.toJson, Json.chars] at hread ⊢
  exact Json.reads_optional (by decide) (by decide) hread

/-- What is read of a result from its text. -/
private def heard? : Json → Option (Option Document)
  | .null => some none
  | j => ((j.reread? 127).map Document.ofJson).map some

private theorem gives_result (j : Json) :
    Gives ((Codec.optional .document).read 127) j.chars (heard? j) := by
  unfold heard?
  split
  · exact Json.reads_optional_null 127
  · next hj =>
    -- what does not start with an n is read as a document
    obtain ⟨c, cs, hchars, hspace, -, hn⟩ := Json.exists_chars_cons j
    have hread := Json.gives_document 127 j
    rw [hchars] at hread ⊢
    exact Json.gives_optional (fun hc => hj (hn hc)) hspace hread

private theorem heard?_eq_self_iff {d : Document} :
    heard? d.json = some (some d) ↔ d.json ≠ .null ∧ d.json.Legible 127 := by
  unfold heard?
  split
  · next hnull => simp [hnull]
  · next hnull =>
    rw [← Json.map_ofJson_reread?_iff, and_iff_right hnull]
    simp

/-- A response with a result is read as what its result is. -/
private theorem gives_toJson (id : String) (d : Document) (error : Option ErrorBody) :
    Gives (codec.read Json.maxDepth) (toJson ⟨id, some d, error⟩).chars
      ((heard? d.json).map fun result => ⟨id, result, error⟩) := by
  have hid := Json.reads_string 127 id
  unfold codec
  refine Codec.gives_record (.field rfl rfl (Codec.reads_field hid _ _ _ _ _) .nil) rfl rfl
    (Codec.gives_field (gives_result d.json) _ _ _ _ _) (fun result => ?error) (by decide) _
  cases error with
  | none => exact ⟨_, .nil, rfl⟩
  | some e => exact ⟨_, .field rfl rfl (Codec.reads_field (reads_error e) _ _ _ _ _) .nil, rfl⟩

/-- One without comes back. -/
private theorem reads_toJson (id : String) (error : Option ErrorBody) :
    Reads (codec.read Json.maxDepth) (toJson ⟨id, none, error⟩).chars ⟨id, none, error⟩ := by
  have hid := Json.reads_string 127 id
  unfold codec
  refine Codec.reads_record (.field rfl rfl (Codec.reads_field hid _ _ _ _ _)
    (?error : Gathers _ _ _ _ { id := some id, error := error.map some })) ?finish (by decide) _
  case error =>
    cases error with
    | none => exact .nil
    | some e => exact .field rfl rfl (Codec.reads_field (reads_error e) _ _ _ _ _) .nil
  case finish => cases error <;> rfl

/-- A response comes back from its text if and only if its result, if there is one, is not null
    and is legible inside of the brace. -/
theorem parse_render_iff {response : Response} :
    codec.parse response.toJson.render = .ok response ↔
      ∀ d ∈ response.result, d.json ≠ .null ∧ d.json.Legible 127 := by
  obtain ⟨id, result, error⟩ := response
  cases result with
  | none => simp [Codec.parse_of_reads (reads_toJson id error)]
  | some d =>
    rw [Codec.parse_eq_ok_iff (gives_toJson id d error)]
    simp [← heard?_eq_self_iff]

/-- A null result is read as none. -/
theorem parse_render_null (id : String) (error : Option ErrorBody) :
    codec.parse (toJson ⟨id, some (.ofJson .null), error⟩).render = .ok ⟨id, none, error⟩ :=
  (Codec.parse_eq_ok_iff (gives_toJson id (.ofJson .null) error)).2 rfl

end Response

/-! ## Answers -/

/-- The value is told as something else than null: it is not null and, if it is a double precision
    number, finite. -/
def Value.Telling (v : Value) : Prop := v ≠ .null ∧ ∀ x, v = .double x → x.isFinite = true

theorem Value.toJson_ne_null_iff {v : Value} : v.toJson ≠ .null ↔ v.Telling := by
  cases v <;> simp [toJson, Telling]

/-- Putting members in order makes no document null. -/
theorem Json.sorted_eq_null_iff {j : Json} : j.sorted = .null ↔ j = .null := by
  cases j <;> simp [sorted]

/-- Requests and responses come back from their documents, but for results that are null, which
    come back as no result.  From their texts they come back if they are legible, too. -/
theorem shapes_come_back (request : Request) (id : String) (v : Value) (e : DispatchError) :
    (Request.codec.decode request.toJson.sorted = .ok request ∧
      (Request.codec.parse request.toJson.render = .ok request ↔
        (Json.object request.members).Legible 127)) ∧
    ((Response.codec.decode (Response.success id v).toJson.sorted = .ok (Response.success id v) ↔
        v.Telling) ∧
      (Response.codec.parse (Response.success id v).toJson.render = .ok (Response.success id v) ↔
        v.Telling ∧ v.toJson.sorted.Legible 127) ∧
      (¬v.Telling →
        Response.codec.decode (Response.success id v).toJson.sorted = .ok { id := id } ∧
        Response.codec.parse (Response.success id v).toJson.render = .ok { id := id })) ∧
    (Response.codec.decode (Response.failure id e).toJson.sorted = .ok (Response.failure id e) ∧
      Response.codec.parse (Response.failure id e).toJson.render =
        .ok (Response.failure id e)) := by
  have htelling : (Document.ofJson v.toJson).json ≠ .null ↔ v.Telling :=
    (not_congr Json.sorted_eq_null_iff).trans Value.toJson_ne_null_iff
  -- a failure has no result, so that all that is asked of one holds
  have hnone : ∀ P : Document → Prop, ∀ d ∈ (Response.failure id e).result, P d :=
    fun _ _ h => nomatch h
  refine ⟨⟨Request.decode_toJson request, Request.parse_render_iff request⟩, ⟨?_, ?_, ?_⟩,
    ?_, ?_⟩
  · rw [Response.decode_eq_self_iff, ← htelling]
    simp [Response.success]
  · rw [Response.parse_render_iff, ← htelling]
    simp [Response.success, Document.ofJson]
  · -- the other values are written as null
    intro h
    have hnull : v.toJson = .null := not_not.1 (mt Value.toJson_ne_null_iff.1 h)
    rw [Response.decode_toJson, Response.success, hnull]
    exact ⟨rfl, Response.parse_render_null id none⟩
  · exact Response.decode_eq_self_iff.2 (hnone _)
  · exact Response.parse_render_iff.2 (hnone _)

/-- Nulls inside of a document, and credentials that are set but empty, come back. -/
theorem shapes_come_back_nested :
    let request : Request :=
      { version := "1", command := "a.B", credentials := some .empty,
        parameters := .ofList [("x", .ofJson (.array [.null, .double ⟨0x3FE0000000000000⟩])),
          ("y", .ofJson (.object []))] }
    let response := Response.success "7" (.map [("x", .list [.null])])
    Request.codec.parse request.toJson.render = .ok request ∧
      Response.codec.parse response.toJson.render = .ok response := by
  intro request response
  have hcomes := shapes_come_back request "7" (.map [("x", .list [.null])]) (.noSuchCommand "a.B")
  have hlegible : (Json.object request.members).Legible 127 := by decide +kernel
  have htold : (Value.map [("x", .list [.null])]).toJson.sorted.Legible 127 := by decide +kernel
  have htelling : (Value.map [("x", .list [.null])]).Telling := ⟨nofun, nofun⟩
  exact ⟨hcomes.1.2.2 hlegible, hcomes.2.1.2.1.2 ⟨htelling, htold⟩⟩

/-- The result null is set and written, and what is read has none. -/
theorem null_result_lost :
    (Response.success "7" .null).toJson.render = "\x7b\"id\":\"7\",\"result\":null\x7d" ∧
    Response.codec.decode (Response.success "7" .null).toJson.sorted = .ok { id := "7" } ∧
    Response.codec.decode (Response.success "7" .null).toJson.sorted ≠
      .ok (Response.success "7" .null) := by
  have hdecode : Response.codec.decode (Response.success "7" .null).toJson.sorted =
      .ok { id := "7" } := rfl
  refine ⟨by decide, hdecode, fun h => ?_⟩
  have hresult := congrArg Response.result (Except.ok.inj (hdecode.symm.trans h))
  exact nomatch hresult

end CommandBus
