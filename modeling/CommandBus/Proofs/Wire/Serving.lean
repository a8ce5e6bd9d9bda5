import CommandBus.Proofs.Json.Grammar
import CommandBus.Proofs.Wire.Lines
import CommandBus.Sample.Command

/-!
# Serving lines

The output for some lines is that of the responses to them, `Served.ofResponses`: blank lines
leave nothing behind, neither in the output nor in the state.  From one line to the next the state
and the number of responses go on, and nothing else, so that a run over lines is a run over the
first of them and then one over the others.

## Key results

- `serve_eq`: what is served are the responses to the lines that are not blank
- `getElem?_answerLines`: every response is the answer to its line, in the state that the lines
  in front leave
- `serve_append`: lines may be served in two runs
- `serve_answers_each`: every line of the output is the answer to a line of the input
-/

namespace CommandBus

/-! ## Output -/

namespace Served

/-- The output of responses. -/
def ofResponses (responses : List Response) : Served where
  lines := responses.map fun response => response.toJson.render
  requests := responses.length
  failures := responses.countP fun response => response.error.isSome

/-- One output behind another. -/
def append (first second : Served) : Served :=
  ⟨first.lines ++ second.lines, first.requests + second.requests,
    first.failures + second.failures⟩

/-- The text of an output, every line of which ends with a line feed. -/
def text (served : Served) : List Char := served.lines.flatMap fun line => line.toList ++ ['\n']

/-- The text has the lines of the output and no others. -/
theorem cut_text {served : Served}
    (h : ∀ line ∈ served.lines, '\n' ∉ line.toList ∧ '\r' ∉ line.toList) :
    Lines.Cut served.text (served.lines.map String.toList) := by
  -- the lines of the output are strings, and a text is cut into lists of characters
  have hjoined : Lines.Cut ((served.lines.map String.toList).flatMap fun cs => cs ++ ['\n'])
      (served.lines.map String.toList) :=
    Lines.cut_joined (List.forall_mem_map.2 h)
  rwa [List.flatMap_map] at hjoined

theorem ofResponses_cons (response : Response) (rest : List Response) :
    ofResponses (response :: rest) = (ofResponses rest).add response := by
  unfold ofResponses add Response.isSuccess
  rw [List.map_cons, List.length_cons, List.countP_cons]
  cases response.error <;> rfl

theorem ofResponses_append (first second : List Response) :
    ofResponses (first ++ second) = (ofResponses first).append (ofResponses second) := by
  unfold ofResponses append
  rw [List.map_append, List.length_append, List.countP_append]

end Served

namespace Response

/-- A response is written as an object. -/
theorem isObject_render (response : Response) : Json.IsObject response.toJson.render.toList := by
  rw [Json.render, String.toList_ofList]
  exact Json.isObject_chars _

end Response

namespace Lines

/-- A document is one line. -/
theorem not_mem_of_isObject {cs : List Char} (h : Json.IsObject cs) : '\n' ∉ cs ∧ '\r' ∉ cs :=
  ⟨fun hmem => absurd (h.value.printable _ hmem) (by decide),
    fun hmem => absurd (h.value.printable _ hmem) (by decide)⟩

/-- The lines that are answered. -/
def requests (lines : List String) : List String :=
  lines.filter fun line => line.toList.any fun c => !Text.isBlank c

theorem requests_cons (line : String) (rest : List String) :
    requests (line :: rest) =
      if isBlankLine line then requests rest else line :: requests rest := by
  have hblank : isBlankLine line = !line.toList.any fun c => !Text.isBlank c := by
    rw [Bool.eq_iff_iff, isBlankLine_iff]
    simp
  rw [hblank, requests, List.filter_cons]
  cases line.toList.any fun c => !Text.isBlank c <;> rfl

theorem requests_append (first second : List String) :
    requests (first ++ second) = requests first ++ requests second :=
  List.filter_append _ _

/-- Of lines that are answered, all are. -/
theorem requests_take (lines : List String) (k : Nat) :
    requests ((requests lines).take k) = (requests lines).take k := by
  refine List.filter_eq_self.2 fun line h => ?_
  have hmem : line ∈ requests lines := List.mem_of_mem_take h
  exact (List.mem_filter.1 hmem).2

end Lines

/-! ## Responses -/

namespace Dispatcher

variable {σ : Type}

/-- Answer lines none of which is passed over. -/
def answerLines (d : Dispatcher σ) (ids : Nat → String) :
    (index : Nat) → List String → Runtime σ → List Response × Runtime σ
  | _, [], r => ([], r)
  | index, line :: rest, r =>
    let (response, r) := d.answerLine (ids index) line r
    let (responses, r) := answerLines d ids (index + 1) rest r
    (response :: responses, r)

variable (d : Dispatcher σ) (ids : Nat → String)

/-- What is served are the responses to the lines that are not blank. -/
theorem serve_eq (index : Nat) (lines : List String) (r : Runtime σ) :
    d.serve ids index lines r =
      (Served.ofResponses (d.answerLines ids index (Lines.requests lines) r).1,
        (d.answerLines ids index (Lines.requests lines) r).2) := by
  induction lines generalizing index r with
  | nil => rfl
  | cons line rest ih =>
    rw [serve, Lines.requests_cons]
    by_cases hblank : Lines.isBlankLine line = true
    · -- a blank line takes no id and leaves the state as it is
      rw [if_pos hblank, if_pos hblank]
      exact ih index r
    · rw [if_neg hblank, if_neg hblank, answerLines, Served.ofResponses_cons]
      simp only [ih]

theorem length_answerLines (index : Nat) (lines : List String) (r : Runtime σ) :
    (d.answerLines ids index lines r).1.length = lines.length := by
  induction lines generalizing index r with
  | nil => rfl
  | cons line rest ih =>
    rw [answerLines, List.length_cons, List.length_cons, ih]

/-- Every response is the answer to its line, in the state that the lines in front leave. -/
theorem getElem?_answerLines (index k : Nat) (lines : List String) (r : Runtime σ) :
    (d.answerLines ids index lines r).1[k]? = lines[k]?.map fun line =>
      (d.answerLine (ids (index + k)) line (d.answerLines ids index (lines.take k) r).2).1 := by
  induction lines generalizing index k r with
  | nil => rfl
  | cons line rest ih =>
    cases k with
    | zero => rfl
    | succ k =>
      -- the first line is one of those in front of every other line
      rw [answerLines, List.getElem?_cons_succ, List.getElem?_cons_succ, List.take_succ_cons,
        answerLines, ih, Nat.add_right_comm, Nat.add_assoc]

/-- Ids that are counted from further on are other ids. -/
theorem answerLines_shift (n index : Nat) (lines : List String) (r : Runtime σ) :
    d.answerLines ids (n + index) lines r =
      d.answerLines (fun k => ids (n + k)) index lines r := by
  induction lines generalizing index r with
  | nil => rfl
  | cons line rest ih => simp only [answerLines, Nat.add_assoc, ih]

theorem answerLines_append (index : Nat) (first second : List String) (r : Runtime σ) :
    d.answerLines ids index (first ++ second) r =
      let before := d.answerLines ids index first r
      let behind := d.answerLines ids (index + first.length) second before.2
      (before.1 ++ behind.1, behind.2) := by
  induction first generalizing index r with
  | nil => rfl
  | cons line rest ih =>
    simp only [List.cons_append, answerLines, ih, List.length_cons, Nat.add_assoc,
      Nat.add_comm 1]

/-! ## Two runs -/

/-- Lines may be served in two runs: the second one goes on with the state and the ids where the
    first one ended. -/
theorem serve_append (first second : List String) (r : Runtime σ) :
    d.serve ids 0 (first ++ second) r =
      let before := d.serve ids 0 first r
      let behind := d.serve (fun k => ids (before.1.requests + k)) 0 second before.2
      (before.1.append behind.1, behind.2) := by
  -- ids are counted by the responses, and a blank line has none
  have hcount : ∀ lines : List String, (Served.ofResponses
      (d.answerLines ids 0 (Lines.requests lines) r).1).requests =
        (Lines.requests lines).length := fun lines => d.length_answerLines ids 0 _ r
  simp only [serve_eq, Lines.requests_append, answerLines_append, Served.ofResponses_append, hcount]
  rw [Nat.zero_add, ← Nat.add_zero (Lines.requests first).length, answerLines_shift]
  rfl

/-- The bytes of a text are served as its lines are. -/
theorem serveBytes_ofText {text : String} {lines : List String}
    (h : Lines.Cut text.toList (lines.map String.toList)) (r : Runtime σ) :
    d.serveBytes ids (Bytes.ofText text) r =
      ((d.serve ids 0 lines r).1, true, (d.serve ids 0 lines r).2) := by
  rw [serveBytes, Lines.texts_cut_ofText h]

/-- Behind a line feed a text may be cut, too, and served in two runs. -/
theorem serveBytes_append (text more : String) (r : Runtime σ) :
    d.serveBytes ids (Bytes.ofText (text ++ "\n" ++ more)) r =
      let before := d.serveBytes ids (Bytes.ofText (text ++ "\n")) r
      let behind := d.serveBytes (fun k => ids (before.1.requests + k)) (Bytes.ofText more)
        before.2.2
      (before.1.append behind.1, true, behind.2.2) := by
  obtain ⟨first, hfirst⟩ := Lines.exists_lines (text ++ "\n")
  obtain ⟨second, hsecond⟩ := Lines.exists_lines more
  have hboth : Lines.Cut (text ++ "\n" ++ more).toList ((first ++ second).map String.toList) := by
    rw [String.toList_append, List.map_append]
    exact hfirst.append (.inr (by simp)) hsecond
  simp only [serveBytes_ofText d _ hboth, serveBytes_ofText d _ hfirst,
    serveBytes_ofText d _ hsecond, serve_append]

/-! ## Every line -/

/-- What a run over lines gives none of which is passed over: one response for every line, one
    after the other, and each of them written as a line. -/
structure AnswersEach (d : Dispatcher σ) (ids : Nat → String) (r : Runtime σ)
    (lines : List String) (responses : List Response) (served : Served) : Prop where
  count : responses.length = lines.length
  /-- A line that is no request is told so. -/
  malformed : ∀ k line e, lines[k]? = some line → Request.codec.parse line = .error e →
    ∃ response, responses[k]? = some response ∧ response.id = ids k ∧ response.result = none ∧
      response.error = some ⟨"malformed request: " ++ e.message, .protocolMismatch, []⟩
  /-- A request is handled in the state that the lines in front of it leave. -/
  understood : ∀ k line request, lines[k]? = some line →
    Request.codec.parse line = .ok request →
    responses[k]? = some (d.handle (ids k) request (d.serve ids 0 (lines.take k) r).2).1
  written : served.lines = responses.map fun response => response.toJson.render
  objects : ∀ line ∈ served.lines, Json.IsObject line.toList ∧ '\n' ∉ line.toList ∧
    '\r' ∉ line.toList
  /-- The output has these lines and no others. -/
  framed : Lines.Cut served.text (served.lines.map String.toList)
  requests : served.requests = served.lines.length
  failures : served.failures = responses.countP fun response => response.error.isSome

/-- The lines of an output are documents of their own. -/
theorem isObject_of_mem_ofResponses {responses : List Response} {line : String}
    (h : line ∈ (Served.ofResponses responses).lines) :
    Json.IsObject line.toList ∧ '\n' ∉ line.toList ∧ '\r' ∉ line.toList := by
  obtain ⟨response, -, rfl⟩ := List.mem_map.1 h
  have hobject := response.isObject_render
  exact ⟨hobject, Lines.not_mem_of_isObject hobject⟩

/-- The lines that are not blank are answered one after the other. -/
theorem answersEach_serve (lines : List String) (r : Runtime σ) :
    d.AnswersEach ids r (Lines.requests lines)
      (d.answerLines ids 0 (Lines.requests lines) r).1 (d.serve ids 0 lines r).1 := by
  -- the counters and the text are made of the answers to the lines
  rw [serve_eq]
  exact {
    count := d.length_answerLines ids 0 _ r
    malformed := fun k line e hline he => by
      refine ⟨.malformed (ids k) e, ?_, rfl, rfl, rfl⟩
      rw [getElem?_answerLines, hline, Option.map_some, answerLine, he, Nat.zero_add]
    understood := fun k line request hline hrequest => by
      rw [serve_eq, Lines.requests_take, getElem?_answerLines, hline, Option.map_some, answerLine,
        hrequest, Nat.zero_add]
    written := rfl
    objects := fun _ => isObject_of_mem_ofResponses
    framed := Served.cut_text fun _ hline => (isObject_of_mem_ofResponses hline).2
    requests := (List.length_map _).symm
    failures := rfl }

/-- Let any text come in.  It has lines, all of them are looked at, and every one that has a
    character in it which is no blank is answered with one line of the output: in order, with an
    object without line feeds and carriage returns in it, whether the line is a request or not.
    As many requests are counted as there are lines in the output, and as many failures as there
    are errors among them.  Further lines, and a further text behind a line feed, are served as
    if they came in later: their output is put behind, and the counts are added. -/
theorem serve_answers_each (text : String) (r : Runtime σ) :
    (∃ (lines : List String) (responses : List Response),
      Lines.Cut text.toList (lines.map String.toList) ∧
      (d.serveBytes ids (Bytes.ofText text) r).2.1 = true ∧
      d.AnswersEach ids r (lines.filter fun line => line.toList.any fun c => !Text.isBlank c)
        responses (d.serveBytes ids (Bytes.ofText text) r).1) ∧
    (∀ first second : List String, d.serve ids 0 (first ++ second) r =
      let before := d.serve ids 0 first r
      let behind := d.serve (fun k => ids (before.1.requests + k)) 0 second before.2
      (before.1.append behind.1, behind.2)) ∧
    ∀ more : String, d.serveBytes ids (Bytes.ofText (text ++ "\n" ++ more)) r =
      let before := d.serveBytes ids (Bytes.ofText (text ++ "\n")) r
      let behind := d.serveBytes (fun k => ids (before.1.requests + k)) (Bytes.ofText more)
        before.2.2
      (before.1.append behind.1, true, behind.2.2) := by
  refine ⟨?_, fun first second => d.serve_append ids first second r,
    fun more => d.serveBytes_append ids text more r⟩
  obtain ⟨lines, hlines⟩ := Lines.exists_lines text
  refine ⟨lines, (d.answerLines ids 0 (Lines.requests lines) r).1, hlines, ?_⟩
  -- the bytes are those of a text, so that they are read to the end
  rw [serveBytes_ofText d ids hlines]
  exact ⟨rfl, d.answersEach_serve ids lines r⟩

/-- A line that is no request and a blank line do not keep a request from being answered. -/
example :
    let d : Dispatcher Sample.Log :=
      ⟨{}, { root := "app", byName := .single "app.Alpha" (Sample.commandAt {} 0) }, .standard,
        none, []⟩
    let input := "not json\n \n\x7b\"protocol-version\":\"1\",\"command\":\"Alpha\"\x7d\r\n"
    let served := (d.serveBytes (fun _ => "x") (Bytes.ofText input) { world := [] }).1
    served.requests = 2 ∧ served.failures = 1 := by
  decide +kernel

end Dispatcher

end CommandBus
