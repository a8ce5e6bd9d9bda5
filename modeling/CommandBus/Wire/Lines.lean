import CommandBus.Bytes.Utf8
import CommandBus.Text.Blank
import CommandBus.Wire.Handler

/-! # The line protocol

Every line of the input is a request, and every line of the output the response to one, in
order.  Blank lines are passed over; a line that is no request is answered with an error and
stops nothing.

`serve` answers lines.  `serveBytes` cuts bytes into lines first and stops at the first line
that is no text. -/

namespace CommandBus

/-- The output for some lines: the responses, written, and how many there are of them. -/
structure Served where
  lines : List String := []
  requests : Nat := 0
  failures : Nat := 0
  deriving DecidableEq, Repr

namespace Served

/-- The output with a response put in front. -/
def add (response : Response) (rest : Served) : Served :=
  ⟨response.toJson.render :: rest.lines, rest.requests + 1,
    rest.failures + if response.isSuccess then 0 else 1⟩

end Served

namespace Response

/-- The answer to a line that is no request. -/
def malformed (id : String) (e : Json.Error) : Response :=
  { id := id, error := some ⟨"malformed request: " ++ e.message, .protocolMismatch, []⟩ }

end Response

namespace Lines

open Text

/-- Whether a line is passed over. -/
def isBlankLine (line : String) : Bool := (trim line.toList).isEmpty

/-- Bytes cut at line feeds, a carriage return before one being part of it. -/
def cut : List UInt8 → List (List UInt8)
  | [] => []
  | b :: rest =>
    if b = 10 then [] :: cut rest
    else match cut rest with
      | [] => [[b]]
      | line :: lines =>
        if b = 13 ∧ rest.head? = some 10 then line :: lines else (b :: line) :: lines

/-- The texts of lines up to the first line that is no text, and whether there is none. -/
def texts : List (List UInt8) → List String × Bool
  | [] => ([], true)
  | line :: rest =>
    match Bytes.toText? line with
    -- the lines in front of it are answered, those behind it are not looked at
    | none => ([], false)
    | some s =>
      let (lines, complete) := texts rest
      (s :: lines, complete)

end Lines

namespace Dispatcher

variable {σ : Type}

/-- Answer a line that is not blank. -/
def answerLine (d : Dispatcher σ) (freshId line : String) (r : Runtime σ) :
    Response × Runtime σ :=
  match Request.codec.parse line with
  | .ok request => d.handle freshId request r
  | .error e => (Response.malformed freshId e, r)

/-- Answer lines; `ids` gives the fresh id of every response, counted from `index`. -/
def serve (d : Dispatcher σ) (ids : Nat → String) :
    (index : Nat) → List String → Runtime σ → Served × Runtime σ
  | _, [], r => ({}, r)
  | index, line :: rest, r =>
    if Lines.isBlankLine line then serve d ids index rest r
    else
      let (response, r) := d.answerLine (ids index) line r
      let (served, r) := serve d ids (index + 1) rest r
      (served.add response, r)

/-- The error of an input that is no text. -/
def notTextMessage : String := "stream did not contain valid UTF-8"

/-- Answer the lines of bytes, and tell whether all of them are texts. -/
def serveBytes (d : Dispatcher σ) (ids : Nat → String) (bytes : List UInt8) (r : Runtime σ) :
    Served × Bool × Runtime σ :=
  let (lines, complete) := Lines.texts (Lines.cut bytes)
  let (served, r) := d.serve ids 0 lines r
  (served, complete, r)

end Dispatcher

end CommandBus
