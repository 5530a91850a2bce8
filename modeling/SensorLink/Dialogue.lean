import SensorLink.Failure
import SensorLink.Link

/-! What a task that holds the modem does with it, one request after the other. A question is put in the slot
    before it is written, so that no answer can come too early; its time runs from the end of the last write;
    and however it ends, no question is left waiting in the slot. -/

namespace SensorLink.Dialogue

inductive Request where
  /-- Writes the parts and waits for a line that starts with `expected`. -/
  | ask (parts : List Bytes) (expected : String) (timeout : Nat)
  | send (parts : List Bytes)
  | pause (duration : Nat)
  | clear
  deriving DecidableEq

/-- The answer that a request waits for once it is written. -/
structure Expectation where
  generation : UInt32
  timeout : Nat
  deriving DecidableEq

inductive Hold where
  | writing (due : Nat) (rule : Modem.Rule) (rest : List Bytes) (expectation : Option Expectation)
  | listening (generation : UInt32) (deadline : Nat)
  | pausing (due : Nat)
  deriving DecidableEq

/-- What followed the expected start of the answer; nothing for a request without an answer. -/
abbrev Result := Except (Failure Fault) String

inductive Progress where
  | waiting (hold : Hold)
  | finished (result : Result)

def lineEnd : Bytes := [LineBuffer.cr, LineBuffer.lf]

def line (text : String) : List Bytes := [Text.encode text, lineEnd]

def Request.command (text expected : String) (timeout : Nat) : Request := .ask (line text) expected timeout

theorem line_eq (text : String) : line text = [Text.encode text, Text.encode "\r\n"] := by
  have hend : lineEnd = Text.encode "\r\n" := by decide
  rw [line, hend]

/-- All parts are written: the answer may be there already. -/
def listen (link : Link) : Option Expectation → Link × Progress
  | none => (link, .finished (.ok ""))
  | some ⟨generation, timeout⟩ =>
    match link.look generation with
    | (link, some answer) => (link, .finished (.ok answer))
    | (link, none) => (link, .waiting (.listening generation (link.clock + timeout)))

/-- A request that is given up before all parts are written. -/
def giveUp (link : Link) : Option Expectation → Link
  | none => link
  | some expectation => link.forget expectation.generation

/-- What a run of writes means to the request it belongs to. -/
def proceed (expectation : Option Expectation) : Link × Link.Transmission → Link × Progress
  | (link, .complete) => listen link expectation
  | (link, .failed fault) => (giveUp link expectation, .finished (.error (.transport fault)))
  | (link, .stalled due rule rest) => (link, .waiting (.writing due rule rest expectation))

def start (link : Link) : Request → Link × Progress
  | .ask parts expected timeout =>
    match link.ask expected with
    | .error .busy => (link, .finished (.error .busy))
    | .error .prefixTooLong => (link, .finished (.error .commandTooLong))
    | .ok (link, generation) => proceed (some ⟨generation, timeout⟩) (link.transmit parts)
  | .send parts => proceed none (link.transmit parts)
  | .pause duration => (link, .waiting (.pausing (link.clock + duration)))
  | .clear => (link.clear, .finished (.ok ""))

/-- Looks again at a request that waits. An answer that is there at the deadline still counts. -/
def resume (link : Link) : Hold → Link × Progress
  | .writing due rule rest expectation =>
    if due ≤ link.clock then proceed expectation (link.resumeTransmit rule rest)
    else (link, .waiting (.writing due rule rest expectation))
  | .listening generation deadline =>
    match link.lookAgain generation with
    | (link, some answer) => (link, .finished (.ok answer))
    | (link, none) =>
      if deadline ≤ link.clock then (link.forget generation, .finished (.error .timeout))
      else (link, .waiting (.listening generation deadline))
  | .pausing due =>
    if due ≤ link.clock then (link, .finished (.ok "")) else (link, .waiting (.pausing due))

def cancel (link : Link) : Hold → Link
  | .writing _ _ _ expectation => giveUp link expectation
  | .listening generation _ => link.forget generation
  | .pausing _ => link

/-- When time alone moves a request on. -/
def Hold.deadline : Hold → Nat
  | .writing due .. => due
  | .listening _ deadline => deadline
  | .pausing due => due

end SensorLink.Dialogue
