import SensorLink.Alarm
import SensorLink.LineBuffer
import SensorLink.Slot

/-! The receiving side of the link to the modem. Every line goes to exactly one place: notifications to the
    inbound queue, `CLOSED` to a flag, the answer to the question that waits to the slot, and all else
    nowhere. -/

namespace SensorLink

structure Intake where
  buffer : LineBuffer := {}
  slot : Slot := {}
  /-- The notifications that wait to be delivered, oldest first. -/
  inbound : List Bytes := []
  /-- The modem has reported that the link went down, and nobody has taken note yet. -/
  closed : Bool := false
  deriving DecidableEq

namespace Intake

/-- How every notification of a message starts. -/
def noticeMark : Bytes := Text.encode "+MQTTSUBRECV"

def closedMark : Bytes := Text.encode "CLOSED"

inductive Destination where
  | inbound
  | closed
  | slot
  | nowhere
  deriving DecidableEq

/-- Puts a line where it belongs. A notification that finds the queue full is dropped. -/
def route (intake : Intake) (line : Bytes) : Intake × Destination :=
  if noticeMark.isPrefixOf line then
    if intake.inbound.length < Limits.inbound then
      ({ intake with inbound := intake.inbound ++ [line] }, .inbound)
    else (intake, .inbound)
  else if line = closedMark then ({ intake with closed := true }, .closed)
  else match Text.decode? line with
    | none => (intake, .nowhere)
    | some text =>
      match intake.slot.hear text with
      | (slot, true) => ({ intake with slot }, .slot)
      | (_, false) => (intake, .nowhere)

def receive (intake : Intake) (byte : UInt8) : Intake :=
  match intake.buffer.push byte with
  | (buffer, some (.line line)) => ({ intake with buffer }.route line).1
  | (buffer, _) => { intake with buffer }

def feed (intake : Intake) (bytes : Bytes) : Intake := bytes.foldl receive intake

theorem feed_append (intake : Intake) (first rest : Bytes) :
    intake.feed (first ++ rest) = (intake.feed first).feed rest := by
  simp [feed]

def next? (intake : Intake) : Option (Bytes × Intake) :=
  match intake.inbound with
  | [] => none
  | line :: rest => some (line, { intake with inbound := rest })

/-- Takes note of a report that the link went down, and tells whether there was one. -/
def noteClosed (intake : Intake) : Intake × Bool := ({ intake with closed := false }, intake.closed)

def events (intake : Intake) : List Alarm.Event :=
  (if intake.slot.wakeUp.isSome then [.answer] else []) ++
    (if intake.inbound.isEmpty then [] else [.notice]) ++ (if intake.closed then [.closed] else [])

/-- Forgets partial input, queued notifications and a report not yet noted; a question keeps waiting. -/
def clear (intake : Intake) : Intake := { slot := intake.slot }

end Intake
end SensorLink
