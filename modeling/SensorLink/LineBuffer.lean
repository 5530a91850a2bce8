import SensorLink.Failure
import SensorLink.Limits
import SensorLink.Text.Utf8

/-! Lines out of a byte stream. CR LF ends a line; a CR or LF that is not part of that pair is dropped, as is
    NUL. A `>` with nothing before it is a line of its own and waits for no end. -/

namespace SensorLink

structure LineBuffer where
  /-- The bytes of the line so far, as many as fit. -/
  held : Bytes := []
  sawCr : Bool := false
  /-- How many bytes of the line did not fit. -/
  lost : Nat := 0
  deriving DecidableEq

namespace LineBuffer

inductive Event where
  | line (bytes : Bytes)
  | rejected (cause : LineRefusal)
  deriving DecidableEq

def cr : UInt8 := 13

def lf : UInt8 := 10

def nul : UInt8 := 0

/-- The mark with which the modem asks for raw data, `>`. -/
def prompt : UInt8 := 62

/-- The end of a line: an overlong line is refused whole and an empty one is none. -/
def endLine (buffer : LineBuffer) : LineBuffer × Option Event :=
  if buffer.lost > 0 then ({}, some (.rejected .overflow))
  else if buffer.held = [] then ({}, none)
  else ({}, some (.line buffer.held))

def store (buffer : LineBuffer) (byte : UInt8) : LineBuffer × Option Event :=
  if byte = prompt ∧ buffer.held = [] then ({ buffer with sawCr := false }, some (.line [prompt]))
  else if buffer.held.length < Limits.line then
    ({ buffer with held := buffer.held ++ [byte], sawCr := false }, none)
  else ({ buffer with lost := buffer.lost + 1, sawCr := false }, none)

def push (buffer : LineBuffer) (byte : UInt8) : LineBuffer × Option Event :=
  if byte = lf ∧ buffer.sawCr then buffer.endLine
  else if byte = cr then ({ buffer with sawCr := true }, none)
  else if byte = lf ∨ byte = nul then ({ buffer with sawCr := false }, none)
  else buffer.store byte

def pushAll (buffer : LineBuffer) : Bytes → LineBuffer × List Event
  | [] => (buffer, [])
  | byte :: rest =>
    let (buffer, event) := buffer.push byte
    let (buffer, events) := buffer.pushAll rest
    (buffer, event.toList ++ events)

theorem pushAll_append (buffer : LineBuffer) (first rest : Bytes) :
    buffer.pushAll (first ++ rest) =
      (((buffer.pushAll first).1.pushAll rest).1,
        (buffer.pushAll first).2 ++ ((buffer.pushAll first).1.pushAll rest).2) := by
  induction first generalizing buffer with
  | nil => simp [pushAll]
  | cons byte first ih => simp [pushAll, ih]

end LineBuffer
end SensorLink
