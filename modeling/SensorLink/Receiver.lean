import SensorLink.Cut
import SensorLink.Intake
import SensorLink.Modem

/-! The receiving end of a serial line, read until it ends or fails. -/

namespace SensorLink.Receiver

/-- What a line has to give: bytes, none of which mean its end, or a failure. -/
inductive Chunk where
  | data (bytes : Bytes)
  | fault (cause : Fault)

/-- The most that one read gives. -/
def window : Nat := 64

structure Outcome where
  intake : Intake
  /-- What each read gave, the empty one at the end included if the line had one to give. -/
  reads : List Bytes
  rest : List Chunk
  fault : Option Fault

/-- Reads until the line has nothing more to give, gives nothing, or fails. -/
def run (intake : Intake) : List Chunk → Outcome
  | [] => { intake, reads := [], rest := [], fault := none }
  | .fault cause :: rest => { intake, reads := [], rest, fault := some cause }
  | .data [] :: rest => { intake, reads := [[]], rest, fault := none }
  | .data bytes :: rest =>
    let given := Cut.chunks window bytes
    let outcome := run (given.foldl Intake.feed intake) rest
    { outcome with reads := given ++ outcome.reads }

end SensorLink.Receiver
