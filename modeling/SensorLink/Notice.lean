import SensorLink.Cut
import SensorLink.Failure
import SensorLink.Intake
import SensorLink.Text.Blank

/-! The modem's notification of a message: `+MQTTSUBRECV:<link>,"<topic>",<length>,<data>`. -/

namespace SensorLink

/-- A message as subscribers get it. -/
structure Message where
  topic : String
  data : Bytes
  deriving DecidableEq

def Message.text? (message : Message) : Option String := Text.decode? message.data

namespace Notice

/-- The value of a run of decimal digits. -/
def digits? (cs : List Char) : Option Nat :=
  if cs ≠ [] ∧ cs.all Char.isDigit then some (Nat.ofDigitChars 10 cs 0) else none

/-- A number below `bound`: digits with an optional plus sign, and blanks around them. -/
def number? (bound : Nat) (field : Bytes) : Option Nat := do
  let text ← Text.decode? field
  let n ← match Text.trim text.toList with
    | '+' :: cs => digits? cs
    | cs => digits? cs
  if n < bound then some n else none

/-- The topic and the data of a notification. Bytes beyond the announced length are ignored. -/
def split? (line : Bytes) : Option (Bytes × Bytes) := do
  let rest ← (Intake.noticeMark ++ Text.encode ":").isPrefixOf? line
  let (link, rest) ← Cut.once? (Text.encode ",") rest
  let _ ← number? UInt8.size link
  let rest ← (Text.encode "\"").isPrefixOf? rest
  let (topic, rest) ← Cut.once? (Text.encode "\",") rest
  let (length, data) ← Cut.once? (Text.encode ",") rest
  let length ← number? UInt64.size length
  if topic ≠ [] ∧ length ≤ data.length then some (topic, data.take length) else none

def parse (line : Bytes) : Except LineRefusal Message :=
  match split? line with
  | none => .error .malformedNotice
  | some (topic, data) =>
    match Text.decode? topic with
    | some topic => .ok { topic, data }
    | none => .error .notText

end Notice
end SensorLink
