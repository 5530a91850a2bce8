import SensorLink.Failure
import SensorLink.Limits
import SensorLink.Text.Store
import SensorLink.Topic.Levels

/-! Structured topics: `<kind>[/<id>]` for a node's own messages and `<twin>/<kind>[/<id>]` for those of a
    twin. -/

namespace SensorLink.Topic

inductive Kind where
  | data
  | heartbeat
  | start
  | stop
  | command
  | lost
  deriving DecidableEq

def Kind.tag : Kind → String
  | .data => "DATA"
  | .heartbeat => "HEARTBEAT"
  | .start => "START"
  | .stop => "STOP"
  | .command => "COMMAND"
  | .lost => "LOST"

/-- A name that fills one level of a topic. -/
structure Label where
  text : String
  nonempty : text ≠ ""
  singleLevel : separator ∉ text.toList
  fits : text.utf8ByteSize ≤ Limits.label

def Label.ofText (value : String) : Except TopicRefusal Label :=
  if hempty : value = "" then .error .empty
  else if hlevel : separator ∈ value.toList then .error .containsSeparator
  else if hfits : value.utf8ByteSize ≤ Limits.label then .ok ⟨value, hempty, hlevel, hfits⟩
  else .error .tooLong

/-- A store for a topic with one more part behind what it holds. A separator or a part that does not fit is left
    out, each for itself. -/
def addPart (held part : String) : String :=
  (Text.put Limits.topic (Text.put Limits.topic held (String.singleton separator)).1 part).1

/-- The topic of some parts, as far as a store for topics takes them. -/
def build : List String → String
  | [] => ""
  | first :: rest => rest.foldl addPart (Text.put Limits.topic "" first).1

def own (kind : Kind) (id : Option Label) : String :=
  build (kind.tag :: (id.map Label.text).toList)

/-- A topic of the node that `twin` names. -/
def ofTwin (twin : Label) (kind : Kind) (id : Option Label) : String :=
  build (twin.text :: kind.tag :: (id.map Label.text).toList)

end SensorLink.Topic
