/-! What can go wrong, by cause, with the wording of each cause. -/

namespace SensorLink

/-- Why a topic, a segment or a part of an identity is refused. -/
inductive TopicRefusal where
  | empty
  | tooLong
  | containsSeparator
  | invalidWildcard
  | wildcardInConcrete
  deriving DecidableEq

def TopicRefusal.message : TopicRefusal → String
  | .empty => "empty topic"
  | .tooLong => "topic too long"
  | .containsSeparator => "segment contains '/'"
  | .invalidWildcard => "misplaced wildcard"
  | .wildcardInConcrete => "wildcard in concrete topic"

/-- Why a received line is refused. -/
inductive LineRefusal where
  | malformedNotice
  | overflow
  | notText
  deriving DecidableEq

def LineRefusal.message : LineRefusal → String
  | .malformedNotice => "malformed async line"
  | .overflow => "line overflow"
  | .notText => "invalid utf-8"

/-- Why an operation of the node failed; `ε` is what the transport reports. -/
inductive Failure (ε : Type) where
  | transport (cause : ε)
  | timeout
  | busy
  | chipNotReady
  | alreadyConnected
  | notConnected
  | joinFailed
  | leaveFailed
  | brokerRefused
  | commandTooLong
  | topic (cause : TopicRefusal)
  | tableFull
  deriving DecidableEq

namespace Failure
variable {ε : Type}

/-- A fixed wording, whatever the transport reported. -/
def summary : Failure ε → String
  | .transport _ => "transport error"
  | .timeout => "command timed out"
  | .busy => "command already in flight"
  | .chipNotReady => "modem not ready"
  | .alreadyConnected => "already connected"
  | .notConnected => "not connected"
  | .joinFailed => "network join failed"
  | .leaveFailed => "network leave failed"
  | .brokerRefused => "broker refused session"
  | .commandTooLong => "command too long"
  | .topic cause => cause.message
  | .tableFull => "subscription table full"

/-- The wording with the transport's own report, written by `report`. -/
def message (report : ε → String) : Failure ε → String
  | .transport cause => "transport: " ++ report cause
  | failure => failure.summary

end Failure
end SensorLink
