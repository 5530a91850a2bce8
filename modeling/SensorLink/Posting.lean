import SensorLink.Identity
import SensorLink.Limits
import SensorLink.Text.Utf8

/-! Postings: publishes that a task hands over to the one that talks to the modem. -/

namespace SensorLink

structure Posting where
  scope : Scope
  topic : String
  payload : Bytes
  topicFits : topic.utf8ByteSize ≤ Limits.topic
  payloadFits : payload.length ≤ Limits.payload
  deriving DecidableEq

inductive PostRefusal where
  | topicTooLong
  | payloadTooLarge
  | queueFull
  deriving DecidableEq

def Posting.ofParts (scope : Scope) (topic : String) (payload : Bytes) : Except PostRefusal Posting :=
  if htopic : topic.utf8ByteSize ≤ Limits.topic then
    if hpayload : payload.length ≤ Limits.payload then .ok ⟨scope, topic, payload, htopic, hpayload⟩
    else .error .payloadTooLarge
  else .error .topicTooLong

end SensorLink
