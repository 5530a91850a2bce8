import SensorLink.Identity
import SensorLink.Link
import SensorLink.Posting
import SensorLink.Settings
import SensorLink.Status
import SensorLink.Notice
import SensorLink.Subscriptions

/-! The state of a whole node. -/

namespace SensorLink

structure Delivery where
  subscriber : Subscriber
  message : Message
  deriving DecidableEq

structure Node where
  link : Link := {}
  identity : Identity := .anonymous
  messaging : MessagingOptions := {}
  table : Subscriptions
  uplink : UplinkOptions := {}
  status : Status := {}
  /-- The postings that wait to be published, oldest first. -/
  queue : List Posting := []
  depth : Nat
  deliveries : List Delivery := []
  deriving DecidableEq

namespace Node

def withIntake (node : Node) (intake : Intake) : Node :=
  { node with link := { node.link with intake } }

def withSlot (node : Node) (slot : Slot) : Node := { node with link := node.link.withSlot slot }

def setAlarm (node : Node) (event : Alarm.Event) : Node := { node with link := node.link.setAlarm event }

def announce (node : Node) (event : Alarm.Event) : Node := { node with link := node.link.announce [event] }

/-- Everyone is visited now. -/
def stopAlarm (node : Node) : Node := { node with link := { node.link with alarm := node.link.alarm.stop } }

/-- Nobody waits any more. -/
def resetAlarm (node : Node) : Node := { node with link := { node.link with alarm := {} } }

def acquire (node : Node) : Node := { node with link := { node.link with held := true } }

def release (node : Node) : Node := { node with link := { node.link with held := false } }.announce .modem

def feed (node : Node) (data : Bytes) : Node := { node with link := node.link.feed data }

def advance (node : Node) (time : Nat) : Node := { node with link := node.link.advance time }

end Node
end SensorLink
