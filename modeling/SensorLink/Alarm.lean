/-! The alarm of those who wait. Who does not find what it looks for sets the alarm for it. When that comes, the
    setting is used up and the alarm rings, whoever set it, and everyone is to look again. -/

namespace SensorLink

/-- What a task may wait for, time apart. -/
inductive Alarm.Event where
  /-- An answer in the slot. -/
  | answer
  /-- A notification in the inbound queue. -/
  | notice
  | closed
  /-- The modem, given back by the task that held it. -/
  | modem
  | posting
  | room
  deriving DecidableEq

structure Alarm where
  settings : List Alarm.Event := []
  ringing : Bool := false
  deriving DecidableEq

namespace Alarm

def set (alarm : Alarm) (event : Event) : Alarm :=
  { alarm with settings := alarm.settings.insert event }

/-- Gives up a setting, so that the event comes unnoticed. -/
def unset (alarm : Alarm) (event : Event) : Alarm :=
  { alarm with settings := alarm.settings.filter (· ≠ event) }

def announce (alarm : Alarm) (events : List Event) : Alarm where
  settings := alarm.settings.filter (· ∉ events)
  ringing := alarm.ringing || alarm.settings.any (· ∈ events)

/-- Everyone looks again now. -/
def stop (alarm : Alarm) : Alarm := { alarm with ringing := false }

end Alarm
end SensorLink
