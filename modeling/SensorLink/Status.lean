/-! How far the modem has come: powered up, on the network, in a broker session. -/

namespace SensorLink

inductive Chip where
  | notReady
  | ready
  deriving DecidableEq

inductive Connectivity where
  | disconnected
  | connected
  deriving DecidableEq

structure Status where
  chip : Chip := .notReady
  link : Connectivity := .disconnected
  broker : Connectivity := .disconnected
  deriving DecidableEq

namespace Status

def isOnline (status : Status) : Bool := status.link = .connected && status.broker = .connected

/-- Link and broker session are gone. -/
def linkLost (status : Status) : Status :=
  { status with link := .disconnected, broker := .disconnected }

end Status
end SensorLink
