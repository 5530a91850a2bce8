/-! What an application tells its node: options, the network to join and the broker to talk to. Durations are
    in microseconds. -/

namespace SensorLink

structure MessagingOptions where
  /-- How long the modem has for each answer. -/
  commandTimeout : Nat := 1000000
  /-- How often a subscription is tried again. -/
  subscribeRetries : UInt8 := 3
  qos : UInt8 := 0
  retain : Bool := false
  deriving DecidableEq

namespace MessagingOptions

def withCommandTimeout (options : MessagingOptions) (timeout : Nat) : MessagingOptions :=
  { options with commandTimeout := timeout }

def withSubscribeRetries (options : MessagingOptions) (retries : UInt8) : MessagingOptions :=
  { options with subscribeRetries := retries }

/-- Anything above 1 counts as 1. -/
def withQos (options : MessagingOptions) (qos : UInt8) : MessagingOptions :=
  { options with qos := if qos ≤ 1 then qos else 1 }

def withRetain (options : MessagingOptions) (retain : Bool) : MessagingOptions :=
  { options with retain }

end MessagingOptions

structure UplinkOptions where
  /-- How long a freshly reset modem has to answer. -/
  probeTimeout : Nat := 100000
  /-- How long to wait before a silent modem is reset again. -/
  probeRetryDelay : Nat := 1000000
  /-- How long a reset takes. -/
  resetSettle : Nat := 500000
  configTimeout : Nat := 100000
  /-- How often the choice of single connections is tried again. -/
  configRetries : UInt8 := 2
  joinTimeout : Nat := 10000000
  leaveTimeout : Nat := 5000000
  brokerTimeout : Nat := 5000000
  deriving DecidableEq

structure Credentials where
  ssid : String
  password : String
  deriving DecidableEq

structure Broker where
  host : String
  tcpPort : UInt16
  clientId : String
  username : String := ""
  password : String := ""
  /-- The modem is to reconnect on its own when the broker drops it. -/
  reconnect : Bool := false
  deriving DecidableEq

/-- The usual time between two attempts to connect. -/
def retryDelay : Nat := 1000000

end SensorLink
