import SensorLink.Command.Basic
import SensorLink.Settings
import SensorLink.Text.Utf8

/-! The commands of the modem's MQTT client: publish, subscribe, unsubscribe, and the broker session. -/

namespace SensorLink.Command

/-- The modem's only MQTT connection. -/
def linkId : Nat := 0

/-- How the modem asks for a payload that was announced. -/
def prompt : String := ">"

/-- How the modem reports that an announced payload is published. -/
def published : String := "+MQTTPUB:OK"

/-- How the modem reports that the broker session is open. -/
def sessionOpen : String := "+MQTTCONNECTED"

/-- Line breaks and NUL, which cannot stand in a command. -/
def isBreaking (c : Char) : Bool := c == '\r' || c == '\n' || c == '\x00'

/-- A payload as text that can stand in a command. -/
def inlineText? (payload : Bytes) : Option String :=
  (Text.decode? payload).filter fun text => !text.toList.any isBreaking

/-- How a message is published: with the payload in the command, or with a header that announces the payload's
    length and the payload sent on its own once the modem asks for it. -/
inductive PublishForm where
  | inline (command : Command)
  | raw (header : Command)
  deriving DecidableEq

def publishInline? (topic text : String) (qos : UInt8) (retain : Bool) : Option Command :=
  ofParts? [.plain "AT+MQTTPUB=", .number linkId, .plain ",", .quoted topic, .plain ",", .quoted text,
    .plain ",", .number qos.toNat, .plain ",", .number retain.toNat]

def publishHeader? (topic : String) (length : Nat) (qos : UInt8) (retain : Bool) : Option Command :=
  ofParts? [.plain "AT+MQTTPUBRAW=", .number linkId, .plain ",", .quoted topic, .plain ",", .number length,
    .plain ",", .number qos.toNat, .plain ",", .number retain.toNat]

/-- In the command if the payload allows it and the command fits, else announced. -/
def publish? (topic : String) (payload : Bytes) (qos : UInt8) (retain : Bool) : Option PublishForm :=
  match (inlineText? payload).bind fun text => publishInline? topic text qos retain with
  | some command => some (.inline command)
  | none => (publishHeader? topic payload.length qos retain).map .raw

def subscribe? (pattern : String) (qos : UInt8) : Option Command :=
  ofParts? [.plain "AT+MQTTSUB=", .number linkId, .plain ",", .quoted pattern, .plain ",",
    .number qos.toNat]

def unsubscribe? (pattern : String) : Option Command :=
  ofParts? [.plain "AT+MQTTUNSUB=", .number linkId, .plain ",", .quoted pattern]

/-- Who the node is to the broker, over plain TCP. -/
def userConfig? (broker : Broker) : Option Command :=
  ofParts? [.plain "AT+MQTTUSERCFG=", .number linkId, .plain ",1,", .quoted broker.clientId, .plain ",",
    .quoted broker.username, .plain ",", .quoted broker.password, .plain ",0,0,\"\""]

def openSession? (broker : Broker) : Option Command :=
  ofParts? [.plain "AT+MQTTCONN=", .number linkId, .plain ",", .quoted broker.host, .plain ",",
    .number broker.tcpPort.toNat, .plain ",", .number broker.reconnect.toNat]

def closeSession? : Option Command := ofParts? [.plain "AT+MQTTCLEAN=", .number linkId]

end SensorLink.Command
