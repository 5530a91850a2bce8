import SensorLink.Command.Basic
import SensorLink.Settings

/-! The commands that bring up the modem and join and leave a network. -/

namespace SensorLink.Command

def probe : String := "AT"

def softReset : String := "AT+RST"

def echoOff : String := "ATE0"

def singleConnection : String := "AT+CIPMUX=0"

def join? (credentials : Credentials) : Option Command :=
  ofParts? [.plain "AT+CWJAP=", .quoted credentials.ssid, .plain ",", .quoted credentials.password]

/-- How the modem reports that it has joined. -/
def gotAddress : String := "WIFI GOT IP"

def leave : String := "AT+CWQAP"

end SensorLink.Command
