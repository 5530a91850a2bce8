import SensorLink.Call
import SensorLink.Topic.Message

/-! Calls on structured topics: a node's own data, requests and commands, and those of its twins. -/

namespace SensorLink.Call
open Topic (Kind Label)

def switchOn : Bytes := Text.encode "1"

def switchOff : Bytes := Text.encode "0"

/-! ### Any kind of message -/

def publishOwn (kind : Kind) (id : Option Label) (payload : Bytes) : Call :=
  .publish .own (Topic.own kind id) payload

def publishToTwin (twin : Label) (kind : Kind) (id : Option Label) (payload : Bytes) : Call :=
  .publish .remote (Topic.ofTwin twin kind id) payload

def subscribeOwn (kind : Kind) (id : Option Label) (subscriber : Subscriber) : Call :=
  .subscribe .own (Topic.own kind id) subscriber

def subscribeToTwin (twin : Label) (kind : Kind) (id : Option Label) (subscriber : Subscriber) : Call :=
  .subscribe .remote (Topic.ofTwin twin kind id) subscriber

def unsubscribeOwn (kind : Kind) (id : Option Label) (subscriber : Subscriber) : Call :=
  .unsubscribe .own (Topic.own kind id) subscriber

def unsubscribeFromTwin (twin : Label) (kind : Kind) (id : Option Label) (subscriber : Subscriber) :
    Call :=
  .unsubscribe .remote (Topic.ofTwin twin kind id) subscriber

/-! ### The node's own topics -/

def publishData (id : Label) (value : Bytes) : Call := publishOwn .data (some id) value

def publishHeartbeat (who : String) : Call := publishOwn .heartbeat none (Text.encode who)

def subscribeForStart (id : Label) (subscriber : Subscriber) : Call :=
  subscribeOwn .start (some id) subscriber

def unsubscribeFromStart (id : Label) (subscriber : Subscriber) : Call :=
  unsubscribeOwn .start (some id) subscriber

def subscribeForStop (id : Label) (subscriber : Subscriber) : Call :=
  subscribeOwn .stop (some id) subscriber

def unsubscribeFromStop (id : Label) (subscriber : Subscriber) : Call :=
  unsubscribeOwn .stop (some id) subscriber

def subscribeForCommand (service : Label) (subscriber : Subscriber) : Call :=
  subscribeOwn .command (some service) subscriber

def unsubscribeFromCommand (service : Label) (subscriber : Subscriber) : Call :=
  unsubscribeOwn .command (some service) subscriber

/-! ### The topics of a twin -/

/-- Asks a twin to start `id` for `receiver`. -/
def publishStart (twin id : Label) (receiver : String) : Call :=
  publishToTwin twin .start (some id) (Text.encode receiver)

def publishStop (twin id : Label) (receiver : String) : Call :=
  publishToTwin twin .stop (some id) (Text.encode receiver)

def publishCommand (twin service : Label) (command : Bytes) : Call :=
  publishToTwin twin .command (some service) command

def publishOn (twin service : Label) : Call := publishCommand twin service switchOn

def publishOff (twin service : Label) : Call := publishCommand twin service switchOff

def subscribeForData (twin id : Label) (subscriber : Subscriber) : Call :=
  subscribeToTwin twin .data (some id) subscriber

def unsubscribeFromData (twin id : Label) (subscriber : Subscriber) : Call :=
  unsubscribeFromTwin twin .data (some id) subscriber

def subscribeForHeartbeat (source : Label) (subscriber : Subscriber) : Call :=
  subscribeToTwin source .heartbeat none subscriber

def unsubscribeFromHeartbeat (source : Label) (subscriber : Subscriber) : Call :=
  unsubscribeFromTwin source .heartbeat none subscriber

/-- The broker announces on this topic that the twin is gone. -/
def subscribeForLost (twin : Label) (subscriber : Subscriber) : Call :=
  subscribeToTwin twin .lost none subscriber

def unsubscribeFromLost (twin : Label) (subscriber : Subscriber) : Call :=
  unsubscribeFromTwin twin .lost none subscriber

end SensorLink.Call
