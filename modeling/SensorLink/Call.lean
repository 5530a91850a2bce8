import SensorLink.Step

/-! The operations of a node, as an application calls them. A call does nothing until it is first
    visited. -/

namespace SensorLink

inductive Call where
  -- What happens around the node.
  | feed (data : Bytes)
  | schedule (delay : Nat) (data : Bytes)
  | setRules (rules : List Modem.Rule)
  | sleep (duration : Nat)
  /-- Holds the modem for a while. -/
  | hold (duration : Nat)
  -- The dialogue with the modem.
  | ask (expected : String)
  | forget (generation : UInt32)
  | collect (generation : UInt32)
  | sendCommand (text expected : String) (timeout : Nat)
  | sendRaw (data : Bytes) (expected : String) (timeout : Nat)
  | probe (text expected : String) (timeout : Nat)
  | writeLine (text : String)
  | write (data : Bytes)
  | clear
  | takeClosed
  -- Messages.
  | publish (scope : Scope) (topic : String) (payload : Bytes)
  | subscribe (scope : Scope) (pattern : String) (subscriber : Subscriber)
  | unsubscribe (scope : Scope) (pattern : String) (subscriber : Subscriber)
  | isSubscribed (fullPattern : String)
  | deliver (line : Bytes)
  | deliverPending
  | deliverNext
  | deliverForever
  | identity
  -- Postings.
  | tryPost (scope : Scope) (topic : String) (payload : Bytes)
  | post (scope : Scope) (topic : String) (payload : Bytes)
  | drain
  | publishNext
  | serve
  -- The connection.
  | powerUp
  | join (credentials : Credentials)
  | leave
  | openBroker (broker : Broker)
  | closeBroker
  | noteClosed
  | awaitClosed
  | joinUntil (credentials : Credentials) (delay : Nat)
  | openBrokerUntil (broker : Broker) (delay : Nat)
  | options

/-- What a call does at once, and the task that is left of it. -/
def Call.start (node : Node) : Call → Node × Task
  | .feed data => (node.feed data, .finished .done)
  | .schedule delay data => ({ node with link := node.link.schedule delay data }, .finished .done)
  | .setRules rules => ({ node with link := { node.link with rules } }, .finished .done)
  | .sleep duration => (node, .parked (.clock (node.link.clock + duration)))
  | .hold duration => (node, .talk (.pause duration) .done)
  | .ask expected =>
    match node.link.ask expected with
    | .ok (link, generation) => ({ node with link }, .finished (.count generation.toNat))
    | .error cause => (node, .finished (.notAsked cause))
  | .forget generation => ({ node with link := node.link.forget generation }, .finished .done)
  | .collect generation =>
    let (slot, answer) := node.link.intake.slot.collect generation
    (node.withSlot slot, .finished (.collected answer))
  | .sendCommand text expected timeout => (node, .talk (.command text expected timeout) .text)
  | .sendRaw data expected timeout => (node, .talk (.ask [data] expected timeout) .text)
  | .probe text expected timeout => (node, .talk (.command text expected timeout) .flag)
  | .writeLine text => (node, .talk (.send (Dialogue.line text)) .done)
  | .write data => (node, .talk (.send [data]) .fault)
  | .clear => (node, .talk .clear .done)
  | .takeClosed =>
    let (intake, closed) := node.link.intake.noteClosed
    (node.withIntake intake, .finished (.flag closed))
  | .publish scope topic payload => (node, node.publish scope topic payload .report)
  | .subscribe scope pattern subscriber => node.subscribe scope pattern subscriber
  | .unsubscribe scope pattern subscriber => node.unsubscribe scope pattern subscriber
  | .isSubscribed fullPattern => (node, .finished (.flag (node.table.holds fullPattern)))
  | .deliver line =>
    match node.deliver line with
    | (node, .ok n) => (node, .finished (.count n))
    | (node, .error cause) => (node, .finished (.badLine cause))
  | .deliverPending =>
    let (node, n) := node.deliverPending
    (node, .finished (.count n))
  | .deliverNext => (node, .checking (.notice false))
  | .deliverForever => (node, .checking (.notice true))
  | .identity => (node, .finished (.identity node.identity.domain node.identity.clientId))
  | .tryPost scope topic payload => node.tryPost scope topic payload
  | .post scope topic payload => (node, Node.post scope topic payload)
  | .drain => (node, .checking (.drain 0))
  | .publishNext => (node, .checking .posting)
  | .serve => (node, .checking .work)
  | .powerUp => node.powerUp
  | .join credentials => (node, node.join credentials none)
  | .leave => (node, node.leave)
  | .openBroker broker => (node, node.openBroker broker none)
  | .closeBroker => (node, node.closeBroker)
  | .noteClosed =>
    let (node, closed) := node.noteClosed
    (node, .finished (.flag closed))
  | .awaitClosed => (node, .checking .closed)
  | .joinUntil credentials delay => (node, node.join credentials (some { target := credentials, delay }))
  | .openBrokerUntil broker delay => (node, node.openBroker broker (some { target := broker, delay }))
  | .options => (node, .finished (.options node.uplink))

end SensorLink
