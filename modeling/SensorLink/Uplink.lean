import SensorLink.Command.Network
import SensorLink.Node
import SensorLink.Task

/-! Bringing the modem from power-on to a network link and a broker session. A status changes only when the
    modem has confirmed it, when the modem is reset, or when a lost link is noted. -/

namespace SensorLink.Node

/-! ### Power-on -/

def resetRequest : Dialogue.Request := .send (Dialogue.line Command.softReset)

def probeRequest (node : Node) : Dialogue.Request :=
  .command Command.probe Command.acknowledged node.uplink.probeTimeout

def echoRequest (node : Node) : Dialogue.Request :=
  .command Command.echoOff Command.acknowledged node.uplink.configTimeout

def singleRequest (node : Node) : Dialogue.Request :=
  .command Command.singleConnection Command.acknowledged node.uplink.configTimeout

section
variable (node : Node)

theorem resetRequest_eq : resetRequest = .send [Text.encode "AT+RST", Text.encode "\r\n"] := by
  rw [resetRequest, Dialogue.line_eq, Command.softReset]

theorem probeRequest_eq :
    node.probeRequest = .ask [Text.encode "AT", Text.encode "\r\n"] "OK" node.uplink.probeTimeout := by
  rw [probeRequest, Dialogue.Request.command, Dialogue.line_eq, Command.probe, Command.acknowledged]

theorem echoRequest_eq :
    node.echoRequest = .ask [Text.encode "ATE0", Text.encode "\r\n"] "OK" node.uplink.configTimeout := by
  rw [echoRequest, Dialogue.Request.command, Dialogue.line_eq, Command.echoOff, Command.acknowledged]

theorem singleRequest_eq :
    node.singleRequest = .ask [Text.encode "AT+CIPMUX=0", Text.encode "\r\n"] "OK" node.uplink.configTimeout := by
  rw [singleRequest, Dialogue.Request.command, Dialogue.line_eq, Command.singleConnection, Command.acknowledged]

end

/-- Resets the modem until it answers, however long that takes. -/
def powerUp (node : Node) : Node × Task :=
  ({ node with status := {} }, .talk resetRequest .reset)

def chipReady (node : Node) : Node × Next :=
  ({ node with status := { node.status with chip := .ready } }, .leave (.finished .done))

/-- The modem answered or stayed silent; a silent one is reset again. -/
def probed (node : Node) : Dialogue.Result → Next
  | .ok _ => .again node.echoRequest .echo
  | .error _ => .again (.pause node.uplink.probeRetryDelay) .backoff

/-- Single connections are wished for, but not insisted on. -/
def singled (node : Node) (retries : Nat) : Dialogue.Result → Node × Next
  | .ok _ => node.chipReady
  | .error _ =>
    match retries with
    | 0 => node.chipReady
    | retries + 1 => (node, .again node.singleRequest (.single retries))

/-! ### Reporting an attempt -/

/-- A single attempt is reported as it ends. Repeated attempts end with success, or with the finding that
    nothing was left to do, and report how many failed. -/
def conclude {α : Type} (node : Node) (retry : Option (Retry α)) (wait : Nat → Retry α → Wait)
    (result : Except (Failure Fault) Unit) : Task :=
  match retry, result with
  | none, result => .finished (.ofResult result)
  | some retry, .ok () => .finished (.count retry.failures)
  | some retry, .error .alreadyConnected => .finished (.count retry.failures)
  | some retry, .error _ =>
    .parked (wait (node.link.clock + retry.delay) { retry with failures := retry.failures + 1 })

/-- A failure of the transport is kept; any other means that the operation was refused. -/
def refusal (refused : Failure Fault) : Failure Fault → Failure Fault
  | .transport cause => .transport cause
  | _ => refused

/-! ### The network -/

/-- The command to join, or why it is not sent. -/
def joinCommand (node : Node) (credentials : Credentials) : Except (Failure Fault) Command :=
  if node.status.chip ≠ .ready then .error .chipNotReady
  else if node.status.link = .connected then .error .alreadyConnected
  else match Command.join? credentials with
    | some command => .ok command
    | none => .error .commandTooLong

def join (node : Node) (credentials : Credentials) (retry : Option (Retry Credentials)) : Task :=
  match node.joinCommand credentials with
  | .error cause => node.conclude retry .rejoin (.error cause)
  | .ok command =>
    .talk (.command command.text Command.gotAddress node.uplink.joinTimeout) (.join retry)

def joined (node : Node) (retry : Option (Retry Credentials)) : Dialogue.Result → Node × Next
  | .ok _ =>
    let node := { node with status := { node.status with link := .connected } }
    (node, .leave (node.conclude retry .rejoin (.ok ())))
  | .error cause =>
    let node := { node with status := { node.status with link := .disconnected } }
    (node, .leave (node.conclude retry .rejoin (.error (refusal .joinFailed cause))))

def leave (node : Node) : Task :=
  if node.status.chip ≠ .ready then .finished (.failed .chipNotReady)
  else if node.status.link = .disconnected then .finished (.failed .notConnected)
  else .talk (.command Command.leave Command.acknowledged node.uplink.leaveTimeout) .leave

/-- The broker session ends with the link. -/
def left (node : Node) : Dialogue.Result → Node × Next
  | .ok _ => ({ node with status := node.status.linkLost }, .leave (.finished .done))
  | .error cause => (node, .leave (.finished (.failed (refusal .leaveFailed cause))))

/-! ### The broker session -/

/-- The commands that name the user and open the session, or why they are not sent. -/
def sessionCommands (node : Node) (broker : Broker) : Except (Failure Fault) (Command × Command) :=
  if node.status.chip ≠ .ready then .error .chipNotReady
  else if node.status.link ≠ .connected then .error .notConnected
  else if node.status.broker = .connected then .error .alreadyConnected
  else match Command.userConfig? broker, Command.openSession? broker with
    | some user, some session => .ok (user, session)
    | _, _ => .error .commandTooLong

def openBroker (node : Node) (broker : Broker) (retry : Option (Retry Broker)) : Task :=
  match node.sessionCommands broker with
  | .error cause => node.conclude retry .reopen (.error cause)
  | .ok (user, session) =>
    .talk (.command user.text Command.acknowledged node.uplink.brokerTimeout) (.configure session retry)

def configured (node : Node) (session : Command) (retry : Option (Retry Broker)) : Dialogue.Result → Next
  | .ok _ =>
    .again (.command session.text Command.sessionOpen node.uplink.brokerTimeout) (.openSession retry)
  | .error cause => .leave (node.conclude retry .reopen (.error (refusal .brokerRefused cause)))

def sessionOpened (node : Node) (retry : Option (Retry Broker)) : Dialogue.Result → Node × Next
  | .ok _ =>
    let node := { node with status := { node.status with broker := .connected } }
    (node, .leave (node.conclude retry .reopen (.ok ())))
  | .error cause => (node, .leave (node.conclude retry .reopen (.error (refusal .brokerRefused cause))))

def closeBroker (node : Node) : Task :=
  if node.status.broker = .disconnected then .finished (.failed .notConnected)
  else match Command.closeSession? with
    | none => .finished (.failed .commandTooLong)
    | some command =>
      .talk (.command command.text Command.acknowledged node.uplink.brokerTimeout) .closeSession

def sessionClosed (node : Node) : Dialogue.Result → Node × Next
  | .ok _ =>
    ({ node with status := { node.status with broker := .disconnected } }, .leave (.finished .done))
  | .error cause => (node, .leave (.finished (.failed cause)))

/-! ### A lost link -/

/-- Takes note of a report that the link went down, and tells whether there was one. -/
def noteClosed (node : Node) : Node × Bool :=
  match node.link.intake.noteClosed with
  | (intake, true) => ({ node.withIntake intake with status := node.status.linkLost }, true)
  | (_, false) => (node, false)

theorem noteClosed_eq (node : Node) : node.noteClosed =
    ({ node.withIntake { node.link.intake with closed := false } with
      status := if node.link.intake.closed then node.status.linkLost else node.status }, node.link.intake.closed) := by
  unfold noteClosed Intake.noteClosed
  cases hclosed : node.link.intake.closed with
  | true => rfl
  | false =>
    have hself : node.withIntake { node.link.intake with closed := false } = node := by
      rw [← hclosed]
      rfl
    exact congrArg (·, false) hself.symm

end SensorLink.Node
