import SensorLink.Uplink
import SensorLink.Backlog

/-! How tasks run. A task that is visited goes on until it waits or is finished, and nothing else happens
    meanwhile. A task that is given up leaves no question in the slot and does not keep the modem. -/

namespace SensorLink

def Stage.next (node : Node) (result : Dialogue.Result) : Stage → Node × Next
  | .text => (node, .leave (.finished (match result with
      | .ok answer => .text answer
      | .error cause => .failed cause)))
  | .flag => (node, .leave (.finished (.flag result.isOk)))
  | .done => (node, .leave (.finished (.ofResult (result.map fun _ => ()))))
  | .fault => (node, .leave (.finished (match result with
      | .error (.transport cause) => .fault cause
      | _ => .done)))
  | .publishInline goal => (node, Node.published goal result)
  | .publishHeader payload goal => (node, node.publishBody payload goal result)
  | .publishBody goal => (node, Node.published goal result)
  | .subscribe full subscriber command retries => node.subscribed full subscriber command retries result
  | .unsubscribe answer => (node, .leave (.finished answer))
  | .reset => (node, .again (.pause node.uplink.resetSettle) .settle)
  | .settle => (node, .again .clear .flush)
  | .flush => (node, .again node.probeRequest .probe)
  | .probe => (node, node.probed result)
  | .backoff => (node, .again Node.resetRequest .reset)
  | .echo => (node, .again node.singleRequest (.single node.uplink.configRetries.toNat))
  | .single retries => node.singled retries result
  | .join retry => node.joined retry result
  | .leave => node.left result
  | .configure session retry => (node, node.configured session retry result)
  | .openSession retry => node.sessionOpened retry result
  | .closeSession => node.sessionClosed result

namespace Node

/-- Goes on after a request; a task that asks for nothing more gives the modem back. -/
def after (node : Node) (stage : Stage) (result : Dialogue.Result) : Node × Task :=
  match stage.next node result with
  | (node, .again request stage) => (node, .asking request stage)
  | (node, .leave task) => (node.release, task)

def heed (node : Node) (stage : Stage) : Link × Dialogue.Progress → Node × Task
  | (link, .waiting hold) => ({ node with link }, .parked (.request hold stage))
  | (link, .finished result) => { node with link }.after stage result

/-- Goes on if what a task waits for is there. -/
def check (node : Node) : Wait → Node × Task
  | .modem request stage =>
    if node.link.held then (node.setAlarm .modem, .parked (.modem request stage))
    else (node.acquire, .asking request stage)
  | .request hold stage => node.heed stage (Dialogue.resume node.link hold)
  | .clock due => if due ≤ node.link.clock then (node, .finished .done) else (node, .parked (.clock due))
  | .rejoin due retry =>
    if due ≤ node.link.clock then (node, node.join retry.target (some retry))
    else (node, .parked (.rejoin due retry))
  | .reopen due retry =>
    if due ≤ node.link.clock then (node, node.openBroker retry.target (some retry))
    else (node, .parked (.reopen due retry))
  | .notice forever =>
    match node.deliverNext? with
    | some node => (node, if forever then .checking (.notice true) else .finished .done)
    | none => (node.setAlarm .notice, .parked (.notice forever))
  | .work =>
    match node.deliverNext? with
    | some node => (node, .checking .work)
    | none =>
      let node := node.setAlarm .notice
      (node.publishNext? .serve).getD (node.setAlarm .posting, .parked .work)
  | .posting => (node.publishNext? .report).getD (node.setAlarm .posting, .parked .posting)
  | .drain published => (node.publishNext? (.drain published)).getD (node, .finished (.count published))
  | .room posting =>
    if node.hasRoom then (node.enqueue posting, .finished .done)
    else (node.setAlarm .room, .parked (.room posting))
  | .closed =>
    match node.noteClosed with
    | (node, true) => (node, .finished .done)
    | (node, false) => (node.setAlarm .closed, .parked .closed)

def step (node : Node) : Task → Node × Task
  | .checking wait => node.check wait
  | .asking request stage => node.heed stage (Dialogue.start node.link request)
  | task => (node, task)

/-- Steps until the task waits or is finished, at most so many. -/
def steps : Nat → Node → Task → Node × Task
  | _, node, .parked wait => (node, .parked wait)
  | _, node, .finished answer => (node, .finished answer)
  | 0, node, task => (node, task)
  | n + 1, node, task =>
    let (node, task) := node.step task
    steps n node task

/-- More steps than a task takes before it waits: a posting takes at most four, with four notifications after
    it, and a retry takes one. -/
def patience (node : Node) : Nat :=
  16 * (node.queue.length + node.link.intake.inbound.length + node.messaging.subscribeRetries.toNat +
    node.uplink.configRetries.toNat + 1)

def run (node : Node) (task : Task) : Node × Task := node.steps node.patience task

def visit (node : Node) : Task → Node × Task
  | .parked wait => node.run (.checking wait)
  | task => node.run task

def drop (node : Node) : Task → Node
  | .parked (.request hold _) | .checking (.request hold _) =>
    { node with link := Dialogue.cancel node.link hold }.release
  | .asking .. => node.release
  | _ => node

end Node

def Wait.deadline? : Wait → Option Nat
  | .request hold _ => some hold.deadline
  | .clock due | .rejoin due _ | .reopen due _ => some due
  | _ => none

end SensorLink
