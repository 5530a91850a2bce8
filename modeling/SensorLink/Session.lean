import SensorLink.Thread

/-! Sessions: threads that run on a node one after the other, each to its end. -/

namespace SensorLink.Session

/-- A thread that ran to its end: what it came to, the node it left, and what it wrote and delivered. -/
structure Record where
  outcome : Option Outcome
  node : Node
  sent : List Bytes
  deliveries : List Delivery

def record (visits : Nat) (node : Node) (thread : Thread) : Record :=
  let (after, outcome) := thread.finish visits node.resetAlarm
  { outcome
    node := after
    sent := after.link.sent.drop node.link.sent.length
    deliveries := after.deliveries.drop node.deliveries.length }

/-- Runs threads one after the other. -/
def run (visits : Nat) (node : Node) : List Thread → List Record
  | [] => []
  | thread :: threads =>
    let first := record visits node thread
    first :: run visits first.node threads

end SensorLink.Session
