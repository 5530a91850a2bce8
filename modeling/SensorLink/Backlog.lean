import SensorLink.Messaging

/-! The queue of postings between the tasks that produce them and the one that publishes them. A publish that
    fails loses its posting and nothing else. -/

namespace SensorLink.Node

def hasRoom (node : Node) : Bool := decide (node.queue.length < node.depth)

def enqueue (node : Node) (posting : Posting) : Node :=
  { node with queue := node.queue ++ [posting] }.announce .posting

def tryPost (node : Node) (scope : Scope) (topic : String) (payload : Bytes) : Node × Task :=
  match Posting.ofParts scope topic payload with
  | .error cause => (node, .finished (.notPosted cause))
  | .ok posting =>
    if node.hasRoom then (node.enqueue posting, .finished .done)
    else (node, .finished (.notPosted .queueFull))

/-- Queues a posting as soon as there is room. -/
def post (scope : Scope) (topic : String) (payload : Bytes) : Task :=
  match Posting.ofParts scope topic payload with
  | .error cause => .finished (.notPosted cause)
  | .ok posting => .checking (.room posting)

/-- Publishes the oldest posting, if there is one. -/
def publishNext? (node : Node) (goal : Goal) : Option (Node × Task) :=
  match node.queue with
  | [] => none
  | posting :: queue =>
    some ({ node with queue }.announce .room, node.publish posting.scope posting.topic posting.payload goal)

section
variable {node : Node} {posting : Posting} {rest : List Posting}

theorem publishNext?_nil (h : node.queue = []) (goal : Goal) : node.publishNext? goal = none := by
  rw [publishNext?, h]

theorem publishNext?_cons (h : node.queue = posting :: rest) (goal : Goal) : node.publishNext? goal =
    some ({ node with queue := rest }.announce .room, node.publish posting.scope posting.topic posting.payload goal) := by
  rw [publishNext?, h]

theorem exists_of_publishNext? {goal : Goal} {after : Node × Task} (h : node.publishNext? goal = some after) :
    ∃ posting rest, node.queue = posting :: rest ∧ after = ({ node with queue := rest }.announce .room,
      node.publish posting.scope posting.topic posting.payload goal) := by
  cases hqueue : node.queue with
  | nil => cases (publishNext?_nil hqueue goal).symm.trans h
  | cons posting rest =>
    rw [publishNext?_cons hqueue] at h
    exact ⟨posting, rest, rfl, (Option.some.inj h).symm⟩

end

end SensorLink.Node
