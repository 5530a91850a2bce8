import SensorLink.Node
import SensorLink.Task

/-! Publishing, subscribing and delivering. The table gains a pair only when the modem has acknowledged the
    pattern, and the modem is told to drop a pattern when its last pair is gone. -/

namespace SensorLink.Node

/-! ### Publishing -/

def publishForm (node : Node) (scope : Scope) (topic : String) (payload : Bytes) :
    Except (Failure Fault) Command.PublishForm := do
  (Topic.checkConcrete topic).mapError .topic
  let full ← (node.identity.fullTopic scope topic).mapError .topic
  match Command.publish? full payload node.messaging.qos node.messaging.retain with
  | some form => .ok form
  | none => .error .commandTooLong

def publish (node : Node) (scope : Scope) (topic : String) (payload : Bytes) (goal : Goal) : Task :=
  match node.publishForm scope topic payload with
  | .error cause => goal.next (.error cause)
  | .ok (.inline command) =>
    .talk (.command command.text Command.acknowledged node.messaging.commandTimeout) (.publishInline goal)
  | .ok (.raw header) =>
    .talk (.command header.text Command.prompt node.messaging.commandTimeout) (.publishHeader payload goal)

/-- The payload on its own, once the modem has asked for it. -/
def publishBody (node : Node) (payload : Bytes) (goal : Goal) : Dialogue.Result → Next
  | .ok _ => .again (.ask [payload] Command.published node.messaging.commandTimeout) (.publishBody goal)
  | .error cause => .leave (goal.next (.error cause))

def published (goal : Goal) : Dialogue.Result → Next
  | .ok _ => .leave (goal.next (.ok ()))
  | .error cause => .leave (goal.next (.error cause))

/-! ### Subscribing -/

/-- Tells the modem to drop a pattern, and reports `answer` whatever the modem says. -/
def dropPattern (node : Node) (full : String) (answer : Answer) : Task :=
  match Command.unsubscribe? full with
  | none => .finished answer
  | some command =>
    .talk (.command command.text Command.acknowledged node.messaging.commandTimeout) (.unsubscribe answer)

/-- Puts a pair into the table. A pattern that the modem was asked for and that nobody holds is dropped again
    if the table has filled up meanwhile. -/
def enter (node : Node) (full : String) (subscriber : Subscriber) (asked : Bool) : Node × Task :=
  match node.table.insert? full subscriber with
  | some (table, _) => ({ node with table }, .finished .done)
  | none =>
    if asked && !node.table.holds full then (node, node.dropPattern full (.failed .tableFull))
    else (node, .finished (.failed .tableFull))

/-- The pattern as the broker knows it, or why it is refused. -/
def fullPattern (node : Node) (scope : Scope) (pattern : String) : Except TopicRefusal String := do
  Topic.checkPattern pattern
  node.identity.fullTopic scope pattern

def subscribe (node : Node) (scope : Scope) (pattern : String) (subscriber : Subscriber) : Node × Task :=
  match node.fullPattern scope pattern with
  | .error cause => (node, .finished (.failed (.topic cause)))
  | .ok full =>
    match node.table.novelty full subscriber with
    | .duplicate => (node, .finished .done)
    | .existingPattern =>
      if node.table.isFull then (node, .finished (.failed .tableFull)) else node.enter full subscriber false
    | .newPattern =>
      if node.table.isFull then (node, .finished (.failed .tableFull))
      else match Command.subscribe? full node.messaging.qos with
        | none => (node, .finished (.failed .commandTooLong))
        | some command =>
          (node, .talk (.command command.text Command.acknowledged node.messaging.commandTimeout)
            (.subscribe full subscriber command node.messaging.subscribeRetries.toNat))

/-- After an attempt to subscribe: the last attempt's failure is the one reported. -/
def subscribed (node : Node) (full : String) (subscriber : Subscriber) (command : Command) (retries : Nat) :
    Dialogue.Result → Node × Next
  | .ok _ =>
    let (node, task) := node.enter full subscriber true
    (node, .leave task)
  | .error cause =>
    match retries with
    | 0 => (node, .leave (.finished (.failed cause)))
    | retries + 1 =>
      (node, .again (.command command.text Command.acknowledged node.messaging.commandTimeout)
        (.subscribe full subscriber command retries))

def unsubscribe (node : Node) (scope : Scope) (pattern : String) (subscriber : Subscriber) : Node × Task :=
  match node.identity.fullTopic scope pattern with
  | .error cause => (node, .finished (.failed (.topic cause)))
  | .ok full =>
    let (table, remainder) := node.table.erase full subscriber
    let node := { node with table }
    if remainder = .last then (node, node.dropPattern full .done) else (node, .finished .done)

/-! ### Delivering -/

/-- Hands the message of a notification to every subscriber that wants it, and counts them. -/
def deliver (node : Node) (line : Bytes) : Node × Except LineRefusal Nat :=
  match Notice.parse line with
  | .error cause => (node, .error cause)
  | .ok message =>
    let subscribers := node.table.wanting message.topic
    ({ node with deliveries := node.deliveries ++ subscribers.map fun subscriber => ⟨subscriber, message⟩ },
      .ok subscribers.length)

theorem deliver_link (node : Node) (line : Bytes) : (node.deliver line).1.link = node.link := by
  unfold deliver
  split <;> rfl

def deliverNext? (node : Node) : Option Node :=
  node.link.intake.next?.map fun (line, intake) => ((node.withIntake intake).deliver line).1

theorem length_deliverNext? {node after : Node} (h : node.deliverNext? = some after) :
    after.link.intake.inbound.length < node.link.intake.inbound.length := by
  obtain ⟨⟨line, intake⟩, hnext, rfl⟩ := Option.map_eq_some_iff.mp h
  rw [deliver_link]
  unfold Intake.next? at hnext
  split at hnext
  · cases hnext
  · rename_i hinbound
    cases hnext
    simp [hinbound, withIntake]

/-- Delivers all that is queued, one line after another, and counts the lines, malformed ones too. -/
def deliverPending (node : Node) : Node × Nat :=
  match _next : node.deliverNext? with
  | none => (node, 0)
  | some after =>
    let (last, count) := after.deliverPending
    (last, count + 1)
termination_by node.link.intake.inbound.length
decreasing_by exact length_deliverNext? (by assumption)

section
variable {node : Node} {line : Bytes} {rest : List Bytes}

theorem deliverNext?_nil (h : node.link.intake.inbound = []) : node.deliverNext? = none := by
  simp [deliverNext?, Intake.next?, h]

theorem deliverNext?_cons (h : node.link.intake.inbound = line :: rest) : node.deliverNext? =
    some ((node.withIntake { node.link.intake with inbound := rest }).deliver line).1 := by
  simp [deliverNext?, Intake.next?, h]

theorem exists_of_deliverNext? {after : Node} (h : node.deliverNext? = some after) :
    ∃ line rest, node.link.intake.inbound = line :: rest ∧
      after = ((node.withIntake { node.link.intake with inbound := rest }).deliver line).1 := by
  cases hinbound : node.link.intake.inbound with
  | nil => simp [deliverNext?_nil hinbound] at h
  | cons line rest =>
    rw [deliverNext?_cons hinbound] at h
    exact ⟨line, rest, rfl, (Option.some.inj h).symm⟩

theorem deliverPending_of_none (h : node.deliverNext? = none) : node.deliverPending = (node, 0) := by
  unfold deliverPending
  split
  · rfl
  · rename_i hsome
    cases h.symm.trans hsome

theorem deliverPending_of_some {after : Node} (h : node.deliverNext? = some after) :
    node.deliverPending = (after.deliverPending.1, after.deliverPending.2 + 1) := by
  rw [deliverPending]
  split
  · rename_i hnone
    cases h.symm.trans hnone
  · rename_i hsome
    cases h.symm.trans hsome
    rfl

end

theorem deliver_withIntake (node : Node) (intake : Intake) (line : Bytes) :
    (node.deliver line).1.withIntake intake = ((node.withIntake intake).deliver line).1 := by
  unfold deliver
  cases Notice.parse line <;> rfl

/-- The lines may as well be taken out of the queue all at once. -/
theorem deliverPending_eq (node : Node) : node.deliverPending =
    (node.link.intake.inbound.foldl (fun node line => (node.deliver line).1)
      (node.withIntake { node.link.intake with inbound := [] }), node.link.intake.inbound.length) := by
  induction hinbound : node.link.intake.inbound generalizing node with
  | nil =>
    have hself : node.withIntake { node.link.intake with inbound := [] } = node := by
      rw [← hinbound]
      rfl
    rw [deliverPending_of_none (deliverNext?_nil hinbound), hself]
    rfl
  | cons line rest ih =>
    have hlink := deliver_link (node.withIntake { node.link.intake with inbound := rest }) line
    have hrest := ih ((node.withIntake { node.link.intake with inbound := rest }).deliver line).1 (by rw [hlink]; rfl)
    rw [hlink, deliver_withIntake] at hrest
    rw [deliverPending_of_some (deliverNext?_cons hinbound), hrest]
    rfl

end SensorLink.Node
