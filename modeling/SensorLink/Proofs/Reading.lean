import SensorLink.Proofs.Forwarding
import SensorLink.Proofs.Receiving

/-! What becomes of the queue of notifications. A move adds those that come and find room behind the others, or somebody
    takes the oldest and delivers it, or all of them, or they are forgotten with all that has been received
    (`inbound_move`). -/

namespace SensorLink

/-! ### Tasks that take notifications -/

/-- One who waits like this takes the next notification and delivers it. -/
def Wait.reads : Wait → Bool
  | .notice _ | .work => true
  | _ => false

namespace Task

def reads : Task → Bool
  | .parked wait | .checking wait => wait.reads
  | _ => false

/-- The task has all that was received forgotten with its next request. -/
def clears : Task → Bool
  | .parked (.modem .clear _) | .checking (.modem .clear _) | .asking .clear _ => true
  | _ => false

end Task

namespace Node

/-- The notification that a step of the task takes and delivers. -/
def delivers? (node : Node) (task : Task) : Option Bytes :=
  if task.reads then node.link.intake.inbound.head? else none

def forgets (node : Node) : Task → List Bytes
  | .asking .clear _ => node.link.intake.inbound
  | _ => []

end Node

section
variable {node after : Node} {task : Task} {wait : Wait}

theorem deliverNext?_eq_none_iff : node.deliverNext? = none ↔ node.link.intake.inbound = [] := by
  constructor
  · intro h
    cases hinbound : node.link.intake.inbound with
    | nil => rfl
    | cons line rest => simp [Node.deliverNext?_cons hinbound] at h
  · exact Node.deliverNext?_nil

theorem inbound_deliverNext? (h : node.deliverNext? = some after) :
    node.link.intake.inbound = node.link.intake.inbound.head?.toList ++ after.link.intake.inbound := by
  obtain ⟨line, rest, hinbound, rfl⟩ := Node.exists_of_deliverNext? h
  rw [Node.deliver_link, hinbound]
  rfl

theorem inbound_publishNext? {goal : Goal} {next : Node × Task} (h : node.publishNext? goal = some next) :
    next.1.link.intake = node.link.intake := by
  obtain ⟨posting, rest, -, rfl⟩ := Node.exists_of_publishNext? h
  rfl

theorem inbound_noteClosed (node : Node) : node.noteClosed.1.link.intake.inbound = node.link.intake.inbound := by
  rw [Node.noteClosed_eq]
  rfl

/-- One who waits without the modem takes the oldest notification at most. -/
theorem check_inbound (hwait : ∀ hold stage, wait ≠ .request hold stage) : node.link.intake.inbound =
    (node.delivers? (.checking wait)).toList ++ (node.check wait).1.link.intake.inbound := by
  cases wait with
  | request hold stage => exact absurd rfl (hwait hold stage)
  | modem | clock | rejoin | reopen | room =>
    simp only [Node.check]
    split <;> rfl
  | notice forever =>
    show _ = node.link.intake.inbound.head?.toList ++ (node.check (.notice forever)).1.link.intake.inbound
    simp only [Node.check]
    split
    · exact inbound_deliverNext? ‹_›
    · simp [deliverNext?_eq_none_iff.mp ‹_›, Node.setAlarm, Link.setAlarm]
  | work =>
    show _ = node.link.intake.inbound.head?.toList ++ (node.check .work).1.link.intake.inbound
    simp only [Node.check]
    split
    · exact inbound_deliverNext? ‹_›
    · rename_i hnone
      have hempty := deliverNext?_eq_none_iff.mp hnone
      rcases hpublish : (node.setAlarm .notice).publishNext? .serve with _ | next
      · simp [hempty, Node.setAlarm, Link.setAlarm]
      · simp [hempty, inbound_publishNext? hpublish, Node.setAlarm, Link.setAlarm]
  | posting | drain published =>
    simp only [Node.check]
    rcases hpublish : node.publishNext? _ with _ | next
    · rfl
    · exact (congrArg Intake.inbound (inbound_publishNext? hpublish)).symm
  | closed =>
    have hinbound := inbound_noteClosed node
    simp only [Node.check]
    rcases hnoted : node.noteClosed with ⟨noted, _ | _⟩ <;> rw [hnoted] at hinbound <;> exact hinbound.symm

/-! ### Steps and calls -/

theorem inbound_quiet {intake : Intake} {after : List Bytes} (h : intake.inbound = after) :
    intake.inbound ++ intake.gains [] = after := by
  rw [gains_nil, List.append_nil, h]

/-- A request gains what comes while it is made, unless it is to forget. -/
theorem step_inbound (node : Node) (task : Task) :
    node.link.intake.inbound ++ node.link.intake.gains (node.received task.awaken) =
      node.forgets task ++ (node.delivers? task).toList ++ (node.step task.awaken).1.link.intake.inbound := by
  cases task with
  | finished answer => exact inbound_quiet rfl
  | asking request stage =>
    have hstart (h : request ≠ .clear) : node.link.Gains (request.received node.link)
        (node.heed stage (Dialogue.start node.link request)).1.link := gains_heed stage (gains_start h node.link)
    cases request with
    | clear =>
      have hintake := after_intake { node with link := node.link.clear } stage (.ok "")
      have hinbound : (node.step (.asking .clear stage)).1.link.intake.inbound = [] := congrArg Intake.inbound hintake
      exact inbound_quiet (by simp [Task.awaken, hinbound, Node.forgets, Node.delivers?, Task.reads])
    | ask | send | pause => exact (hstart (by simp)).inbound.symm
  | parked wait | checking wait =>
    have hcheck := @check_inbound node wait
    cases wait with
    | request hold stage => exact (gains_heed stage (gains_resume node.link hold)).inbound.symm
    | _ => exact inbound_quiet (hcheck (by simp))

/-- The notifications that a call takes and delivers at once. -/
def Call.delivers (node : Node) : Call → List Bytes
  | .deliverPending => node.link.intake.inbound
  | _ => []

theorem start_inbound (node : Node) (call : Call) :
    node.link.intake.inbound ++ node.link.intake.gains (match call with | .feed data => data | _ => []) =
      call.delivers node ++ (call.start node).1.link.intake.inbound := by
  cases call with
  | feed data => exact (gains_feed node.link data).inbound.symm
  | deliverPending =>
    refine inbound_quiet ?_
    show _ = node.link.intake.inbound ++ node.deliverPending.1.link.intake.inbound
    rw [deliverPending_link]
    exact (List.append_nil _).symm
  | ask expected =>
    simp only [Call.start]
    rcases hask : node.link.ask expected with cause | ⟨asked, generation⟩
    · exact inbound_quiet rfl
    · exact (gains_ask hask).1.inbound.symm
  | subscribe scope pattern subscriber =>
    exact inbound_quiet (congrArg (·.intake.inbound) (subscribe_link node scope pattern subscriber)).symm
  | unsubscribe scope pattern subscriber =>
    exact inbound_quiet (congrArg (·.intake.inbound) (unsubscribe_link node scope pattern subscriber)).symm
  | deliver line =>
    have hlink : (node.deliver line).1.link = node.link := node.deliver_link line
    simp only [Call.start]
    rcases hdeliver : node.deliver line with ⟨after, n | cause⟩ <;> rw [hdeliver] at hlink <;>
      exact inbound_quiet (congrArg (·.intake.inbound) hlink).symm
  | tryPost scope topic payload =>
    simp only [Call.start, Node.tryPost]
    split
    · exact inbound_quiet rfl
    · split <;> exact inbound_quiet rfl
  | noteClosed => exact inbound_quiet (inbound_noteClosed node).symm
  | _ => exact inbound_quiet rfl

end

/-! ### Moves -/

namespace Crowd

/-- The notifications that somebody takes and delivers in a move, each with the task that does. -/
def delivers (crowd : Crowd) : Move → List (Nat × Bytes)
  | .start call => (call.delivers crowd.node).map fun line => (crowd.tasks.length, line)
  | .step i => ((crowd.task? i).bind crowd.node.delivers?).toList.map fun line => (i, line)
  | _ => []

def forgets (crowd : Crowd) : Move → List Bytes
  | .step i => (crowd.task? i).elim [] crowd.node.forgets
  | _ => []

/-- The notifications that come and find room go behind the others; those that are delivered or forgotten were the
    oldest. -/
theorem inbound_move (crowd : Crowd) (move : Move) :
    crowd.node.link.intake.inbound ++ crowd.node.link.intake.gains (crowd.received move) =
      crowd.forgets move ++ (crowd.delivers move).map Prod.snd ++ (crowd.next move).node.link.intake.inbound := by
  cases move with
  | start call =>
    have hdelivers : (crowd.delivers (.start call)).map Prod.snd = call.delivers crowd.node := by
      simp [delivers, Function.comp_def]
    have hstart := start_inbound crowd.node call
    rw [hdelivers]
    cases call <;> exact hstart
  | step i =>
    cases htask : crowd.task? i with
    | none =>
      rw [next_step_none htask, received, delivers, forgets, htask]
      exact inbound_quiet rfl
    | some task =>
      have hdelivers : (crowd.delivers (.step i)).map Prod.snd = (crowd.node.delivers? task).toList := by
        simp [delivers, htask, Function.comp_def]
      rw [next_step htask, hdelivers, received, forgets, htask]
      exact step_inbound crowd.node task
  | drop i =>
    cases htask : crowd.task? i with
    | none =>
      rw [next_drop_none htask]
      exact inbound_quiet rfl
    | some task =>
      rw [next_drop htask]
      exact (gains_drop crowd.node task).inbound.symm
  | advance time => exact (gains_advance crowd.node.link time).inbound.symm

end Crowd
end SensorLink
