import SensorLink.Proofs.Transcript

/-! What the others leave alone while one task is at work. Tasks that do not work on the connection change neither its
    status nor the options of the node (`bystands_connecting`), and tasks at their end change nothing (`bystands_idle`). -/

namespace SensorLink

/-! ### The options of the connection -/

section
variable {node : Node} {task : Task}

theorem deliver_uplink (node : Node) (line : Bytes) : (node.deliver line).1.uplink = node.uplink := by
  unfold Node.deliver
  split <;> rfl

theorem deliverNext?_uplink {after : Node} (h : node.deliverNext? = some after) : after.uplink = node.uplink := by
  obtain ⟨line, rest, -, rfl⟩ := Node.exists_of_deliverNext? h
  exact deliver_uplink _ line

theorem publishNext?_uplink {goal : Goal} {after : Node × Task} (h : node.publishNext? goal = some after) :
    after.1.uplink = node.uplink := by
  obtain ⟨posting, rest, -, rfl⟩ := Node.exists_of_publishNext? h
  rfl

theorem check_uplink {wait : Wait} (h : ∀ hold stage, wait ≠ .request hold stage) :
    (node.check wait).1.uplink = node.uplink := by
  cases wait with
  | request hold stage => exact absurd rfl (h hold stage)
  | modem request stage | clock due | rejoin due retry | reopen due retry | room posting =>
    simp only [Node.check]
    split <;> rfl
  | notice forever =>
    simp only [Node.check]
    split
    · rename_i hnext
      exact deliverNext?_uplink hnext
    · rfl
  | work =>
    simp only [Node.check]
    split
    · rename_i hnext
      exact deliverNext?_uplink hnext
    · rcases hpublish : (node.setAlarm .notice).publishNext? .serve with _ | after
      · rfl
      · have huplink := publishNext?_uplink hpublish
        exact huplink
  | posting | drain published =>
    simp only [Node.check]
    rcases hpublish : node.publishNext? _ with _ | after
    · rfl
    · exact publishNext?_uplink hpublish
  | closed =>
    have hnoted : node.noteClosed.1.uplink = node.uplink := by
      rw [Node.noteClosed_eq]
      rfl
    simp only [Node.check]
    rcases hclosed : node.noteClosed with ⟨after, _ | _⟩ <;> rw [hclosed] at hnoted <;> exact hnoted

theorem next_uplink (node : Node) (stage : Stage) (result : Dialogue.Result) :
    (stage.next node result).1.uplink = node.uplink := by
  cases stage with
  | subscribe full subscriber command retries =>
    cases result with
    | ok answer =>
      show (node.enter full subscriber true).1.uplink = node.uplink
      rcases enter_cases node full subscriber true with ⟨table, henter, -⟩ | ⟨-, henter⟩ | ⟨henter, -⟩ <;> rw [henter]
    | error cause => cases retries <;> rfl
  | single retries =>
    cases result with
    | ok answer => rfl
    | error cause => cases retries <;> rfl
  | join | leave | openSession | closeSession => cases result <;> rfl
  | _ => rfl

theorem after_uplink (node : Node) (stage : Stage) (result : Dialogue.Result) :
    (node.after stage result).1.uplink = node.uplink := by
  obtain ⟨link, hafter⟩ := after_eq node stage result
  rw [hafter]
  exact next_uplink node stage result

theorem step_uplink (node : Node) (task : Task) : (node.step task.awaken).1.uplink = node.uplink := by
  cases hstage : task.stage? with
  | some stage =>
    obtain ⟨link, ⟨-, hold, hstep⟩ | ⟨result, -, hstep⟩⟩ := step_concludes node hstage <;> rw [hstep]
    exact after_uplink _ _ _
  | none =>
    cases task with
    | asking request stage => cases hstage
    | finished answer => rfl
    | parked wait | checking wait =>
      refine check_uplink fun hold stage hwait => ?_
      subst hwait
      cases hstage

theorem drop_uplink (node : Node) (task : Task) : (node.drop task).uplink = node.uplink := by
  unfold Node.drop
  split <;> rfl

theorem start_uplink (node : Node) (call : Call) : (call.start node).1.uplink = node.uplink := by
  cases call with
  | ask expected =>
    simp only [Call.start]
    split <;> rfl
  | subscribe scope pattern subscriber =>
    simp only [Call.start, Node.subscribe]
    split
    · rfl
    · rename_i full _
      split
      · rfl
      · split
        · rfl
        · rcases enter_cases node full subscriber false with ⟨table, henter, -⟩ | ⟨-, henter⟩ | ⟨henter, -⟩ <;> rw [henter]
      · split
        · rfl
        · split <;> rfl
  | unsubscribe scope pattern subscriber =>
    simp only [Call.start, Node.unsubscribe]
    split
    · rfl
    · split <;> rfl
  | deliver line =>
    have huplink := deliver_uplink node line
    simp only [Call.start]
    rcases hdeliver : node.deliver line with ⟨after, n | cause⟩ <;> rw [hdeliver] at huplink <;> exact huplink
  | deliverPending =>
    have hfold (lines : List Bytes) (node : Node) :
        (lines.foldl (fun node line => (node.deliver line).1) node).uplink = node.uplink := by
      induction lines generalizing node with
      | nil => rfl
      | cons line rest ih => exact (ih _).trans (deliver_uplink node line)
    simp only [Call.start]
    rw [Node.deliverPending_eq]
    exact hfold _ _
  | tryPost scope topic payload =>
    simp only [Call.start, Node.tryPost]
    split
    · rfl
    · split <;> rfl
  | noteClosed =>
    simp only [Call.start, Node.noteClosed]
    split <;> rfl
  | _ => rfl

end

/-! ### Bystanders -/

/-- The status and the options of the connection are the same. -/
structure Node.SameUplink (node after : Node) : Prop where
  status : after.status = node.status
  uplink : after.uplink = node.uplink

theorem Node.SameUplink.refl (node : Node) : node.SameUplink node := ⟨rfl, rfl⟩

/-- Table, identity and options of the messages are the same, and so is whether the modem is held. -/
structure Node.SameMessaging (node after : Node) : Prop where
  table : after.table = node.table
  identity : after.identity = node.identity
  messaging : after.messaging = node.messaging
  held : after.link.held = node.link.held

theorem Node.SameMessaging.refl (node : Node) : node.SameMessaging node := ⟨rfl, rfl, rfl, rfl⟩

namespace Crowd

/-- Who does not work on the connection leaves it as it is. -/
theorem bystands_connecting :
    Bystands Node.SameUplink (fun task => task.connects = false) (fun call => call.connects = false) where
  start node call h := by
    refine ⟨⟨?_, start_uplink node call⟩, connects_start h node⟩
    rw [start_status]
    cases call <;> first | rfl | cases h
  step node task h := ⟨⟨step_status_of_not_connects h node, step_uplink node task⟩, connects_step h node⟩
  drop node task _ := ⟨(drop_frame node task).status, drop_uplink node task⟩
  advance _ _ := ⟨rfl, rfl⟩

/-- Who is at the end, and what happens around the node, leaves the table as it is. -/
theorem bystands_idle : Bystands Node.SameMessaging (fun task => task.isFinished) (fun call => call.isOutside) where
  start node call h := by
    cases call with
    | feed data => exact ⟨⟨rfl, rfl, rfl, (node.link.same_feed data).held⟩, rfl⟩
    | schedule delay data | setRules rules => exact ⟨⟨rfl, rfl, rfl, rfl⟩, rfl⟩
    | _ => cases h
  step node task h := by
    rw [step_finished h]
    exact ⟨.refl node, h⟩
  drop node task h := by
    have hstage : task.stage? = none := by cases task <;> first | rfl | cases h
    rw [drop_outside hstage]
    exact .refl node
  advance node time := ⟨rfl, rfl, rfl, (node.link.same_advance time).held⟩

/-- A task that is given up leaves status and table as they are. -/
theorem frame_next_drop (crowd : Crowd) (i : Nat) : crowd.node.Frame (crowd.next (.drop i)).node := by
  cases htask : crowd.task? i with
  | none =>
    rw [next_drop_none htask]
    exact .refl crowd.node
  | some task =>
    rw [next_drop htask]
    exact drop_frame crowd.node task

end Crowd
end SensorLink
