import SensorLink.Proofs.Effects
import SensorLink.Proofs.Exclusive

/-! What a task owes the modem: the orders that it is yet to give. A move gives no order that no task owes
    (`owes_of_given`), and a step of a task pays some of what it owes, or ends its request (`step_goes`). -/

namespace SensorLink
open Command

/-! ### What is owed -/

namespace Task

/-- A task is yet to give an order about a pattern. -/
def Owes (qos : UInt8) (full : String) (order : Order) (task : Task) : Prop :=
  ∃ part ∈ task.due, orderOf? qos full part = some order

/-- A task owes no order but this one about this pattern. -/
def OwesOnly (qos : UInt8) (full : String) (order : Order) (task : Task) : Prop :=
  ∀ other order', task.Owes qos other order' → other = full ∧ order' = order

/-- A task owes no order at all. -/
def OwesNothing (qos : UInt8) (task : Task) : Prop := ∀ other order, ¬task.Owes qos other order

section
variable {task after : Task} {stage : Stage} {qos : UInt8} {full other : String} {order order' : Order} {command : Command}

theorem due_eq_rest (h : task.stage? = some stage) : task.due = task.rest := by
  cases task with
  | finished answer => cases h
  | asking request stage' => rfl
  | parked wait | checking wait => cases wait <;> first | rfl | cases h

theorem Owes.of_due (h : after.Owes qos full order) (hdue : ∀ part ∈ after.due, part ∈ task.due) :
    task.Owes qos full order := by
  obtain ⟨part, hpart, horder⟩ := h
  exact ⟨part, hdue part hpart, horder⟩

theorem OwesOnly.of_due (h : task.OwesOnly qos full order) (hdue : ∀ part ∈ after.due, part ∈ task.due) :
    after.OwesOnly qos full order := fun other order' howes => h other order' (howes.of_due hdue)

theorem OwesNothing.of_due (h : task.OwesNothing qos) (hdue : ∀ part ∈ after.due, part ∈ task.due) :
    after.OwesNothing qos := fun other order howes => h other order (howes.of_due hdue)

theorem owesOnly_of_due (hdue : task.due = Dialogue.line command.text) (h : order? qos full order = some command) :
    task.OwesOnly qos full order := by
  rintro other order' ⟨part, hpart, hpartOrder⟩
  have hmem : order' ∈ (Dialogue.line command.text).filterMap (orderOf? qos other) :=
    List.mem_filterMap.mpr ⟨part, hdue ▸ hpart, hpartOrder⟩
  rw [orders_line h] at hmem
  split at hmem
  · rename_i heq
    exact ⟨heq.symm, List.mem_singleton.mp hmem⟩
  · cases hmem

theorem owesNothing_of_due {text : String} (hdue : task.due = Dialogue.line text)
    (h : ∀ other, orderOf? qos other (Text.encode text) = none) : task.OwesNothing qos := by
  rintro other order ⟨part, hpart, horder⟩
  rw [hdue, Dialogue.line, List.mem_cons, List.mem_singleton] at hpart
  rcases hpart with rfl | rfl
  · rw [h other] at horder
    cases horder
  · exact absurd (orderOf?_lineEnd.symm.trans horder) (by simp)

theorem owesNothing_finished (answer : Answer) : (finished answer).OwesNothing qos := by
  rintro other order ⟨part, hpart, -⟩
  cases hpart

end
end Task

/-! ### What a step pays -/

/-- What has become of the request of a task when a step has written `written`: it goes on with what is left to write, or
    it is at its end. -/
inductive Node.Goes (node : Node) (task : Task) (stage : Stage) (written : List Bytes) (after : Node × Task) : Prop where
  | on (link : Link) (keeps : after.1 = { node with link }) (aims : after.2.aim? = some stage)
      (wrote : written ++ after.2.due = task.due)
  | ended (link : Link) (result : Dialogue.Result) (held : task.stage? = some stage)
      (concludes : node.concludes? task.awaken = some (stage, result))
      (follows : after = ({ node with link } : Node).after stage result) (wrote : written <+: task.due)

section
variable {node : Node} {task : Task} {stage : Stage}

/-- A task that waits for the modem, or takes it, writes nothing yet. -/
theorem goes_waiting (node : Node) (haim : task.aim? = some stage) (hnone : task.stage? = none) :
    (node.step task.awaken).1.link.sent = node.link.sent ∧ node.Goes task stage [] (node.step task.awaken) := by
  have hwaits : ∃ request, task.awaken = .checking (.modem request stage) := by
    cases task with
    | finished answer => cases haim
    | asking request stage' => cases hnone
    | parked wait | checking wait =>
      cases wait with
      | modem request stage' =>
        cases haim
        exact ⟨request, rfl⟩
      | request hold stage' => cases hnone
      | _ => cases haim
  obtain ⟨request, hawaken⟩ := hwaits
  have hdue : task.due = request.parts := by
    unfold Task.due
    rw [hawaken]
  rw [hawaken]
  simp only [Node.step, Node.check]
  split
  · exact ⟨rfl, .on _ rfl rfl hdue.symm⟩
  · exact ⟨rfl, .on _ rfl rfl hdue.symm⟩

theorem goes_holding (hstage : task.stage? = some stage) (hheld : node.link.held = true) (howns : task.Owns node.link) :
    ∃ written, (node.step task.awaken).1.link.sent = node.link.sent ++ written ∧
      node.Goes task stage written (node.step task.awaken) := by
  obtain ⟨written, hsent, hbecome⟩ := step_held hstage hheld howns
  have hdue := Task.due_eq_rest hstage
  refine ⟨written, hsent, ?_⟩
  obtain ⟨link, ⟨-, hold, hstep⟩ | ⟨result, hconcludes, hstep⟩⟩ := step_concludes node hstage
  · cases hbecome with
    | waits _ _ _ hwrote =>
      refine .on link (by rw [hstep]) (by rw [hstep]; rfl) ?_
      rw [hdue, ← hwrote, hstep]
      rfl
    | again _ _ _ _ _ hasks =>
      rw [hstep] at hasks
      cases hasks
    | left _ _ hleaves =>
      rw [hstep] at hleaves
      cases hleaves
  · exact .ended link result hstage hconcludes hstep (hdue ▸ hbecome.isPrefix)

end

namespace Crowd

section
variable {crowd : Crowd} {move : Move} {i : Nat} {task : Task} {stage : Stage} {full : String} {order : Order}

/-- A step of a task that makes a request, or will make one. -/
theorem step_goes (h : crowd.Exclusive) (htask : crowd.task? i = some task) (haim : task.aim? = some stage) :
    ∃ written, (crowd.node.step task.awaken).1.link.sent = crowd.node.link.sent ++ written ∧
      crowd.node.Goes task stage written (crowd.node.step task.awaken) := by
  cases hstage : task.stage? with
  | none =>
    obtain ⟨hsent, hgoes⟩ := goes_waiting crowd.node haim hstage
    exact ⟨[], hsent.trans (List.append_nil _).symm, hgoes⟩
  | some stage' =>
    obtain rfl : stage' = stage := Option.some.inj ((aim?_of_stage? hstage).symm.trans haim)
    have hsome : task.stage?.isSome := by simp [hstage]
    exact goes_holding hstage (h.held htask hsome) (h.owns htask hsome)

/-- The orders about a pattern that a move gives. -/
def given (crowd : Crowd) (full : String) (move : Move) : List Order :=
  ((crowd.next move).node.link.sent.drop crowd.node.link.sent.length).filterMap
    (orderOf? crowd.node.messaging.qos full)

/-- An order is given by a step of a task that owes it. -/
theorem owes_of_given (h : crowd.Exclusive) (hmove : move.IsOrderly) (hgiven : order ∈ crowd.given full move) :
    ∃ i task, move = .step i ∧ crowd.task? i = some task ∧ task.Owes crowd.node.messaging.qos full order := by
  obtain ⟨written, hsent, hwriter⟩ := sent_next h hmove
  rw [given, hsent, List.drop_left] at hgiven
  obtain ⟨part, hpart, horder⟩ := List.mem_filterMap.mp hgiven
  obtain ⟨i, task, hstep, htask, hsome, hrest⟩ := hwriter part hpart
  obtain ⟨stage, hstage⟩ := Option.isSome_iff_exists.mp hsome
  exact ⟨i, task, hstep, htask, part, Task.due_eq_rest hstage ▸ hrest, horder⟩

end
end Crowd
end SensorLink
