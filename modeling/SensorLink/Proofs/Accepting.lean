import SensorLink.Proofs.Connecting
import SensorLink.Proofs.Forwarding

/-! Who is told that a posting is queued. A call that posts is answered at once, or waits with its posting until there is
    room; and it is told that it is done with the move that puts the posting, as it was called with, behind the others
    (`Crowd.accepts?_eq`). -/

namespace SensorLink

/-- What a posting is made of. -/
abbrev Posting.Parts := Scope × String × Bytes

def Posting.parts (posting : Posting) : Parts := (posting.scope, posting.topic, posting.payload)

/-- What a call asks to have queued. -/
def Call.parts? : Call → Option Posting.Parts
  | .tryPost scope topic payload | .post scope topic payload => some (scope, topic, payload)
  | _ => none

def Wait.room? : Wait → Option Posting
  | .room queued => some queued
  | _ => none

/-- The posting for which a task waits until there is room. -/
def Task.room? : Task → Option Posting
  | .parked wait | .checking wait => wait.room?
  | _ => none

section
variable {node : Node} {task : Task} {posting : Posting} {call : Call} {parts : Posting.Parts}

theorem parts_eq_iff {scope : Scope} {topic : String} {payload : Bytes} :
    posting.parts = (scope, topic, payload) ↔ Posting.ofParts scope topic payload = .ok posting := by
  unfold Posting.ofParts
  constructor
  · intro h
    obtain ⟨rfl, rfl, rfl⟩ : posting.scope = scope ∧ posting.topic = topic ∧ posting.payload = payload := by
      simpa [Posting.parts] using h
    rw [dif_pos posting.topicFits, dif_pos posting.payloadFits]
  · intro h
    split at h
    · split at h <;> cases h
      rfl
    · cases h

/-! ### Waiting for room -/

theorem Task.Left.room?_eq (h : task.Left) : task.room? = none := by cases h <;> rfl

/-- What follows a request waits for no room. -/
theorem room?_after (node : Node) (stage : Stage) (result : Dialogue.Result) :
    (node.after stage result).2.room? = none := by
  obtain ⟨-, hfollows⟩ := stage_follows stage node result
  rw [after_task]
  rcases hnext : (stage.next node result).2 with ⟨request, next⟩ | left <;> rw [hnext] at hfollows
  · rfl
  · exact hfollows.room?_eq

/-- A task waits for room only if it did so before. -/
theorem room?_step (h : (node.step task.awaken).2.room? = some posting) : task.room? = some posting := by
  cases hstage : task.stage? with
  | some stage =>
    obtain ⟨link, ⟨-, hold, hstep⟩ | ⟨result, -, hstep⟩⟩ := step_concludes node hstage <;> rw [hstep] at h
    · cases h
    · simp [room?_after] at h
  | none =>
    cases task with
    | asking request stage => cases hstage
    | finished answer => cases h
    | parked wait | checking wait =>
      have hwait (hold : Dialogue.Hold) (stage : Stage) : wait ≠ .request hold stage := by
        rintro rfl
        cases hstage
      simp only [Task.awaken, Node.step] at h
      rcases check_leaves node hwait with hstays | ⟨request, stage, -, hasks⟩ | hleft
      · rw [hstays] at h
        exact h
      · simp [hasks, Task.room?] at h
      · simp [hleft.room?_eq] at h

/-- A step of a task that waits for room. -/
theorem step_room (h : task.room? = some posting) : node.step task.awaken =
    if node.hasRoom then (node.enqueue posting, .finished .done) else (node.setAlarm .room, .parked (.room posting)) := by
  cases task with
  | asking request stage | finished answer => cases h
  | parked wait | checking wait =>
    cases wait <;> cases h
    rfl

/-- A call that posts has its answer, or waits with its posting; and no other call waits for room. -/
structure Task.Posts (call : Call) (task : Task) : Prop where
  room : ∀ posting, task.room? = some posting → call.parts? = some posting.parts
  waits : call.parts?.isSome → task.isFinished ∨ task.room?.isSome

theorem posts_finished (call : Call) (answer : Answer) : Task.Posts call (.finished answer) where
  room posting hposting := by cases hposting
  waits _ := .inl rfl

theorem posts_start (node : Node) (call : Call) : (call.start node).2.Posts call := by
  have posts (hroom : (call.start node).2.room? = none) (hparts : call.parts? = none) : (call.start node).2.Posts call :=
    ⟨fun posting hposting => by simp [hroom] at hposting, fun hsome => by simp [hparts] at hsome⟩
  cases call with
  | tryPost scope topic payload =>
    simp only [Call.start, Node.tryPost]
    split
    · exact posts_finished _ _
    · split <;> exact posts_finished _ _
  | post scope topic payload =>
    simp only [Call.start, Node.post]
    split
    · exact posts_finished _ _
    · rename_i posting hposting
      refine ⟨fun other hother => ?_, fun _ => .inr rfl⟩
      cases hother
      exact congrArg some (parts_eq_iff.mpr hposting).symm
  | ask expected =>
    refine posts ?_ rfl
    simp only [Call.start]
    split <;> rfl
  | deliver line =>
    refine posts ?_ rfl
    simp only [Call.start]
    split <;> rfl
  | publish scope topic payload => exact posts (left_publish _ _ _ _).room?_eq rfl
  | subscribe scope pattern subscriber => exact posts (left_subscribe _ _ _).room?_eq rfl
  | unsubscribe scope pattern subscriber => exact posts (left_unsubscribe _ _ _).room?_eq rfl
  | join credentials | joinUntil credentials delay => exact posts (left_join _ _).room?_eq rfl
  | openBroker broker | openBrokerUntil broker delay => exact posts (left_openBroker _ _).room?_eq rfl
  | leave => exact posts (left_leave _).room?_eq rfl
  | closeBroker => exact posts (left_closeBroker _).room?_eq rfl
  | _ => exact posts rfl rfl

theorem Task.Posts.step (h : task.Posts call) (node : Node) : (node.step task.awaken).2.Posts call where
  room posting hposting := h.room posting (room?_step hposting)
  waits hparts := by
    rcases h.waits hparts with hfinished | hroom
    · rw [step_finished hfinished]
      exact .inl hfinished
    · obtain ⟨posting, hposting⟩ := Option.isSome_iff_exists.mp hroom
      rw [step_room hposting]
      split
      · exact .inl rfl
      · exact .inr rfl

theorem queues?_of_room (h : task.room? = some posting) :
    node.queues? task.awaken = if node.hasRoom then some posting else none := by
  cases task with
  | asking request stage | finished answer => cases h
  | parked wait | checking wait =>
    cases wait <;> cases h
    simp only [Task.awaken, Node.queues?, Node.check]
    split <;> rfl

theorem queues?_of_no_room (h : task.room? = none) : node.queues? task.awaken = none := by
  cases task with
  | asking request stage | finished answer => rfl
  | parked wait | checking wait => cases wait <;> first | rfl | cases h

/-- A call that is done at once has queued what it asks for. -/
theorem queues?_start (node : Node) (call : Call) : (call.queues? node).map Posting.parts =
    if (call.start node).2 = .finished .done then call.parts? else none := by
  cases call with
  | tryPost scope topic payload =>
    by_cases hdone : ((Call.tryPost scope topic payload).start node).2 = .finished .done
    · rw [if_pos hdone]
      refine (congrArg (Option.map Posting.parts) (if_pos hdone)).trans ?_
      cases hposting : Posting.ofParts scope topic payload with
      | ok posting => exact congrArg some (parts_eq_iff.mpr hposting)
      | error cause =>
        rw [Call.start, Node.tryPost, hposting] at hdone
        cases hdone
    · rw [if_neg hdone]
      exact congrArg (Option.map Posting.parts) (if_neg hdone)
  | post scope topic payload =>
    refine (if_neg fun hdone => ?_).symm
    simp only [Call.start, Node.post] at hdone
    split at hdone <;> cases hdone
  | _ => exact (ite_self none).symm

end

/-! ### Moves -/

namespace Crowd

/-- The posting that a move puts into the queue. -/
def queues? (crowd : Crowd) : Move → Option Posting
  | .start call => call.queues? crowd.node
  | .step i => (crowd.task? i).bind fun task => crowd.node.queues? task.awaken
  | _ => none

def visited? (crowd : Crowd) : Move → Option Nat
  | .start _ => some crowd.tasks.length
  | .step i => some i
  | _ => none

/-- The task that learns with a move that it is done. -/
def done? (crowd : Crowd) (move : Move) : Option Nat :=
  (crowd.visited? move).filter fun i =>
    !(crowd.task? i).any Task.isFinished && ((crowd.next move).task? i).any fun after => after = .finished .done

/-- What is accepted with a move, if `calls` have been made before it: what the call has asked for that is told that it is
    done. -/
def accepts? (crowd : Crowd) (calls : List Call) (move : Move) : Option Posting.Parts :=
  (crowd.done? move).bind fun i => (calls ++ move.call?.toList)[i]?.bind Call.parts?

section
variable {crowd : Crowd} {calls : List Call} {i : Nat} {task : Task} {call : Call}

theorem accepts?_start (hlength : calls.length = crowd.tasks.length) (call : Call) :
    crowd.accepts? calls (.start call) = if (call.start crowd.node).2 = .finished .done then call.parts? else none := by
  have hbefore : crowd.task? crowd.tasks.length = none :=
    Option.eq_none_iff_forall_ne_some.mpr fun task htask => absurd (lt_of_task? htask) (Nat.lt_irrefl _)
  have hafter : (crowd.next (.start call)).task? crowd.tasks.length = some (call.start crowd.node).2 :=
    (task?_start call).trans (if_pos rfl)
  have hcall : (calls ++ [call])[crowd.tasks.length]? = some call := by simp [← hlength]
  rw [accepts?, done?, visited?, Option.filter_some, hbefore, hafter, Option.any_none, Option.any_some]
  by_cases hdone : (call.start crowd.node).2 = .finished .done
  · simp [hdone, Move.call?, hcall]
  · simp [hdone]

theorem accepts?_step (hcall : calls[i]? = some call) (htask : crowd.task? i = some task) :
    crowd.accepts? calls (.step i) =
      if task.isFinished = false ∧ (crowd.node.step task.awaken).2 = .finished .done then call.parts? else none := by
  have hafter : (crowd.next (.step i)).task? i = some (crowd.node.step task.awaken).2 :=
    (task?_step htask).trans (if_pos rfl)
  rw [accepts?, done?, visited?, Option.filter_some, htask, hafter, Option.any_some, Option.any_some]
  cases hfinished : task.isFinished with
  | true => simp
  | false =>
    by_cases hdone : (crowd.node.step task.awaken).2 = .finished .done
    · simp [hdone, Move.call?, hcall]
    · simp [hdone]

/-- What is accepted is what is queued. -/
theorem accepts?_eq (hlength : calls.length = crowd.tasks.length)
    (hposts : ∀ i call task, calls[i]? = some call → crowd.task? i = some task → task.Posts call) (move : Move) :
    crowd.accepts? calls move = (crowd.queues? move).map Posting.parts := by
  cases move with
  | start call => exact (accepts?_start hlength call).trans (queues?_start crowd.node call).symm
  | drop i | advance time => rfl
  | step i =>
    cases htask : crowd.task? i with
    | none => simp [accepts?, done?, visited?, queues?, next_step_none htask, htask]
    | some task =>
      obtain ⟨call, hcall⟩ : ∃ call, calls[i]? = some call :=
        ⟨_, List.getElem?_eq_getElem (hlength ▸ lt_of_task? htask)⟩
      have hof := hposts i call task hcall htask
      rw [accepts?_step hcall htask, queues?, htask, Option.bind_some]
      cases hroom : task.room? with
      | some posting =>
        have hfinished : task.isFinished = false := by
          cases task with
          | finished answer => cases hroom
          | _ => rfl
        rw [queues?_of_room hroom, step_room hroom, hof.room posting hroom]
        split <;> simp [hfinished]
      | none =>
        rw [queues?_of_no_room hroom]
        refine ite_eq_right_iff.mpr ?_
        rintro ⟨hopen, -⟩
        cases hparts : call.parts? with
        | none => rfl
        | some parts =>
          -- A call that posts would have its answer by now.
          have hwaits := hof.waits (by simp [hparts])
          simp [hopen, hroom] at hwaits

end
end Crowd
end SensorLink
