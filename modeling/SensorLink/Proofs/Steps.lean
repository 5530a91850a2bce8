import SensorLink.Proofs.Crowd
import SensorLink.Proofs.Exchange

/-! What one step of a task does to the link. Only a task that holds the modem writes or puts a question, and when
    it gives the modem back, for whatever reason, its question is gone. -/

namespace SensorLink

namespace Task

/-- The stage of the request at hand, while a task holds the modem. -/
def stage? : Task → Option Stage
  | .parked (.request _ stage) | .checking (.request _ stage) | .asking _ stage => some stage
  | _ => none

/-- The stage of the request that a task makes, or will make once it holds the modem. -/
def aim? : Task → Option Stage
  | .parked (.modem _ stage) | .checking (.modem _ stage) | .parked (.request _ stage) | .checking (.request _ stage)
  | .asking _ stage => some stage
  | _ => none

def isFinished : Task → Bool
  | .finished _ => true
  | _ => false

def generation? : Task → Option UInt32
  | .parked (.request hold _) | .checking (.request hold _) => hold.generation?
  | _ => none

def rest : Task → List Bytes
  | .parked (.request hold _) | .checking (.request hold _) => hold.rest
  | .asking request _ => request.parts
  | _ => []

/-- The question in the slot, if there is one, is that of the task. -/
def Owns (task : Task) (link : Link) : Prop :=
  ∀ generation, link.pending? = some generation → task.generation? = some generation

theorem stage?_of_generation? {task : Task} {generation : UInt32} (h : task.generation? = some generation) :
    task.stage?.isSome := by
  unfold generation? at h
  split at h
  · rfl
  · rfl
  · cases h

end Task

/-! ### The steps of a task that does not hold the modem -/

section
variable {node : Node} {task : Task} {stage : Stage}

theorem aim?_of_stage? (h : task.stage? = some stage) : task.aim? = some stage := by
  cases task with
  | finished answer => cases h
  | asking request stage' => exact h
  | parked wait | checking wait => cases wait <;> first | exact h | cases h

theorem not_isFinished_of_aim (h : task.aim? = some stage) : ¬task.isFinished := by
  intro hfinished
  cases task <;> cases hfinished
  cases h

theorem step_finished (h : task.isFinished) (node : Node) : node.step task.awaken = (node, task) := by
  cases task with
  | finished answer => rfl
  | _ => cases h

/-- A task as an operation leaves it that does not hold the modem. -/
inductive Task.Left : Task → Prop
  | finished (answer : Answer) : Left (.finished answer)
  | commands (text expected : String) (timeout : Nat) (stage : Stage) : Left (.talk (.command text expected timeout) stage)
  | rejoins (due : Nat) (retry : Retry Credentials) : Left (.parked (.rejoin due retry))
  | reopens (due : Nat) (retry : Retry Broker) : Left (.parked (.reopen due retry))
  | drains (published : Nat) : Left (.checking (.drain published))
  | works : Left (.checking .work)
  | notices : Left (.checking (.notice true))

theorem Task.Left.stage?_eq (h : task.Left) : task.stage? = none := by cases h <;> rfl

theorem left_conclude {α : Type} (node : Node) (retry : Option (Retry α)) (wait : Nat → Retry α → Wait)
    (hwait : ∀ due retry, (Task.parked (wait due retry)).Left) (result : Except (Failure Fault) Unit) :
    (node.conclude retry wait result).Left := by
  unfold Node.conclude
  split
  · exact .finished _
  · exact .finished _
  · exact .finished _
  · exact hwait _ _

theorem left_goal (goal : Goal) (result : Except (Failure Fault) Unit) : (goal.next result).Left := by
  unfold Goal.next
  split
  · exact .finished _
  · exact .drains _
  · exact .drains _
  · exact .works

theorem left_publish (scope : Scope) (topic : String) (payload : Bytes) (goal : Goal) :
    (node.publish scope topic payload goal).Left := by
  unfold Node.publish
  split
  · exact left_goal _ _
  · exact .commands _ _ _ _
  · exact .commands _ _ _ _

theorem left_dropPattern (full : String) (answer : Answer) : (node.dropPattern full answer).Left := by
  unfold Node.dropPattern
  split
  · exact .finished _
  · exact .commands _ _ _ _

theorem left_enter (full : String) (subscriber : Subscriber) (asked : Bool) :
    (node.enter full subscriber asked).2.Left := by
  unfold Node.enter
  split
  · exact .finished _
  · split
    · exact left_dropPattern _ _
    · exact .finished _

theorem left_join (credentials : Credentials) (retry : Option (Retry Credentials)) :
    (node.join credentials retry).Left := by
  unfold Node.join
  split
  · exact left_conclude _ _ _ .rejoins _
  · exact .commands _ _ _ _

theorem left_openBroker (broker : Broker) (retry : Option (Retry Broker)) :
    (node.openBroker broker retry).Left := by
  unfold Node.openBroker
  split
  · exact left_conclude _ _ _ .reopens _
  · exact .commands _ _ _ _

theorem left_leave (node : Node) : node.leave.Left := by
  unfold Node.leave
  split
  · exact .finished _
  · split
    · exact .finished _
    · exact .commands _ _ _ _

theorem left_closeBroker (node : Node) : node.closeBroker.Left := by
  unfold Node.closeBroker
  split
  · exact .finished _
  · split
    · exact .finished _
    · exact .commands _ _ _ _

theorem left_subscribe (scope : Scope) (pattern : String) (subscriber : Subscriber) :
    (node.subscribe scope pattern subscriber).2.Left := by
  unfold Node.subscribe
  split
  · exact .finished _
  · split
    · exact .finished _
    · split
      · exact .finished _
      · exact left_enter _ _ _
    · split
      · exact .finished _
      · split
        · exact .finished _
        · exact .commands _ _ _ _

theorem left_unsubscribe (scope : Scope) (pattern : String) (subscriber : Subscriber) :
    (node.unsubscribe scope pattern subscriber).2.Left := by
  unfold Node.unsubscribe
  split
  · exact .finished _
  · simp only
    split
    · exact left_dropPattern _ _
    · exact .finished _

theorem same_deliverNext? {after : Node} (h : node.deliverNext? = some after) : Link.Same node.link after.link := by
  obtain ⟨line, rest, -, rfl⟩ := Node.exists_of_deliverNext? h
  rw [Node.deliver_link]
  exact ⟨rfl, rfl, rfl⟩

theorem same_noteClosed : Link.Same node.link node.noteClosed.1.link := by
  rw [Node.noteClosed_eq]
  exact ⟨rfl, rfl, rfl⟩

theorem same_publishNext? {goal : Goal} {after : Node × Task} (h : node.publishNext? goal = some after) :
    Link.Same node.link after.1.link ∧ after.2.Left := by
  obtain ⟨posting, rest, -, rfl⟩ := Node.exists_of_publishNext? h
  exact ⟨⟨rfl, rfl, rfl⟩, left_publish _ _ _ _⟩

/-- A task that does not hold the modem: it goes on without it, or takes it. -/
theorem step_outside (node : Node) (h : task.stage? = none) :
    (Link.Same node.link (node.step task.awaken).1.link ∧ (node.step task.awaken).2.stage? = none) ∨
      ∃ request stage, node.link.held = false ∧ node.step task.awaken = (node.acquire, .asking request stage) := by
  cases task with
  | asking request stage => cases h
  | finished answer => exact .inl ⟨.refl _, rfl⟩
  | parked wait | checking wait =>
    simp only [Task.awaken, Node.step]
    cases wait with
    | request hold stage => cases h
    | modem request stage =>
      by_cases hheld : node.link.held
      · refine .inl ?_
        simp only [Node.check, if_pos hheld]
        exact ⟨node.link.same_setAlarm _, rfl⟩
      · exact .inr ⟨request, stage, by simpa using hheld, by simp [Node.check, hheld]⟩
    | clock due =>
      refine .inl ?_
      simp only [Node.check]
      split <;> exact ⟨.refl _, rfl⟩
    | rejoin due retry =>
      refine .inl ?_
      simp only [Node.check]
      split
      · exact ⟨.refl _, (left_join _ _).stage?_eq⟩
      · exact ⟨.refl _, rfl⟩
    | reopen due retry =>
      refine .inl ?_
      simp only [Node.check]
      split
      · exact ⟨.refl _, (left_openBroker _ _).stage?_eq⟩
      · exact ⟨.refl _, rfl⟩
    | notice forever =>
      refine .inl ?_
      simp only [Node.check]
      split
      · rename_i after hnext
        exact ⟨same_deliverNext? hnext, by cases forever <;> rfl⟩
      · exact ⟨node.link.same_setAlarm _, rfl⟩
    | work =>
      refine .inl ?_
      simp only [Node.check]
      split
      · rename_i after hnext
        exact ⟨same_deliverNext? hnext, rfl⟩
      · rcases hpublish : (node.setAlarm .notice).publishNext? .serve with _ | after
        · exact ⟨(node.link.same_setAlarm _).trans (Link.same_setAlarm _ _), rfl⟩
        · have hsame := same_publishNext? hpublish
          exact ⟨(node.link.same_setAlarm _).trans hsame.1, hsame.2.stage?_eq⟩
    | posting =>
      refine .inl ?_
      simp only [Node.check]
      rcases hpublish : node.publishNext? .report with _ | after
      · exact ⟨node.link.same_setAlarm _, rfl⟩
      · exact (same_publishNext? hpublish).imp_right Task.Left.stage?_eq
    | drain published =>
      refine .inl ?_
      simp only [Node.check]
      rcases hpublish : node.publishNext? (.drain published) with _ | after
      · exact ⟨.refl _, rfl⟩
      · exact (same_publishNext? hpublish).imp_right Task.Left.stage?_eq
    | room posting =>
      refine .inl ?_
      simp only [Node.check]
      split
      · exact ⟨⟨rfl, rfl, rfl⟩, rfl⟩
      · exact ⟨node.link.same_setAlarm _, rfl⟩
    | closed =>
      refine .inl ?_
      have hsame : Link.Same node.link node.noteClosed.1.link := same_noteClosed
      simp only [Node.check]
      rcases hclosed : node.noteClosed with ⟨after, _ | _⟩ <;> rw [hclosed] at hsame
      · exact ⟨hsame.trans (Link.same_setAlarm _ _), rfl⟩
      · exact ⟨hsame, rfl⟩

/-- What becomes of a task that looks whether it can go on: it waits as before, makes its request, or goes on without the
    modem. -/
theorem check_leaves (node : Node) {wait : Wait} (hwait : ∀ hold stage, wait ≠ .request hold stage) :
    (node.check wait).2 = .parked wait ∨
      (∃ request stage, wait = .modem request stage ∧ (node.check wait).2 = .asking request stage) ∨
      (node.check wait).2.Left := by
  cases wait with
  | request hold stage => exact absurd rfl (hwait hold stage)
  | modem request stage =>
    simp only [Node.check]
    split
    · exact .inl rfl
    · exact .inr (.inl ⟨request, stage, rfl, rfl⟩)
  | clock due =>
    simp only [Node.check]
    split
    · exact .inr (.inr (.finished _))
    · exact .inl rfl
  | rejoin due retry =>
    simp only [Node.check]
    split
    · exact .inr (.inr (left_join _ _))
    · exact .inl rfl
  | reopen due retry =>
    simp only [Node.check]
    split
    · exact .inr (.inr (left_openBroker _ _))
    · exact .inl rfl
  | notice forever =>
    simp only [Node.check]
    split
    · cases forever
      · exact .inr (.inr (.finished _))
      · exact .inr (.inr .notices)
    · exact .inl rfl
  | work =>
    simp only [Node.check]
    split
    · exact .inr (.inr .works)
    · rcases hpublish : (node.setAlarm .notice).publishNext? .serve with _ | after
      · exact .inl rfl
      · exact .inr (.inr (same_publishNext? hpublish).2)
  | posting =>
    simp only [Node.check]
    rcases hpublish : node.publishNext? .report with _ | after
    · exact .inl rfl
    · exact .inr (.inr (same_publishNext? hpublish).2)
  | drain published =>
    simp only [Node.check]
    rcases hpublish : node.publishNext? (.drain published) with _ | after
    · exact .inr (.inr (.finished _))
    · exact .inr (.inr (same_publishNext? hpublish).2)
  | room posting =>
    simp only [Node.check]
    split
    · exact .inr (.inr (.finished _))
    · exact .inl rfl
  | closed =>
    simp only [Node.check]
    split
    · exact .inr (.inr (.finished _))
    · exact .inl rfl

/-! ### The steps of the task that holds the modem -/

/-- A stage that leads to another request: never to its own stage again, and a payload follows its header at once,
    and only that. -/
structure Stage.Leads (stage : Stage) (result : Dialogue.Result) (request : Dialogue.Request) (next : Stage) : Prop where
  ne : next ≠ stage
  header : ∀ payload goal, stage = .publishHeader payload goal →
    result.isOk ∧ request.parts = [payload] ∧ next = .publishBody goal
  body : ∀ goal, stage ≠ .publishBody goal

/-- What follows a request: the link stays as it is, and the task makes another request or is to leave. -/
def Stage.Follows (stage : Stage) (node : Node) (result : Dialogue.Result) (after : Node × Next) : Prop :=
  after.1.link = node.link ∧
    match after.2 with
    | .again request next => stage.Leads result request next
    | .leave task => task.Left

theorem follows_enter (full : String) (subscriber : Subscriber) :
    (node.enter full subscriber true).1.link = node.link ∧ (node.enter full subscriber true).2.Left := by
  refine ⟨?_, left_enter _ _ _⟩
  unfold Node.enter
  split
  · rfl
  · split <;> rfl

theorem stage_follows (stage : Stage) (node : Node) (result : Dialogue.Result) :
    stage.Follows node result (stage.next node result) := by
  have leads {stage next : Stage} {request : Dialogue.Request} (hne : next ≠ stage)
      (hheader : ∀ payload goal, stage ≠ .publishHeader payload goal) (hbody : ∀ goal, stage ≠ .publishBody goal) :
      stage.Leads result request next :=
    ⟨hne, fun payload goal h => absurd h (hheader payload goal), hbody⟩
  cases stage with
  | text | flag | done | fault | unsubscribe answer => exact ⟨rfl, .finished _⟩
  | publishInline goal | publishBody goal => cases result <;> exact ⟨rfl, left_goal _ _⟩
  | publishHeader payload goal =>
    cases result with
    | error cause => exact ⟨rfl, left_goal _ _⟩
    | ok answer =>
      refine ⟨rfl, by simp, fun payload' goal' h => ?_, by simp⟩
      cases h
      exact ⟨rfl, rfl, rfl⟩
  | subscribe full subscriber command retries =>
    cases result with
    | ok answer => exact follows_enter full subscriber
    | error cause =>
      cases retries with
      | zero => exact ⟨rfl, .finished _⟩
      | succ retries => exact ⟨rfl, leads (by simp) (by simp) (by simp)⟩
  | reset | settle | flush | backoff | echo => exact ⟨rfl, leads (by simp) (by simp) (by simp)⟩
  | probe => cases result <;> exact ⟨rfl, leads (by simp) (by simp) (by simp)⟩
  | single retries =>
    cases result with
    | ok answer => exact ⟨rfl, .finished _⟩
    | error cause =>
      cases retries with
      | zero => exact ⟨rfl, .finished _⟩
      | succ retries => exact ⟨rfl, leads (by simp) (by simp) (by simp)⟩
  | join retry => cases result <;> exact ⟨rfl, left_conclude _ _ _ .rejoins _⟩
  | leave | closeSession => cases result <;> exact ⟨rfl, .finished _⟩
  | configure session retry =>
    cases result with
    | ok answer => exact ⟨rfl, leads (by simp) (by simp) (by simp)⟩
    | error cause => exact ⟨rfl, left_conclude _ _ _ .reopens _⟩
  | openSession retry => cases result <;> exact ⟨rfl, left_conclude _ _ _ .reopens _⟩

/-- What follows a request may give the modem back, and changes the link in nothing else. -/
theorem after_link (node : Node) (stage : Stage) (result : Dialogue.Result) :
    ∃ held alarm, (node.after stage result).1.link = { node.link with held, alarm } := by
  have hlink := (stage_follows stage node result).1
  unfold Node.after
  split <;> rename_i hnext <;> rw [hnext] at hlink <;> rw [← hlink]
  · exact ⟨_, _, rfl⟩
  · exact ⟨_, _, rfl⟩

theorem after_intake (node : Node) (stage : Stage) (result : Dialogue.Result) :
    (node.after stage result).1.link.intake = node.link.intake := by
  obtain ⟨held, alarm, hlink⟩ := after_link node stage result
  rw [hlink]

theorem after_sent (node : Node) (stage : Stage) (result : Dialogue.Result) :
    (node.after stage result).1.link.sent = node.link.sent := by
  obtain ⟨held, alarm, hlink⟩ := after_link node stage result
  rw [hlink]

theorem after_clock (node : Node) (stage : Stage) (result : Dialogue.Result) :
    (node.after stage result).1.link.clock = node.link.clock := by
  obtain ⟨held, alarm, hlink⟩ := after_link node stage result
  rw [hlink]

/-- A step of the task that holds the modem goes on with its request. -/
theorem step_inside (node : Node) (h : task.stage? = some stage) : ∃ led : Link × Dialogue.Progress,
    node.step task.awaken = node.heed stage led ∧ (task.Owns node.link → Dialogue.Led node.link task.rest led) := by
  cases task with
  | finished answer => cases h
  | asking request stage' =>
    cases h
    exact ⟨Dialogue.start node.link request, rfl, fun howns =>
      Dialogue.led_start (Link.pending?_eq_none howns rfl) request⟩
  | parked wait | checking wait =>
    cases wait <;> cases h
    rename_i hold
    exact ⟨Dialogue.resume node.link hold, rfl, Dialogue.led_resume⟩

/-- What has become of the task that held the modem, when it has written `written` on the way to `after`. -/
inductive Node.Held (task : Task) (stage : Stage) (written : List Bytes) (after : Node × Task) : Prop where
  | waits (held : after.1.link.held = true) (owns : after.2.Owns after.1.link) (stays : after.2.stage? = some stage)
      (wrote : written ++ after.2.rest = task.rest)
  | again (result : Dialogue.Result) (request : Dialogue.Request) (next : Stage) (held : after.1.link.held = true)
      (empty : after.1.link.pending? = none) (asks : after.2 = .asking request next)
      (leads : stage.Leads result request next) (wrote : Dialogue.Progress.Wrote task.rest written (.finished result))
  | left (free : after.1.link.held = false) (empty : after.1.link.pending? = none) (leaves : after.2.stage? = none)
      (wrote : written <+: task.rest)

/-- Nothing is written but the beginning of what was left to write. -/
theorem Node.Held.isPrefix {written : List Bytes} {after : Node × Task} (h : Node.Held task stage written after) :
    written <+: task.rest := by
  cases h with
  | waits _ _ _ hwrote => exact ⟨_, hwrote⟩
  | again _ _ _ _ _ _ _ hwrote => exact hwrote.isPrefix
  | left _ _ _ hwrote => exact hwrote

theorem step_held (h : task.stage? = some stage) (hheld : node.link.held = true) (howns : task.Owns node.link) :
    ∃ written, (node.step task.awaken).1.link.sent = node.link.sent ++ written ∧
      Node.Held task stage written (node.step task.awaken) := by
  obtain ⟨⟨link, progress⟩, hstep, hled⟩ := step_inside node h
  obtain ⟨hlinkHeld, hlinkOwns, written, hsent, hwrote⟩ := hled howns
  refine ⟨written, ?_⟩
  rw [hstep]
  cases progress with
  | waiting hold => exact ⟨hsent, .waits (hlinkHeld.trans hheld) hlinkOwns rfl hwrote⟩
  | finished result =>
    obtain ⟨hlink, hfollows⟩ := stage_follows stage { node with link } result
    simp only [Node.heed, Node.after]
    rcases hnext : stage.next { node with link } result with ⟨next, ⟨request, stage'⟩ | task'⟩ <;>
      simp only [hnext] at hlink hfollows ⊢
    · subst hlink
      exact ⟨hsent, .again result request stage' (hlinkHeld.trans hheld) hlinkOwns rfl hfollows hwrote⟩
    · subst hlink
      exact ⟨hsent, .left rfl hlinkOwns hfollows.stage?_eq hwrote.isPrefix⟩

theorem drop_held (h : task.stage? = some stage) (howns : task.Owns node.link) :
    (node.drop task).link.held = false ∧ (node.drop task).link.sent = node.link.sent ∧
      (node.drop task).link.pending? = none := by
  cases task with
  | finished answer => cases h
  | asking request stage' => exact ⟨rfl, rfl, Link.pending?_eq_none howns rfl⟩
  | parked wait | checking wait =>
    cases wait <;> cases h
    obtain ⟨-, hsent, hpending⟩ := Dialogue.cancel_eq howns
    exact ⟨rfl, hsent, hpending⟩

theorem drop_outside (h : task.stage? = none) : node.drop task = node := by
  cases task with
  | finished answer => rfl
  | asking request stage => cases h
  | parked wait | checking wait => cases wait <;> first | rfl | cases h

/-! ### Calls -/

/-- No task's doing: the modem's holder and all that was written stay as they are, and there is no new question. -/
structure Link.Kept (link after : Link) : Prop where
  held : after.held = link.held
  sent : after.sent = link.sent
  pending : ∀ generation, after.pending? = some generation → link.pending? = some generation

theorem Link.Same.kept {link after : Link} (h : Link.Same link after) : Link.Kept link after :=
  ⟨h.held, h.sent, fun _ hg => h.pending ▸ hg⟩

theorem kept_forget (link : Link) (generation : UInt32) : Link.Kept link (link.forget generation) := by
  refine ⟨rfl, rfl, fun g hg => ?_⟩
  have hforget : (link.intake.slot.forget generation).question.map (·.generation) = some g := hg
  unfold Slot.forget at hforget
  split at hforget
  · split at hforget
    · cases hforget
    · exact hforget
  · exact hforget

theorem kept_collect (link : Link) (generation : UInt32) :
    Link.Kept link (link.withSlot (link.intake.slot.collect generation).1) := by
  refine ⟨rfl, rfl, fun g hg => ?_⟩
  have hcollect : (link.intake.slot.collect generation).1.question.map (·.generation) = some g := hg
  rw [Dialogue.collect_question] at hcollect
  split at hcollect
  · cases hcollect
  · exact hcollect

theorem deliverPending_link (node : Node) :
    node.deliverPending.1.link = { node.link with intake := { node.link.intake with inbound := [] } } := by
  have hfold (lines : List Bytes) (node : Node) :
      (lines.foldl (fun node line => (node.deliver line).1) node).link = node.link := by
    induction lines generalizing node with
    | nil => rfl
    | cons line rest ih => exact (ih _).trans (Node.deliver_link _ line)
  rw [Node.deliverPending_eq]
  exact hfold _ _

theorem deliverPending_kept : Link.Kept node.link node.deliverPending.1.link := by
  rw [deliverPending_link]
  exact ⟨rfl, rfl, fun _ hg => hg⟩

theorem subscribe_link (node : Node) (scope : Scope) (pattern : String) (subscriber : Subscriber) :
    (node.subscribe scope pattern subscriber).1.link = node.link := by
  unfold Node.subscribe
  split
  · rfl
  · split
    · rfl
    · split
      · rfl
      · unfold Node.enter
        split <;> rfl
    · split
      · rfl
      · split <;> rfl

theorem unsubscribe_link (node : Node) (scope : Scope) (pattern : String) (subscriber : Subscriber) :
    (node.unsubscribe scope pattern subscriber).1.link = node.link := by
  unfold Node.unsubscribe
  split
  · rfl
  · simp only
    split <;> rfl

/-- A call that does not put a question itself neither writes nor takes the modem on its first visit. -/
theorem start_outside (node : Node) {call : Call} (h : ∀ expected, call ≠ .ask expected) :
    Link.Kept node.link (call.start node).1.link ∧ (call.start node).2.stage? = none := by
  have kept : Link.Kept node.link node.link := (Link.Same.refl _).kept
  cases call with
  | ask expected => exact absurd rfl (h expected)
  | feed data => exact ⟨(node.link.same_feed data).kept, rfl⟩
  | forget generation => exact ⟨kept_forget _ _, rfl⟩
  | collect generation => exact ⟨kept_collect _ _, rfl⟩
  | publish scope topic payload => exact ⟨kept, (left_publish _ _ _ _).stage?_eq⟩
  | subscribe scope pattern subscriber =>
    have hlink : (node.subscribe scope pattern subscriber).1.link = node.link := subscribe_link _ _ _ _
    exact ⟨hlink ▸ kept, (left_subscribe _ _ _).stage?_eq⟩
  | unsubscribe scope pattern subscriber =>
    have hlink : (node.unsubscribe scope pattern subscriber).1.link = node.link := unsubscribe_link _ _ _ _
    exact ⟨hlink ▸ kept, (left_unsubscribe _ _ _).stage?_eq⟩
  | deliver line =>
    have hlink : (node.deliver line).1.link = node.link := node.deliver_link line
    simp only [Call.start]
    rcases hdeliver : node.deliver line with ⟨after, n | cause⟩ <;> rw [hdeliver] at hlink <;>
      exact ⟨hlink ▸ kept, rfl⟩
  | deliverPending => exact ⟨deliverPending_kept, rfl⟩
  | tryPost scope topic payload =>
    simp only [Call.start, Node.tryPost]
    split
    · exact ⟨kept, rfl⟩
    · split
      · exact ⟨(Link.same_announce _ _).kept, rfl⟩
      · exact ⟨kept, rfl⟩
  | post scope topic payload =>
    simp only [Call.start, Node.post]
    split <;> exact ⟨kept, rfl⟩
  | join credentials | joinUntil credentials delay => exact ⟨kept, (left_join _ _).stage?_eq⟩
  | openBroker broker | openBrokerUntil broker delay => exact ⟨kept, (left_openBroker _ _).stage?_eq⟩
  | leave => exact ⟨kept, (left_leave _).stage?_eq⟩
  | closeBroker => exact ⟨kept, (left_closeBroker _).stage?_eq⟩
  | noteClosed => exact ⟨same_noteClosed.kept, rfl⟩
  | takeClosed => exact ⟨⟨rfl, rfl, fun _ hg => hg⟩, rfl⟩
  | schedule | setRules | powerUp => exact ⟨⟨rfl, rfl, fun _ hg => hg⟩, rfl⟩
  | _ => exact ⟨kept, rfl⟩

end
end SensorLink
