import SensorLink.Proofs.BrokerSession
import SensorLink.Proofs.Turns

/-! The status of the connection. What each request does to it is said once (`Status.after`), and so is what the status
    is while a request is under way (`Stage.Fits`); operations that come one at a time keep both. -/

namespace SensorLink

/-! ### Operations on the connection -/

def Call.connects : Call → Bool
  | .powerUp | .join _ | .leave | .openBroker _ | .closeBroker | .noteClosed | .awaitClosed | .joinUntil ..
  | .openBrokerUntil .. => true
  | _ => false

def Stage.connects : Stage → Bool
  | .reset | .settle | .flush | .probe | .backoff | .echo | .single _ | .join _ | .leave | .configure .. | .openSession _
  | .closeSession => true
  | _ => false

def Wait.connects : Wait → Bool
  | .modem _ stage | .request _ stage => stage.connects
  | .rejoin .. | .reopen .. | .closed => true
  | _ => false

/-- A task works on the connection. -/
def Task.connects : Task → Bool
  | .parked wait | .checking wait => wait.connects
  | .asking _ stage => stage.connects
  | .finished _ => false

def Next.task : Next → Task
  | .again request stage => .asking request stage
  | .leave task => task

section
variable {node : Node} {task : Task} {stage : Stage} {call : Call}

theorem after_task (node : Node) (stage : Stage) (result : Dialogue.Result) :
    (node.after stage result).2 = (stage.next node result).2.task := by
  unfold Node.after
  split <;> rename_i heq <;> rw [heq] <;> rfl

theorem connects_awaken (task : Task) : task.awaken.connects = task.connects := by cases task <;> rfl

theorem connects_of_stage? (h : task.stage? = some stage) : task.connects = stage.connects := by
  cases task with
  | finished answer => cases h
  | asking request stage' =>
    cases h
    rfl
  | parked wait | checking wait =>
    cases wait <;> cases h
    rfl

theorem connects_of_aim? (h : task.aim? = some stage) : task.connects = stage.connects := by
  cases task with
  | finished answer => cases h
  | asking request stage' =>
    cases h
    rfl
  | parked wait | checking wait => cases wait <;> cases h <;> rfl

theorem connects_goal (goal : Goal) (result : Except (Failure Fault) Unit) : (goal.next result).connects = false := by
  unfold Goal.next
  split <;> rfl

theorem connects_publish (scope : Scope) (topic : String) (payload : Bytes) (goal : Goal) :
    (node.publish scope topic payload goal).connects = false := by
  unfold Node.publish
  split
  · exact connects_goal _ _
  · rfl
  · rfl

theorem connects_publishNext? {goal : Goal} {after : Node × Task} (h : node.publishNext? goal = some after) :
    after.2.connects = false := by
  obtain ⟨posting, rest, -, rfl⟩ := Node.exists_of_publishNext? h
  exact connects_publish _ _ _ _

theorem connects_dropPattern (full : String) (answer : Answer) : (node.dropPattern full answer).connects = false := by
  unfold Node.dropPattern
  split <;> rfl

theorem connects_enter (full : String) (subscriber : Subscriber) (asked : Bool) :
    (node.enter full subscriber asked).2.connects = false := by
  rcases enter_cases node full subscriber asked with ⟨table, henter, -⟩ | ⟨-, henter⟩ | ⟨henter, -⟩ <;> rw [henter]
  · rfl
  · exact connects_dropPattern _ _
  · rfl

/-- What follows a request that is none on the connection does not work on the connection. -/
theorem connects_next (h : stage.connects = false) (node : Node) (result : Dialogue.Result) :
    (stage.next node result).2.task.connects = false := by
  cases stage with
  | text | flag | done | fault | unsubscribe answer => rfl
  | publishInline goal | publishBody goal => cases result <;> exact connects_goal _ _
  | publishHeader payload goal =>
    cases result with
    | ok answer => rfl
    | error cause => exact connects_goal _ _
  | subscribe full subscriber command retries =>
    cases result with
    | ok answer => exact connects_enter full subscriber true
    | error cause => cases retries <;> rfl
  | _ => cases h

theorem connects_check {wait : Wait} (hwait : ∀ hold stage, wait ≠ .request hold stage) (h : wait.connects = false) :
    (node.check wait).2.connects = false := by
  cases wait with
  | request hold stage => exact absurd rfl (hwait hold stage)
  | rejoin due retry | reopen due retry | closed => cases h
  | modem request stage =>
    simp only [Node.check]
    split <;> exact h
  | clock due =>
    simp only [Node.check]
    split <;> rfl
  | notice forever =>
    simp only [Node.check]
    split
    · cases forever <;> rfl
    · rfl
  | work =>
    simp only [Node.check]
    split
    · rfl
    · rcases hpublish : (node.setAlarm .notice).publishNext? .serve with _ | after
      · rfl
      · exact connects_publishNext? hpublish
  | posting | drain published =>
    simp only [Node.check]
    rcases hpublish : node.publishNext? _ with _ | after
    · rfl
    · exact connects_publishNext? hpublish
  | room posting =>
    simp only [Node.check]
    split <;> rfl

/-- A task that does not work on the connection never will. -/
theorem connects_step (h : task.connects = false) (node : Node) : (node.step task.awaken).2.connects = false := by
  cases hstage : task.stage? with
  | some stage =>
    have hconnects : stage.connects = false := connects_of_stage? hstage ▸ h
    obtain ⟨link, ⟨-, hold, hstep⟩ | ⟨result, -, hstep⟩⟩ := step_concludes node hstage <;> rw [hstep]
    · exact hconnects
    · rw [after_task]
      exact connects_next hconnects _ result
  | none =>
    cases task with
    | asking request stage => cases hstage
    | finished answer => rfl
    | parked wait | checking wait =>
      refine connects_check (fun hold stage hwait => ?_) h
      subst hwait
      cases hstage

theorem connects_subscribe (scope : Scope) (pattern : String) (subscriber : Subscriber) :
    (node.subscribe scope pattern subscriber).2.connects = false := by
  unfold Node.subscribe
  split
  · rfl
  · split
    · rfl
    · split
      · rfl
      · exact connects_enter _ _ _
    · split
      · rfl
      · split <;> rfl

theorem connects_unsubscribe (scope : Scope) (pattern : String) (subscriber : Subscriber) :
    (node.unsubscribe scope pattern subscriber).2.connects = false := by
  unfold Node.unsubscribe
  split
  · rfl
  · simp only
    split
    · exact connects_dropPattern _ _
    · rfl

/-- Only a call on the connection leaves a task that works on it. -/
theorem connects_start (h : call.connects = false) (node : Node) : (call.start node).2.connects = false := by
  cases call with
  | publish scope topic payload => exact connects_publish _ _ _ _
  | subscribe scope pattern subscriber => exact connects_subscribe _ _ _
  | unsubscribe scope pattern subscriber => exact connects_unsubscribe _ _ _
  | ask expected =>
    simp only [Call.start]
    split <;> rfl
  | deliver line =>
    simp only [Call.start]
    split <;> rfl
  | tryPost scope topic payload =>
    simp only [Call.start, Node.tryPost]
    split
    · rfl
    · split <;> rfl
  | post scope topic payload =>
    simp only [Call.start, Node.post]
    split <;> rfl
  | powerUp | join | leave | openBroker | closeBroker | noteClosed | awaitClosed | joinUntil | openBrokerUntil => cases h
  | _ => rfl

/-! ### What happens to the status -/

/-- The status when a request of the stage has come to its end. -/
def Status.after (status : Status) (result : Dialogue.Result) : Stage → Status
  | .single retries => if result.isOk ∨ retries = 0 then { status with chip := .ready } else status
  | .join _ => { status with link := if result.isOk then .connected else .disconnected }
  | .leave => if result.isOk then status.linkLost else status
  | .openSession _ => if result.isOk then { status with broker := .connected } else status
  | .closeSession => if result.isOk then { status with broker := .disconnected } else status
  | _ => status

theorem next_status (node : Node) (stage : Stage) (result : Dialogue.Result) :
    (stage.next node result).1.status = node.status.after result stage := by
  cases stage with
  | subscribe full subscriber command retries =>
    cases result with
    | ok answer =>
      show (node.enter full subscriber true).1.status = node.status
      rcases enter_cases node full subscriber true with ⟨table, henter, -⟩ | ⟨-, henter⟩ | ⟨henter, -⟩ <;> rw [henter]
    | error cause => cases retries <;> rfl
  | single retries =>
    cases result with
    | ok answer => rfl
    | error cause => cases retries <;> rfl
  | join | leave | openSession | closeSession => cases result <;> rfl
  | _ => rfl

theorem noteClosed_status (node : Node) :
    node.noteClosed.1.status = if node.link.intake.closed then node.status.linkLost else node.status := by
  rw [Node.noteClosed_eq]

theorem check_status {wait : Wait} (h : ∀ hold stage, wait ≠ .request hold stage) : (node.check wait).1.status =
    if wait = .closed ∧ node.link.intake.closed then node.status.linkLost else node.status := by
  cases wait with
  | request hold stage => exact absurd rfl (h hold stage)
  | modem request stage | clock due | rejoin due retry | reopen due retry | room posting =>
    simp only [Node.check]
    split <;> rfl
  | notice forever =>
    simp only [Node.check]
    split
    · rename_i hnext
      exact (frame_deliverNext? hnext).status
    · rfl
  | work =>
    simp only [Node.check]
    split
    · rename_i hnext
      exact (frame_deliverNext? hnext).status
    · rcases hpublish : (node.setAlarm .notice).publishNext? .serve with _ | next
      · rfl
      · exact (frame_publishNext? hpublish).status
  | posting | drain published =>
    simp only [Node.check]
    rcases hpublish : node.publishNext? _ with _ | next
    · rfl
    · exact (frame_publishNext? hpublish).status
  | closed =>
    have hnoted := noteClosed_status node
    simp only [Node.check, true_and]
    rcases hclosed : node.noteClosed with ⟨next, _ | _⟩ <;> rw [hclosed] at hnoted <;> exact hnoted

/-- A step changes the status only at the end of a request, or when a lost link is noted. -/
theorem step_status (node : Node) (task : Task) : (node.step task.awaken).1.status =
    match node.concludes? task.awaken with
    | some (stage, result) => node.status.after result stage
    | none =>
      if task.awaken = .checking .closed ∧ node.link.intake.closed then node.status.linkLost else node.status := by
  cases hstage : task.stage? with
  | some stage =>
    have hwait : task.awaken ≠ .checking .closed := fun hawaken => by
      cases task with
      | asking request stage => cases hawaken
      | finished answer => cases hstage
      | parked wait | checking wait =>
        cases hawaken
        cases hstage
    obtain ⟨link, ⟨hnone, hold, hstep⟩ | ⟨result, hsome, hstep⟩⟩ := step_concludes node hstage
    · rw [hstep, hnone]
      simp [hwait]
    · obtain ⟨link', hafter⟩ := after_eq { node with link } stage result
      rw [hstep, hsome, hafter]
      exact next_status _ stage result
  | none =>
    rw [concludes?_outside node hstage]
    cases task with
    | asking request stage => cases hstage
    | finished answer => rfl
    | parked wait | checking wait =>
      have hwait : ∀ hold stage, wait ≠ .request hold stage := by
        rintro hold stage rfl
        cases hstage
      have hcheck : (node.check wait).1.status = _ := check_status hwait
      simp only [Task.awaken, Node.step, hcheck, Task.checking.injEq]

theorem after_of_not_connects (h : stage.connects = false) (status : Status) (result : Dialogue.Result) :
    status.after result stage = status := by
  cases stage <;> first | rfl | cases h

/-- A task that does not work on the connection leaves the status as it is. -/
theorem step_status_of_not_connects (h : task.connects = false) (node : Node) :
    (node.step task.awaken).1.status = node.status := by
  have hwait : task.awaken ≠ .checking .closed := fun hawaken => by
    have hconnects := connects_awaken task
    rw [hawaken, h] at hconnects
    cases hconnects
  rw [step_status]
  split
  · rename_i stage result hconcludes
    refine after_of_not_connects ?_ _ _
    cases hstage : task.stage? with
    | none => simp [concludes?_outside node hstage] at hconcludes
    | some stage' =>
      obtain ⟨link, ⟨hnone, -⟩ | ⟨result', hsome, -⟩⟩ := step_concludes node hstage
      · simp [hnone] at hconcludes
      · cases hsome.symm.trans hconcludes
        exact connects_of_stage? hstage ▸ h
  · rw [if_neg fun h => hwait h.1]

theorem start_status (node : Node) (call : Call) : (call.start node).1.status =
    match call with
    | .powerUp => {}
    | .noteClosed => node.noteClosed.1.status
    | _ => node.status := by
  cases call with
  | ask expected =>
    simp only [Call.start]
    split <;> rfl
  | subscribe scope pattern subscriber =>
    simp only [Call.start, Node.subscribe]
    split
    · rfl
    · rename_i full _
      split
      · rfl
      · split
        · rfl
        · rcases enter_cases node full subscriber false with ⟨table, henter, -⟩ | ⟨-, henter⟩ | ⟨henter, -⟩ <;> rw [henter]
      · split
        · rfl
        · split <;> rfl
  | unsubscribe scope pattern subscriber =>
    simp only [Call.start, Node.unsubscribe]
    split
    · rfl
    · split <;> rfl
  | deliver line =>
    have hframe := frame_deliver node line
    simp only [Call.start]
    rcases hdeliver : node.deliver line with ⟨after, n | cause⟩ <;> rw [hdeliver] at hframe <;> exact hframe.status
  | deliverPending => exact (frame_deliverPending node).status
  | tryPost scope topic payload =>
    simp only [Call.start, Node.tryPost]
    split
    · rfl
    · split <;> rfl
  | _ => rfl

/-! ### What the status is while a request is under way -/

/-- There is no broker session without a link, and no link with a modem that is not ready. -/
structure Status.Ordered (status : Status) : Prop where
  broker : status.broker = .connected → status.link = .connected
  link : status.link = .connected → status.chip = .ready

/-- The status in which a stage is reached, and which stays as it is until the request of the stage comes to its end. -/
def Stage.Fits (status : Status) : Stage → Prop
  | .reset | .settle | .flush | .probe | .backoff | .echo | .single _ => status = {}
  | .join _ => status.chip = .ready ∧ status.link = .disconnected
  | .leave => status.chip = .ready ∧ status.link = .connected
  | .configure .. | .openSession _ => status.chip = .ready ∧ status.link = .connected ∧ status.broker = .disconnected
  | .closeSession => status.broker = .connected
  | _ => True

def Task.Fits (status : Status) (task : Task) : Prop := ∀ stage, task.aim? = some stage → stage.Fits status

theorem fits_of_not_connects (h : task.connects = false) (status : Status) : task.Fits status := by
  intro stage haim
  have hstage := connects_of_aim? haim ▸ h
  cases stage <;> simp [Stage.connects] at hstage <;> trivial

theorem fits_finished (status : Status) (answer : Answer) : (Task.finished answer).Fits status := nofun

theorem fits_conclude {α : Type} (status : Status) (retry : Option (Retry α)) (wait : Nat → Retry α → Wait)
    (hwait : ∀ due retry, (Task.parked (wait due retry)).aim? = none) (result : Except (Failure Fault) Unit) :
    (node.conclude retry wait result).Fits status := by
  unfold Node.conclude
  split
  · exact fits_finished _ _
  · exact fits_finished _ _
  · exact fits_finished _ _
  · intro stage haim
    simp [hwait] at haim

theorem fits_join (credentials : Credentials) (retry : Option (Retry Credentials)) :
    (node.join credentials retry).Fits node.status := by
  unfold Node.join
  split
  · exact fits_conclude _ _ _ (fun _ _ => rfl) _
  · rename_i command hcommand
    rintro stage ⟨⟩
    unfold Node.joinCommand at hcommand
    split at hcommand
    · cases hcommand
    · rename_i hready
      split at hcommand
      · cases hcommand
      · rename_i hlink
        refine ⟨not_not.mp hready, ?_⟩
        cases hstatus : node.status.link with
        | disconnected => rfl
        | connected => exact absurd hstatus hlink

theorem fits_openBroker (broker : Broker) (retry : Option (Retry Broker)) :
    (node.openBroker broker retry).Fits node.status := by
  unfold Node.openBroker
  split
  · exact fits_conclude _ _ _ (fun _ _ => rfl) _
  · rename_i user session hcommands
    rintro stage ⟨⟩
    unfold Node.sessionCommands at hcommands
    split at hcommands
    · cases hcommands
    · rename_i hready
      split at hcommands
      · cases hcommands
      · rename_i hlink
        split at hcommands
        · cases hcommands
        · rename_i hbroker
          refine ⟨not_not.mp hready, not_not.mp hlink, ?_⟩
          cases hstatus : node.status.broker with
          | disconnected => rfl
          | connected => exact absurd hstatus hbroker

theorem fits_leave (node : Node) : node.leave.Fits node.status := by
  unfold Node.leave
  split
  · exact fits_finished _ _
  · rename_i hready
    split
    · exact fits_finished _ _
    · rename_i hlink
      rintro stage ⟨⟩
      refine ⟨not_not.mp hready, ?_⟩
      cases hstatus : node.status.link with
      | disconnected => exact absurd hstatus hlink
      | connected => rfl

theorem fits_closeBroker (node : Node) : node.closeBroker.Fits node.status := by
  unfold Node.closeBroker
  split
  · exact fits_finished _ _
  · rename_i hbroker
    split
    · exact fits_finished _ _
    · rintro stage ⟨⟩
      cases hstatus : node.status.broker with
      | disconnected => exact absurd hstatus hbroker
      | connected => exact hstatus

theorem Status.Ordered.linkLost {status : Status} : status.linkLost.Ordered := ⟨nofun, nofun⟩

/-- The end of a request leads from a status that fits to one that fits what follows. -/
theorem fits_next (node : Node) (hordered : node.status.Ordered) (hfits : stage.Fits node.status) (result : Dialogue.Result) :
    (stage.next node result).1.status.Ordered ∧
      (stage.next node result).2.task.Fits (stage.next node result).1.status := by
  rw [next_status]
  cases hconnects : stage.connects with
  | false =>
    rw [after_of_not_connects hconnects]
    exact ⟨hordered, fits_of_not_connects (connects_next hconnects node result) _⟩
  | true =>
    cases stage with
    | reset | settle | flush | backoff | echo =>
      refine ⟨hordered, ?_⟩
      rintro stage ⟨⟩
      exact hfits
    | probe =>
      refine ⟨hordered, ?_⟩
      cases result <;> rintro stage ⟨⟩ <;> exact hfits
    | single retries =>
      have hready : ({ node.status with chip := .ready } : Status).Ordered := ⟨hordered.broker, fun _ => rfl⟩
      cases result with
      | ok answer => exact ⟨hready, fits_finished _ _⟩
      | error cause =>
        cases retries with
        | zero => exact ⟨hready, fits_finished _ _⟩
        | succ retries =>
          refine ⟨hordered, ?_⟩
          rintro stage ⟨⟩
          exact hfits
    | join retry =>
      have hclosed : node.status.broker ≠ .connected := fun hopen => by
        have hlink := hordered.broker hopen
        rw [hfits.2] at hlink
        cases hlink
      have hafter : (node.status.after result (.join retry)).Ordered :=
        ⟨fun hopen => absurd hopen hclosed, fun _ => hfits.1⟩
      cases result <;> exact ⟨hafter, fits_conclude _ _ _ (fun _ _ => rfl) _⟩
    | leave =>
      cases result with
      | ok answer => exact ⟨.linkLost, fits_finished _ _⟩
      | error cause => exact ⟨hordered, fits_finished _ _⟩
    | configure session retry =>
      refine ⟨hordered, ?_⟩
      cases result with
      | ok answer =>
        rintro stage ⟨⟩
        exact hfits
      | error cause => exact fits_conclude _ _ _ (fun _ _ => rfl) _
    | openSession retry =>
      cases result with
      | ok answer => exact ⟨⟨fun _ => hfits.2.1, hordered.link⟩, fits_conclude _ _ _ (fun _ _ => rfl) _⟩
      | error cause => exact ⟨hordered, fits_conclude _ _ _ (fun _ _ => rfl) _⟩
    | closeSession =>
      cases result with
      | ok answer => exact ⟨⟨nofun, hordered.link⟩, fits_finished _ _⟩
      | error cause => exact ⟨hordered, fits_finished _ _⟩
    | _ => cases hconnects

theorem fits_check (hordered : node.status.Ordered) {wait : Wait} (hwait : ∀ hold stage, wait ≠ .request hold stage)
    (hfits : (Task.checking wait).Fits node.status) :
    (node.check wait).1.status.Ordered ∧ (node.check wait).2.Fits (node.check wait).1.status := by
  cases hconnects : wait.connects with
  | false =>
    have hstatus : (node.check wait).1.status = node.status := by
      rw [check_status hwait, if_neg]
      rintro ⟨rfl, -⟩
      cases hconnects
    exact ⟨hstatus ▸ hordered, fits_of_not_connects (connects_check hwait hconnects) _⟩
  | true =>
    cases wait with
    | request hold stage => exact absurd rfl (hwait hold stage)
    | modem request stage =>
      simp only [Node.check]
      split <;> exact ⟨hordered, hfits⟩
    | rejoin due retry =>
      simp only [Node.check]
      split
      · exact ⟨hordered, fits_join _ _⟩
      · exact ⟨hordered, by rintro stage ⟨⟩⟩
    | reopen due retry =>
      simp only [Node.check]
      split
      · exact ⟨hordered, fits_openBroker _ _⟩
      · exact ⟨hordered, by rintro stage ⟨⟩⟩
    | closed =>
      refine ⟨?_, ?_⟩
      · rw [check_status hwait]
        split
        · exact .linkLost
        · exact hordered
      · simp only [Node.check]
        split <;> rintro stage ⟨⟩
    | _ => cases hconnects

/-- A step of a task leads from a status that fits to one that fits what it does next. -/
theorem fits_step (hordered : node.status.Ordered) (hfits : task.Fits node.status) :
    (node.step task.awaken).1.status.Ordered ∧ (node.step task.awaken).2.Fits (node.step task.awaken).1.status := by
  cases hstage : task.stage? with
  | some stage =>
    have hfits' : stage.Fits node.status := hfits stage (aim?_of_stage? hstage)
    obtain ⟨link, ⟨-, hold, hstep⟩ | ⟨result, -, hstep⟩⟩ := step_concludes node hstage
    · rw [hstep]
      refine ⟨hordered, ?_⟩
      rintro stage' ⟨⟩
      exact hfits'
    · obtain ⟨link', hafter⟩ := after_eq { node with link } stage result
      rw [hstep, after_task, hafter]
      exact fits_next { node with link } hordered hfits' result
  | none =>
    cases task with
    | asking request stage => cases hstage
    | finished answer => exact ⟨hordered, fits_finished _ _⟩
    | parked wait | checking wait =>
      refine fits_check hordered (fun hold stage hwait => ?_) ?_
      · subst hwait
        cases hstage
      · intro stage haim
        refine hfits stage ?_
        cases wait <;> exact haim

/-- A call leaves a status that fits what it does next. -/
theorem fits_start (hordered : node.status.Ordered) (call : Call) :
    (call.start node).1.status.Ordered ∧ (call.start node).2.Fits (call.start node).1.status := by
  cases hconnects : call.connects with
  | false =>
    have hstatus : (call.start node).1.status = node.status := by
      rw [start_status]
      cases call <;> first | rfl | cases hconnects
    exact ⟨hstatus ▸ hordered, fits_of_not_connects (connects_start hconnects node) _⟩
  | true =>
    cases call with
    | powerUp =>
      refine ⟨⟨nofun, nofun⟩, ?_⟩
      rintro stage ⟨⟩
      rfl
    | join credentials | joinUntil credentials delay => exact ⟨hordered, fits_join _ _⟩
    | leave => exact ⟨hordered, fits_leave node⟩
    | openBroker broker | openBrokerUntil broker delay => exact ⟨hordered, fits_openBroker _ _⟩
    | closeBroker => exact ⟨hordered, fits_closeBroker node⟩
    | noteClosed =>
      refine ⟨?_, fits_finished _ _⟩
      rw [start_status]
      show node.noteClosed.1.status.Ordered
      rw [noteClosed_status]
      split
      · exact .linkLost
      · exact hordered
    | awaitClosed => exact ⟨hordered, nofun⟩
    | _ => cases hconnects

end

/-! ### Runs -/

namespace Crowd

/-- The status is ordered, and fits what every task is about. -/
structure Steady (crowd : Crowd) : Prop where
  ordered : crowd.node.status.Ordered
  fits : ∀ i task, crowd.task? i = some task → task.Fits crowd.node.status

section
variable {node : Node} {moves : List Move} {i j : Nat} {task other : Task}

theorem maintains_connects (calls : List Call) :
    Maintains (fun _ => True) (fun call task => task.connects → call.connects) calls where
  start node _ call _ := by
    refine ⟨trivial, fun h => ?_⟩
    by_contra hcall
    rw [connects_start (by simpa using hcall)] at h
    cases h
  step node _ call task hP := by
    refine ⟨trivial, fun h => hP ?_⟩
    by_contra htask
    rw [connects_step (by simpa using htask)] at h
    cases h
  drop _ _ _ := trivial
  advance _ _ _ := trivial

theorem underWay_of_connects (htask : (Crowd.run { node } moves).task? i = some task) (h : task.connects) :
    UnderWay Call.connects (Crowd.calls moves) (Crowd.run { node } moves) i := by
  have heach : (Crowd.run { node } moves).Each (fun _ => True) (fun call task => task.connects → call.connects)
      (Crowd.calls moves) := each_fresh trivial (maintains_connects _)
  obtain ⟨call, hcall, hconnects⟩ := heach.tasks i task htask
  refine ⟨call, task, hcall, hconnects h, htask, fun hfinished => ?_⟩
  cases task with
  | finished answer => cases h
  | _ => cases hfinished

/-- Operations on the connection that come one at a time keep the status in order. -/
theorem steady_run (hstatus : node.status = {}) (h : serial Call.connects [] { node } moves) :
    (Crowd.run { node } moves).Steady := by
  induction moves using List.reverseRecOn with
  | nil =>
    refine ⟨?_, fun i task htask => ?_⟩
    · show node.status.Ordered
      rw [hstatus]
      exact ⟨nofun, nofun⟩
    · have hnone : (Crowd.run { node } []).task? i = none := rfl
      simp [hnone] at htask
  | append_singleton moves move ih =>
    rw [serial_append, Bool.and_eq_true, List.nil_append] at h
    obtain ⟨hordered, hfits⟩ := ih h.1
    rw [run_append]
    show ((Crowd.run { node } moves).next move).Steady
    cases move with
    | start call =>
      obtain ⟨hordered', hfits'⟩ := fits_start hordered call
      refine ⟨hordered', fun i task htask => ?_⟩
      rcases task?_next htask with hold | ⟨_, ⟨⟩, -, rfl⟩ | ⟨_, hstep, -⟩
      · cases hconnects : call.connects with
        | false =>
          have hsame : (call.start (Crowd.run { node } moves).node).1.status = (Crowd.run { node } moves).node.status := by
            rw [start_status]
            cases call <;> first | rfl | cases hconnects
          show task.Fits (call.start (Crowd.run { node } moves).node).1.status
          exact hsame ▸ hfits i task hold
        | true =>
          -- No other operation is under way, so all other tasks have nothing to do with the status.
          refine fits_of_not_connects ?_ _
          have hadmits : (Crowd.run { node } moves).admits Call.connects (Crowd.calls moves) (.start call) := by
            simpa [serial] using h.2
          by_contra hne
          exact not_underWay_of_admits hadmits hconnects (underWay_of_connects hold (by simpa using hne))
      · exact hfits'
      · cases hstep
    | step i =>
      cases htask : (Crowd.run { node } moves).task? i with
      | none =>
        rw [next_step_none htask]
        exact ⟨hordered, hfits⟩
      | some task =>
        obtain ⟨hordered', hfits'⟩ := fits_step hordered (hfits i task htask)
        rw [next_step htask]
        refine ⟨hordered', fun j other hother => ?_⟩
        rw [task?_set htask] at hother
        split at hother
        · cases hother
          exact hfits'
        · rename_i hne
          cases hconnects : task.connects with
          | false =>
            show other.Fits ((Crowd.run { node } moves).node.step task.awaken).1.status
            rw [step_status_of_not_connects hconnects]
            exact hfits j other hother
          | true =>
            refine fits_of_not_connects ?_ _
            by_contra hothers
            exact hne (eq_of_serial h.1 (underWay_of_connects htask hconnects)
              (underWay_of_connects hother (by simpa using hothers)))
    | drop i =>
      cases htask : (Crowd.run { node } moves).task? i with
      | none =>
        rw [next_drop_none htask]
        exact ⟨hordered, hfits⟩
      | some task =>
        have hsame : ((Crowd.run { node } moves).node.drop task).status = (Crowd.run { node } moves).node.status :=
          (drop_frame _ task).status
        rw [next_drop htask]
        refine ⟨hsame ▸ hordered, fun j other hother => ?_⟩
        rw [task?_set htask] at hother
        split at hother
        · cases hother
        · exact hsame ▸ hfits j other hother
    | advance time => exact ⟨hordered, hfits⟩

/-- Whatever happens, and wherever operations on the connection are given up: as long as they come one at a time, a broker
    session has a link and a link has a modem that is ready. -/
theorem status_ordered (node : Node) (hstatus : node.status = {}) (moves : List Move)
    (hserial : serial Call.connects [] { node } moves) :
    let status := (Crowd.run { node } moves).node.status
    (status.broker = .connected → status.link = .connected) ∧ (status.link = .connected → status.chip = .ready) ∧
      (status.isOnline → status.chip = .ready ∧ status.link = .connected ∧ status.broker = .connected) := by
  intro status
  obtain ⟨⟨hbroker, hlink⟩, -⟩ := steady_run hstatus hserial
  refine ⟨hbroker, hlink, fun honline => ?_⟩
  obtain ⟨hup, hopen⟩ : status.link = .connected ∧ status.broker = .connected := by
    simpa [Status.isOnline] using honline
  exact ⟨hlink hup, hup, hopen⟩

end

/-- A power-up is given up while the modem is reset; the next one leads to an open session. -/
theorem ordered_after_power_up_given_up :
    let node : Node := { link := { rules := obeying }, table := { capacity := 4 }, depth := 1 }
    let broker : Broker := { host := "h", tcpPort := 1883, clientId := "c" }
    let moves : List Move := .start .powerUp :: turns 0 2 ++ .drop 0 :: .start .powerUp :: turns 1 3 ++
      .advance 500000 :: turns 1 5 ++ .start (.join ⟨"net", "pw"⟩) :: turns 2 2 ++ .start (.openBroker broker) :: turns 3 3
    let status := (Crowd.run { node } moves).node.status
    serial Call.connects [] { node } moves ∧ status.isOnline ∧
      status.chip = .ready ∧ status.link = .connected ∧ status.broker = .connected := by
  intro node broker moves status
  have hserial : serial Call.connects [] { node } moves := by decide +kernel
  have honline : status.isOnline := by decide +kernel
  exact ⟨hserial, honline, (status_ordered node rfl moves hserial).2.2 honline⟩

end Crowd
end SensorLink
