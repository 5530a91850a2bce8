import SensorLink.Proofs.Delivering
import SensorLink.Proofs.Progress
import SensorLink.Proofs.Requests

/-! What a step does to the queue of postings. It takes the oldest posting for a publish, or adds one behind the others, or
    leaves the queue as it is; and what comes of a publish only the task learns that took the posting. -/

namespace SensorLink

/-! ### Tasks that take postings -/

/-- What the request of a stage is part of, if it is part of a publish. -/
def Stage.goal? : Stage → Option Goal
  | .publishInline goal | .publishHeader _ goal | .publishBody goal => some goal
  | _ => none

/-- What a publish has come to with the result of a request; nothing if its payload has still to be sent. -/
def Stage.return? : Stage → Dialogue.Result → Option (Except (Failure Fault) Unit)
  | .publishInline _, result | .publishBody _, result => some (result.map fun _ => ())
  | .publishHeader .., .error cause => some (.error cause)
  | _, _ => none

/-- What a posting is taken for by one who waits like this. -/
def Wait.goal? : Wait → Option Goal
  | .posting => some .report
  | .drain published => some (.drain published)
  | .work => some .serve
  | _ => none

namespace Task

/-- What the task takes the next posting for, while it has none. -/
def looks? : Task → Option Goal
  | .parked wait | .checking wait => wait.goal?
  | _ => none

/-- What the publish is part of that the task is busy with. -/
def publishes? (task : Task) : Option Goal := task.aim?.bind Stage.goal?

end Task

namespace Node

/-- The posting that a step of the task takes, and what for. One who serves delivers a notification first. -/
def takes? (node : Node) (task : Task) : Option (Posting × Goal) := do
  let goal ← task.looks?
  if goal = .serve ∧ node.deliverNext?.isSome then none else node.queue.head?.map (·, goal)

/-- The posting that a step of the task queues, and says so. -/
def queues? (node : Node) : Task → Option Posting
  | .checking (.room posting) => if (node.check (.room posting)).2 = .finished .done then some posting else none
  | _ => none

/-- What the publish of a posting comes to with a step of the task: it cannot be formed, or its last request is at its
    end. -/
def returns? (node : Node) (task : Task) : Option (Except (Failure Fault) Unit) :=
  match node.takes? task with
  | some (posting, _) =>
    match node.publishForm posting.scope posting.topic posting.payload with
    | .error cause => some (.error cause)
    | .ok _ => none
  | none => (node.concludes? task).bind fun (stage, result) => stage.return? result

end Node

section
variable {node : Node} {task : Task} {stage : Stage} {goal : Goal} {posting : Posting}

theorem looks?_awaken (task : Task) : task.awaken.looks? = task.looks? := by cases task <;> rfl

theorem stage?_of_looks? (h : task.looks? = some goal) : task.stage? = none ∧ task.publishes? = none := by
  cases task with
  | asking request stage | finished answer => cases h
  | parked wait | checking wait => cases wait <;> first | exact ⟨rfl, rfl⟩ | cases h

theorem takes?_awaken (node : Node) (task : Task) : node.takes? task.awaken = node.takes? task := by
  rw [Node.takes?, Node.takes?, looks?_awaken]

theorem takes?_of_not_looks (h : task.looks? = none) : node.takes? task = none := by
  rw [Node.takes?, h]
  rfl

theorem queues?_of_looks (h : task.looks? = some goal) : node.queues? task.awaken = none := by
  cases task with
  | asking request stage | finished answer => cases h
  | parked wait | checking wait => cases wait <;> first | rfl | cases h

/-! ### What a step does with the queue -/

theorem queue_deliver (node : Node) (line : Bytes) : (node.deliver line).1.queue = node.queue := by rw [deliver_eq]

theorem queue_deliverNext? {after : Node} (h : node.deliverNext? = some after) : after.queue = node.queue := by
  obtain ⟨line, rest, -, rfl⟩ := Node.exists_of_deliverNext? h
  exact queue_deliver _ line

/-- What becomes of one who looks for a posting, and what has been taken. -/
inductive Node.Looked (node : Node) (goal : Goal) (taken : Option (Posting × Goal)) (after : Node × Task) : Prop where
  /-- The oldest posting is taken, and published. -/
  | takes (posting : Posting) (taken : taken = some (posting, goal)) (queue : node.queue = posting :: after.1.queue)
      (publishes : after.2 = node.publish posting.scope posting.topic posting.payload goal)
  | looks (taken : taken = none) (queue : after.1.queue = node.queue) (looks : after.2.looks? = some goal)
      (waits : ∀ published, goal ≠ .drain published)
  | ends (published : Nat) (taken : taken = none) (drains : goal = .drain published) (empty : node.queue = [])
      (queue : after.1.queue = []) (finished : after.2 = .finished (.count published))

theorem looked_of_publishNext? {quiet : Node} (hqueue : quiet.queue = node.queue)
    (hsettings : quiet.identity = node.identity ∧ quiet.messaging = node.messaging) {otherwise : Node × Task}
    (hotherwise : node.queue = [] → node.Looked goal none otherwise) :
    node.Looked goal (node.queue.head?.map (·, goal)) ((quiet.publishNext? goal).getD otherwise) := by
  cases hnode : node.queue with
  | nil =>
    rw [Node.publishNext?_nil (hqueue.trans hnode)]
    exact hotherwise hnode
  | cons posting rest =>
    rw [Node.publishNext?_cons (hqueue.trans hnode)]
    refine .takes posting rfl hnode ?_
    show quiet.publish _ _ _ _ = _
    unfold Node.publish Node.publishForm
    rw [hsettings.1, hsettings.2]

theorem check_looks {wait : Wait} (h : wait.goal? = some goal) :
    node.Looked goal (node.takes? (.checking wait)) (node.check wait) := by
  cases wait with
  | work =>
    cases h
    simp only [Node.check, Node.takes?, Task.looks?, Wait.goal?, Option.bind_eq_bind, Option.bind_some, true_and]
    cases hnext : node.deliverNext? with
    | some after => exact .looks rfl (queue_deliverNext? hnext) rfl (by rintro _ ⟨⟩)
    | none =>
      have hquiet : (node.setAlarm .notice).queue = node.queue := rfl
      exact looked_of_publishNext? hquiet ⟨rfl, rfl⟩ fun _ => .looks rfl rfl rfl (by rintro _ ⟨⟩)
  | posting =>
    cases h
    exact looked_of_publishNext? rfl ⟨rfl, rfl⟩ fun _ => .looks rfl rfl rfl (by rintro _ ⟨⟩)
  | drain published =>
    cases h
    exact looked_of_publishNext? rfl ⟨rfl, rfl⟩ fun hempty => .ends published rfl rfl hempty hempty rfl
  | _ => cases h

/-- A step of one who looks for a posting. -/
theorem step_looks (node : Node) (h : task.looks? = some goal) :
    node.Looked goal (node.takes? task) (node.step task.awaken) := by
  cases task with
  | asking request stage | finished answer => cases h
  | parked wait | checking wait => exact check_looks h

/-- What is taken is published. -/
theorem step_takes (h : node.takes? task = some (posting, goal)) :
    (node.step task.awaken).2 = node.publish posting.scope posting.topic posting.payload goal := by
  cases hlooks : task.looks? with
  | none =>
    rw [takes?_of_not_looks hlooks] at h
    cases h
  | some other =>
    rcases step_looks node hlooks with ⟨taken, htaken, -, hpublishes⟩ | ⟨hnone, -⟩ | ⟨_, hnone, -⟩
    · cases h.symm.trans htaken
      exact hpublishes
    all_goals simp [h] at hnone

theorem held_of_looks (node : Node) (h : task.looks? = some goal) :
    (node.step task.awaken).1.link.held = node.link.held := by
  rcases step_outside node (stage?_of_looks? h).1 with ⟨hsame, -⟩ | ⟨request, stage, -, hasks⟩
  · exact hsame.held
  · -- One who looks for a posting makes no request yet.
    rcases step_looks node h with ⟨posting, -, -, hpublishes⟩ | ⟨-, -, hlooks, -⟩ | ⟨_, -, -, -, -, hfinished⟩
    · have hstage : (node.publish posting.scope posting.topic posting.payload goal).stage? = none := (left_publish ..).stage?_eq
      rw [← hpublishes, hasks] at hstage
      cases hstage
    · rw [hasks] at hlooks
      cases hlooks
    · rw [hasks] at hfinished
      cases hfinished

/-! ### What becomes of a publish -/

theorem publish_cases (node : Node) (scope : Scope) (topic : String) (payload : Bytes) (goal : Goal) :
    (∃ cause, node.publishForm scope topic payload = .error cause ∧
      node.publish scope topic payload goal = goal.next (.error cause)) ∨
    ∃ form, node.publishForm scope topic payload = .ok form ∧
      (node.publish scope topic payload goal).publishes? = some goal := by
  unfold Node.publish
  cases hform : node.publishForm scope topic payload with
  | error cause => exact .inl ⟨cause, rfl, rfl⟩
  | ok form => exact .inr ⟨form, rfl, by cases form <;> rfl⟩

/-- A publish that is begun has returned at once, or the task is busy with it. -/
theorem step_begins (htaken : node.takes? task = some (posting, goal)) :
    (∃ cause, node.returns? task.awaken = some (.error cause) ∧ (node.step task.awaken).2 = goal.next (.error cause)) ∨
      node.returns? task.awaken = none ∧ (node.step task.awaken).2.publishes? = some goal := by
  rw [Node.returns?, takes?_awaken, htaken, step_takes htaken]
  rcases publish_cases node posting.scope posting.topic posting.payload goal with ⟨cause, hform, hnext⟩ | ⟨form, hform, hbusy⟩
  · exact .inl ⟨cause, by simp only [hform], hnext⟩
  · exact .inr ⟨by simp only [hform], hbusy⟩

theorem returns?_of_looks (h : task.looks? = some goal) (htaken : node.takes? task = none) :
    node.returns? task.awaken = none := by
  rw [Node.returns?, takes?_awaken, htaken]
  simp only [concludes?_outside node (stage?_of_looks? h).1, Option.bind_none]

theorem held_after {result : Dialogue.Result} (h : (node.after stage result).2.stage? = none) :
    (node.after stage result).1.link.held = false := by
  unfold Node.after at h ⊢
  split <;> rename_i hnext <;> rw [hnext] at h
  · cases h
  · rfl

/-- The end of a request that a publish is part of. -/
theorem after_publishes (node : Node) (h : stage.goal? = some goal) (result : Dialogue.Result) :
    (node.after stage result).1.queue = node.queue ∧
      match stage.return? result with
      | some returned => (node.after stage result).2 = goal.next returned
      | none => (node.after stage result).2.publishes? = some goal := by
  cases stage with
  | publishInline made | publishHeader payload made | publishBody made =>
    cases h
    cases result <;> exact ⟨rfl, rfl⟩
  | _ => cases h

/-- A step of one who is busy with a publish. -/
theorem step_publishes (node : Node) (h : task.publishes? = some goal) :
    node.takes? task = none ∧ (node.step task.awaken).1.queue = node.queue ∧
      match node.returns? task.awaken with
      | some returned => (node.step task.awaken).2 = goal.next returned
      | none => (node.step task.awaken).2.publishes? = some goal := by
  obtain ⟨stage, haim, hgoal⟩ := Option.bind_eq_some_iff.mp h
  have htaken : node.takes? task = none := by
    refine takes?_of_not_looks (Option.eq_none_iff_forall_ne_some.mpr fun other hlooks => ?_)
    rw [(stage?_of_looks? hlooks).2] at h
    cases h
  refine ⟨htaken, ?_⟩
  rw [Node.returns?, takes?_awaken, htaken]
  cases hstage : task.stage? with
  | some stage' =>
    obtain rfl : stage' = stage := Option.some.inj ((aim?_of_stage? hstage).symm.trans haim)
    obtain ⟨link, ⟨hnone, hold, hstep⟩ | ⟨result, hconcludes, hstep⟩⟩ := step_concludes node hstage
    · rw [hnone, hstep]
      exact ⟨rfl, hgoal⟩
    · rw [hconcludes, hstep]
      exact after_publishes _ hgoal result
  | none =>
    -- The task still waits for the modem.
    rw [concludes?_outside node hstage]
    cases task with
    | asking request stage' => cases hstage
    | finished answer => cases haim
    | parked wait | checking wait =>
      cases wait with
      | modem request stage' =>
        cases haim
        simp only [Task.awaken, Node.step, Node.check]
        split <;> exact ⟨rfl, hgoal⟩
      | request hold stage' => cases hstage
      | _ => cases haim

/-! ### Drains -/

theorem looks?_drain (published : Nat) (result : Except (Failure Fault) Unit) :
    ∃ n, ((Goal.drain published).next result).looks? = some (.drain n) := by
  cases result <;> exact ⟨_, rfl⟩

/-- Whatever a publish comes to, the drain looks for the next posting. -/
theorem drain_returns {n : Nat} {result : Except (Failure Fault) Unit}
    (h : task.looks? = some (.drain n) ∨ task.publishes? = some (.drain n))
    (hreturns : node.returns? task.awaken = some result) : ∃ m, (node.step task.awaken).2.looks? = some (.drain m) := by
  rcases h with hlooks | hbusy
  · rcases step_looks node hlooks with ⟨posting, htaken, -⟩ | ⟨htaken, -⟩ | ⟨_, htaken, -⟩
    · rcases step_begins htaken with ⟨cause, -, hnext⟩ | ⟨hnone, -⟩
      · exact hnext ▸ looks?_drain n _
      · simp [hnone] at hreturns
    all_goals simp [returns?_of_looks hlooks htaken] at hreturns
  · obtain ⟨-, -, hreturn⟩ := step_publishes node hbusy
    rw [hreturns] at hreturn
    exact hreturn ▸ looks?_drain n result

/-- A drain goes on, unless it looks for a posting and there is none. -/
theorem step_drains {n : Nat} (node : Node) (h : task.looks? = some (.drain n) ∨ task.publishes? = some (.drain n)) :
    (node.step task.awaken).2.isFinished = false ∨
      task.looks? = some (.drain n) ∧ node.queue = [] ∧ (node.step task.awaken).1.queue = [] := by
  have goesOn {after : Task} (hafter : after.looks?.isSome ∨ after.publishes?.isSome) : after.isFinished = false := by
    cases after with
    | finished answer => rcases hafter with h | h <;> cases h
    | _ => rfl
  cases hreturns : node.returns? task.awaken with
  | some result =>
    obtain ⟨m, hlooks⟩ := drain_returns h hreturns
    exact .inl (goesOn (.inl (by simp [hlooks])))
  | none =>
    rcases h with hlooks | hbusy
    · rcases step_looks node hlooks with ⟨posting, htaken, -⟩ | ⟨-, -, -, hwaits⟩ | ⟨_, -, -, hempty, hqueue, -⟩
      · rcases step_begins htaken with ⟨cause, hsome, -⟩ | ⟨-, hbusy⟩
        · simp [hsome] at hreturns
        · exact .inl (goesOn (.inr (by simp [hbusy])))
      · exact absurd rfl (hwaits n)
      · exact .inr ⟨hlooks, hempty, hqueue⟩
    · obtain ⟨-, -, hreturn⟩ := step_publishes node hbusy
      rw [hreturns] at hreturn
      exact .inl (goesOn (.inr (by simp [show _ = some _ from hreturn])))

/-! ### Everything else -/

theorem queue_kept {after : Node} (h : after.queue = node.queue) :
    after.queue = node.queue ++ (none : Option Posting).toList := by
  rw [h, Option.toList_none, List.append_nil]

theorem queue_enter (node : Node) (full : String) (subscriber : Subscriber) (asked : Bool) :
    (node.enter full subscriber asked).1.queue = node.queue := by
  unfold Node.enter
  split
  · rfl
  · split <;> rfl

theorem queue_next (node : Node) (stage : Stage) (result : Dialogue.Result) :
    (stage.next node result).1.queue = node.queue := by
  cases stage with
  | subscribe full subscriber command retries =>
    cases result with
    | ok answer => exact queue_enter node full subscriber true
    | error cause => cases retries <;> rfl
  | single retries =>
    cases result with
    | ok answer => rfl
    | error cause => cases retries <;> rfl
  | join retry | leave | openSession retry | closeSession => cases result <;> rfl
  | _ => rfl

theorem queue_noteClosed (node : Node) : node.noteClosed.1.queue = node.queue := by
  rw [Node.noteClosed_eq]
  rfl

/-- One who waits for anything but a posting can only add one. -/
theorem check_queue {wait : Wait} (h : wait.goal? = none) (hwait : ∀ hold stage, wait ≠ .request hold stage) :
    (node.check wait).1.queue = node.queue ++ (node.queues? (.checking wait)).toList := by
  cases wait with
  | request hold stage => exact absurd rfl (hwait hold stage)
  | work | posting | drain published => cases h
  | room posting =>
    simp only [Node.queues?, Node.check]
    split
    · rfl
    · exact queue_kept rfl
  | modem request stage =>
    simp only [Node.check]
    split <;> exact queue_kept rfl
  | clock due | rejoin due retry | reopen due retry =>
    simp only [Node.check]
    split <;> exact queue_kept rfl
  | notice forever =>
    simp only [Node.check]
    split
    · rename_i hnext
      exact queue_kept (queue_deliverNext? hnext)
    · exact queue_kept rfl
  | closed =>
    have hqueue := queue_noteClosed node
    simp only [Node.check]
    rcases hclosed : node.noteClosed with ⟨after, _ | _⟩ <;> rw [hclosed] at hqueue <;> exact queue_kept hqueue

/-- A step of one who does not look for a posting can only add one. -/
theorem step_queue (node : Node) (h : task.looks? = none) :
    (node.step task.awaken).1.queue = node.queue ++ (node.queues? task.awaken).toList := by
  cases hstage : task.stage? with
  | some stage =>
    have hqueues : node.queues? task.awaken = none := by
      cases task with
      | asking request stage' | finished answer => rfl
      | parked wait | checking wait => cases wait <;> first | rfl | cases hstage
    rw [hqueues, Option.toList_none, List.append_nil]
    obtain ⟨link, ⟨-, hold, hstep⟩ | ⟨result, -, hstep⟩⟩ := step_concludes node hstage <;> rw [hstep]
    obtain ⟨link', hafter⟩ := after_eq { node with link } stage result
    rw [hafter]
    exact queue_next _ stage result
  | none =>
    cases task with
    | asking request stage => cases hstage
    | finished answer => exact (List.append_nil _).symm
    | parked wait | checking wait =>
      refine check_queue h fun hold stage hwait => ?_
      subst hwait
      cases hstage

theorem drop_queue (node : Node) (task : Task) : (node.drop task).queue = node.queue := by
  unfold Node.drop
  split <;> rfl

/-- The posting that a call queues at once, and says so. -/
def Call.queues? (node : Node) : Call → Option Posting
  | .tryPost scope topic payload =>
    if (node.tryPost scope topic payload).2 = .finished .done then (Posting.ofParts scope topic payload).toOption else none
  | _ => none

theorem queue_deliverPending (node : Node) : node.deliverPending.1.queue = node.queue := by
  simp only [Node.deliverPending_eq, deliver_all]
  rfl

theorem queue_subscribe (node : Node) (scope : Scope) (pattern : String) (subscriber : Subscriber) :
    (node.subscribe scope pattern subscriber).1.queue = node.queue := by
  unfold Node.subscribe
  split
  · rfl
  · split
    · rfl
    · split
      · rfl
      · exact queue_enter node _ subscriber false
    · split
      · rfl
      · split <;> rfl

theorem start_queue (node : Node) (call : Call) :
    (call.start node).1.queue = node.queue ++ (call.queues? node).toList := by
  cases call with
  | tryPost scope topic payload =>
    simp only [Call.queues?, Call.start]
    cases hposting : Posting.ofParts scope topic payload with
    | error cause =>
      have hstart : node.tryPost scope topic payload = (node, .finished (.notPosted cause)) := by
        rw [Node.tryPost, hposting]
      rw [hstart]
      exact queue_kept rfl
    | ok posting =>
      by_cases hroom : node.hasRoom
      · have hstart : node.tryPost scope topic payload = (node.enqueue posting, .finished .done) := by
          simp only [Node.tryPost, hposting, if_pos hroom]
        rw [hstart]
        rfl
      · have hstart : node.tryPost scope topic payload = (node, .finished (.notPosted .queueFull)) := by
          simp only [Node.tryPost, hposting, if_neg hroom]
        rw [hstart]
        exact queue_kept rfl
  | ask expected =>
    simp only [Call.start]
    split <;> exact queue_kept rfl
  | subscribe scope pattern subscriber => exact queue_kept (queue_subscribe node scope pattern subscriber)
  | unsubscribe scope pattern subscriber =>
    simp only [Call.start, Node.unsubscribe]
    split
    · exact queue_kept rfl
    · split <;> exact queue_kept rfl
  | deliver line =>
    have hqueue := queue_deliver node line
    simp only [Call.start]
    rcases hdeliver : node.deliver line with ⟨after, n | cause⟩ <;> rw [hdeliver] at hqueue <;> exact queue_kept hqueue
  | deliverPending => exact queue_kept (queue_deliverPending node)
  | noteClosed => exact queue_kept (queue_noteClosed node)
  | _ => exact queue_kept rfl

end

/-! ### The end of a drain -/

namespace Crowd

variable {crowd : Crowd} {i : Nat} {task : Task} {goal : Goal}

/-- A request that a publish is part of comes to its end, and with it the publish or its header. -/
theorem part_ends {stage : Stage} (htask : crowd.task? i = some task) (haim : task.aim? = some stage)
    (hgoal : stage.goal? = some goal) (hfree : task.stage? = none → crowd.node.link.held = false) :
    ∃ moves after, (∀ move ∈ moves, Move.IsVisit i move) ∧ crowd.run moves = crowd.went i after ∧
      after.1.queue = crowd.node.queue ∧
      ((∃ result, after.2 = goal.next result ∧ after.1.link.held = false) ∨
        (∃ payload, stage = .publishHeader payload goal) ∧ after.2.stage? = some (.publishBody goal)) := by
  obtain ⟨moves, link, result, hmoves, hrun⟩ := aim_ends htask haim hfree
  refine ⟨moves, _, hmoves, hrun, ?_⟩
  obtain ⟨hqueue, hreturn⟩ := after_publishes { crowd.node with link } hgoal result
  refine ⟨hqueue, ?_⟩
  cases hresult : stage.return? result with
  | some returned =>
    rw [hresult] at hreturn
    exact .inl ⟨returned, hreturn, held_after (hreturn ▸ (left_goal goal returned).stage?_eq)⟩
  | none =>
    -- Only a header leads to another request.
    cases stage with
    | publishHeader payload made =>
      cases hgoal
      cases result with
      | error cause => cases hresult
      | ok answer => exact .inr ⟨⟨payload, rfl⟩, rfl⟩
    | publishInline made | publishBody made => cases hresult
    | _ => cases hgoal

/-- A publish that is visited comes to something. -/
theorem publish_ends (htask : crowd.task? i = some task) (h : task.publishes? = some goal)
    (hfree : task.stage? = none → crowd.node.link.held = false) : ∃ moves after result,
      (∀ move ∈ moves, Move.IsVisit i move) ∧ crowd.run moves = crowd.went i (after, goal.next result) ∧
        after.queue = crowd.node.queue ∧ after.link.held = false := by
  obtain ⟨stage, haim, hgoal⟩ := Option.bind_eq_some_iff.mp h
  obtain ⟨moves, ⟨node, next⟩, hmoves, hrun, hqueue, ⟨result, rfl, hheld⟩ | ⟨-, hbody⟩⟩ := part_ends htask haim hgoal hfree
  · exact ⟨moves, node, result, hmoves, hrun, hqueue, hheld⟩
  · obtain ⟨moves', ⟨node', next'⟩, hmoves', hrun', hqueue', ⟨result, rfl, hheld⟩ | ⟨⟨payload, hheader⟩, -⟩⟩ :=
      part_ends (task?_went htask (node, next)) (aim?_of_stage? hbody) rfl fun hnone => by simp [hbody] at hnone
    · refine ⟨moves ++ moves', node', result, List.forall_mem_append.mpr ⟨hmoves, hmoves'⟩, ?_, hqueue'.trans hqueue, hheld⟩
      rw [run_append, hrun, hrun', went_went]
    · cases hheader

/-- A drain that is visited while the modem is free comes to its end: it publishes what is in the queue, and no more comes
    in meanwhile. -/
theorem drain_ends {published : Nat} (htask : crowd.task? i = some task) (hlooks : task.looks? = some (.drain published))
    (hfree : crowd.node.link.held = false) : ∃ moves count, (∀ move ∈ moves, Move.IsVisit i move) ∧
      (crowd.run moves).task? i = some (.finished (.count count)) := by
  induction hrest : crowd.node.queue generalizing crowd task published with
  | nil =>
    refine ⟨[.step i], published, by simp [Move.IsVisit], ?_⟩
    show (crowd.next (.step i)).task? i = _
    rw [task?_step htask, if_pos rfl]
    rcases step_looks crowd.node hlooks with ⟨posting, -, hqueue, -⟩ | ⟨-, -, -, hwaits⟩ | ⟨n, -, hdrains, -, -, hfinished⟩
    · simp [hrest] at hqueue
    · exact absurd rfl (hwaits published)
    · cases hdrains
      rw [hfinished]
  | cons oldest rest ih =>
    have hstep : crowd.run [.step i] = crowd.went i (crowd.node.step task.awaken) := next_step htask
    have hagain := task?_went htask (crowd.node.step task.awaken)
    have hstill := (held_of_looks crowd.node hlooks).trans hfree
    rcases step_looks crowd.node hlooks with ⟨posting, -, hqueue, hpublishes⟩ | ⟨-, -, -, hwaits⟩ | ⟨-, -, -, hempty, -, -⟩
    · obtain ⟨-, hqueue⟩ := List.cons.inj (hrest.symm.trans hqueue)
      rw [hpublishes] at hagain
      have hvisit : ∀ move ∈ [Move.step i], move.IsVisit i := by simp [Move.IsVisit]
      rcases publish_cases crowd.node posting.scope posting.topic posting.payload (.drain published) with
        ⟨cause, -, hfailed⟩ | ⟨form, -, hbusy⟩
      · rw [hfailed] at hagain
        obtain ⟨moves, count, hmoves, hended⟩ := ih hagain rfl hstill hqueue.symm
        exact ⟨_, count, List.forall_mem_append.mpr ⟨hvisit, hmoves⟩, by rw [run_append, hstep, hended]⟩
      · obtain ⟨first, node, result, hfirst, hrun, hsame, hfree'⟩ := publish_ends hagain hbusy fun _ => hstill
        obtain ⟨n, hlooks'⟩ := looks?_drain published result
        obtain ⟨moves, count, hmoves, hended⟩ :=
          ih (task?_went hagain (node, (Goal.drain published).next result)) hlooks' hfree' (hsame.trans hqueue.symm)
        refine ⟨[.step i] ++ (first ++ moves), count,
          List.forall_mem_append.mpr ⟨hvisit, List.forall_mem_append.mpr ⟨hfirst, hmoves⟩⟩, ?_⟩
        rw [run_append, hstep, run_append, hrun, hended]
    · exact absurd rfl (hwaits published)
    · simp [hrest] at hempty

end Crowd
end SensorLink
