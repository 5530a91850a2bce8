import SensorLink.Proofs.Accepting

/-! What becomes of the postings that a node accepts, whoever publishes them and whenever a call is given up. They are
    handed over in their order, each once, and what a task has taken has come to a result when it takes the next
    (`Outbox.Forwards`). So of a call that is given up one posting is lost at most: the one whose publish is under way. -/

namespace SensorLink

namespace Crowd

/-- The posting that a move hands over to be published, and the task that publishes it. -/
def hands? (crowd : Crowd) : Move → Option (Nat × Posting)
  | .step i => (crowd.task? i).bind fun task => (crowd.node.takes? task).map fun taken => (i, taken.1)
  | _ => none

/-- What a publish comes to with a move, and the task whose publish it is. -/
def returns? (crowd : Crowd) : Move → Option (Nat × Except (Failure Fault) Unit)
  | .step i => (crowd.task? i).bind fun task => (crowd.node.returns? task.awaken).map fun result => (i, result)
  | _ => none

end Crowd

abbrev Posting.Returned := Posting × Except (Failure Fault) Unit

namespace Node

def taken (node : Node) (task : Task) : List Posting := ((node.takes? task).map Prod.fst).toList

/-- What a step of a task adds to the publishes that have returned. It is the last posting whose publish returns. -/
def results (node : Node) (task : Task) (handed : List Posting) : List Posting.Returned :=
  ((node.returns? task.awaken).bind fun result => handed.getLast?.map fun posting => (posting, result)).toList

end Node

/-- A node and its calls, with the record of its postings. -/
structure Outbox where
  crowd : Crowd
  calls : List Call := []
  /-- What the calls have been told is queued. -/
  accepted : List Posting.Parts := []
  /-- The postings that have been handed over, each with the task that took it. -/
  handed : List (Nat × Posting) := []
  /-- Those of them whose publish has returned. -/
  returned : List (Nat × Posting.Returned) := []

namespace Outbox

/-- What of a record is about task `i`. -/
def about {α : Type} (i : Nat) (record : List (Nat × α)) : List α :=
  record.filterMap fun entry => if entry.1 = i then some entry.2 else none

/-- What a publish comes to with a move. Its posting is the last that the task took. -/
def result? (outbox : Outbox) (move : Crowd.Move) : Option (Nat × Posting.Returned) :=
  (outbox.crowd.returns? move).bind fun (i, result) =>
    (about i (outbox.handed ++ (outbox.crowd.hands? move).toList)).getLast?.map fun posting => (i, posting, result)

def next (outbox : Outbox) (move : Crowd.Move) : Outbox where
  crowd := outbox.crowd.next move
  calls := outbox.calls ++ move.call?.toList
  accepted := outbox.accepted ++ (outbox.crowd.accepts? outbox.calls move).toList
  handed := outbox.handed ++ (outbox.crowd.hands? move).toList
  returned := outbox.returned ++ (outbox.result? move).toList

def run (outbox : Outbox) (moves : List Crowd.Move) : Outbox := moves.foldl next outbox

def handedTo (outbox : Outbox) (i : Nat) : List Posting := about i outbox.handed

def returnedTo (outbox : Outbox) (i : Nat) : List Posting.Returned := about i outbox.returned

/-- The postings that task `i` has taken and whose publish has not returned. -/
def unreturned (outbox : Outbox) (i : Nat) : List Posting := (outbox.handedTo i).drop (outbox.returnedTo i).length

end Outbox

def published (returned : List Posting.Returned) : Nat := returned.countP fun entry => entry.2.isOk

/-! ### The account of one task -/

/-- What a call takes postings for, after so many successful publishes. -/
def Call.goal? (published : Nat) : Call → Option Goal
  | .drain => some (.drain published)
  | .publishNext => some .report
  | .serve => some .serve
  | _ => none

/-- What a call that publishes postings has done with those that it took. -/
inductive Account (call : Call) (task : Task) (handed : List Posting) (returned : List Posting.Returned) : Prop where
  | looks (goal : Goal) (looks : task.looks? = some goal) (goal_eq : call.goal? (published returned) = some goal)
      (handed : handed = returned.map Prod.fst)
  /-- The last posting is being published. -/
  | publishes (goal : Goal) (posting : Posting) (publishes : task.publishes? = some goal)
      (goal_eq : call.goal? (published returned) = some goal) (handed : handed = returned.map Prod.fst ++ [posting])
  | ended (answer : Answer) (finished : task = .finished answer) (handed : handed = returned.map Prod.fst)
      (count : call = .drain → answer = .count (published returned))

section
variable {node : Node} {call : Call} {task : Task} {goal : Goal} {handed : List Posting} {returned : List Posting.Returned}

theorem account_next (hgoal : call.goal? (published returned) = some goal) (posting : Posting)
    (result : Except (Failure Fault) Unit) (hhanded : handed = returned.map Prod.fst ++ [posting]) :
    Account call (goal.next result) handed (returned ++ [(posting, result)]) := by
  have hboth : handed = (returned ++ [(posting, result)]).map Prod.fst := by simp [hhanded]
  have hcount : published (returned ++ [(posting, result)]) = published returned + if result.isOk then 1 else 0 := by
    simp [published, List.countP_append, List.countP_singleton]
  cases goal with
  | report =>
    refine .ended _ rfl hboth ?_
    rintro rfl
    cases hgoal
  | serve =>
    refine .looks .serve rfl ?_ hboth
    cases call <;> first | exact hgoal | cases hgoal
  | drain n =>
    obtain ⟨rfl, rfl⟩ : call = .drain ∧ published returned = n := by
      cases call <;> cases hgoal
      exact ⟨rfl, rfl⟩
    cases result with
    | ok value => exact .looks _ rfl (by rw [hcount]; rfl) hboth
    | error cause => exact .looks _ rfl (by rw [hcount]; rfl) hboth

theorem taken_of_takes {posting : Posting} (h : node.takes? task = some (posting, goal)) : node.taken task = [posting] := by
  rw [Node.taken, h]
  rfl

theorem taken_eq_nil (h : node.takes? task = none) : node.taken task = [] := by
  rw [Node.taken, h]
  rfl

theorem results_of_returns {result : Except (Failure Fault) Unit} (h : node.returns? task.awaken = some result)
    (handed : List Posting) (posting : Posting) : node.results task (handed ++ [posting]) = [(posting, result)] := by
  rw [Node.results, h, Option.bind_some, List.getLast?_concat]
  rfl

theorem results_eq_nil (h : node.returns? task.awaken = none) (handed : List Posting) : node.results task handed = [] := by
  rw [Node.results, h]
  rfl

theorem account_step (node : Node) (h : Account call task handed returned) : Account call (node.step task.awaken).2
    (handed ++ node.taken task) (returned ++ node.results task (handed ++ node.taken task)) := by
  cases h with
  | looks goal hlooks hgoal hhanded =>
    rcases step_looks node hlooks with ⟨posting, htaken, -⟩ | ⟨htaken, -, hlooks', -⟩ |
      ⟨n, htaken, hdrains, -, -, hfinished⟩
    · have hposting : handed ++ [posting] = returned.map Prod.fst ++ [posting] := by rw [hhanded]
      rw [taken_of_takes htaken]
      rcases step_begins htaken with ⟨cause, hreturns, hnext⟩ | ⟨hreturns, hbusy⟩
      · rw [results_of_returns hreturns, hnext]
        exact account_next hgoal posting _ hposting
      · rw [results_eq_nil hreturns, List.append_nil]
        exact .publishes goal posting hbusy hgoal hposting
    all_goals
      rw [taken_eq_nil htaken, results_eq_nil (returns?_of_looks hlooks htaken), List.append_nil, List.append_nil]
    · exact .looks goal hlooks' hgoal hhanded
    · refine .ended _ hfinished hhanded fun hcall => ?_
      rw [hcall, hdrains] at hgoal
      cases hgoal
      rfl
  | publishes goal posting hbusy hgoal hhanded =>
    obtain ⟨htaken, -, hreturn⟩ := step_publishes node hbusy
    rw [taken_eq_nil htaken, List.append_nil]
    cases hreturns : node.returns? task.awaken with
    | none =>
      rw [hreturns] at hreturn
      rw [results_eq_nil hreturns, List.append_nil]
      exact .publishes goal posting hreturn hgoal hhanded
    | some result =>
      rw [hreturns] at hreturn
      rw [hreturn, hhanded, results_of_returns hreturns]
      exact account_next hgoal posting result rfl
  | ended answer hfinished hhanded hcount =>
    subst hfinished
    have htaken : node.takes? (.finished answer) = none := rfl
    have hreturns : node.returns? (Task.finished answer).awaken = none := rfl
    rw [taken_eq_nil htaken, results_eq_nil hreturns, List.append_nil, List.append_nil]
    exact .ended answer rfl hhanded hcount

theorem Account.counts (h : Account .drain task handed returned) :
    task.looks? = some (.drain (published returned)) ∨ task.publishes? = some (.drain (published returned)) ∨
      task = .finished (.count (published returned)) := by
  cases h with
  | looks goal hlooks hgoal _ =>
    cases hgoal
    exact .inl hlooks
  | publishes goal posting hbusy hgoal _ =>
    cases hgoal
    exact .inr (.inl hbusy)
  | ended answer hfinished _ hcount => exact .inr (.inr (hcount rfl ▸ hfinished))

theorem account_start (h : call.forwards = true) (node : Node) : Account call (call.start node).2 [] [] := by
  cases call <;> first | exact .looks _ rfl rfl rfl | cases h

end

/-! ### The queue -/

namespace Crowd

/-- With one move a posting is put behind those in the queue, or one is handed over from before them, or neither. -/
theorem queue_move (crowd : Crowd) (move : Move) : crowd.node.queue ++ (crowd.queues? move).toList =
    ((crowd.hands? move).map Prod.snd).toList ++ (crowd.next move).node.queue := by
  cases move with
  | start call => exact (start_queue crowd.node call).symm
  | advance time => exact List.append_nil _
  | drop i =>
    refine (List.append_nil _).trans ?_
    cases htask : crowd.task? i with
    | none =>
      rw [next_drop_none htask]
      rfl
    | some task =>
      rw [next_drop htask]
      exact (drop_queue crowd.node task).symm
  | step i =>
    cases htask : crowd.task? i with
    | none =>
      rw [next_step_none htask, queues?, hands?, htask]
      exact List.append_nil _
    | some task =>
      rw [next_step htask, queues?, hands?, htask, Option.bind_some, Option.bind_some, Option.map_map]
      cases hlooks : task.looks? with
      | none =>
        rw [takes?_of_not_looks hlooks]
        exact (step_queue crowd.node hlooks).symm
      | some goal =>
        have hqueues : crowd.node.queues? task.awaken = none := queues?_of_looks hlooks
        rw [hqueues, Option.toList_none, List.append_nil]
        rcases step_looks crowd.node hlooks with ⟨posting, htaken, hqueue, -⟩ | ⟨htaken, hqueue, -⟩ |
          ⟨n, htaken, -, hempty, hqueue, -⟩ <;> rw [htaken]
        · exact hqueue
        · exact hqueue.symm
        · exact hempty.trans hqueue.symm

end Crowd

namespace Outbox

variable {outbox : Outbox} {node : Node} {call : Call} {i j : Nat} {task : Task} {move : Crowd.Move}
  {moves : List Crowd.Move}

theorem run_crowd (outbox : Outbox) (moves : List Crowd.Move) :
    (outbox.run moves).crowd = outbox.crowd.run moves := by
  induction moves generalizing outbox with
  | nil => rfl
  | cons move rest ih => exact ih _

theorem run_calls (outbox : Outbox) (moves : List Crowd.Move) :
    (outbox.run moves).calls = outbox.calls ++ Crowd.calls moves := by
  induction moves generalizing outbox with
  | nil => exact (List.append_nil _).symm
  | cons move rest ih => exact (ih _).trans (by rw [next, Crowd.calls_cons, List.append_assoc])

theorem about_append {α : Type} (first rest : List (Nat × α)) : about i (first ++ rest) = about i first ++ about i rest :=
  List.filterMap_append

theorem about_of {α : Type} (entry : Option α) :
    about j (entry.map fun value => (i, value)).toList = if i = j then entry.toList else [] := by
  cases entry with
  | none => simp [about]
  | some value => by_cases h : i = j <;> simp [about, h]

theorem record_step (htask : outbox.crowd.task? i = some task) (j : Nat) :
    let taken := outbox.crowd.node.taken task
    (outbox.next (.step i)).handedTo j = outbox.handedTo j ++ (if i = j then taken else []) ∧
    (outbox.next (.step i)).returnedTo j = outbox.returnedTo j ++
      if i = j then outbox.crowd.node.results task (outbox.handedTo i ++ taken) else [] := by
  intro taken
  have hhands : outbox.crowd.hands? (.step i) =
      ((outbox.crowd.node.takes? task).map Prod.fst).map fun posting => (i, posting) := by
    rw [Crowd.hands?, htask, Option.bind_some, Option.map_map]
    rfl
  have hhanded (j : Nat) : (outbox.next (.step i)).handedTo j = outbox.handedTo j ++ (if i = j then taken else []) := by
    rw [handedTo, next, hhands, about_append, about_of]
    rfl
  refine ⟨hhanded j, ?_⟩
  have hself : about i (outbox.handed ++ (outbox.crowd.hands? (.step i)).toList) = outbox.handedTo i ++ taken :=
    (hhanded i).trans (by rw [if_pos rfl])
  have hresult : outbox.result? (.step i) = ((outbox.crowd.node.returns? task.awaken).bind fun result =>
      (outbox.handedTo i ++ taken).getLast?.map fun posting => (posting, result)).map fun entry => (i, entry) := by
    simp only [result?, Crowd.returns?, htask, Option.bind_some, Option.bind_map, Option.map_bind, Function.comp_def,
      hself, Option.map_map]
  rw [returnedTo, next, hresult, about_append, about_of]
  rfl

def Same (i : Nat) (outbox after : Outbox) : Prop :=
  after.handedTo i = outbox.handedTo i ∧ after.returnedTo i = outbox.returnedTo i

theorem same_elsewhere (h : ∀ task, outbox.crowd.task? i = some task → move ≠ .step i) :
    Same i outbox (outbox.next move) := by
  -- Only steps of tasks take postings and end publishes.
  have idle (hhands : outbox.crowd.hands? move = none) (hreturns : outbox.crowd.returns? move = none) :
      Same i outbox (outbox.next move) := by
    rw [Same, handedTo, returnedTo, next, result?, hhands, hreturns]
    simp [handedTo, returnedTo]
  cases move with
  | start call | drop j | advance time => exact idle rfl rfl
  | step j =>
    cases htask : outbox.crowd.task? j with
    | none => exact idle (by simp [Crowd.hands?, htask]) (by simp [Crowd.returns?, htask])
    | some task =>
      have hne : j ≠ i := by
        rintro rfl
        exact h task htask rfl
      obtain ⟨hhanded, hreturned⟩ := record_step htask i
      rw [if_neg hne, List.append_nil] at hhanded hreturned
      exact ⟨hhanded, hreturned⟩

/-- A task that was given up takes nothing any more. -/
theorem same_run (hlt : i < outbox.crowd.tasks.length) (h : outbox.crowd.task? i = none) (moves : List Crowd.Move) :
    Same i outbox (outbox.run moves) := by
  induction moves generalizing outbox with
  | nil => exact ⟨rfl, rfl⟩
  | cons move rest ih =>
    have hlt' : i < (outbox.next move).crowd.tasks.length := by
      show i < (outbox.crowd.next move).tasks.length
      rw [Crowd.length_next]
      exact Nat.lt_add_right _ hlt
    have hgone : (outbox.next move).crowd.task? i = none := by
      refine Option.eq_none_iff_forall_ne_some.mpr fun task htask => ?_
      rcases Crowd.task?_next htask with hold | ⟨call, -, hnew, -⟩ | ⟨before, -, hbefore, -⟩
      · simp [h] at hold
      · exact absurd hlt (Nat.not_lt.mpr hnew.ge)
      · simp [h] at hbefore
    have hsame : Same i outbox (outbox.next move) := same_elsewhere fun task htask => by simp [h] at htask
    have hrest : Same i (outbox.next move) ((outbox.next move).run rest) := ih hlt' hgone
    exact ⟨hrest.1.trans hsame.1, hrest.2.trans hsame.2⟩

/-! ### Runs -/

/-- What has been accepted has been handed over or waits, and each task has its account. -/
structure Sound (node : Node) (outbox : Outbox) : Prop where
  length : outbox.calls.length = outbox.crowd.tasks.length
  split : node.queue.map Posting.parts ++ outbox.accepted =
    (outbox.handed.map fun entry => entry.2.parts) ++ outbox.crowd.node.queue.map Posting.parts
  posts : ∀ i call task, outbox.calls[i]? = some call → outbox.crowd.task? i = some task → task.Posts call
  tasks : ∀ i call task, outbox.calls[i]? = some call → call.forwards = true → outbox.crowd.task? i = some task →
    Account call task (outbox.handedTo i) (outbox.returnedTo i)
  later : ∀ i, outbox.crowd.tasks.length ≤ i → outbox.handedTo i = [] ∧ outbox.returnedTo i = []

theorem sound_next (h : Sound node outbox) (move : Crowd.Move) : Sound node (outbox.next move) where
  length := by
    rw [next, Crowd.length_next, List.length_append, h.length]
  split := by
    have hmove := congrArg (List.map Posting.parts) (Crowd.queue_move outbox.crowd move)
    rw [List.map_append, List.map_append] at hmove
    have haccepts : (outbox.crowd.accepts? outbox.calls move).toList =
        (outbox.crowd.queues? move).toList.map Posting.parts := by
      rw [Crowd.accepts?_eq h.length h.posts, Option.toList_map]
    have hhands : ((outbox.crowd.hands? move).toList.map fun entry => entry.2.parts) =
        ((outbox.crowd.hands? move).map Prod.snd).toList.map Posting.parts := by
      rw [Option.toList_map, List.map_map]
      rfl
    calc node.queue.map Posting.parts ++ (outbox.accepted ++ (outbox.crowd.accepts? outbox.calls move).toList)
        = (outbox.handed.map fun entry => entry.2.parts) ++
            (outbox.crowd.node.queue.map Posting.parts ++ (outbox.crowd.queues? move).toList.map Posting.parts) := by
          rw [← List.append_assoc, h.split, List.append_assoc, haccepts]
      _ = ((outbox.handed ++ (outbox.crowd.hands? move).toList).map fun entry => entry.2.parts) ++
            (outbox.crowd.next move).node.queue.map Posting.parts := by
          rw [hmove, List.map_append, hhands, List.append_assoc]
  posts i call task hget htask := by
    rcases Crowd.called_next h.length hget htask with ⟨hcall, hold, -⟩ | ⟨-, -, rfl⟩ | ⟨before, -, hcall, hbefore, rfl⟩
    · exact h.posts i call task hcall hold
    · exact posts_start _ call
    · exact (h.posts i call before hcall hbefore).step _
  tasks i call task hget hforwards htask := by
    rcases Crowd.called_next h.length hget htask with ⟨hcall, hold, hmove⟩ | ⟨rfl, rfl, rfl⟩ | ⟨before, rfl, hcall, hbefore, rfl⟩
    · have hsame : Same i outbox (outbox.next move) := same_elsewhere fun _ _ => hmove
      rw [hsame.1, hsame.2]
      exact h.tasks i call task hcall hforwards hold
    · have hnew (task : Task) : outbox.crowd.task? outbox.crowd.tasks.length ≠ some task :=
        fun hold => absurd (Crowd.lt_of_task? hold) (Nat.lt_irrefl _)
      have hsame : Same outbox.crowd.tasks.length outbox (outbox.next (.start call)) :=
        same_elsewhere fun task hold => absurd hold (hnew task)
      obtain ⟨hnone, hnone'⟩ := h.later _ (Nat.le_refl _)
      rw [hsame.1, hsame.2, hnone, hnone']
      exact account_start hforwards _
    · obtain ⟨hhanded, hreturned⟩ := record_step hbefore i
      rw [if_pos rfl] at hhanded hreturned
      rw [hhanded, hreturned]
      exact account_step outbox.crowd.node (h.tasks i call before hcall hforwards hbefore)
  later i hi := by
    have hbefore : outbox.crowd.tasks.length ≤ i := by
      refine Nat.le_trans ?_ hi
      show _ ≤ (outbox.crowd.next move).tasks.length
      rw [Crowd.length_next]
      exact Nat.le_add_right _ _
    have hsame : Same i outbox (outbox.next move) :=
      same_elsewhere fun task htask => absurd (Crowd.lt_of_task? htask) (Nat.not_lt.mpr hbefore)
    rw [hsame.1, hsame.2]
    exact h.later i hbefore

theorem sound_run (h : Sound node outbox) (moves : List Crowd.Move) : Sound node (outbox.run moves) := by
  induction moves generalizing outbox with
  | nil => exact h
  | cons move rest ih => exact ih (sound_next h move)

theorem sound_fresh (node : Node) (moves : List Crowd.Move) : Sound node (run { crowd := { node } } moves) := by
  refine sound_run ⟨rfl, List.append_nil _, ?_, ?_, fun i _ => ⟨rfl, rfl⟩⟩ moves
  all_goals
    intro i call task hget
    rw [List.getElem?_nil] at hget
    cases hget

/-! ### What every run keeps -/

/-- A call that posts and has no answer yet, in task `i`. -/
structure Waits (outbox : Outbox) (i : Nat) (parts : Posting.Parts) : Prop where
  room : outbox.crowd.node.queue.length < outbox.crowd.node.depth →
    outbox.crowd.accepts? outbox.calls (.step i) = some parts
  full : outbox.crowd.node.depth ≤ outbox.crowd.node.queue.length →
    outbox.crowd.accepts? outbox.calls (.step i) = none ∧
      ∃ after, (outbox.next (.step i)).crowd.task? i = some after ∧ after.isFinished = false

/-- A call that publishes postings, in task `i`. -/
structure Forwards (outbox : Outbox) (i : Nat) (task : Task) : Prop where
  /-- The publishes of its postings have returned in their order, but for the one that is under way. -/
  handed : outbox.handedTo i = (outbox.returnedTo i).map Prod.fst ++ outbox.unreturned i
  one : (outbox.unreturned i).length = if task.publishes?.isSome then 1 else 0
  /-- When it is given up, what waits goes on waiting, and what it has taken is not taken again. -/
  drop : (outbox.next (.drop i)).crowd.node.queue = outbox.crowd.node.queue ∧
    (outbox.next (.drop i)).accepted = outbox.accepted ∧ (outbox.next (.drop i)).handed = outbox.handed ∧
    (outbox.next (.drop i)).returned = outbox.returned
  dropped : ∀ moves, (outbox.run (.drop i :: moves)).unreturned i = outbox.unreturned i

/-- A drain in task `i`. -/
structure Drains (outbox : Outbox) (i : Nat) (task : Task) : Prop where
  /-- It counts the publishes that were successful. -/
  counts : task.looks? = some (.drain (published (outbox.returnedTo i))) ∨
    task.publishes? = some (.drain (published (outbox.returnedTo i))) ∨
    task = .finished (.count (published (outbox.returnedTo i)))
  /-- Whatever a publish comes to, it looks for the next posting. -/
  next : ∀ result, outbox.crowd.returns? (.step i) = some (i, result) →
    ∃ after n, (outbox.next (.step i)).crowd.task? i = some after ∧ after.looks? = some (.drain n)
  /-- It is at its end only when it looks for a posting and there is none. -/
  ends : ∀ answer, ¬task.isFinished → (outbox.next (.step i)).crowd.task? i = some (.finished answer) →
    (∃ n, task.looks? = some (.drain n)) ∧ outbox.crowd.node.queue = [] ∧ (outbox.next (.step i)).crowd.node.queue = []
  /-- It comes to its end if it is visited and finds the modem free. -/
  returns : (task.stage? = none → outbox.crowd.node.link.held = false) → ∃ moves count,
    (∀ move ∈ moves, Crowd.Move.IsVisit i move) ∧ (outbox.run moves).crowd.task? i = some (.finished (.count count))

section

theorem waits_of_posts {parts : Posting.Parts} (hcall : outbox.calls[i]? = some call)
    (htask : outbox.crowd.task? i = some task) (hposts : task.Posts call) (hparts : call.parts? = some parts)
    (hopen : task.isFinished = false) : outbox.Waits i parts := by
  obtain ⟨posting, hroom⟩ : ∃ posting, task.room? = some posting := by
    refine Option.isSome_iff_exists.mp ((hposts.waits (by simp [hparts])).resolve_left ?_)
    simp [hopen]
  have haccepts := Crowd.accepts?_step hcall htask
  have hafter : (outbox.next (.step i)).crowd.task? i = some (outbox.crowd.node.step task.awaken).2 :=
    (Crowd.task?_step htask).trans (if_pos rfl)
  rw [step_room hroom, Node.hasRoom] at haccepts hafter
  constructor
  case room =>
    intro hlt
    simpa [hlt, hopen, hparts] using haccepts
  case full =>
    intro hle
    have hfull : ¬outbox.crowd.node.queue.length < outbox.crowd.node.depth := Nat.not_lt.mpr hle
    exact ⟨by simpa [hfull] using haccepts, _, hafter, by simp [hfull, Task.isFinished]⟩

theorem posts_at_once (hlength : outbox.calls.length = outbox.crowd.tasks.length) {scope : Scope} {topic : String}
    {payload : Bytes} (htopic : topic.utf8ByteSize ≤ Limits.topic) (hpayload : payload.length ≤ Limits.payload) :
    (outbox.crowd.accepts? outbox.calls (.start (.tryPost scope topic payload)) =
      if outbox.crowd.node.queue.length < outbox.crowd.node.depth then some (scope, topic, payload) else none) ∧
      ((Call.post scope topic payload).start outbox.crowd.node).2.isFinished = false := by
  have hposting : Posting.ofParts scope topic payload = .ok ⟨scope, topic, payload, htopic, hpayload⟩ := by
    rw [Posting.ofParts, dif_pos htopic, dif_pos hpayload]
  constructor
  · rw [Crowd.accepts?_start hlength]
    simp only [Call.start, Node.tryPost, hposting, Node.hasRoom, Call.parts?]
    by_cases hroom : outbox.crowd.node.queue.length < outbox.crowd.node.depth <;> simp [hroom]
  · rw [Call.start, Node.post, hposting]
    rfl

theorem unreturned_eq {rest : List Posting} (h : outbox.handedTo i = (outbox.returnedTo i).map Prod.fst ++ rest) :
    outbox.unreturned i = rest := by
  rw [unreturned, h, List.drop_left' (List.length_map _)]

theorem forwards_of_account (htask : outbox.crowd.task? i = some task)
    (h : Account call task (outbox.handedTo i) (outbox.returnedTo i)) : outbox.Forwards i task := by
  obtain ⟨rest, hhanded, hone⟩ : ∃ rest, outbox.handedTo i = (outbox.returnedTo i).map Prod.fst ++ rest ∧
      rest.length = if task.publishes?.isSome then 1 else 0 := by
    cases h with
    | looks goal hlooks _ hhanded => exact ⟨[], by simpa using hhanded, by simp [(stage?_of_looks? hlooks).2]⟩
    | publishes goal posting hbusy _ hhanded => exact ⟨[posting], hhanded, by simp [hbusy]⟩
    | ended answer hfinished hhanded _ => exact ⟨[], by simpa using hhanded, by rw [hfinished]; rfl⟩
  have hrest := unreturned_eq hhanded
  have hnext : (outbox.next (.drop i)).crowd = ⟨outbox.crowd.node.drop task, outbox.crowd.tasks.set i none⟩ :=
    Crowd.next_drop htask
  refine ⟨hrest ▸ hhanded, hrest ▸ hone, ⟨?_, List.append_nil _, List.append_nil _, List.append_nil _⟩, fun moves => ?_⟩
  · rw [hnext]
    exact drop_queue _ _
  · have hlt : i < (outbox.next (.drop i)).crowd.tasks.length := by
      rw [hnext, List.length_set]
      exact Crowd.lt_of_task? htask
    have hgone : (outbox.next (.drop i)).crowd.task? i = none := (Crowd.task?_drop htask).trans (if_pos rfl)
    have hdrop : Same i outbox (outbox.next (.drop i)) := same_elsewhere fun _ _ hmove => by cases hmove
    have hrun : Same i (outbox.next (.drop i)) ((outbox.next (.drop i)).run moves) := same_run hlt hgone moves
    show ((outbox.next (.drop i)).run moves).unreturned i = _
    rw [unreturned, unreturned, hrun.1, hrun.2, hdrop.1, hdrop.2]

theorem drains_of_account (htask : outbox.crowd.task? i = some task)
    (h : Account .drain task (outbox.handedTo i) (outbox.returnedTo i)) : outbox.Drains i task := by
  have hcounts := h.counts
  have hstep : (outbox.next (.step i)).crowd.task? i = some (outbox.crowd.node.step task.awaken).2 :=
    (Crowd.task?_step htask).trans (if_pos rfl)
  constructor
  case counts => exact hcounts
  case next =>
    intro result hresult
    have hreturns : outbox.crowd.node.returns? task.awaken = some result := by
      simpa [Crowd.returns?, htask] using hresult
    rcases hcounts with hlooks | hbusy | hfinished
    · obtain ⟨n, hagain⟩ := drain_returns (.inl hlooks) hreturns
      exact ⟨_, n, hstep, hagain⟩
    · obtain ⟨n, hagain⟩ := drain_returns (.inr hbusy) hreturns
      exact ⟨_, n, hstep, hagain⟩
    · rw [hfinished] at hreturns
      cases hreturns
  case ends =>
    intro answer hopen hfinished
    have hgoal : task.looks? = some (.drain (published (outbox.returnedTo i))) ∨
        task.publishes? = some (.drain (published (outbox.returnedTo i))) := by
      rcases hcounts with hlooks | hbusy | hover
      · exact .inl hlooks
      · exact .inr hbusy
      · exact absurd (by rw [hover]; rfl) hopen
    rcases step_drains outbox.crowd.node hgoal with hgoes | ⟨hlooks, hempty, hafter⟩
    · rw [hstep, Option.some_inj] at hfinished
      rw [hfinished] at hgoes
      cases hgoes
    · have hnode : (outbox.next (.step i)).crowd.node = (outbox.crowd.node.step task.awaken).1 :=
        congrArg Crowd.node (Crowd.next_step htask)
      exact ⟨⟨_, hlooks⟩, hempty, hnode ▸ hafter⟩
  case returns =>
    intro hfree
    simp only [run_crowd]
    rcases hcounts with hlooks | hbusy | hfinished
    · exact Crowd.drain_ends htask hlooks (hfree (stage?_of_looks? hlooks).1)
    · obtain ⟨first, node, result, hfirst, hrun, -, hfree'⟩ := Crowd.publish_ends htask hbusy hfree
      obtain ⟨n, hlooks⟩ := looks?_drain (published (outbox.returnedTo i)) result
      have hagain := Crowd.task?_went htask (node, (Goal.drain (published (outbox.returnedTo i))).next result)
      obtain ⟨moves, count, hmoves, hended⟩ := Crowd.drain_ends hagain hlooks hfree'
      exact ⟨first ++ moves, count, List.forall_mem_append.mpr ⟨hfirst, hmoves⟩, by rw [Crowd.run_append, hrun, hended]⟩
    · exact ⟨[], _, nofun, hfinished ▸ htask⟩

end

/-- Nothing that was accepted is lost or overtaken on its way: the postings are handed over in the order in which they were
    accepted, each once, and the rest of them waits. -/
theorem postings_accounted_for (node : Node) (moves : List Crowd.Move) :
    let outbox : Outbox := run { crowd := { node } } moves
    outbox.crowd = Crowd.run { node } moves ∧ outbox.calls = Crowd.calls moves ∧
    node.queue.map Posting.parts ++ outbox.accepted =
      (outbox.handed.map fun entry => entry.2.parts) ++ outbox.crowd.node.queue.map Posting.parts ∧
    (∀ scope topic payload, topic.utf8ByteSize ≤ Limits.topic → payload.length ≤ Limits.payload →
      (outbox.crowd.accepts? outbox.calls (.start (.tryPost scope topic payload)) =
        if outbox.crowd.node.queue.length < outbox.crowd.node.depth then some (scope, topic, payload) else none) ∧
      ((Call.post scope topic payload).start outbox.crowd.node).2.isFinished = false) ∧
    (∀ i call task parts, outbox.calls[i]? = some call → outbox.crowd.task? i = some task → call.parts? = some parts →
      task.isFinished = false → outbox.Waits i parts) ∧
    (∀ move i posting, outbox.crowd.hands? move = some (i, posting) → move = .step i ∧ ∃ goal,
      (outbox.next move).crowd.task? i =
        some (outbox.crowd.node.publish posting.scope posting.topic posting.payload goal)) ∧
    ∀ i call task, outbox.calls[i]? = some call → call.forwards = true → outbox.crowd.task? i = some task →
      outbox.Forwards i task ∧ (call = .drain → outbox.Drains i task) := by
  intro outbox
  have h : Sound node outbox := sound_fresh node moves
  have hcalls : outbox.calls = Crowd.calls moves := (run_calls _ moves).trans (List.nil_append _)
  refine ⟨run_crowd _ _, hcalls, h.split, fun scope topic payload => posts_at_once h.length,
    fun i call task parts hcall htask => waits_of_posts hcall htask (h.posts i call task hcall htask),
    fun move i posting hhands => ?_, fun i call task hcall hforwards htask => ?_⟩
  · cases move with
    | step j =>
      obtain ⟨task, htask, htakes⟩ := Option.bind_eq_some_iff.mp hhands
      obtain ⟨⟨taken, goal⟩, htaken, hpair⟩ := Option.map_eq_some_iff.mp htakes
      cases hpair
      refine ⟨rfl, goal, (Crowd.task?_step htask).trans ?_⟩
      rw [if_pos rfl, step_takes htaken]
    | _ => cases hhands
  · have haccount := h.tasks i call task hcall hforwards htask
    refine ⟨forwards_of_account htask haccount, ?_⟩
    rintro rfl
    exact drains_of_account htask haccount

/-- Four postings, two of which have to wait until there is room: the first cannot be published, the second is, the third is
    being published when the drain is given up, and the fourth is still in the queue. Only the third is lost. -/
theorem one_posting_lost_by_drop :
    let node : Node := { table := { capacity := 4 }, depth := 2 }
    let refused : Posting := ⟨.own, "", [], by decide, by decide⟩
    let sent : Posting := ⟨.own, "a", [], by decide, by decide⟩
    let lost : Posting := ⟨.own, "b", [], by decide, by decide⟩
    let kept : Posting := ⟨.own, "c", [], by decide, by decide⟩
    let posts : List Crowd.Move := [.start (.tryPost .own "" []), .start (.tryPost .own "a" []),
      .start (.post .own "b" []), .step 2, .start (.post .own "c" [])]
    let moves : List Crowd.Move := posts ++ [.start .drain, .step 4, .step 2, .step 3, .step 4, .step 3, .step 4, .step 4,
      .start (.feed (Text.encode "OK\r\n")), .step 4, .step 4]
    let full : Outbox := run { crowd := { node } } posts
    let outbox : Outbox := run { crowd := { node } } moves
    full.accepted = [refused.parts, sent.parts] ∧ full.Waits 2 lost.parts ∧
      outbox.accepted = [refused.parts, sent.parts, lost.parts, kept.parts] ∧
      (outbox.returnedTo 4).map Prod.fst = [refused, sent] ∧
      outbox.crowd.task? 4 ≠ none ∧ (outbox.next (.drop 4)).crowd.node.queue.map Posting.parts = [kept.parts] ∧
      ∀ more, (outbox.run (.drop 4 :: more)).unreturned 4 = [lost] := by
  intro node refused sent lost kept posts moves full outbox
  have hfull : full.accepted = [refused.parts, sent.parts] := by decide +kernel
  have hwaiting : full.crowd.task? 2 = some (.parked (.room lost)) := by decide +kernel
  have haccepted : outbox.accepted = [refused.parts, sent.parts, lost.parts, kept.parts] := by decide +kernel
  have hhanded : (outbox.handed.map fun entry => entry.2.parts) = [refused.parts, sent.parts, lost.parts] := by
    decide +kernel
  have hunreturned : outbox.unreturned 4 = [lost] := by decide +kernel
  have htask : outbox.crowd.task? 4 ≠ none := by decide +kernel
  have hreturned : (outbox.returnedTo 4).map Prod.fst = [refused, sent] := by decide +kernel
  have hcall : (Crowd.calls moves)[4]? = some .drain := rfl
  obtain ⟨-, hposted, -, -, hwaits, -⟩ := postings_accounted_for node posts
  obtain ⟨-, hcalls, hsplit, -, -, -, htasks⟩ := postings_accounted_for node moves
  rw [show run { crowd := { node } } posts = full from rfl] at hposted hwaits
  rw [show run { crowd := { node } } moves = outbox from rfl] at hcalls hsplit htasks
  clear_value full outbox
  obtain ⟨task, hsome⟩ := Option.ne_none_iff_exists'.mp htask
  obtain ⟨hforwards, -⟩ := htasks 4 .drain task (hcalls ▸ hcall) rfl hsome
  rw [haccepted, hhanded] at hsplit
  have hboth : [refused.parts, sent.parts, lost.parts] ++ [kept.parts] =
    [refused.parts, sent.parts, lost.parts] ++ outbox.crowd.node.queue.map Posting.parts := hsplit
  have hqueue : outbox.crowd.node.queue.map Posting.parts = [kept.parts] := (List.append_cancel_left hboth).symm
  exact ⟨hfull, hwaits 2 (.post .own "b" []) _ _ (by rw [hposted]; rfl) hwaiting rfl rfl, haccepted, hreturned, htask,
    (congrArg _ hforwards.drop.1).trans hqueue, fun more => (hforwards.dropped more).trans hunreturned⟩

end Outbox
end SensorLink
