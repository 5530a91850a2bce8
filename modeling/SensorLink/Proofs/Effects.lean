import SensorLink.Proofs.Subscribing

/-! What a step does to a node apart from its link. A pattern is new in the table only when the modem has acknowledged
    it, a broker session is open only when the modem has reported so, and identity and options never change. -/

namespace SensorLink

def Dialogue.Progress.result? : Dialogue.Progress → Option Dialogue.Result
  | .waiting _ => none
  | .finished result => some result

/-- The stage of the request that a step of the task brings to its end, and the result. -/
def Node.concludes? (node : Node) : Task → Option (Stage × Dialogue.Result)
  | .asking request stage => (Dialogue.start node.link request).2.result?.map (stage, ·)
  | .checking (.request hold stage) => (Dialogue.resume node.link hold).2.result?.map (stage, ·)
  | _ => none

/-- Identity, options, table and status are the same, and no posting is new. -/
structure Node.Frame (node after : Node) : Prop where
  identity : after.identity = node.identity
  messaging : after.messaging = node.messaging
  queue : ∀ posting ∈ after.queue, posting ∈ node.queue
  table : after.table = node.table
  status : after.status = node.status

/-- What a step can do to a node, given the request that it brings to its end and the postings that it may queue. -/
structure Node.Effect (node : Node) (concluded : Option (Stage × Dialogue.Result)) (posts : Posting → Prop)
    (after : Node) : Prop where
  identity : after.identity = node.identity
  messaging : after.messaging = node.messaging
  queue : ∀ posting ∈ after.queue, posting ∈ node.queue ∨ posts posting
  table : after.table = node.table ∨ ∃ full subscriber command retries answer,
    concluded = some (.subscribe full subscriber command retries, .ok answer) ∧
      ∀ other, after.table.holds other → node.table.holds other ∨ full = other
  broker : after.status.broker = .connected → node.status.broker = .connected ∨
    ∃ retry answer, concluded = some (.openSession retry, .ok answer)

section
variable {node after : Node} {task : Task} {stage : Stage} {concluded : Option (Stage × Dialogue.Result)}
  {posts : Posting → Prop}

theorem Node.Frame.refl (node : Node) : node.Frame node := ⟨rfl, rfl, fun _ h => h, rfl, rfl⟩

theorem Node.Frame.trans {last : Node} (h : node.Frame after) (h' : after.Frame last) : node.Frame last :=
  ⟨h'.identity.trans h.identity, h'.messaging.trans h.messaging,
    fun posting hmem => h.queue posting (h'.queue posting hmem),
    h'.table.trans h.table, h'.status.trans h.status⟩

theorem Node.Frame.withLink (h : node.Frame after) (link : Link) : node.Frame { after with link } :=
  ⟨h.identity, h.messaging, h.queue, h.table, h.status⟩

theorem Node.Frame.effect (h : node.Frame after) : node.Effect concluded posts after where
  identity := h.identity
  messaging := h.messaging
  queue _ hmem := .inl (h.queue _ hmem)
  table := .inl h.table
  broker hopen := .inl (h.status ▸ hopen)

theorem Node.Effect.withLink (h : node.Effect concluded posts after) (link : Link) :
    node.Effect concluded posts { after with link } :=
  ⟨h.identity, h.messaging, h.queue, h.table, h.broker⟩

/-- A status in which no session is open that was not open before. -/
theorem effect_status (node : Node) {status : Status}
    (h : status.broker = .connected → node.status.broker = .connected ∨
      ∃ retry answer, concluded = some (.openSession retry, .ok answer)) :
    node.Effect concluded posts { node with status } :=
  ⟨rfl, rfl, fun _ h => .inl h, .inl rfl, h⟩

/-! ### A task that does not hold the modem -/

theorem frame_deliver (node : Node) (line : Bytes) : node.Frame (node.deliver line).1 := by
  unfold Node.deliver
  split <;> exact ⟨rfl, rfl, fun _ h => h, rfl, rfl⟩

theorem frame_deliverNext? (h : node.deliverNext? = some after) : node.Frame after := by
  obtain ⟨line, rest, -, rfl⟩ := Node.exists_of_deliverNext? h
  exact ((Node.Frame.refl node).withLink _).trans (frame_deliver (node.withIntake _) line)

theorem frame_publishNext? {goal : Goal} {after : Node × Task} (h : node.publishNext? goal = some after) :
    node.Frame after.1 := by
  obtain ⟨posting, rest, hqueue, rfl⟩ := Node.exists_of_publishNext? h
  exact ⟨rfl, rfl, fun other hmem => hqueue ▸ List.mem_cons_of_mem _ hmem, rfl, rfl⟩

theorem effect_noteClosed (node : Node) : node.Effect concluded posts node.noteClosed.1 := by
  unfold Node.noteClosed
  split
  · exact ⟨rfl, rfl, fun _ h => .inl h, .inl rfl, fun hopen => by cases hopen⟩
  · exact (Node.Frame.refl node).effect

theorem effect_check {wait : Wait} (h : ∀ hold stage, wait ≠ .request hold stage) :
    node.Effect concluded (fun posting => wait = .room posting) (node.check wait).1 := by
  have same (link : Link) : node.Frame { node with link } := (Node.Frame.refl node).withLink link
  cases wait with
  | request hold stage => exact absurd rfl (h hold stage)
  | modem request stage =>
    simp only [Node.check]
    split <;> exact (same _).effect
  | clock due | rejoin due retry | reopen due retry =>
    simp only [Node.check]
    split <;> exact (same _).effect
  | notice forever =>
    simp only [Node.check]
    split
    · rename_i hnext
      exact (frame_deliverNext? hnext).effect
    · exact (same _).effect
  | work =>
    simp only [Node.check]
    split
    · rename_i hnext
      exact (frame_deliverNext? hnext).effect
    · rcases hpublish : (node.setAlarm .notice).publishNext? .serve with _ | next
      · exact (same _).effect
      · exact ((same _).trans (frame_publishNext? hpublish)).effect
  | posting | drain published =>
    simp only [Node.check]
    rcases hpublish : node.publishNext? _ with _ | next
    · exact (same _).effect
    · exact (frame_publishNext? hpublish).effect
  | room posting =>
    simp only [Node.check]
    split
    · refine ⟨rfl, rfl, fun other hmem => ?_, .inl rfl, .inl⟩
      exact (List.mem_append.mp hmem).imp_right fun heq => by rw [List.mem_singleton.mp heq]
    · exact (same _).effect
  | closed =>
    have heffect : node.Effect concluded (fun posting => Wait.closed = .room posting) node.noteClosed.1 :=
      effect_noteClosed node
    simp only [Node.check]
    rcases hclosed : node.noteClosed with ⟨next, _ | _⟩ <;> rw [hclosed] at heffect
    · exact heffect.withLink _
    · exact heffect

/-! ### The end of a request -/

theorem effect_next (node : Node) (stage : Stage) (result : Dialogue.Result) :
    node.Effect (some (stage, result)) posts (stage.next node result).1 := by
  have same : node.Effect (some (stage, result)) posts node := (Node.Frame.refl node).effect
  cases stage with
  | subscribe full subscriber command retries =>
    cases result with
    | ok answer =>
      show node.Effect _ posts (node.enter full subscriber true).1
      rcases enter_cases node full subscriber true with ⟨table, henter, hholds, -⟩ | ⟨-, henter⟩ | ⟨henter, -⟩ <;>
        rw [henter]
      · refine ⟨rfl, rfl, fun _ h => .inl h, .inr ⟨full, subscriber, command, retries, answer, rfl, ?_⟩, .inl⟩
        intro other hheld
        rw [hholds] at hheld
        simpa using hheld
      · exact same
      · exact same
    | error cause => cases retries <;> exact same
  | single retries =>
    cases result with
    | ok answer => exact effect_status node .inl
    | error cause =>
      cases retries with
      | zero => exact effect_status node .inl
      | succ retries => exact same
  | join retry => cases result <;> exact effect_status node .inl
  | leave =>
    cases result with
    | ok answer => exact effect_status node fun hopen => by cases hopen
    | error cause => exact same
  | openSession retry =>
    cases result with
    | ok answer => exact effect_status node fun _ => .inr ⟨retry, answer, rfl⟩
    | error cause => exact same
  | closeSession =>
    cases result with
    | ok answer => exact effect_status node fun hopen => by cases hopen
    | error cause => exact same
  | _ => exact same

theorem after_eq (node : Node) (stage : Stage) (result : Dialogue.Result) :
    ∃ link, (node.after stage result).1 = { (stage.next node result).1 with link } := by
  unfold Node.after
  split <;> rename_i heq <;> rw [heq]
  · exact ⟨_, rfl⟩
  · exact ⟨_, rfl⟩

/-- A step of the task that holds the modem: its request goes on, or is at its end. -/
theorem step_concludes (node : Node) (h : task.stage? = some stage) : ∃ link,
    (node.concludes? task.awaken = none ∧
      ∃ hold, node.step task.awaken = ({ node with link }, .parked (.request hold stage))) ∨
    ∃ result, node.concludes? task.awaken = some (stage, result) ∧
      node.step task.awaken = ({ node with link } : Node).after stage result := by
  obtain ⟨⟨link, progress⟩, hstep, hconcludes⟩ : ∃ led : Link × Dialogue.Progress,
      node.step task.awaken = node.heed stage led ∧ node.concludes? task.awaken = led.2.result?.map (stage, ·) := by
    cases task with
    | finished answer => cases h
    | asking request stage' =>
      cases h
      exact ⟨Dialogue.start node.link request, rfl, rfl⟩
    | parked wait | checking wait =>
      cases wait <;> cases h
      rename_i hold
      exact ⟨Dialogue.resume node.link hold, rfl, rfl⟩
  refine ⟨link, ?_⟩
  cases progress with
  | waiting hold => exact .inl ⟨hconcludes, hold, hstep⟩
  | finished result => exact .inr ⟨result, hconcludes, hstep⟩

theorem concludes?_outside (node : Node) (h : task.stage? = none) : node.concludes? task.awaken = none := by
  cases task with
  | asking request stage => cases h
  | finished answer => rfl
  | parked wait | checking wait => cases wait <;> first | rfl | cases h

/-! ### Steps, drops and calls -/

theorem step_effect (node : Node) (task : Task) : node.Effect (node.concludes? task.awaken)
    (fun posting => task.awaken = .checking (.room posting)) (node.step task.awaken).1 := by
  cases hstage : task.stage? with
  | some stage =>
    obtain ⟨link, ⟨-, hold, hstep⟩ | ⟨result, hconcludes, hstep⟩⟩ := step_concludes node hstage
    · rw [hstep]
      exact ((Node.Frame.refl node).withLink link).effect
    · obtain ⟨link', hafter⟩ := after_eq { node with link } stage result
      rw [hstep, hconcludes, hafter]
      have heffect : Node.Effect { node with link } (some (stage, result))
        (fun posting => task.awaken = .checking (.room posting)) (stage.next { node with link } result).1 :=
        effect_next _ stage result
      exact ⟨heffect.identity, heffect.messaging, heffect.queue, heffect.table, heffect.broker⟩
  | none =>
    cases task with
    | asking request stage => cases hstage
    | finished answer => exact (Node.Frame.refl node).effect
    | parked wait | checking wait =>
      have hwait : ∀ hold stage, wait ≠ .request hold stage := by
        rintro hold stage rfl
        cases hstage
      have heffect : node.Effect (node.concludes? (.checking wait)) (fun posting => wait = .room posting)
        (node.check wait).1 := effect_check hwait
      exact ⟨heffect.identity, heffect.messaging,
        fun posting hmem => (heffect.queue posting hmem).imp_right (congrArg Task.checking),
        heffect.table, heffect.broker⟩

theorem drop_frame (node : Node) (task : Task) : node.Frame (node.drop task) := by
  have same (link : Link) : node.Frame { node with link } := (Node.Frame.refl node).withLink link
  unfold Node.drop
  split
  · exact same _
  · exact same _
  · exact same _
  · exact .refl node

/-- What a call can do on its first visit. A pattern that is new in the table is not among it. -/
structure Call.Begins (call : Call) (node after : Node) : Prop where
  identity : after.identity = node.identity
  messaging : after.messaging = node.messaging
  queue : ∀ posting ∈ after.queue, posting ∈ node.queue ∨
    ∃ scope topic payload, call = .tryPost scope topic payload ∧ Posting.ofParts scope topic payload = .ok posting
  table : ∀ full, after.table.holds full → node.table.holds full
  broker : after.status.broker = .connected → node.status.broker = .connected

theorem Node.Frame.begins {call : Call} (h : node.Frame after) : call.Begins node after :=
  ⟨h.identity, h.messaging, fun posting hmem => .inl (h.queue posting hmem), fun _ hheld => h.table ▸ hheld,
    fun hopen => h.status ▸ hopen⟩

theorem begins_subscribe (node : Node) (scope : Scope) (pattern : String) (subscriber : Subscriber) (call : Call) :
    call.Begins node (node.subscribe scope pattern subscriber).1 := by
  have same : call.Begins node node := (Node.Frame.refl node).begins
  unfold Node.subscribe
  split
  · exact same
  · rename_i full _
    split
    · exact same
    · rename_i hnovelty
      have hheld : node.table.holds full = true := by simp [Subscriptions.holds_eq_novelty subscriber, hnovelty]
      split
      · exact same
      · rcases enter_cases node full subscriber false with ⟨table, henter, hholds, -⟩ | ⟨-, henter⟩ | ⟨henter, -⟩ <;>
          rw [henter]
        · refine ⟨rfl, rfl, fun _ h => .inl h, fun other hother => ?_, id⟩
          rw [hholds] at hother
          rcases Bool.or_eq_true_iff.mp hother with hother | hother
          · exact hother
          · rwa [← of_decide_eq_true hother]
        · exact same
        · exact same
    · split
      · exact same
      · split <;> exact same

theorem begins_unsubscribe (node : Node) (scope : Scope) (pattern : String) (subscriber : Subscriber) (call : Call) :
    call.Begins node (node.unsubscribe scope pattern subscriber).1 := by
  unfold Node.unsubscribe
  split
  · exact (Node.Frame.refl node).begins
  · rename_i full _
    have hheld (other : String) (h : (node.table.erase full subscriber).1.holds other) : node.table.holds other :=
      Subscriptions.holds_mono (fun _ => Subscriptions.mem_of_mem_erase) h
    simp only
    split <;> exact ⟨rfl, rfl, fun _ h => .inl h, hheld, id⟩

theorem frame_deliverPending (node : Node) : node.Frame node.deliverPending.1 := by
  have hfold (lines : List Bytes) {after : Node} (h : node.Frame after) :
      node.Frame (lines.foldl (fun node line => (node.deliver line).1) after) := by
    induction lines generalizing after with
    | nil => exact h
    | cons line rest ih => exact ih (h.trans (frame_deliver after line))
  rw [Node.deliverPending_eq]
  exact hfold _ ⟨rfl, rfl, fun _ h => h, rfl, rfl⟩

theorem start_begins (node : Node) (call : Call) : call.Begins node (call.start node).1 := by
  have same (link : Link) : call.Begins node { node with link } := ((Node.Frame.refl node).withLink link).begins
  cases call with
  | ask expected =>
    simp only [Call.start]
    split <;> exact same _
  | subscribe scope pattern subscriber => exact begins_subscribe node scope pattern subscriber _
  | unsubscribe scope pattern subscriber => exact begins_unsubscribe node scope pattern subscriber _
  | deliver line =>
    have hframe := frame_deliver node line
    simp only [Call.start]
    rcases hdeliver : node.deliver line with ⟨after, n | cause⟩ <;> rw [hdeliver] at hframe <;> exact hframe.begins
  | deliverPending => exact (frame_deliverPending node).begins
  | tryPost scope topic payload =>
    simp only [Call.start, Node.tryPost]
    split
    · exact same _
    · rename_i posting hposting
      split
      · refine ⟨rfl, rfl, fun other hmem => ?_, fun _ h => h, id⟩
        refine (List.mem_append.mp hmem).imp_right fun heq => ?_
        rw [List.mem_singleton.mp heq]
        exact ⟨scope, topic, payload, rfl, hposting⟩
      · exact same _
  | powerUp => exact ⟨rfl, rfl, fun _ h => .inl h, fun _ h => h, fun hopen => by cases hopen⟩
  | noteClosed =>
    have heffect : node.Effect none (fun _ => False) node.noteClosed.1 := effect_noteClosed node
    refine ⟨heffect.identity, heffect.messaging, fun posting hmem => ?_, fun full hheld => ?_, fun hopen => ?_⟩
    · exact .inl ((heffect.queue posting hmem).resolve_right id)
    · rcases heffect.table with htable | ⟨_, _, _, _, _, hnone, -⟩
      · exact htable ▸ hheld
      · cases hnone
    · rcases heffect.broker hopen with hwas | ⟨_, _, hnone⟩
      · exact hwas
      · cases hnone
  | _ => exact same _

end

/-! ### Moves -/

namespace Crowd

variable {crowd : Crowd} {move : Move} {i : Nat} {task : Task}

/-- Identity and options never change. -/
theorem settings_next (crowd : Crowd) (move : Move) : (crowd.next move).node.identity = crowd.node.identity ∧
    (crowd.next move).node.messaging = crowd.node.messaging := by
  cases move with
  | start call =>
    have hbegins := start_begins crowd.node call
    exact ⟨hbegins.identity, hbegins.messaging⟩
  | advance time => exact ⟨rfl, rfl⟩
  | step i =>
    cases htask : crowd.task? i with
    | none => rw [next_step_none htask]; exact ⟨rfl, rfl⟩
    | some task =>
      have heffect := step_effect crowd.node task
      rw [next_step htask]
      exact ⟨heffect.identity, heffect.messaging⟩
  | drop i =>
    cases htask : crowd.task? i with
    | none => rw [next_drop_none htask]; exact ⟨rfl, rfl⟩
    | some task =>
      have hframe := drop_frame crowd.node task
      rw [next_drop htask]
      exact ⟨hframe.identity, hframe.messaging⟩

theorem settings_run (crowd : Crowd) (moves : List Move) : (crowd.run moves).node.identity = crowd.node.identity ∧
    (crowd.run moves).node.messaging = crowd.node.messaging := by
  induction moves generalizing crowd with
  | nil => exact ⟨rfl, rfl⟩
  | cons move rest ih =>
    obtain ⟨hidentity, hmessaging⟩ := settings_next crowd move
    obtain ⟨hidentity', hmessaging'⟩ := ih (crowd.next move)
    exact ⟨hidentity'.trans hidentity, hmessaging'.trans hmessaging⟩

/-- The stage of the request that a move brings to its end, and the result. -/
def concludes? (crowd : Crowd) : Move → Option (Stage × Dialogue.Result)
  | .step i => (crowd.task? i).bind fun task => crowd.node.concludes? task.awaken
  | _ => none

theorem concludes?_step (htask : crowd.task? i = some task) :
    crowd.concludes? (.step i) = crowd.node.concludes? task.awaken := by
  rw [concludes?, htask, Option.bind_some]

theorem task_of_concludes? {stage : Stage} {result : Dialogue.Result}
    (h : crowd.concludes? move = some (stage, result)) :
    ∃ i task, move = .step i ∧ crowd.task? i = some task ∧ task.aim? = some stage := by
  cases move with
  | step i =>
    obtain ⟨task, htask, hconcludes⟩ := Option.bind_eq_some_iff.mp h
    refine ⟨i, task, rfl, htask, ?_⟩
    cases hstage : task.stage? with
    | none => simp [concludes?_outside crowd.node hstage] at hconcludes
    | some stage' =>
      obtain ⟨link, ⟨hnone, -⟩ | ⟨result', hsome, -⟩⟩ := step_concludes crowd.node hstage
      · simp [hnone] at hconcludes
      · obtain ⟨rfl, -⟩ := Prod.mk.inj (Option.some.inj (hsome.symm.trans hconcludes))
        exact aim?_of_stage? hstage
  | _ => cases h

end Crowd
end SensorLink
