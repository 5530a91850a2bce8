import SensorLink.Proofs.Outbox
import SensorLink.Proofs.Reading

/-! What a call that serves does, and when. It looks for a notification first, which it delivers, and only if there is none
    for a posting, which it publishes before it looks again; so whatever comes meanwhile, the notifications that wait are
    delivered before the next publish begins (`Service.serves_in_order`). -/

namespace SensorLink

/-! ### One who serves -/

/-- The task looks for work, or publishes a posting. -/
def Task.Serves (task : Task) : Prop :=
  task.looks? = some .serve ∨ task.publishes? = some .serve ∧ task.clears = false

section
variable {node : Node} {task : Task} {posting : Posting}

theorem awaken_of_looks (h : task.looks? = some .serve) : task.awaken = .checking .work := by
  cases task with
  | asking request stage | finished answer => cases h
  | parked wait | checking wait => cases wait <;> first | rfl | cases h

theorem serves_publish (node : Node) (scope : Scope) (topic : String) (payload : Bytes) :
    (node.publish scope topic payload .serve).Serves := by
  unfold Node.publish
  split
  · exact .inl rfl
  · exact .inr ⟨rfl, rfl⟩
  · exact .inr ⟨rfl, rfl⟩

/-- Whatever a request of a publish comes to. -/
theorem serves_heed {stage : Stage} (h : stage.goal? = some .serve) (node : Node) (led : Link × Dialogue.Progress) :
    (node.heed stage led).2.Serves := by
  obtain ⟨link, hold | result⟩ := led
  · exact .inr ⟨h, rfl⟩
  · cases stage with
    | publishInline goal | publishBody goal =>
      cases h
      cases result <;> exact .inl rfl
    | publishHeader payload goal =>
      cases h
      cases result with
      | ok answer => exact .inr ⟨rfl, rfl⟩
      | error cause => exact .inl rfl
    | _ => cases h

theorem Task.Serves.step (h : task.Serves) (node : Node) : (node.step task.awaken).2.Serves := by
  rcases h with hlooks | ⟨hbusy, hclears⟩
  · rcases step_looks node hlooks with ⟨posting, -, -, hpublishes⟩ | ⟨-, -, hagain, -⟩ | ⟨_, -, hdrains, -⟩
    · exact hpublishes ▸ serves_publish ..
    · exact .inl hagain
    · cases hdrains
  · obtain ⟨stage, haim, hgoal⟩ := Option.bind_eq_some_iff.mp hbusy
    cases task with
    | finished answer => cases haim
    | asking request stage' =>
      cases haim
      exact serves_heed hgoal node _
    | parked wait | checking wait =>
      cases wait with
      | modem request stage' =>
        cases haim
        simp only [Task.awaken, Node.step, Node.check]
        split
        · exact .inr ⟨hbusy, by cases request <;> first | rfl | cases hclears⟩
        · exact .inr ⟨hbusy, by cases request <;> first | rfl | cases hclears⟩
      | request hold stage' =>
        cases haim
        exact serves_heed hgoal node _
      | _ => cases haim

/-! ### Its steps -/

theorem check_work_notice {line : Bytes} {rest : List Bytes} (h : node.link.intake.inbound = line :: rest) :
    node.check .work =
      (((node.withIntake { node.link.intake with inbound := rest }).deliver line).1, .checking .work) := by
  simp only [Node.check, Node.deliverNext?_cons h]

theorem check_work_posting {rest : List Posting} (h : node.link.intake.inbound = []) (hqueue : node.queue = posting :: rest) :
    node.check .work = ({ node.setAlarm .notice with queue := rest }.announce .room,
      node.publish posting.scope posting.topic posting.payload .serve) := by
  have hquiet : (node.setAlarm .notice).queue = posting :: rest := hqueue
  simp only [Node.check, deliverNext?_eq_none_iff.mpr h]
  rw [Node.publishNext?_cons hquiet]
  rfl

theorem check_work_idle (h : node.link.intake.inbound = []) (hqueue : node.queue = []) :
    node.check .work = ((node.setAlarm .notice).setAlarm .posting, .parked .work) := by
  have hquiet : (node.setAlarm .notice).queue = [] := hqueue
  simp only [Node.check, deliverNext?_eq_none_iff.mpr h]
  rw [Node.publishNext?_nil hquiet]
  rfl

end

/-! ### The log -/

namespace Service

inductive Entry where
  /-- A notification has come and found room. -/
  | queued (line : Bytes)
  /-- A task has taken a notification and delivered it. -/
  | delivered (i : Nat) (line : Bytes)
  /-- A notification was forgotten with all that had been received. -/
  | forgotten (line : Bytes)
  | accepted (posting : Posting)
  /-- A task has taken a posting to publish it. -/
  | published (i : Nat) (posting : Posting)
  deriving DecidableEq

namespace Entry

def queued? : Entry → Option Bytes
  | .queued line => some line
  | _ => none

/-- A notification that is in the queue no more. -/
def left? : Entry → Option Bytes
  | .delivered _ line | .forgotten line => some line
  | _ => none

def accepted? : Entry → Option Posting
  | .accepted posting => some posting
  | _ => none

def published? : Entry → Option Posting
  | .published _ posting => some posting
  | _ => none

def deliveredBy? (i : Nat) : Entry → Option Bytes
  | .delivered j line => if j = i then some line else none
  | _ => none

def publishedBy? (i : Nat) : Entry → Option Posting
  | .published j posting => if j = i then some posting else none
  | _ => none

/-- If something was taken, it was by task `i`. -/
def leftTo (i : Nat) : Entry → Bool
  | .delivered j _ | .published j _ => j == i
  | .forgotten _ => false
  | _ => true

theorem deliveredBy?_eq {i : Nat} {entry : Entry} (h : entry.leftTo i) : entry.deliveredBy? i = entry.left? := by
  cases entry with
  | delivered j line => exact if_pos (beq_iff_eq.mp h)
  | forgotten line => cases h
  | _ => rfl

theorem publishedBy?_eq {i : Nat} {entry : Entry} (h : entry.leftTo i) : entry.publishedBy? i = entry.published? := by
  cases entry with
  | published j posting => exact if_pos (beq_iff_eq.mp h)
  | _ => rfl

end Entry
end Service

/-- What a move does about notifications and postings. -/
def Crowd.entries (crowd : Crowd) (move : Crowd.Move) : List Service.Entry :=
  (crowd.node.link.intake.gains (crowd.received move)).map .queued ++ (crowd.forgets move).map .forgotten ++
    (crowd.delivers move).map (fun (i, line) => .delivered i line) ++ (crowd.queues? move).toList.map .accepted ++
    (crowd.hands? move).toList.map fun (i, posting) => .published i posting

/-- A node and its calls, with all that has happened about notifications and postings, the latest last. -/
structure Service where
  crowd : Crowd
  log : List Service.Entry := []

namespace Service
open Entry

def next (service : Service) (move : Crowd.Move) : Service where
  crowd := service.crowd.next move
  log := service.log ++ service.crowd.entries move

def run (service : Service) (moves : List Crowd.Move) : Service := moves.foldl next service

theorem run_crowd (service : Service) (moves : List Crowd.Move) : (service.run moves).crowd = service.crowd.run moves := by
  induction moves generalizing service with
  | nil => rfl
  | cons move rest ih => exact ih _

section
variable (crowd : Crowd) (move : Crowd.Move)

theorem queued_entries : (crowd.entries move).filterMap queued? = crowd.node.link.intake.gains (crowd.received move) := by
  simp [Crowd.entries, queued?, List.filterMap_append, List.filterMap_map, Function.comp_def]

theorem left_entries :
    (crowd.entries move).filterMap left? = crowd.forgets move ++ (crowd.delivers move).map Prod.snd := by
  simp [Crowd.entries, left?, List.filterMap_append, List.filterMap_map, Function.comp_def]

theorem accepted_entries : (crowd.entries move).filterMap accepted? = (crowd.queues? move).toList := by
  simp [Crowd.entries, accepted?, List.filterMap_append, List.filterMap_map, Function.comp_def]

theorem published_entries :
    (crowd.entries move).filterMap published? = ((crowd.hands? move).map Prod.snd).toList := by
  simp [Crowd.entries, published?, List.filterMap_append, List.filterMap_map, Function.comp_def, Option.toList_map]

variable {crowd move}

theorem mem_entries {i : Nat} {posting : Posting} :
    .published i posting ∈ crowd.entries move ↔ crowd.hands? move = some (i, posting) := by
  simp [Crowd.entries]

end

/-! ### What a step of one who serves adds -/

section
variable {crowd : Crowd} {i : Nat} {task : Task}

/-- The oldest notification, or else the oldest posting. -/
theorem entries_of_looks (htask : crowd.task? i = some task) (h : task.looks? = some .serve) :
    crowd.entries (.step i) = match crowd.node.link.intake.inbound, crowd.node.queue with
      | line :: _, _ => [.delivered i line]
      | [], posting :: _ => [.published i posting]
      | [], [] => [] := by
  have hreceived : crowd.received (.step i) = [] := by
    rw [Crowd.received, htask, Option.elim_some, awaken_of_looks h]
    rfl
  have hforgets : crowd.forgets (.step i) = [] := by
    rw [Crowd.forgets, htask, Option.elim_some]
    cases task <;> first | rfl | cases h
  have hdelivers : crowd.delivers (.step i) = crowd.node.link.intake.inbound.head?.toList.map fun line => (i, line) := by
    rw [Crowd.delivers, htask, Option.bind_some]
    cases task with
    | asking request stage | finished answer => cases h
    | parked wait | checking wait => cases wait <;> first | rfl | cases h
  have hqueues : crowd.queues? (.step i) = none := by
    rw [Crowd.queues?, htask, Option.bind_some, queues?_of_looks h]
  have hhands : crowd.hands? (.step i) = (crowd.node.takes? task).map fun taken => (i, taken.1) := by
    rw [Crowd.hands?, htask, Option.bind_some]
  have htakes : crowd.node.takes? task =
      if crowd.node.deliverNext?.isSome then none else crowd.node.queue.head?.map (·, .serve) := by
    simp only [Node.takes?, h, Option.bind_eq_bind, Option.bind_some, true_and]
  rw [Crowd.entries, hreceived, gains_nil, hforgets, hdelivers, hqueues, hhands, htakes]
  cases hinbound : crowd.node.link.intake.inbound with
  | nil =>
    rw [Node.deliverNext?_nil hinbound]
    cases crowd.node.queue <;> rfl
  | cons line rest =>
    rw [Node.deliverNext?_cons hinbound]
    rfl

/-- While a publish is under way, nothing is taken. -/
theorem entries_of_publishes (htask : crowd.task? i = some task) (h : task.publishes? = some .serve)
    (hclears : task.clears = false) :
    crowd.entries (.step i) = (crowd.node.link.intake.gains (crowd.received (.step i))).map .queued := by
  obtain ⟨stage, haim, -⟩ := Option.bind_eq_some_iff.mp h
  have hforgets : crowd.forgets (.step i) = [] := by
    rw [Crowd.forgets, htask, Option.elim_some]
    unfold Node.forgets
    split
    · cases hclears
    · rfl
  have hdelivers : crowd.delivers (.step i) = [] ∧ crowd.queues? (.step i) = none := by
    rw [Crowd.delivers, Crowd.queues?, htask]
    cases task with
    | asking request stage | finished answer => exact ⟨rfl, rfl⟩
    | parked wait | checking wait => cases wait <;> first | exact ⟨rfl, rfl⟩ | cases haim
  have hhands : crowd.hands? (.step i) = none := by
    rw [Crowd.hands?, htask, Option.bind_some, (step_publishes crowd.node h).1]
    rfl
  rw [Crowd.entries, hforgets, hdelivers.1, hdelivers.2, hhands]
  simp

/-- A call that serves, in task `i`. -/
structure Works (service : Service) (i : Nat) (task : Task) : Prop where
  /-- It never comes to an end. -/
  goes : task.looks? = some .serve ∨ task.publishes? = some .serve
  /-- When it looks, it takes the oldest notification and delivers it at once. -/
  notice : task.looks? = some .serve → ∀ line rest, service.crowd.node.link.intake.inbound = line :: rest →
    (service.next (.step i)).log = service.log ++ [.delivered i line] ∧
    (service.next (.step i)).crowd.task? i = some (.checking .work) ∧
    (service.next (.step i)).crowd.node =
      ((service.crowd.node.withIntake { service.crowd.node.link.intake with inbound := rest }).deliver line).1
  /-- If there is none, it takes the oldest posting and publishes it. -/
  posting : task.looks? = some .serve → service.crowd.node.link.intake.inbound = [] →
    ∀ posting rest, service.crowd.node.queue = posting :: rest →
      (service.next (.step i)).log = service.log ++ [.published i posting] ∧
      (service.next (.step i)).crowd.task? i =
        some (service.crowd.node.publish posting.scope posting.topic posting.payload .serve) ∧
      (service.next (.step i)).crowd.node.link.intake = service.crowd.node.link.intake ∧
      (service.next (.step i)).crowd.node.queue = rest
  /-- If there is neither, it waits. -/
  idle : task.looks? = some .serve → service.crowd.node.link.intake.inbound = [] → service.crowd.node.queue = [] →
    (service.next (.step i)).log = service.log ∧ (service.next (.step i)).crowd.task? i = some (.parked .work)
  /-- While it publishes, it takes nothing, and notifications that come are queued. -/
  busy : task.publishes? = some .serve → (service.next (.step i)).log = service.log ++
    (service.crowd.node.link.intake.gains (service.crowd.received (.step i))).map .queued
  /-- All notifications that wait are delivered in their order, while no posting is touched, if it goes on for so many
      steps. -/
  notices : task.looks? = some .serve →
    let waiting := service.crowd.node.link.intake.inbound
    let after := service.run (List.replicate waiting.length (.step i))
    after.log = service.log ++ waiting.map (.delivered i) ∧ after.crowd.node.link.intake.inbound = [] ∧
      after.crowd.node.queue = service.crowd.node.queue

variable {service : Service}

theorem next_step (htask : service.crowd.task? i = some task) (h : task.looks? = some .serve) :
    (service.next (.step i)).crowd.node = (service.crowd.node.check .work).1 ∧
      (service.next (.step i)).crowd.task? i = some (service.crowd.node.check .work).2 := by
  have hstep : service.crowd.node.step task.awaken = service.crowd.node.check .work := by
    rw [awaken_of_looks h]
    rfl
  have hnext : (service.next (.step i)).crowd = service.crowd.next (.step i) := rfl
  rw [hnext, Crowd.task?_step htask, if_pos rfl, Crowd.next_step htask, hstep]
  exact ⟨rfl, rfl⟩

theorem next_notice (htask : service.crowd.task? i = some task) (h : task.looks? = some .serve) {line : Bytes}
    {rest : List Bytes} (hinbound : service.crowd.node.link.intake.inbound = line :: rest) :
    (service.next (.step i)).log = service.log ++ [.delivered i line] ∧
    (service.next (.step i)).crowd.task? i = some (.checking .work) ∧
    (service.next (.step i)).crowd.node =
      ((service.crowd.node.withIntake { service.crowd.node.link.intake with inbound := rest }).deliver line).1 := by
  obtain ⟨hnode, hagain⟩ := next_step htask h
  rw [check_work_notice hinbound] at hnode hagain
  refine ⟨?_, hagain, hnode⟩
  rw [next, entries_of_looks htask h, hinbound]

theorem run_notices {lines : List Bytes} (htask : service.crowd.task? i = some task) (h : task.looks? = some .serve)
    (hinbound : service.crowd.node.link.intake.inbound = lines) :
    let after := service.run (List.replicate lines.length (.step i))
    after.log = service.log ++ lines.map (.delivered i) ∧ after.crowd.node.link.intake.inbound = [] ∧
      after.crowd.node.queue = service.crowd.node.queue := by
  induction lines generalizing service task with
  | nil => exact ⟨(List.append_nil _).symm, hinbound, rfl⟩
  | cons line rest ih =>
    obtain ⟨hlog, hagain, hnode⟩ := next_notice htask h hinbound
    have hlink := Node.deliver_link (service.crowd.node.withIntake { service.crowd.node.link.intake with inbound := rest })
      line
    obtain ⟨hlog', hempty, hqueue⟩ := ih hagain rfl (by rw [hnode, hlink]; rfl)
    rw [hnode, queue_deliver] at hqueue
    refine ⟨?_, hempty, hqueue⟩
    show ((service.next (.step i)).run (List.replicate rest.length (.step i))).log = _
    rw [hlog', hlog, List.append_assoc]
    rfl

theorem works (htask : service.crowd.task? i = some task) (h : task.Serves) : service.Works i task where
  goes := h.imp_right And.left
  notice hlooks _ _ hinbound := next_notice htask hlooks hinbound
  posting hlooks hinbound posting rest hqueue := by
    obtain ⟨hnode, hagain⟩ := next_step htask hlooks
    rw [check_work_posting hinbound hqueue] at hnode hagain
    refine ⟨?_, hagain, by rw [hnode]; rfl, by rw [hnode]; rfl⟩
    rw [next, entries_of_looks htask hlooks, hinbound, hqueue]
  idle hlooks hinbound hqueue := by
    obtain ⟨hnode, hagain⟩ := next_step htask hlooks
    rw [check_work_idle hinbound hqueue] at hagain
    refine ⟨?_, hagain⟩
    rw [next, entries_of_looks htask hlooks, hinbound, hqueue]
    exact List.append_nil _
  busy hbusy := by
    rcases h with hlooks | ⟨-, hclears⟩
    · rw [(stage?_of_looks? hlooks).2] at hbusy
      cases hbusy
    · rw [next, entries_of_publishes htask hbusy hclears]
  notices hlooks := run_notices htask hlooks rfl

end

/-! ### Runs -/

section
variable {node : Node} {calls : List Call} {service : Service} {move : Crowd.Move} {moves : List Crowd.Move}

/-- What has come and been accepted has left or waits, and those who serve have published nothing while a notification
    waited. -/
structure Sound (node : Node) (calls : List Call) (service : Service) : Prop where
  tasks : service.crowd.Each (fun _ => True) (fun call task => call = .serve → task.Serves) calls
  inbound : node.link.intake.inbound ++ service.log.filterMap queued? =
    service.log.filterMap left? ++ service.crowd.node.link.intake.inbound
  queue : node.queue ++ service.log.filterMap accepted? = service.log.filterMap published? ++ service.crowd.node.queue
  first : ∀ before i posting after, calls[i]? = some .serve → service.log = before ++ .published i posting :: after →
    node.link.intake.inbound ++ before.filterMap queued? = before.filterMap left?

theorem maintains_serves (calls : List Call) :
    Crowd.Maintains (fun _ => True) (fun call task => call = .serve → task.Serves) calls where
  start _ _ _ _ := ⟨trivial, by rintro rfl; exact .inl rfl⟩
  step node _ _ _ h := ⟨trivial, fun hcall => (h hcall).step node⟩
  drop _ _ _ := trivial
  advance _ _ _ := trivial

/-- An entry of a longer log is an old one or a new one. -/
theorem split_log {log more before after : List Entry} {entry : Entry} (h : log ++ more = before ++ entry :: after) :
    (∃ after, log = before ++ entry :: after) ∨ ∃ middle, before = log ++ middle ∧ more = middle ++ entry :: after := by
  rcases List.append_eq_append_iff.mp h with ⟨middle, hbefore, hmore⟩ | ⟨middle, hlog, hafter⟩
  · exact .inr ⟨middle, hbefore, hmore⟩
  · rcases List.cons_eq_append_iff.mp hafter with ⟨rfl, hmore⟩ | ⟨rest, rfl, -⟩
    · exact .inr ⟨[], by simpa using hlog.symm, hmore⟩
    · exact .inl ⟨rest, hlog⟩

/-- One who serves takes a posting when no notification waits, and nothing else with it. -/
theorem entries_of_hands (h : service.crowd.Each (fun _ => True) (fun call task => call = .serve → task.Serves) calls)
    {i : Nat} {posting : Posting} (hcall : calls[i]? = some .serve) (hhands : service.crowd.hands? move = some (i, posting)) :
    service.crowd.node.link.intake.inbound = [] ∧ service.crowd.entries move = [.published i posting] := by
  cases move with
  | step j =>
    obtain ⟨task, htask, htakes⟩ := Option.bind_eq_some_iff.mp hhands
    obtain ⟨taken, htaken, hpair⟩ := Option.map_eq_some_iff.mp htakes
    cases hpair
    obtain ⟨call, hget, hserves⟩ := h.tasks i task htask
    rcases hserves (Option.some.inj (hget.symm.trans hcall)) with hlooks | ⟨hbusy, -⟩
    · have hmem : .published i taken.1 ∈ service.crowd.entries (.step i) := mem_entries.mpr hhands
      rw [entries_of_looks htask hlooks] at hmem ⊢
      cases hinbound : service.crowd.node.link.intake.inbound with
      | nil =>
        cases hqueue : service.crowd.node.queue with
        | nil => simp [hinbound, hqueue] at hmem
        | cons oldest rest =>
          simp only [hinbound, hqueue, List.mem_singleton] at hmem
          exact ⟨rfl, by rw [hmem]⟩
      | cons line rest => simp [hinbound] at hmem
    · simp [(step_publishes service.crowd.node hbusy).1] at htaken
  | _ => cases hhands

theorem sound_next (h : Sound node calls service)
    (hcall : ∀ call ∈ move.call?, calls[service.crowd.tasks.length]? = some call) : Sound node calls (service.next move) where
  tasks := Crowd.each_next (maintains_serves calls) h.tasks hcall
  inbound := by
    have hmove := Crowd.inbound_move service.crowd move
    rw [next, List.filterMap_append, List.filterMap_append, queued_entries, left_entries, ← List.append_assoc, h.inbound,
      List.append_assoc, hmove, ← List.append_assoc]
  queue := by
    have hmove := Crowd.queue_move service.crowd move
    rw [next, List.filterMap_append, List.filterMap_append, accepted_entries, published_entries, ← List.append_assoc,
      h.queue, List.append_assoc, hmove, ← List.append_assoc]
  first before i posting after hserve hlog := by
    rcases split_log hlog with ⟨after, hold⟩ | ⟨middle, rfl, hnew⟩
    · exact h.first before i posting after hserve hold
    · have hhands : service.crowd.hands? move = some (i, posting) := mem_entries.mp (by simp [hnew])
      obtain ⟨hempty, hentries⟩ := entries_of_hands h.tasks hserve hhands
      rw [hentries] at hnew
      obtain rfl : middle = [] := by
        cases middle with
        | nil => rfl
        | cons entry rest => simp at hnew
      have hinbound := h.inbound
      rwa [hempty, List.append_nil, ← List.append_nil service.log] at hinbound

theorem sound_run (h : Sound node calls service) (hcalls : calls.drop service.crowd.tasks.length = Crowd.calls moves) :
    Sound node calls (service.run moves) := by
  induction moves generalizing service with
  | nil => exact h
  | cons move rest ih =>
    obtain ⟨hcall, hrest⟩ := Crowd.calls_next hcalls
    exact ih (sound_next h hcall) hrest

theorem sound_fresh (node : Node) (moves : List Crowd.Move) :
    Sound node (Crowd.calls moves) (run { crowd := { node } } moves) := by
  refine sound_run ⟨⟨trivial, fun i task htask => ?_⟩, List.append_nil _, List.append_nil _, fun before i posting after _ hlog =>
    ?_⟩ rfl
  · rw [Crowd.task?, List.getElem?_nil] at htask
    cases htask
  · simp at hlog

end

/-- Whatever is called, comes, is visited and is given up, in whatever order: notifications leave the queue in the order
    in which they came, and postings in the order in which they were accepted, none is passed over, and none leaves twice.
    One who serves takes one of either at a time, a posting only if no notification waits, and nothing while it publishes.
    So all notifications that have come have left before it begins to publish; and if nobody else takes any, it delivers
    the notifications as they came and publishes the postings as they were accepted. -/
theorem serves_in_order (node : Node) (moves : List Crowd.Move) :
    let service : Service := run { crowd := { node } } moves
    let inbound := service.crowd.node.link.intake.inbound
    service.crowd = Crowd.run { node } moves ∧
    node.link.intake.inbound ++ service.log.filterMap queued? = service.log.filterMap left? ++ inbound ∧
    node.queue ++ service.log.filterMap accepted? = service.log.filterMap published? ++ service.crowd.node.queue ∧
    ∀ i, (Crowd.calls moves)[i]? = some .serve →
      (∀ task, service.crowd.task? i = some task → service.Works i task) ∧
      (∀ before posting after, service.log = before ++ .published i posting :: after →
        node.link.intake.inbound ++ before.filterMap queued? = before.filterMap left?) ∧
      ((∀ entry ∈ service.log, entry.leftTo i) →
        node.link.intake.inbound ++ service.log.filterMap queued? = service.log.filterMap (deliveredBy? i) ++ inbound ∧
        node.queue ++ service.log.filterMap accepted? =
          service.log.filterMap (publishedBy? i) ++ service.crowd.node.queue) := by
  intro service inbound
  have h : Sound node (Crowd.calls moves) service := sound_fresh node moves
  refine ⟨run_crowd _ _, h.inbound, h.queue, fun i hcall => ⟨fun task htask => ?_, fun before posting after hlog => ?_,
    fun halone => ⟨?_, ?_⟩⟩⟩
  · obtain ⟨call, hget, hserves⟩ := h.tasks.tasks i task htask
    exact works htask (hserves (Option.some.inj (hget.symm.trans hcall)))
  · exact h.first before i posting after hcall hlog
  · rw [h.inbound, List.filterMap_congr fun entry hentry => deliveredBy?_eq (halone entry hentry)]
  · rw [h.queue, List.filterMap_congr fun entry hentry => publishedBy?_eq (halone entry hentry)]

/-- Two notifications and a posting wait; while the posting is published, a third notification comes and another posting
    is accepted; and the notification is delivered before that is published. -/
theorem serves_in_order_while_publishing :
    let node : Node := { table := { capacity := 4 }, depth := 4 }
    let notice (byte : UInt8) : Bytes := Intake.noticeMark ++ [byte]
    let first : Posting := ⟨.own, "a", [], by decide, by decide⟩
    let second : Posting := ⟨.own, "b", [], by decide, by decide⟩
    let moves : List Crowd.Move := [.start .serve, .start (.tryPost .own "a" []),
      .start (.feed (notice 65 ++ [13, 10] ++ notice 66 ++ [13, 10])), .step 0, .step 0, .step 0, .step 0, .step 0,
      .start (.feed (notice 67 ++ [13, 10])), .start (.tryPost .own "b" []), .start (.feed (Text.encode "OK\r\n")), .step 0,
      .step 0, .step 0]
    let service : Service := run { crowd := { node } } moves
    (Crowd.calls moves)[0]? = some .serve ∧ (∀ entry ∈ service.log, entry.leftTo 0) ∧
      service.log.filterMap (deliveredBy? 0) = [notice 65, notice 66, notice 67] ∧
      service.log.filterMap (publishedBy? 0) = [first, second] ∧
      ∃ before after, service.log = before ++ .published 0 second :: after ∧
        before.filterMap left? = [notice 65, notice 66, notice 67] := by
  intro node notice first second moves service
  have hcall : (Crowd.calls moves)[0]? = some .serve := rfl
  have halone : ∀ entry ∈ service.log, entry.leftTo 0 := by decide +kernel
  have hqueued : service.log.filterMap queued? = [notice 65, notice 66, notice 67] := by decide +kernel
  have haccepted : service.log.filterMap accepted? = [first, second] := by decide +kernel
  have hempty : service.crowd.node.link.intake.inbound = [] ∧ service.crowd.node.queue = [] := by decide +kernel
  have hlast : service.log = service.log.take 9 ++ .published 0 second :: [] := by decide +kernel
  have hbefore : (service.log.take 9).filterMap queued? = [notice 65, notice 66, notice 67] := by decide +kernel
  obtain ⟨-, -, -, hserves⟩ := serves_in_order node moves
  obtain ⟨-, hfirst, hown⟩ := hserves 0 hcall
  rw [show run { crowd := { node } } moves = service from rfl] at hfirst hown
  clear_value service
  obtain ⟨hdelivered, hpublished⟩ := hown halone
  rw [hqueued, hempty.1, List.append_nil] at hdelivered
  rw [haccepted, hempty.2, List.append_nil] at hpublished
  exact ⟨hcall, halone, hdelivered.symm, hpublished.symm, service.log.take 9, [], hlast,
    (hfirst _ _ _ hlast).symm.trans hbefore⟩

end Service
end SensorLink
