import SensorLink.Proofs.Course
import SensorLink.Session

/-! How a session goes through an exchange, visit by visit. While a part is held back and while the answer is awaited, it
    jumps from one arrival to the next. On the way the link follows the course of the writes (`ends_writes`): what was
    received, written and scheduled is what the course says, wherever the session has stopped in between. -/

namespace SensorLink
open Arrival

/-! ### The link -/

theorem Alarm.unset_eq_iff {alarm : Alarm} {event : Event} :
    alarm.unset event = {} ↔ (∀ other ∈ alarm.settings, other = event) ∧ alarm.ringing = false := by
  simp [Alarm.unset, Alarm.mk.injEq, List.filter_eq_nil_iff]

section
variable {link : Link}

theorem feedAll_eq (arrivals : List Arrival) (link : Link) : ∃ alarm,
    arrivals.foldl (fun link arrival => link.feed arrival.data) link =
      { link with intake := link.intake.feed (bytes arrivals), alarm } ∧
      alarm.settings ⊆ link.alarm.settings ∧ (link.alarm = {} → alarm = {}) := by
  induction arrivals generalizing link with
  | nil => exact ⟨link.alarm, rfl, List.Subset.refl _, id⟩
  | cons arrival rest ih =>
    obtain ⟨alarm, hrest, hsettings, hidle⟩ := ih (link.feed arrival.data)
    refine ⟨alarm, ?_, List.Subset.trans hsettings (List.filter_subset_self _), fun hlink => hidle ?_⟩
    · rw [List.foldl_cons, hrest]
      show ({ link with intake := _, alarm } : Link) = { link with intake := _, alarm }
      rw [show bytes (arrival :: rest) = arrival.data ++ bytes rest from rfl, Intake.feed_append]
      rfl
    · show link.alarm.announce _ = {}
      rw [hlink]
      rfl

/-- What is received until a time, and nothing else, has changed then. -/
theorem advance_eq (link : Link) (time : Nat) : ∃ alarm, link.advance time =
    { link with
      intake := link.intake.feed (bytes (link.arrivals.takeWhile fun arrival => arrival.due ≤ time))
      clock := max link.clock time
      arrivals := link.arrivals.dropWhile fun arrival => arrival.due ≤ time
      alarm } ∧ alarm.settings ⊆ link.alarm.settings ∧ (link.alarm = {} → alarm = {}) :=
  feedAll_eq _ _

theorem advance_alarm (h : link.alarm = {}) (time : Nat) : (link.advance time).alarm = {} := by
  obtain ⟨alarm, hadvance, -, hidle⟩ := advance_eq link time
  rw [hadvance]
  exact hidle h

/-- While a write is held back, what the course says is received. -/
theorem advance_during (h : link.alarm = {}) {delay : Nat} (hdelay : delay ≠ 0) : link.advance (link.clock + delay) =
    { link with
      intake := link.intake.feed (bytes (during link.clock delay link.arrivals))
      clock := link.clock + delay
      arrivals := beyond link.clock delay link.arrivals } := by
  obtain ⟨alarm, hadvance, -, hidle⟩ := advance_eq link (link.clock + delay)
  rw [hadvance, hidle h, ← h, during, if_neg hdelay, bytes_receipts, beyond, if_neg hdelay,
    Nat.max_eq_right (Nat.le_add_right _ _)]

/-- The link when it is looked at again, at a time. -/
def Link.visitedAt (link : Link) (time : Nat) : Link :=
  { link.advance time with alarm := (link.advance time).alarm.stop }

theorem visitedAt_eq (link : Link) (time : Nat) : ∃ alarm, link.visitedAt time =
    { link with
      intake := link.intake.feed (bytes (link.arrivals.takeWhile fun arrival => arrival.due ≤ time))
      clock := max link.clock time
      arrivals := link.arrivals.dropWhile fun arrival => arrival.due ≤ time
      alarm } ∧ (link.alarm.unset .answer = {} → alarm.unset .answer = {}) := by
  obtain ⟨alarm, hadvance, hsettings, -⟩ := advance_eq link time
  refine ⟨alarm.stop, by rw [Link.visitedAt, hadvance], fun h => Alarm.unset_eq_iff.mpr ⟨fun event hevent => ?_, rfl⟩⟩
  exact (Alarm.unset_eq_iff.mp h).1 event (hsettings hevent)

theorem visitedAt_idle (h : link.alarm = {}) (time : Nat) : link.visitedAt time = link.advance time := by
  rw [Link.visitedAt, advance_alarm h, show Alarm.stop {} = {} from rfl, ← advance_alarm h time]

/-- It does not matter where the clock stops on the way. -/
theorem advance_advance (h : link.alarm = {}) {time later : Nat} (hle : time ≤ later) :
    (link.advance time).advance later = link.advance later := by
  obtain ⟨alarm, hfirst, -, hidle⟩ := advance_eq link time
  obtain ⟨alarm', hsecond, -, hidle'⟩ := advance_eq (link.advance time) later
  obtain ⟨alarm'', hwhole, -, hidle''⟩ := advance_eq link later
  rw [hsecond, hwhole, hidle' (advance_alarm h time), hidle'' h]
  simp only [hfirst]
  rw [takeWhile_due_append hle link.arrivals, bytes_append, Intake.feed_append, dropWhile_due_dropWhile hle,
    Nat.max_assoc, Nat.max_eq_right hle]

/-- When a rule is obeyed, what it sends at once has been received, and the rest is on its way. -/
theorem obey_eq (h : link.alarm = {}) (rule : Modem.Rule) : link.obey rule =
    ({ link with intake := link.intake.feed rule.rushed, arrivals := rule.later link.clock link.arrivals },
      rule.fault) := by
  have hfold (replies : List Modem.Reply) (link : Link) (h : link.alarm = {}) : replies.foldl Link.reply link =
      { link with
        intake := link.intake.feed ((replies.filter (·.delay = 0)).flatMap Modem.Reply.data)
        arrivals := replies.foldl (fun coming reply =>
          if reply.delay = 0 then coming else Link.insertArrival ⟨link.clock + reply.delay, reply.data⟩ coming)
          link.arrivals } := by
    induction replies generalizing link with
    | nil => rfl
    | cons reply rest ih =>
      by_cases hdelay : reply.delay = 0
      · have hreply : link.reply reply = { link with intake := link.intake.feed reply.data } := by
          rw [Link.reply, if_pos hdelay]
          show ({ link with intake := _, alarm := link.alarm.announce _ } : Link) = _
          rw [h, show Alarm.announce {} _ = {} from rfl, ← h]
        rw [List.foldl_cons, hreply, ih { link with intake := link.intake.feed reply.data } h,
          List.filter_cons_of_pos (by simpa using hdelay), List.flatMap_cons, Intake.feed_append, List.foldl_cons,
          if_pos hdelay]
      · have hreply : link.reply reply = { link with
            arrivals := Link.insertArrival ⟨link.clock + reply.delay, reply.data⟩ link.arrivals } := by
          rw [Link.reply, if_neg hdelay]
          rfl
        rw [List.foldl_cons, hreply, ih { link with
            arrivals := Link.insertArrival ⟨link.clock + reply.delay, reply.data⟩ link.arrivals } h,
          List.filter_cons_of_neg (by simpa using hdelay), List.foldl_cons, if_neg hdelay]
  rw [Link.obey, hfold rule.replies link h]
  rfl

/-- The link at the end of a course. -/
def Modem.Course.apply (course : Modem.Course) (link : Link) : Link :=
  { link with
    intake := link.intake.feed (bytes course.heard)
    rules := course.rules
    clock := course.ended
    arrivals := course.coming
    sent := link.sent ++ course.written }

theorem apply_precededBy (course : Modem.Course) (heard : List Arrival) (part : Bytes) (rules : List Modem.Rule)
    (clock : Nat) (coming : List Arrival) : (course.precededBy heard part).apply link =
      course.apply { link with
        intake := link.intake.feed (bytes heard), rules, clock, arrivals := coming, sent := link.sent ++ [part] } := by
  simp [Modem.Course.apply, Modem.Course.precededBy, bytes_append, Intake.feed_append]

/-- The link when a rule is obeyed that knows the part written last. -/
def Link.waited (link : Link) (part : Bytes) (rule : Modem.Rule) (rules : List Modem.Rule) : Link :=
  { link with
    intake := link.intake.feed (bytes (during link.clock rule.delay link.arrivals))
    rules
    clock := link.clock + rule.delay
    arrivals := beyond link.clock rule.delay link.arrivals
    sent := link.sent ++ [part] }

/-- What is received until it has been obeyed. -/
def Link.heard (link : Link) (rule : Modem.Rule) : List Arrival :=
  during link.clock rule.delay link.arrivals ++ [⟨link.clock + rule.delay, rule.rushed⟩]

/-- The link when it has been obeyed. -/
def Link.obeyed (link : Link) (part : Bytes) (rule : Modem.Rule) (rules : List Modem.Rule) : Link :=
  { link with
    intake := link.intake.feed (bytes (link.heard rule))
    rules
    clock := link.clock + rule.delay
    arrivals := rule.later (link.clock + rule.delay) (beyond link.clock rule.delay link.arrivals)
    sent := link.sent ++ [part] }

section
variable {part : Bytes} {rule : Modem.Rule} {rules : List Modem.Rule} {rest : List Bytes}

theorem obey_waited (h : link.alarm = {}) :
    (link.waited part rule rules).obey rule = (link.obeyed part rule rules, rule.fault) := by
  have hwaited : (link.waited part rule rules).alarm = {} := h
  rw [obey_eq hwaited rule]
  simp [Link.waited, Link.obeyed, Link.heard, Intake.feed_append, Arrival.bytes]

theorem course_of_unknown (hdecide : Modem.decide? part link.rules = none) :
    Modem.course link.rules link.clock link.arrivals (part :: rest) =
      (Modem.course link.rules link.clock link.arrivals rest).precededBy [] part := by
  rw [Modem.course, hdecide]

theorem course_of_obeyed (hdecide : Modem.decide? part link.rules = some (rule, rules)) (hfault : rule.fault = none) :
    Modem.course link.rules link.clock link.arrivals (part :: rest) =
      (Modem.course (link.obeyed part rule rules).rules (link.obeyed part rule rules).clock
        (link.obeyed part rule rules).arrivals rest).precededBy (link.heard rule) part := by
  rw [Modem.course, hdecide]
  simp only [hfault]
  rfl

theorem course_of_fault (hdecide : Modem.decide? part link.rules = some (rule, rules)) {fault : Fault}
    (hfault : rule.fault = some fault) : Modem.course link.rules link.clock link.arrivals (part :: rest) =
      { heard := link.heard rule, written := [part], fault := some fault, ended := link.clock + rule.delay, rules
        coming := (link.obeyed part rule rules).arrivals } := by
  rw [Modem.course, hdecide]
  simp only [hfault]
  rfl

end
end

/-! ### Visits of a thread -/

namespace Thread
open Dialogue

/-- A thread whose request waits. -/
def waiting (hold : Hold) (stage : Stage) : Thread := .running (.parked (.request hold stage))

/-- How a thread is run to its end once it has been visited. -/
def goOn (visits : Nat) : Node × Thread → Node × Option Outcome
  | (node, .ended outcome) => (node, some outcome)
  | (node, thread) =>
    if isAwake node thread then finish visits node thread
    else match nextTime? node thread with
      | none => (drop node thread, none)
      | some time => finish visits (node.advance time) thread

theorem finish_succ (visits : Nat) (node : Node) (thread : Thread) :
    finish (visits + 1) node thread = goOn visits (visit node.stopAlarm thread) := by
  rw [finish]
  rcases visit node.stopAlarm thread with ⟨after, task | task | body | threads | outcome⟩ <;> rfl

/-- With enough visits the thread is run to an end of this kind, and more of them change nothing. -/
def Ends (state : Node × Thread) (goal : Node × Option Outcome → Prop) : Prop :=
  ∃ visits, ∀ more, goal (goOn (visits + more) state)

/-- The same of a task in the middle of a visit, if the visit has so many steps left. -/
def Ensues (slack : Nat) (state : Node × Task) (goal : Node × Option Outcome → Prop) : Prop :=
  ∀ left ≥ slack, Ends (ofTask (state.1.steps left state.2)) goal

section
variable {node : Node} {hold : Hold} {stage : Stage} {slack : Nat} {goal : Node × Option Outcome → Prop}

theorem Ensues.mono {state : Node × Task} {goal' : Node × Option Outcome → Prop} (h : Ensues slack state goal)
    (himp : ∀ last, goal last → goal' last) : Ensues slack state goal' := by
  intro left hleft
  obtain ⟨visits, hvisits⟩ := h left hleft
  exact ⟨visits, fun more => himp _ (hvisits more)⟩

theorem heed_withLink (node : Node) (link : Link) (stage : Stage) (led : Link × Progress) :
    { node with link }.heed stage led = node.heed stage led := by
  obtain ⟨link', hold | result⟩ := led <;> rfl

theorem ensues_waiting (h : Ends (node, waiting hold stage) goal) :
    Ensues slack (node, .parked (.request hold stage)) goal := by
  intro left _
  cases left <;> exact h

theorem ensues_finished {answer : Answer} (h : goal (node, some (.answer answer))) :
    Ensues slack (node, .finished answer) goal := by
  intro left _
  cases left <;> exact ⟨0, fun _ => h⟩

theorem ensues_asking {request : Request} (h : Ensues slack (node.heed stage (Dialogue.start node.link request)) goal) :
    Ensues (slack + 1) (node, .asking request stage) goal := by
  intro left hleft
  obtain ⟨left, rfl⟩ : ∃ fewer, left = fewer + 1 := ⟨left - 1, by omega⟩
  exact h left (by omega)

theorem ensues_talk {request : Request} (hfree : node.link.held = false)
    (h : Ensues slack (node.acquire, .asking request stage) goal) :
    Ensues (slack + 1) (node, .talk request stage) goal := by
  intro left hleft
  obtain ⟨left, rfl⟩ : ∃ fewer, left = fewer + 1 := ⟨left - 1, by omega⟩
  have hcheck : node.check (.modem request stage) = (node.acquire, .asking request stage) := by simp [Node.check, hfree]
  have hsteps : node.steps (left + 1) (.talk request stage) = node.acquire.steps left (.asking request stage) := by
    simp only [Task.talk, Node.steps, Node.step, hcheck]
  exact hsteps ▸ h left (by omega)

theorem le_patience (node : Node) : 16 ≤ node.patience := by
  unfold Node.patience
  omega

theorem ends_start {call : Call} {task : Task} (hcall : call.start node = (node, task)) (hslack : slack ≤ 16)
    (h : Ensues slack (node, task) goal) : Ends (visit node (.start call)) goal := by
  rw [visit, hcall]
  exact h node.patience (hslack.trans (le_patience node))

theorem ends_visit (hslack : slack < 16) (h : Ensues slack (node.heed stage (resume node.link hold)) goal) :
    Ends (visit node (waiting hold stage)) goal := by
  obtain ⟨left, hleft⟩ : ∃ left, node.patience = left + 1 := Nat.exists_eq_succ_of_ne_zero (by
    unfold Node.patience
    omega)
  have hpatience := le_patience node
  rw [waiting, visit, Node.visit, Node.run, hleft]
  exact h left (by omega)

/-- A request whose time is up is visited before time passes. -/
theorem ends_due (hdue : hold.deadline ≤ node.link.clock) (h : Ends (visit node.stopAlarm (waiting hold stage)) goal) :
    Ends (node, waiting hold stage) goal := by
  obtain ⟨visits, h⟩ := h
  refine ⟨visits + 1, fun more => ?_⟩
  have hawake : isAwake node (waiting hold stage) = true := by
    simp [isAwake, waiting, deadline?, Wait.deadline?, hdue]
  have hgo : goOn (visits + 1 + more) (node, waiting hold stage) =
      goOn (visits + more) (visit node.stopAlarm (waiting hold stage)) := by
    rw [show visits + 1 + more = visits + more + 1 by omega, ← finish_succ]
    exact if_pos hawake
  exact hgo ▸ h more

/-- When something happens next while a request waits. -/
def soonest (deadline : Nat) (arrivals : List Arrival) : Nat :=
  (arrivals.head?.map Arrival.due).elim deadline (min deadline)

/-- Nothing arrives in time, or something arrives before anything else happens. -/
theorem soonest_cases (deadline : Nat) (arrivals : List Arrival) :
    (arrivals.takeWhile (fun arrival => arrival.due ≤ deadline) = [] ∧ soonest deadline arrivals = deadline) ∨
      ∃ arrival others, arrivals = arrival :: others ∧ arrival.due ≤ deadline ∧
        soonest deadline arrivals = arrival.due := by
  rcases arrivals with _ | ⟨arrival, others⟩
  · exact .inl ⟨rfl, rfl⟩
  · have hsoonest : soonest deadline (arrival :: others) = min deadline arrival.due := rfl
    by_cases hdue : arrival.due ≤ deadline
    · exact .inr ⟨arrival, others, rfl, hdue, hsoonest.trans (Nat.min_eq_right hdue)⟩
    · exact .inl ⟨List.takeWhile_cons_of_neg (by simpa using hdue), hsoonest.trans (Nat.min_eq_left (Nat.le_of_not_le hdue))⟩

/-- While the alarm is silent, a request waits for the next arrival or its deadline. -/
theorem ends_idle (hringing : node.link.alarm.ringing = false) (hclock : node.link.clock < hold.deadline)
    (h : Ends (visit (node.advance (soonest hold.deadline node.link.arrivals)).stopAlarm (waiting hold stage)) goal) :
    Ends (node, waiting hold stage) goal := by
  obtain ⟨visits, h⟩ := h
  refine ⟨visits + 1, fun more => ?_⟩
  have hawake : isAwake node (waiting hold stage) = false := by
    simp [isAwake, waiting, deadline?, Wait.deadline?, hringing, hclock]
  have hnext : nextTime? node (waiting hold stage) = some (soonest hold.deadline node.link.arrivals) := by
    rw [nextTime?, waiting, deadline?, Wait.deadline?, soonest]
    rcases node.link.arrivals.head? with _ | arrival <;> rfl
  have hgo : goOn (visits + 1 + more) (node, waiting hold stage) = goOn (visits + more)
      (visit (node.advance (soonest hold.deadline node.link.arrivals)).stopAlarm (waiting hold stage)) := by
    rw [show visits + 1 + more = visits + more + 1 by omega, ← finish_succ]
    show (if isAwake node (waiting hold stage) then _ else _) = _
    rw [hawake, hnext]
    rfl
  exact hgo ▸ h more

/-- So it is visited when something arrives, or at its deadline. -/
theorem ends_next {link : Link} {time : Nat} (node : Node) (hringing : link.alarm.ringing = false)
    (hclock : link.clock < hold.deadline) (hsoonest : soonest hold.deadline link.arrivals = time) (hslack : slack < 16)
    (h : Ensues slack (node.heed stage (resume (link.visitedAt time) hold)) goal) :
    Ends ({ node with link }, waiting hold stage) goal := by
  subst hsoonest
  exact ends_idle hringing hclock (ends_visit hslack ((heed_withLink node _ _ _).symm ▸ h))

theorem stopAlarm_idle (h : node.link.alarm = {}) : node.stopAlarm = node := by
  have hstop : node.link.alarm.stop = node.link.alarm := by rw [h]; rfl
  rw [Node.stopAlarm, hstop]

theorem finish_of_ends {thread : Thread} (hidle : node.link.alarm = {}) (h : Ends (visit node thread) goal) :
    ∃ visits, ∀ more, goal (finish (visits + more) node thread) := by
  obtain ⟨visits, h⟩ := h
  refine ⟨visits + 1, fun more => ?_⟩
  rw [show visits + 1 + more = visits + more + 1 by omega, finish_succ, stopAlarm_idle hidle]
  exact h more

/-! ### The writes -/

/-- A write that is held back goes on when its time has come, whatever arrives before. -/
theorem ends_stall {due : Nat} {rule : Modem.Rule} {rest : List Bytes} {expectation : Option Expectation} (node : Node)
    (link : Link) (halarm : link.alarm = {}) (hclock : link.clock < due) (hslack : slack < 16)
    (h : Ensues slack (node.heed stage (proceed expectation ((link.advance due).resumeTransmit rule rest))) goal) :
    Ends ({ node with link }, waiting (.writing due rule rest expectation) stage) goal := by
  induction hn : link.arrivals.length using Nat.strongRecOn generalizing link with
  | _ n ih =>
    have hafter (time : Nat) : (link.advance time).clock = max link.clock time := by
      obtain ⟨alarm, hadvance, -⟩ := advance_eq link time
      exact congrArg Link.clock hadvance
    refine ends_next node (by rw [halarm]) hclock rfl hslack ?_
    rw [visitedAt_idle halarm, resume, hafter, Hold.deadline]
    by_cases hsoon : soonest due link.arrivals = due
    · -- Nothing arrives before.
      rw [hsoon, if_pos (Nat.le_max_right _ _)]
      exact h
    · obtain ⟨-, hlate⟩ | ⟨arrival, others, hlist, hdue, hsoonest⟩ := soonest_cases due link.arrivals
      · exact absurd hlate hsoon
      have hearly : arrival.due < due := Nat.lt_of_le_of_ne hdue (hsoonest ▸ hsoon)
      have hwaits : max link.clock arrival.due < due := Nat.max_lt.mpr ⟨hclock, hearly⟩
      rw [hsoonest, if_neg (Nat.not_le.mpr hwaits)]
      refine ensues_waiting (ih _ ?_ (link.advance arrival.due) (advance_alarm halarm _) ?_ ?_ rfl)
      · obtain ⟨alarm, hadvance, -⟩ := advance_eq link arrival.due
        rw [hadvance, hlist, ← hn, hlist]
        exact length_dropWhile_due arrival others
      · rwa [hafter]
      · rwa [advance_advance halarm hearly.le]

/-- What a request has come to at the end of its writes: with a fault it ends, and else it listens. -/
def concluded (link : Link) (expectation : Option Expectation) (course : Modem.Course) : Link × Progress :=
  match course.fault with
  | some fault => (giveUp (course.apply link) expectation, .finished (.error (.transport fault)))
  | none => listen (course.apply link) expectation

section
variable {link : Link} {expectation : Option Expectation} {part : Bytes} {rule : Modem.Rule} {rules : List Modem.Rule}
  {rest : List Bytes}

theorem concluded_precededBy (course : Modem.Course) (heard : List Arrival) (rules : List Modem.Rule) (clock : Nat)
    (coming : List Arrival) :
    concluded link expectation (course.precededBy heard part) = concluded { link with
      intake := link.intake.feed (bytes heard), rules, clock, arrivals := coming, sent := link.sent ++ [part] }
      expectation course := by
  unfold concluded
  rw [apply_precededBy course heard part rules clock coming]
  rfl

/-- The write of a part that a rule knows, and what follows it, whether the modem holds it back or not. -/
theorem ensues_known (halarm : link.alarm = {}) (hdecide : Modem.decide? part link.rules = some (rule, rules))
    (hslack : slack < 16)
    (h : Ensues slack (node.heed stage (proceed expectation ((link.waited part rule rules).resumeTransmit rule rest)))
      goal) :
    Ensues slack (node.heed stage (proceed expectation (link.transmit (part :: rest)))) goal := by
  let written : Link := { link with sent := link.sent ++ [part], rules }
  rw [Link.transmit, hdecide]
  by_cases hdelay : rule.delay = 0
  · have hwaited : link.waited part rule rules = written := by
      simp [Link.waited, written, hdelay, during, beyond, Arrival.bytes, Intake.feed]
    rw [hwaited] at h
    simp only [hdelay, Nat.lt_irrefl, if_false]
    exact h
  · have hwaited : written.advance (link.clock + rule.delay) = link.waited part rule rules :=
      advance_during (show written.alarm = {} from halarm) hdelay
    rw [← hwaited] at h
    simp only [if_pos (Nat.pos_of_ne_zero hdelay)]
    exact ensues_waiting (ends_stall node written halarm
      (Nat.lt_add_of_pos_right (Nat.pos_of_ne_zero hdelay)) hslack h)

/-- The writes take their course. -/
theorem ensues_writes (node : Node) (link : Link) (halarm : link.alarm = {}) (parts : List Bytes) (hslack : slack < 16)
    (h : Ensues slack (node.heed stage
      (concluded link expectation (Modem.course link.rules link.clock link.arrivals parts))) goal) :
    Ensues slack (node.heed stage (proceed expectation (link.transmit parts))) goal := by
  induction parts generalizing link with
  | nil =>
    have hsame : (Modem.course link.rules link.clock link.arrivals []).apply link = link := by
      simp [Modem.course, Modem.Course.apply, Arrival.bytes, Intake.feed]
    have hlisten : concluded link expectation (Modem.course link.rules link.clock link.arrivals []) =
        listen link expectation := congrArg (listen · expectation) hsame
    rwa [hlisten] at h
  | cons part rest ih =>
    rcases hdecide : Modem.decide? part link.rules with _ | ⟨rule, rules⟩
    · have htransmit : link.transmit (part :: rest) = Link.transmit { link with sent := link.sent ++ [part] } rest := by
        rw [Link.transmit, hdecide]
      rw [course_of_unknown hdecide, concluded_precededBy _ [] link.rules link.clock link.arrivals] at h
      rw [htransmit]
      exact ih { link with sent := link.sent ++ [part] } halarm h
    · refine ensues_known halarm hdecide hslack ?_
      rw [Link.resumeTransmit, obey_waited halarm]
      rcases hfault : rule.fault with _ | fault
      · rw [course_of_obeyed hdecide hfault, concluded_precededBy _ (link.heard rule) rules
          (link.obeyed part rule rules).clock (link.obeyed part rule rules).arrivals] at h
        exact ih (link.obeyed part rule rules) halarm h
      · rwa [course_of_fault hdecide hfault] at h

end
end
end Thread
end SensorLink
