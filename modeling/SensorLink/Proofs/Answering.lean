import SensorLink.Proofs.Closing
import SensorLink.Proofs.Timing

/-! How an exchange ends, for every modem and all that is on its way (`exchange_outcome`). Once all is written, the request
    listens: the link is looked at after each arrival until a line has answered or the time is up. However it closes, the
    next request can follow at once (`ensues_exchange`). -/

namespace SensorLink
open Arrival

/-! ### What an exchange leaves -/

theorem Alarm.unset_set {alarm : Alarm} {event : Event} (h : alarm.unset event = {}) :
    (alarm.set event).unset event = {} := by
  obtain ⟨hsettings, hringing⟩ := unset_eq_iff.mp h
  refine unset_eq_iff.mpr ⟨fun other hother => ?_, hringing⟩
  rcases List.mem_insert_iff.mp hother with heq | hmem
  · exact heq
  · exact hsettings other hmem

theorem buffer_feed (intake : Intake) (bytes : Bytes) : (intake.feed bytes).buffer = (intake.buffer.pushAll bytes).1 := by
  rw [LineSplit.found_eq]

/-- What an exchange leaves when it has closed: no question waits, no alarm is set but for an answer, and nothing else has
    been written. -/
structure Link.Left (link : Link) (close : Modem.Close) (after : Link) : Prop where
  slot : after.intake.slot.isWaiting = false
  alarm : after.alarm.unset .answer = {}
  held : after.held = link.held
  rules : after.rules = link.rules
  sent : after.sent = link.sent
  clock : after.clock = close.time
  buffer : after.intake.buffer = close.buffer
  arrivals : after.arrivals = close.coming

namespace Thread
open Dialogue

section
variable {link : Link} {number : UInt32} {deadline : Nat} {expected : String}

/-! ### Looking for the answer -/

theorem withSlot_self {slot : Slot} (h : link.intake.slot = slot) : link.withSlot slot = link := by
  subst h
  rfl

def collected (number : UInt32) (wakeUp : Option UInt32) : Slot := { generation := number, wakeUp }

theorem resume_answered {answer : String} (h : link.intake.slot = Slot.posed number expected (some answer)) :
    resume link (.listening number deadline) = (link.withSlot (collected number none), .finished (.ok answer)) := by
  have hlook : link.lookAgain number = (link.withSlot (collected number none), some answer) := by
    simp [Link.lookAgain, h, Slot.lookAgain, Slot.posed, Slot.collect, Link.orSetAlarm, collected]
  simp only [resume, hlook]

theorem resume_unanswered (h : link.intake.slot = Slot.posed number expected none) :
    resume link (.listening number deadline) =
      if deadline ≤ link.clock then ((link.setAlarm .answer).forget number, .finished (.error .timeout))
      else (link.setAlarm .answer, .waiting (.listening number deadline)) := by
  have hlook : link.lookAgain number = ((link.withSlot (Slot.posed number expected none)).setAlarm .answer, none) := by
    rw [Link.lookAgain, h]
    rfl
  rw [withSlot_self h] at hlook
  simp only [resume, hlook]
  rfl

theorem listen_answered {answer : String} {timeout : Nat}
    (h : link.intake.slot = Slot.posed number expected (some answer)) :
    listen link (some ⟨number, timeout⟩) = (link.withSlot (collected number (some number)), .finished (.ok answer)) := by
  have hlook : link.look number = (link.withSlot (collected number (some number)), some answer) := by
    simp [Link.look, h, Slot.look, Slot.posed, Slot.collect, Link.orSetAlarm, collected]
  simp only [Dialogue.listen, hlook]

theorem listen_unanswered {timeout : Nat} (h : link.intake.slot = Slot.posed number expected none) :
    listen link (some ⟨number, timeout⟩) =
      (link.setAlarm .answer, .waiting (.listening number (link.clock + timeout))) := by
  have hlook : link.look number = ((link.withSlot (Slot.posed number expected none)).setAlarm .answer, none) := by
    rw [Link.look, h]
    rfl
  rw [withSlot_self h] at hlook
  simp only [Dialogue.listen, hlook]
  rfl

theorem isWaiting_forget (number : UInt32) (expected : String) (answer : Option String) :
    ((Slot.posed number expected answer).forget number).isWaiting = false := by
  simp [Slot.forget, Slot.posed, Slot.isWaiting]

/-! ### Listening -/

theorem posed_visitedAt (h : link.intake.slot = Slot.posed number expected none) (time : Nat) :
    (link.visitedAt time).intake.slot = Slot.posed number expected
      ((link.intake.buffer.completes (bytes (link.arrivals.takeWhile fun arrival => arrival.due ≤ time))).findSome?
        (Intake.answerOf? expected)) := by
  obtain ⟨alarm, hvisited, -⟩ := visitedAt_eq link time
  rw [hvisited]
  exact (feed_posed h _).trans (by rw [Option.none_or])

theorem left_visitedAt (halarm : link.alarm.unset .answer = {}) (time : Nat) {slot : Slot} (hslot : slot.isWaiting = false)
    (result : Result) : link.Left (.upTo link.intake.buffer link.arrivals result (max link.clock time) time)
      ((link.visitedAt time).withSlot slot) := by
  obtain ⟨alarm, hvisited, hsilent⟩ := visitedAt_eq link time
  rw [hvisited]
  exact ⟨hslot, hsilent halarm, rfl, rfl, rfl, rfl, buffer_feed _ _, rfl⟩

theorem left_of_visitedAt {time : Nat} {close : Modem.Close} {after : Link}
    (h : ((link.visitedAt time).setAlarm .answer).Left close after) : link.Left close after := by
  obtain ⟨alarm, hvisited, -⟩ := visitedAt_eq link time
  rw [hvisited] at h
  exact { h with }

/-- A visit without an answer does not change how the question closes. -/
theorem closeBy_visitedAt {arrival : Arrival} {others : List Arrival} (hlist : link.arrivals = arrival :: others)
    (hdue : arrival.due ≤ deadline)
    (h : (link.intake.buffer.completes (bytes ((arrival :: others).takeWhile fun other => other.due ≤ arrival.due))).findSome?
      (Intake.answerOf? expected) = none) :
    Modem.closeBy expected (link.visitedAt arrival.due).intake.buffer (link.visitedAt arrival.due).arrivals
      (link.visitedAt arrival.due).clock deadline =
        Modem.closeBy expected link.intake.buffer link.arrivals link.clock deadline := by
  obtain ⟨alarm, hvisited, -⟩ := visitedAt_eq link arrival.due
  rw [hvisited]
  show Modem.closeBy expected (link.intake.feed _).buffer (link.arrivals.dropWhile _) (max link.clock arrival.due) _ = _
  rw [buffer_feed, hlist]
  exact (Modem.closeBy_of_no_answer hdue h).symm

/-- Without an answer the request ends when it looks after its time is up. -/
theorem left_unanswered (halarm : link.alarm.unset .answer = {}) (hclock : link.clock ≤ deadline)
    (h : (link.visitedAt deadline).intake.slot = Slot.posed number expected none) :
    link.Left (.upTo link.intake.buffer link.arrivals (.error .timeout) deadline deadline)
      (((link.visitedAt deadline).setAlarm .answer).forget number) := by
  have hslot : ((link.visitedAt deadline).intake.slot.forget number).isWaiting = false :=
    h.symm ▸ isWaiting_forget number expected none
  have hleft := left_visitedAt halarm deadline hslot (.error .timeout)
  rw [Nat.max_eq_right hclock] at hleft
  exact { hleft with alarm := Alarm.unset_set hleft.alarm }

variable {stage : Stage} {slack : Nat} {goal : Node × Option Outcome → Prop}

/-- Until the deadline, arrivals at the deadline included, the first line that answers ends the request when it
    completes. -/
theorem ends_listening (node : Node) (link : Link) (hslot : link.intake.slot = Slot.posed number expected none)
    (halarm : link.alarm.unset .answer = {}) (hclock : link.clock < deadline) (hslack : slack < 16)
    (h : let close := Modem.closeBy expected link.intake.buffer link.arrivals link.clock deadline
      ∀ after, link.Left close after → Ensues slack ({ node with link := after }.after stage close.result) goal) :
    Ends ({ node with link }, waiting (.listening number deadline) stage) goal := by
  induction hn : link.arrivals.length using Nat.strongRecOn generalizing link with
  | _ n ih =>
    obtain ⟨hnone, hsoonest⟩ | ⟨arrival, others, hlist, hdue, hsoonest⟩ := soonest_cases deadline link.arrivals <;>
      refine ends_next node (Alarm.unset_eq_iff.mp halarm).2 hclock hsoonest hslack ?_
    · -- Nothing arrives in time.
      have hheard := posed_visitedAt hslot deadline
      obtain ⟨alarm, hvisited, -⟩ := visitedAt_eq link deadline
      rw [hnone] at hheard
      rw [Modem.closeBy_of_silence (by rw [hnone]; rfl)] at h
      rw [resume_unanswered hheard, if_pos (hvisited ▸ Nat.le_max_right _ _)]
      exact h _ (left_unanswered halarm hclock.le hheard)
    · have hheard := posed_visitedAt hslot arrival.due
      obtain ⟨alarm, hvisited, hsilent⟩ := visitedAt_eq link arrival.due
      have hafter : (link.visitedAt arrival.due).clock = max link.clock arrival.due := congrArg Link.clock hvisited
      rw [hlist] at hheard
      rcases hfirst : (link.intake.buffer.completes (bytes ((arrival :: others).takeWhile fun other =>
        other.due ≤ arrival.due))).findSome? (Intake.answerOf? expected) with _ | answer <;> rw [hfirst] at hheard
      · rw [resume_unanswered hheard]
        split
        · -- The time is up, and all that was due has been received.
          rename_i hup
          obtain rfl : arrival.due = deadline := by omega
          rw [hlist, Modem.closeBy_of_silence hfirst, ← hlist] at h
          exact h _ (left_unanswered halarm hclock.le hheard)
        · rename_i hearly
          refine ensues_waiting (ih _ ?_ ((link.visitedAt arrival.due).setAlarm .answer) hheard
            (Alarm.unset_set (hvisited ▸ hsilent halarm)) (Nat.lt_of_not_le hearly) ?_ rfl)
          · show (link.visitedAt arrival.due).arrivals.length < n
            rw [hvisited, hlist, ← hn, hlist]
            exact length_dropWhile_due arrival others
          · intro close last hleft
            have hsame : close = Modem.closeBy expected link.intake.buffer link.arrivals link.clock deadline :=
              closeBy_visitedAt hlist hdue hfirst
            rw [hsame] at hleft ⊢
            exact h last (left_of_visitedAt hleft)
      · rw [hlist, Modem.closeBy_of_answer hdue hfirst, ← hlist] at h
        rw [resume_answered hheard]
        exact h _ (left_visitedAt halarm arrival.due (by rfl) (.ok answer))

end
end Thread

/-! ### The exchange -/

/-- The parts, the expected start of the answer and the time for it, of a call that is one exchange. -/
def Call.exchange? : Call → Option (List Bytes × String × Nat)
  | .sendCommand text expected timeout => some (Dialogue.line text, expected, timeout)
  | .sendRaw data expected timeout => some ([data], expected, timeout)
  | _ => none

namespace Thread
open Dialogue

section
variable {stage : Stage} {slack : Nat} {goal : Node × Option Outcome → Prop} {expected : String} {timeout : Nat}

theorem left_over (course : Modem.Course) {link : Link} (halarm : link.alarm = {}) {slot : Slot}
    (hslot : slot.isWaiting = false) (result : Result) :
    (course.apply link).Left (course.over link.intake.buffer result) ((course.apply link).withSlot slot) :=
  ⟨hslot, congrArg (Alarm.unset · .answer) halarm, rfl, rfl, rfl, rfl, buffer_feed _ _, rfl⟩

/-- Once all is written, or a write has failed, question number `number` closes as its course says. -/
theorem ensues_concluded (node : Node) {link : Link} {number : UInt32} (course : Modem.Course)
    (hslot : link.intake.slot = Slot.posed number expected none) (halarm : link.alarm = {}) (hslack : slack < 16)
    (h : let close := course.close expected link.intake.buffer timeout
      ∀ after, (course.apply link).Left close after →
        Ensues slack ({ node with link := after }.after stage close.result) goal) :
    Ensues slack (node.heed stage (concluded link (some ⟨number, timeout⟩) course)) goal := by
  have hheard : (course.apply link).intake.slot = Slot.posed number expected
      ((answerIn? expected (link.intake.buffer.timed course.heard)).map Prod.snd) := by
    have hfeed := feed_posed hslot (bytes course.heard)
    rwa [Option.none_or, ← LineBuffer.map_timed, ← map_answerIn?] at hfeed
  have hforget : ((course.apply link).intake.slot.forget number).isWaiting = false :=
    hheard.symm ▸ isWaiting_forget number expected _
  rcases hfault : course.fault with _ | fault <;> rw [Modem.Course.close, hfault] at h <;>
    rw [concluded, hfault]
  · rcases hearly : answerIn? expected (link.intake.buffer.timed course.heard) with _ | ⟨time, answer⟩ <;>
      rw [hearly] at hheard h
    · -- No line has answered while the parts were written.
      show Ensues slack (node.heed stage (listen (course.apply link) _)) goal
      rw [listen_unanswered hheard]
      have halarm' : (course.apply link).alarm.unset .answer = {} := congrArg (Alarm.unset · .answer) halarm
      by_cases htimeout : timeout = 0
      · -- The time is up at once.
        subst htimeout
        refine ensues_waiting (ends_due (Nat.le_refl course.ended) (ends_visit hslack ?_))
        let again : Link := { course.apply link with alarm := ((course.apply link).alarm.set .answer).stop }
        have hagain : again.intake.slot = Slot.posed number expected none := hheard
        have hup : course.ended ≤ again.clock := Nat.le_refl _
        show Ensues slack (node.heed stage (resume again (.listening number course.ended))) goal
        rw [resume_unanswered hagain, if_pos hup]
        refine h _ { left_over course halarm hforget (.error .timeout) with alarm := Alarm.unset_set ?_ }
        exact Alarm.unset_eq_iff.mpr ⟨(Alarm.unset_eq_iff.mp (Alarm.unset_set halarm')).1, rfl⟩
      · simp only [if_neg htimeout] at h
        refine ensues_waiting (ends_listening node ((course.apply link).setAlarm .answer) hheard
          (Alarm.unset_set halarm') (Nat.lt_add_of_pos_right (Nat.pos_of_ne_zero htimeout)) hslack ?_)
        intro close last hleft
        have hsame : close = Modem.closeBy expected (link.intake.buffer.pushAll (bytes course.heard)).1 course.coming
            course.ended (course.ended + timeout) := by
          show Modem.closeBy expected (link.intake.feed _).buffer _ _ _ = _
          rw [buffer_feed]
          rfl
        rw [hsame] at hleft ⊢
        exact h last { hleft with }
    · show Ensues slack (node.heed stage (listen (course.apply link) _)) goal
      rw [listen_answered hheard]
      exact h _ (left_over course halarm (show (collected number (some number)).isWaiting = false from rfl) (.ok answer))
  · exact h _ (left_over course halarm hforget (.error (.transport fault)))

/-- A question of a task that holds the modem is an exchange: it closes as its course says, and the task goes on with the
    result. -/
theorem ensues_exchange (node : Node) {parts : List Bytes} (hslot : node.link.intake.slot.isWaiting = false)
    (hfits : expected.utf8ByteSize ≤ Limits.expected) (halarm : node.link.alarm.unset .answer = {}) (hslack : slack < 16)
    (h : let course := Modem.course node.link.rules node.link.clock node.link.arrivals parts
      let close := course.close expected node.link.intake.buffer timeout
      ∀ after, (course.apply node.link).Left close after →
        Ensues slack ({ node with link := after }.after stage close.result) goal) :
    Ensues (slack + 1) (node, .asking (.ask parts expected timeout) stage) goal := by
  let number := node.link.intake.slot.generation + 1
  let asked : Link := { node.link with
    alarm := {}, intake := { node.link.intake with slot := Slot.posed number expected none } }
  have hask : node.link.ask expected = .ok (asked, number) := by
    have hput : node.link.intake.slot.ask expected = .ok (Slot.posed number expected none, number) := by
      simp [Slot.ask, hslot, Nat.not_lt.mpr hfits, Slot.posed, number]
    rw [Link.ask, hput, halarm]
    rfl
  refine ensues_asking ?_
  simp only [Dialogue.start, hask]
  exact ensues_writes node asked rfl parts hslack (ensues_concluded node _ rfl rfl hslack fun after hleft =>
    h after { hleft with })

end

/-- The answer of a call that reports what an exchange comes to. -/
def reportOf : Result → Answer
  | .ok answer => .text answer
  | .error cause => .failed cause

/-- A command or raw data, put by a node whose modem and slot are free, take their course. -/
theorem ends_exchange {node : Node} {call : Call} {parts : List Bytes} {expected : String} {timeout : Nat}
    (hcall : call.exchange? = some (parts, expected, timeout)) (hfree : node.link.held = false)
    (hslot : node.link.intake.slot.isWaiting = false) (hfits : expected.utf8ByteSize ≤ Limits.expected) :
    let course := Modem.course node.link.rules node.link.clock node.link.arrivals parts
    let close := course.close expected node.link.intake.buffer timeout
    Ends (visit node.resetAlarm (.start call)) fun last =>
      last.2 = some (.answer (reportOf close.result)) ∧ last.1.link.clock = close.time ∧
        last.1.link.sent = node.link.sent ++ course.written := by
  intro course close
  have hstart : call.start node.resetAlarm = (node.resetAlarm, .talk (.ask parts expected timeout) .text) := by
    unfold Call.exchange? at hcall
    split at hcall <;> cases hcall <;> rfl
  refine ends_start hstart (show 2 ≤ 16 by decide) (ensues_talk hfree
    (ensues_exchange node.resetAlarm.acquire hslot hfits rfl (by decide) fun after hleft => ensues_finished ?_))
  exact ⟨rfl, hleft.clock, hleft.sent⟩

end Thread

/-! ### What the line buffer holds -/

theorem buffer_noteClosed (node : Node) : node.noteClosed.1.link.intake.buffer = node.link.intake.buffer := by
  rw [Node.noteClosed_eq]
  rfl

/-- A step that takes note of reports leaves the line buffer as it is, and one that forgets what has been received
    empties it. -/
theorem buffer_settled {task : Task} (h : task.awaken.settles) (node : Node) :
    (node.step task.awaken).1.link.intake.buffer = node.link.intake.buffer ∨
      (node.step task.awaken).1.link.intake.buffer = {} := by
  cases task with
  | finished answer => cases h
  | asking request stage =>
    cases request with
    | clear => exact .inr (congrArg Intake.buffer (after_intake { node with link := node.link.clear } stage (.ok "")))
    | _ => cases h
  | parked wait | checking wait =>
    cases wait with
    | closed =>
      have hbuffer := buffer_noteClosed node
      simp only [Task.awaken, Node.step, Node.check]
      rcases hnoted : node.noteClosed with ⟨noted, _ | _⟩ <;> rw [hnoted] at hbuffer <;> exact .inl hbuffer
    | _ => cases h

namespace Crowd
variable {crowd : Crowd}

theorem fits_next (h : crowd.node.link.intake.buffer.held.length ≤ Limits.line) (move : Move) :
    (crowd.next move).node.link.intake.buffer.held.length ≤ Limits.line := by
  cases hsettles : crowd.settles move with
  | false => exact (receives_next hsettles).buffer ▸ (LineBuffer.pushAll_fits h _).1
  | true =>
    cases move with
    | start call =>
      cases call with
      | noteClosed =>
        show crowd.node.noteClosed.1.link.intake.buffer.held.length ≤ _
        rwa [buffer_noteClosed]
      | takeClosed => exact h
      | _ => cases hsettles
    | step i =>
      cases htask : crowd.task? i with
      | none => simp [settles, htask] at hsettles
      | some task =>
        rw [next_step htask]
        rcases buffer_settled (by simpa [settles, htask] using hsettles) crowd.node with hbuffer | hbuffer
        · exact hbuffer ▸ h
        · exact hbuffer ▸ Nat.zero_le _
    | drop i | advance time => cases hsettles

/-- The line buffer never holds more than a line, whatever happens to the node. -/
theorem fits_run (h : crowd.node.link.intake.buffer.held.length ≤ Limits.line) (moves : List Move) :
    (crowd.run moves).node.link.intake.buffer.held.length ≤ Limits.line := by
  induction moves generalizing crowd with
  | nil => exact h
  | cons move moves ih => exact ih (fits_next h move)

end Crowd

/-! ### The exchange as a session -/

/-- The session's thread has come to an answer at a time. -/
def Session.Record.Ends (record : Session.Record) (answer : Answer) (time : Nat) : Prop :=
  record.outcome = some (.answer answer) ∧ record.node.link.clock = time

/-- An exchange ends after finitely many visits, as its course closes. -/
theorem exchange_closes {node : Node} {call : Call} {parts : List Bytes} {expected : String} {timeout : Nat}
    (hcall : call.exchange? = some (parts, expected, timeout)) (hfree : node.link.held = false)
    (hslot : node.link.intake.slot.isWaiting = false) (hfits : expected.utf8ByteSize ≤ Limits.expected)
    (hbuffer : node.link.intake.buffer.held.length ≤ Limits.line) :
    let course := Modem.course node.link.rules node.link.clock node.link.arrivals parts
    let close := course.close expected node.link.intake.buffer timeout
    course.Closes expected (course.lines node.link.intake.buffer timeout) timeout close ∧ ∃ visits, ∀ more,
      let record := Session.record (visits + more) node (.start call)
      record.sent = course.written ∧ record.Ends (Thread.reportOf close.result) close.time := by
  intro course close
  obtain ⟨visits, hends⟩ := Thread.finish_of_ends rfl (Thread.ends_exchange hcall hfree hslot hfits)
  refine ⟨Modem.Course.close_closes hbuffer fun receipt hreceipt => ((Modem.course_within _ _ _ parts).2 receipt hreceipt).2,
    visits, fun more => ?_⟩
  obtain ⟨houtcome, hclock, hsent⟩ := hends more
  exact ⟨(congrArg (·.drop node.link.sent.length) hsent).trans (List.drop_left ..), houtcome, hclock⟩

/-- Whatever the modem does and whatever is on its way, a command or raw data of a node whose modem and slot are free ends
    after finitely many visits, as follows. The parts are written in their order up to one whose write fails, and then the
    call ends with that fault at that time. If none fails, the first line that answers, of those that complete from the
    question on until the time after the last write is up, is the answer, at the end of the writes or when it completes,
    whichever is later. Without such a line, the call times out when the time is up.

    The lines are those of what is received up to the end of the writes and of all that is due when the time is up. Only
    what is overdue when the writes end is received as soon as time passes, and a timeout of zero lets none pass
    (`exchange_without_time`). That the line buffer holds no more than a line is so in every node (`Crowd.fits_run`). -/
theorem exchange_outcome (node : Node) (call : Call) {parts : List Bytes} {expected : String} {timeout : Nat}
    (hcall : call.exchange? = some (parts, expected, timeout)) (hfree : node.link.held = false)
    (hslot : node.link.intake.slot.isWaiting = false) (hfits : expected.utf8ByteSize ≤ Limits.expected)
    (hbuffer : node.link.intake.buffer.held.length ≤ Limits.line) :
    let course := Modem.course node.link.rules node.link.clock node.link.arrivals parts
    let lines := course.lines node.link.intake.buffer timeout
    (∀ line ∈ lines, node.link.clock ≤ line.1 ∧ line.1 ≤ course.ended + timeout) ∧
    ((timeout = 0 → ∀ arrival ∈ course.coming, course.ended < arrival.due) →
      lines = node.link.intake.buffer.timed (course.heard ++ receipts course.ended
        (course.coming.takeWhile fun arrival => arrival.due ≤ course.ended + timeout))) ∧
    ∃ visits, ∀ more,
      let record := Session.record (visits + more) node (.start call)
      record.sent = course.written ∧ course.written <+: parts ∧
      (∀ fault, course.fault = some fault → record.Ends (.failed (.transport fault)) course.ended) ∧
      (course.fault = none → course.written = parts ∧
        (∀ before time line after answer, lines = before ++ (time, line) :: after → Answers expected line answer →
          (∀ earlier ∈ before, ∀ other, ¬Answers expected earlier.2 other) →
          record.Ends (.text answer) (max course.ended time)) ∧
        ((∀ line ∈ lines, ∀ answer, ¬Answers expected line.2 answer) →
          record.Ends (.failed .timeout) (course.ended + timeout))) := by
  intro course lines
  obtain ⟨hclose, visits, hends⟩ := exchange_closes hcall hfree hslot hfits hbuffer
  obtain ⟨hwhole, hwritten⟩ := Modem.course_written node.link.rules node.link.clock node.link.arrivals parts
  refine ⟨Modem.Course.lines_within _ _ _ parts _ timeout, fun hdue => by
    rw [← during_eq hdue]
    rfl, visits, fun more => ?_⟩
  intro record
  obtain ⟨hsent, hended⟩ := hends more
  have hrecord {result : Dialogue.Result} {time : Nat}
      (h : (course.close expected node.link.intake.buffer timeout).result = result ∧
        (course.close expected node.link.intake.buffer timeout).time = time) :
      record.Ends (Thread.reportOf result) time := by
    obtain ⟨rfl, rfl⟩ := h
    exact hended
  exact ⟨hsent, hwhole, fun fault hfault => hrecord (hclose.fault fault hfault),
    fun hfault => ⟨hwritten hfault, fun before time line after answer hsplit hanswer hfirst =>
      hrecord (hclose.answer hfault before time line after answer hsplit hanswer hfirst),
      fun hnone => hrecord (hclose.silence hfault hnone)⟩⟩

/-- Half a line waits in the buffer. The modem holds the command back until 5, and at 8, when the line end has long been
    written, it ends that line and answers with the next. -/
theorem exchange_outcome_of_held_back_command :
    let start : Node := { table := { capacity := 1 }, depth := 1, link := { rules := [
      { trigger := Text.encode "AT", delay := 5, replies := [⟨3, Text.encode "\r\nOK\r\n"⟩] }] } }
    let node := (Crowd.run { node := start } [.start (.feed (Text.encode "+IP"))]).node
    let record (visits : Nat) := Session.record visits node (.start (.sendCommand "AT" "OK" 10))
    ∃ visits, ∀ more, (record (visits + more)).sent = Dialogue.line "AT" ∧ (record (visits + more)).Ends (.text "") 8 := by
  intro start node record
  have hbuffer : node.link.intake.buffer.held.length ≤ Limits.line :=
    Crowd.fits_run (show start.link.intake.buffer.held.length ≤ Limits.line by decide) _
  obtain ⟨-, -, visits, houtcome⟩ :=
    exchange_outcome node (.sendCommand "AT" "OK" 10) rfl rfl rfl (by decide) hbuffer
  refine ⟨visits, fun more => ?_⟩
  obtain ⟨hsent, -, -, hanswer⟩ := houtcome more
  obtain ⟨hwritten, hfirst, -⟩ := hanswer rfl
  have hanswers : Answers "OK" (Text.encode "OK") "" := by decide +kernel
  have hearlier : ∀ earlier ∈ [(8, Text.encode "+IP")], ∀ other, ¬Answers "OK" earlier.2 other := by
    intro earlier hearlier other hother
    rw [List.mem_singleton.mp hearlier] at hother
    have hprefix : Text.encode "OK" <+: Text.encode "+IP" := ⟨_, hother.2.2.symm⟩
    exact absurd hprefix (by decide +kernel)
  exact ⟨hsent.trans hwritten,
    hfirst [(8, Text.encode "+IP")] 8 (Text.encode "OK") [] "" (by decide +kernel) hanswers hearlier⟩

/-- If no time is given, only what is received while the parts are written can answer, even if more is overdue by then, and
    the call is at its end as soon as the writes are. -/
theorem exchange_without_time {node : Node} {call : Call} {parts : List Bytes} {expected : String}
    (hcall : call.exchange? = some (parts, expected, 0)) (hfree : node.link.held = false)
    (hslot : node.link.intake.slot.isWaiting = false) (hfits : expected.utf8ByteSize ≤ Limits.expected)
    (hbuffer : node.link.intake.buffer.held.length ≤ Limits.line) :
    let course := Modem.course node.link.rules node.link.clock node.link.arrivals parts
    let lines := node.link.intake.buffer.timed course.heard
    ∃ visits, ∀ more,
      let record := Session.record (visits + more) node (.start call)
      record.sent = course.written ∧ (course.fault = none →
        (∀ before line after answer, lines = before ++ line :: after → Answers expected line.2 answer →
          (∀ earlier ∈ before, ∀ other, ¬Answers expected earlier.2 other) → record.Ends (.text answer) course.ended) ∧
        ((∀ line ∈ lines, ∀ answer, ¬Answers expected line.2 answer) → record.Ends (.failed .timeout) course.ended)) := by
  intro course lines
  have hlines : course.lines node.link.intake.buffer 0 = lines := congrArg _ (List.append_nil _)
  have hwithin : ∀ line ∈ lines, line.1 ≤ course.ended := fun line hline =>
    (Modem.Course.lines_within _ _ _ parts _ 0 line (hlines ▸ hline)).2
  obtain ⟨hclose, visits, hends⟩ := exchange_closes hcall hfree hslot hfits hbuffer
  rw [hlines] at hclose
  refine ⟨visits, fun more => ⟨(hends more).1, fun hfault => ⟨fun before line after answer hsplit hanswer hfirst => ?_,
    fun hnone => ?_⟩⟩⟩
  · obtain ⟨hresult, htime⟩ := hclose.answer hfault before line.1 line.2 after answer hsplit hanswer hfirst
    have hended := (hends more).2
    rw [hresult, htime, Nat.max_eq_left (hwithin line (by simp [hsplit]))] at hended
    exact hended
  · obtain ⟨hresult, htime⟩ := hclose.silence hfault hnone
    have hended := (hends more).2
    rw [hresult, htime] at hended
    exact hended

end SensorLink
