import SensorLink.Proofs.Course

/-! How an exchange closes, without the node: with which result and when, and what it leaves to the next one. A question
    listens until a line answers or its time is up (`Modem.closeBy`), and what is due later stays on its way. It is
    answered exactly if a line that completes in time answers it (`Modem.Course.Closes.ok_iff`). -/

namespace SensorLink
open Arrival

/-! ### What arrives at one time -/

/-- What is received up to the first arrival's time is received at that time. -/
theorem receipts_at_once (clock : Nat) {arrival : Arrival} {others : List Arrival}
    (h : ∀ other ∈ others, other.due ≤ arrival.due) :
    ∀ receipt ∈ receipts clock (arrival :: others), receipt.due = max clock arrival.due := by
  have hothers := receipts_within (Nat.le_refl (max clock arrival.due)) fun other hother =>
    (h other hother).trans (Nat.le_max_right _ _)
  refine List.forall_mem_cons.mpr ⟨rfl, fun receipt hreceipt => ?_⟩
  have hwithin := hothers receipt hreceipt
  exact Nat.le_antisymm hwithin.2 hwithin.1

theorem receipts_append (clock : Nat) {arrival : Arrival} {others : List Arrival}
    (h : ∀ other ∈ others, other.due ≤ arrival.due) (later : List Arrival) :
    receipts clock (arrival :: others ++ later) =
      receipts clock (arrival :: others) ++ receipts (max clock arrival.due) later := by
  have hrest {time : Nat} (htime : arrival.due ≤ time) :
      receipts time (others ++ later) = receipts time others ++ receipts time later := by
    induction others with
    | nil => rfl
    | cons other others ih =>
      rw [List.forall_mem_cons] at h
      have hmax : max time other.due = time := Nat.max_eq_left (h.1.trans htime)
      rw [List.cons_append, receipts, receipts, hmax, ih h.2, List.cons_append]
  rw [List.cons_append, receipts, hrest (Nat.le_max_right _ _), receipts, List.cons_append]

/-- The clock matters only to what is overdue. -/
theorem receipts_max (clock base : Nat) (arrivals : List Arrival) : receipts (max clock base) arrivals =
    (receipts base arrivals).map fun receipt => ⟨max clock receipt.due, receipt.data⟩ := by
  induction arrivals generalizing base with
  | nil => rfl
  | cons arrival rest ih => rw [receipts, receipts, List.map_cons, Nat.max_assoc, ih]

theorem timed_map (buffer : LineBuffer) (delayed : Nat → Nat) (arrivals : List Arrival) :
    buffer.timed (arrivals.map fun arrival => ⟨delayed arrival.due, arrival.data⟩) =
      (buffer.timed arrivals).map fun line => (delayed line.1, line.2) := by
  induction arrivals generalizing buffer with
  | nil => rfl
  | cons arrival rest ih => simp [LineBuffer.timed, ih]

theorem answerIn?_map (expected : String) (delayed : Nat → Nat) (lines : List (Nat × Bytes)) :
    answerIn? expected (lines.map fun line => (delayed line.1, line.2)) =
      (answerIn? expected lines).map fun found => (delayed found.1, found.2) := by
  induction lines with
  | nil => rfl
  | cons line rest ih =>
    rw [List.map_cons, answerIn?, List.findSome?_cons, answerIn?, List.findSome?_cons]
    rcases Intake.answerOf? expected line.2 with _ | answer
    · exact ih
    · rfl

/-- When an answer is due does not depend on the clock, but only when it is received. -/
theorem answerIn?_receipts (buffer : LineBuffer) (expected : String) (clock : Nat) (arrivals : List Arrival) :
    answerIn? expected (buffer.timed (receipts clock arrivals)) =
      (answerIn? expected (buffer.timed (receipts 0 arrivals))).map fun found => (max clock found.1, found.2) := by
  have hreceipts := receipts_max clock 0 arrivals
  rw [Nat.max_zero] at hreceipts
  rw [hreceipts, timed_map, answerIn?_map]

/-- What is due later is never overdue. -/
theorem receipts_dropWhile (time : Nat) (p : Arrival → Bool) (arrivals : List Arrival) :
    receipts time ((arrivals.dropWhile fun arrival => arrival.due ≤ time).takeWhile p) =
      receipts 0 ((arrivals.dropWhile fun arrival => arrival.due ≤ time).takeWhile p) := by
  have hhead := List.head?_dropWhile_not (fun arrival : Arrival => decide (arrival.due ≤ time)) arrivals
  generalize (arrivals.dropWhile fun arrival => decide (arrival.due ≤ time)) = left at hhead ⊢
  rcases left with _ | ⟨arrival, rest⟩
  · rfl
  · have hlate : time < arrival.due := by simpa using hhead
    rw [List.takeWhile_cons]
    split
    · rw [receipts, receipts, Nat.max_eq_right hlate.le, Nat.zero_max]
    · rfl

theorem answerIn?_at_once {buffer : LineBuffer} {expected : String} {received : List Arrival} {time : Nat}
    (h : ∀ receipt ∈ received, receipt.due = time) : answerIn? expected (buffer.timed received) =
      ((buffer.completes (bytes received)).findSome? (Intake.answerOf? expected)).map (time, ·) := by
  have hanswer := map_answerIn? expected (buffer.timed received)
  rw [LineBuffer.map_timed] at hanswer
  rw [← hanswer]
  rcases hfirst : answerIn? expected (buffer.timed received) with _ | ⟨time', answer⟩
  · rfl
  · obtain ⟨line, hline, rfl⟩ := mem_of_answerIn? hfirst
    obtain ⟨receipt, hreceipt, hdue⟩ := LineBuffer.exists_receipt hline
    rw [← hdue, h receipt hreceipt]
    rfl

/-! ### Listening -/

namespace Modem

/-- What an exchange leaves when it is over. -/
structure Close where
  result : Dialogue.Result
  time : Nat
  /-- The line that is being received then. -/
  buffer : LineBuffer
  /-- What is still on its way then. -/
  coming : List Arrival

section
variable (expected : String) (buffer : LineBuffer) (coming : List Arrival)

/-- An exchange is over when all has been received that is due until some time. -/
def Close.upTo (result : Dialogue.Result) (time due : Nat) : Close where
  result
  time
  buffer := (buffer.pushAll (bytes (coming.takeWhile fun arrival => arrival.due ≤ due))).1
  coming := coming.dropWhile fun arrival => arrival.due ≤ due

/-- How a question closes that listens from `clock` until the deadline, arrivals at the deadline included. An overdue
    answer is received at once. -/
def closeBy (clock deadline : Nat) : Close :=
  match answerIn? expected (buffer.timed (receipts 0 (coming.takeWhile fun arrival => arrival.due ≤ deadline))) with
  | some (due, answer) => .upTo buffer coming (.ok answer) (max clock due) due
  | none => .upTo buffer coming (.error .timeout) deadline deadline

def Course.over (course : Course) (buffer : LineBuffer) (result : Dialogue.Result) : Close :=
  ⟨result, course.ended, (buffer.pushAll (bytes course.heard)).1, course.coming⟩

/-- How an exchange closes whose writes take this course. -/
def Course.close (course : Course) (expected : String) (buffer : LineBuffer) (timeout : Nat) : Close :=
  match course.fault, answerIn? expected (buffer.timed course.heard) with
  | some fault, _ => course.over buffer (.error (.transport fault))
  | none, some (_, answer) => course.over buffer (.ok answer)
  | none, none =>
    if timeout = 0 then course.over buffer (.error .timeout)
    else closeBy expected (buffer.pushAll (bytes course.heard)).1 course.coming course.ended (course.ended + timeout)

end

section
variable {expected : String} {buffer : LineBuffer} {coming : List Arrival} {clock deadline : Nat}

theorem upTo_upTo {first due : Nat} (h : first ≤ due) (result : Dialogue.Result) (time : Nat) :
    Close.upTo (Close.upTo buffer coming result time first).buffer (Close.upTo buffer coming result time first).coming
      result time due = Close.upTo buffer coming result time due := by
  simp only [Close.upTo]
  rw [dropWhile_due_dropWhile h, takeWhile_due_append h coming, bytes_append, LineBuffer.pushAll_append]

theorem closeBy_of_silence (h : (buffer.completes (bytes (coming.takeWhile fun arrival => arrival.due ≤ deadline))).findSome?
    (Intake.answerOf? expected) = none) :
    closeBy expected buffer coming clock deadline = .upTo buffer coming (.error .timeout) deadline deadline := by
  have hnone : answerIn? expected
      (buffer.timed (receipts 0 (coming.takeWhile fun arrival => arrival.due ≤ deadline))) = none := by
    rwa [← Option.map_eq_none_iff (f := Prod.snd), map_answerIn?, LineBuffer.map_timed, bytes_receipts]
  rw [closeBy, hnone]

/-- What answers with the first arrivals comes before what answers later. -/
theorem answerIn?_soonest (expected : String) (buffer : LineBuffer) {arrival : Arrival} (others : List Arrival)
    (hdue : arrival.due ≤ deadline) :
    let chunk := (arrival :: others).takeWhile fun other => other.due ≤ arrival.due
    answerIn? expected (buffer.timed (receipts 0 ((arrival :: others).takeWhile fun other => other.due ≤ deadline))) =
      (((buffer.completes (bytes chunk)).findSome? (Intake.answerOf? expected)).map (arrival.due, ·)).or
        (answerIn? expected ((buffer.pushAll (bytes chunk)).1.timed (receipts arrival.due
          (((arrival :: others).dropWhile fun other => other.due ≤ arrival.due).takeWhile fun other =>
            other.due ≤ deadline)))) := by
  intro chunk
  have hchunk : chunk = arrival :: others.takeWhile fun other => other.due ≤ arrival.due :=
    List.takeWhile_cons_of_pos (by simp)
  have hothers : ∀ other ∈ others.takeWhile fun other => other.due ≤ arrival.due, other.due ≤ arrival.due :=
    fun other hother => by simpa using List.mem_takeWhile_imp hother
  have hclock : max 0 arrival.due = arrival.due := Nat.zero_max _
  have honce : ∀ receipt ∈ receipts 0 chunk, receipt.due = arrival.due := by
    have hreceipts := receipts_at_once 0 hothers
    rwa [hclock, ← hchunk] at hreceipts
  have happend (later : List Arrival) : receipts 0 (chunk ++ later) = receipts 0 chunk ++ receipts arrival.due later := by
    have hreceipts := receipts_append 0 hothers later
    rwa [hclock, ← hchunk] at hreceipts
  rw [takeWhile_due_append hdue (arrival :: others)]
  show answerIn? expected (buffer.timed (receipts 0 (chunk ++ _))) = _
  rw [happend, LineBuffer.timed_append, answerIn?_append, answerIn?_at_once honce, bytes_receipts]

section
variable {arrival : Arrival} {others : List Arrival} (hdue : arrival.due ≤ deadline)
include hdue

theorem closeBy_of_answer {answer : String}
    (h : (buffer.completes (bytes ((arrival :: others).takeWhile fun other => other.due ≤ arrival.due))).findSome?
      (Intake.answerOf? expected) = some answer) :
    closeBy expected buffer (arrival :: others) clock deadline =
      .upTo buffer (arrival :: others) (.ok answer) (max clock arrival.due) arrival.due := by
  have hsoonest := answerIn?_soonest expected buffer others hdue
  dsimp only at hsoonest
  rw [h, Option.map_some, Option.some_or] at hsoonest
  rw [closeBy, hsoonest]

theorem closeBy_of_no_answer
    (h : (buffer.completes (bytes ((arrival :: others).takeWhile fun other => other.due ≤ arrival.due))).findSome?
      (Intake.answerOf? expected) = none) :
    closeBy expected buffer (arrival :: others) clock deadline =
      closeBy expected (buffer.pushAll (bytes ((arrival :: others).takeWhile fun other => other.due ≤ arrival.due))).1
        ((arrival :: others).dropWhile fun other => other.due ≤ arrival.due) (max clock arrival.due) deadline := by
  have hsoonest := answerIn?_soonest expected buffer others hdue
  dsimp only at hsoonest
  rw [h, Option.map_none, Option.none_or] at hsoonest
  rw [closeBy, hsoonest, closeBy, ← receipts_dropWhile]
  rcases hfound : answerIn? expected _ with _ | ⟨due, answer⟩
  · exact (upTo_upTo hdue (.error .timeout) deadline).symm
  · obtain ⟨line, hline, rfl⟩ := mem_of_answerIn? hfound
    obtain ⟨receipt, hreceipt, hreceived⟩ := LineBuffer.exists_receipt hline
    have hwithin := receipts_within hdue (fun other hother => by simpa using List.mem_takeWhile_imp hother)
      receipt hreceipt
    have hlate : arrival.due ≤ line.1 := hreceived ▸ hwithin.1
    simp only [Nat.max_assoc, Nat.max_eq_right hlate]
    exact (upTo_upTo hlate (.ok answer) (max clock line.1)).symm
end
end

/-! ### The lines of an exchange -/

namespace Course

/-- The lines that complete from the question on until the time for its answer is up. -/
def lines (course : Course) (buffer : LineBuffer) (timeout : Nat) : List (Nat × Bytes) :=
  buffer.timed (course.heard ++ during course.ended timeout course.coming)

theorem lines_within (rules : List Rule) (clock : Nat) (coming : List Arrival) (parts : List Bytes)
    (buffer : LineBuffer) (timeout : Nat) : ∀ line ∈ (course rules clock coming parts).lines buffer timeout,
      clock ≤ line.1 ∧ line.1 ≤ (course rules clock coming parts).ended + timeout := by
  obtain ⟨hended, hheard⟩ := course_within rules clock coming parts
  intro line hline
  obtain ⟨receipt, hreceipt, hdue⟩ := LineBuffer.exists_receipt hline
  rw [← hdue]
  rcases List.mem_append.mp hreceipt with hreceipt | hreceipt
  · exact ⟨(hheard receipt hreceipt).1, (hheard receipt hreceipt).2.trans (Nat.le_add_right _ _)⟩
  · have hlater := during_within _ timeout _ receipt hreceipt
    exact ⟨hended.trans hlater.1, hlater.2⟩

variable {course : Course} {expected : String} {buffer : LineBuffer} {timeout : Nat}

theorem close_of_fault {fault : Fault} (h : course.fault = some fault) :
    (course.close expected buffer timeout).result = .error (.transport fault) ∧
      (course.close expected buffer timeout).time = course.ended := by
  rw [close, h]
  exact ⟨rfl, rfl⟩

section
variable (hfault : course.fault = none)
include hfault

theorem close_of_answer (hwithin : ∀ receipt ∈ course.heard, receipt.due ≤ course.ended) {time : Nat} {answer : String}
    (h : answerIn? expected (course.lines buffer timeout) = some (time, answer)) :
    (course.close expected buffer timeout).result = .ok answer ∧
      (course.close expected buffer timeout).time = max course.ended time := by
  rw [lines, LineBuffer.timed_append, answerIn?_append] at h
  rw [close, hfault]
  rcases hearly : answerIn? expected (buffer.timed course.heard) with _ | ⟨time', answer'⟩
  · -- The question listens for the line that answers it.
    rw [hearly, Option.none_or, during] at h
    by_cases htimeout : timeout = 0
    · rw [if_pos htimeout] at h
      cases h
    · rw [if_neg htimeout, answerIn?_receipts] at h
      obtain ⟨⟨due, answer⟩, hlate, hfound⟩ := Option.map_eq_some_iff.mp h
      cases hfound
      simp only [if_neg htimeout]
      rw [closeBy, hlate, ← Nat.max_assoc, Nat.max_self]
      exact ⟨rfl, rfl⟩
  · rw [hearly, Option.some_or] at h
    cases h
    obtain ⟨line, hline, rfl⟩ := mem_of_answerIn? hearly
    obtain ⟨receipt, hreceipt, hdue⟩ := LineBuffer.exists_receipt hline
    exact ⟨rfl, (Nat.max_eq_left (hdue ▸ hwithin receipt hreceipt)).symm⟩

theorem close_of_silence (h : answerIn? expected (course.lines buffer timeout) = none) :
    (course.close expected buffer timeout).result = .error .timeout ∧
      (course.close expected buffer timeout).time = course.ended + timeout := by
  rw [lines, LineBuffer.timed_append, answerIn?_append, Option.or_eq_none_iff] at h
  obtain ⟨hearly, hlate⟩ := h
  rw [close, hfault, hearly]
  by_cases htimeout : timeout = 0
  · subst htimeout
    exact ⟨rfl, rfl⟩
  · rw [during, if_neg htimeout, answerIn?_receipts, Option.map_eq_none_iff] at hlate
    simp only [if_neg htimeout]
    rw [closeBy, hlate]
    exact ⟨rfl, rfl⟩

end

/-- What an exchange comes to, by its lines: a fault ends it with the writes, and else the first line that answers, or the
    end of its time. -/
structure Closes (course : Course) (expected : String) (lines : List (Nat × Bytes)) (timeout : Nat) (close : Close) :
    Prop where
  fault : ∀ fault, course.fault = some fault → close.result = .error (.transport fault) ∧ close.time = course.ended
  answer : course.fault = none → ∀ before time line after answer, lines = before ++ (time, line) :: after →
    Answers expected line answer → (∀ earlier ∈ before, ∀ other, ¬Answers expected earlier.2 other) →
    close.result = .ok answer ∧ close.time = max course.ended time
  silence : course.fault = none → (∀ line ∈ lines, ∀ answer, ¬Answers expected line.2 answer) →
    close.result = .error .timeout ∧ close.time = course.ended + timeout

theorem exists_first {lines : List (Nat × Bytes)} (h : ∃ line ∈ lines, ∃ answer, Answers expected line.2 answer) :
    ∃ before time line after answer, lines = before ++ (time, line) :: after ∧ Answers expected line answer ∧
      ∀ earlier ∈ before, ∀ other, ¬Answers expected earlier.2 other := by
  induction lines with
  | nil =>
    obtain ⟨line, hline, -⟩ := h
    cases hline
  | cons line rest ih =>
    by_cases hfirst : ∃ answer, Answers expected line.2 answer
    · obtain ⟨answer, hanswer⟩ := hfirst
      exact ⟨[], line.1, line.2, rest, answer, rfl, hanswer, nofun⟩
    · obtain ⟨other, hother, hanswer⟩ := h
      have hrest : other ∈ rest := (List.mem_cons.mp hother).resolve_left fun heq => hfirst (heq ▸ hanswer)
      obtain ⟨before, time, found, after, answer, rfl, hfound, hbefore⟩ := ih ⟨other, hrest, hanswer⟩
      exact ⟨line :: before, time, found, after, answer, rfl, hfound,
        List.forall_mem_cons.mpr ⟨not_exists.mp hfirst, hbefore⟩⟩

/-- All was written, and a line that completes in time answers. -/
def Answered (course : Course) (expected : String) (lines : List (Nat × Bytes)) : Prop :=
  course.fault = none ∧ ∃ line ∈ lines, ∃ answer, Answers expected line.2 answer

theorem Closes.ok_iff {lines : List (Nat × Bytes)} {close : Close} (h : course.Closes expected lines timeout close) :
    (∃ answer, close.result = .ok answer) ↔ course.Answered expected lines := by
  constructor
  · rintro ⟨answer, hanswer⟩
    have hfault : course.fault = none := by
      refine Option.eq_none_iff_forall_ne_some.mpr fun fault hfault => ?_
      cases hanswer.symm.trans (h.fault fault hfault).1
    refine ⟨hfault, ?_⟩
    by_contra hnone
    simp only [not_exists, not_and] at hnone
    cases hanswer.symm.trans (h.silence hfault hnone).1
  · rintro ⟨hfault, hlines⟩
    obtain ⟨before, time, line, after, answer, hsplit, hanswer, hbefore⟩ := exists_first hlines
    exact ⟨answer, (h.answer hfault before time line after answer hsplit hanswer hbefore).1⟩

theorem close_closes (hbuffer : buffer.held.length ≤ Limits.line)
    (hwithin : ∀ receipt ∈ course.heard, receipt.due ≤ course.ended) :
    course.Closes expected (course.lines buffer timeout) timeout (course.close expected buffer timeout) := by
  have hlines : ∀ line ∈ course.lines buffer timeout, line.2.length ≤ Limits.line := LineBuffer.timed_fits hbuffer _
  exact ⟨fun _ hfault => close_of_fault hfault,
    fun hfault _ _ _ _ _ hsplit hanswer hfirst =>
      close_of_answer hfault hwithin (answerIn?_of_first hlines hsplit hanswer hfirst),
    fun hfault hnone => close_of_silence hfault (answerIn?_eq_none hlines hnone)⟩

end Course

/-! ### The line buffer -/

theorem upTo_fits {buffer : LineBuffer} (h : buffer.held.length ≤ Limits.line) (coming : List Arrival)
    (result : Dialogue.Result) (time due : Nat) :
    (Close.upTo buffer coming result time due).buffer.held.length ≤ Limits.line :=
  (LineBuffer.pushAll_fits h _).1

/-- No exchange leaves more than a line in the buffer. -/
theorem Course.close_fits {buffer : LineBuffer} (h : buffer.held.length ≤ Limits.line) (course : Course)
    (expected : String) (timeout : Nat) : (course.close expected buffer timeout).buffer.held.length ≤ Limits.line := by
  have hheard := (LineBuffer.pushAll_fits h (bytes course.heard)).1
  unfold close closeBy
  split
  · exact hheard
  · exact hheard
  · split
    · exact hheard
    · split <;> exact upTo_fits hheard _ _ _ _

/-! ### Exchanges -/

/-- The course of the writes, the lines that may answer, and how it closes. -/
structure Exchange where
  course : Course
  lines : List (Nat × Bytes)
  close : Close

/-- The exchange that writes the parts from `clock` on and waits so long for a line that starts with `expected`. -/
def exchange (rules : List Rule) (clock : Nat) (buffer : LineBuffer) (coming : List Arrival) (parts : List Bytes)
    (expected : String) (timeout : Nat) : Exchange :=
  let course := course rules clock coming parts
  { course, lines := course.lines buffer timeout, close := course.close expected buffer timeout }

namespace Exchange

/-- What an exchange does that begins at `clock`: it writes its parts in their order, all of them if no write fails, and
    closes by the lines that complete in its time. -/
structure Sound (exchange : Exchange) (clock : Nat) (parts : List Bytes) (expected : String) (timeout : Nat) : Prop where
  written : exchange.course.written <+: parts
  whole : exchange.course.fault = none → exchange.course.written = parts
  within : ∀ line ∈ exchange.lines, clock ≤ line.1 ∧ line.1 ≤ exchange.course.ended + timeout
  closes : exchange.course.Closes expected exchange.lines timeout exchange.close

def Answered (exchange : Exchange) (expected : String) : Prop := exchange.course.Answered expected exchange.lines

end Exchange

theorem exchange_sound {buffer : LineBuffer} (hbuffer : buffer.held.length ≤ Limits.line) (rules : List Rule) (clock : Nat)
    (coming : List Arrival) (parts : List Bytes) (expected : String) (timeout : Nat) :
    (exchange rules clock buffer coming parts expected timeout).Sound clock parts expected timeout where
  written := (course_written rules clock coming parts).1
  whole := (course_written rules clock coming parts).2
  within := Course.lines_within rules clock coming parts buffer timeout
  closes := Course.close_closes hbuffer fun receipt hreceipt => ((course_within _ _ _ parts).2 receipt hreceipt).2

end Modem
end SensorLink
