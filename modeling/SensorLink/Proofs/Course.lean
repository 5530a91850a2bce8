import SensorLink.Proofs.CommandText
import SensorLink.Proofs.Hearing
import SensorLink.Proofs.Receiving

/-! The course of an exchange, without the node: what the modem does while parts are written to it (`Modem.course`), what
    is received as time passes (`Arrival.during`), when each line completes (`LineBuffer.timed`), and which line answers
    a question (`Answers`). -/

namespace SensorLink

/-! ### As time passes -/

namespace Arrival

/-- The arrivals with the times at which they are received, one after the other from `clock` on. One that is overdue is
    received at once. -/
def receipts (clock : Nat) : List Arrival → List Arrival
  | [] => []
  | arrival :: rest => ⟨max clock arrival.due, arrival.data⟩ :: receipts (max clock arrival.due) rest

/-- What is received while so much time passes. When none does, nothing is received, even if it is overdue. -/
def during (clock duration : Nat) (coming : List Arrival) : List Arrival :=
  if duration = 0 then [] else receipts clock (coming.takeWhile fun arrival => arrival.due ≤ clock + duration)

/-- What is still on its way then. -/
def beyond (clock duration : Nat) (coming : List Arrival) : List Arrival :=
  if duration = 0 then coming else coming.dropWhile fun arrival => arrival.due ≤ clock + duration

/-- The bytes of arrivals in their order. -/
def bytes (arrivals : List Arrival) : Bytes := arrivals.flatMap data

theorem bytes_append (first rest : List Arrival) : bytes (first ++ rest) = bytes first ++ bytes rest :=
  List.flatMap_append

theorem bytes_receipts (clock : Nat) (arrivals : List Arrival) : bytes (receipts clock arrivals) = bytes arrivals := by
  induction arrivals generalizing clock with
  | nil => rfl
  | cons arrival rest ih => exact congrArg (arrival.data ++ ·) (ih _)

theorem receipts_within {clock time : Nat} {arrivals : List Arrival} (hclock : clock ≤ time)
    (h : ∀ arrival ∈ arrivals, arrival.due ≤ time) :
    ∀ receipt ∈ receipts clock arrivals, clock ≤ receipt.due ∧ receipt.due ≤ time := by
  induction arrivals generalizing clock with
  | nil => nofun
  | cons arrival rest ih =>
    rw [List.forall_mem_cons] at h
    refine List.forall_mem_cons.mpr ⟨⟨Nat.le_max_left _ _, Nat.max_le.mpr ⟨hclock, h.1⟩⟩, fun receipt hreceipt => ?_⟩
    have hrest := ih (Nat.max_le.mpr ⟨hclock, h.1⟩) h.2 receipt hreceipt
    exact ⟨(Nat.le_max_left _ _).trans hrest.1, hrest.2⟩

theorem during_within (clock duration : Nat) (coming : List Arrival) :
    ∀ receipt ∈ during clock duration coming, clock ≤ receipt.due ∧ receipt.due ≤ clock + duration := by
  unfold during
  split
  · nofun
  · exact receipts_within (Nat.le_add_right _ _) fun arrival harrival => by simpa using List.mem_takeWhile_imp harrival

/-- What is received while time passes is what is due by then. When no time passes, this holds if nothing is overdue. -/
theorem during_eq {clock duration : Nat} {coming : List Arrival}
    (h : duration = 0 → ∀ arrival ∈ coming, clock < arrival.due) :
    during clock duration coming = receipts clock (coming.takeWhile fun arrival => arrival.due ≤ clock + duration) := by
  unfold during
  split
  · rename_i hzero
    subst hzero
    rcases coming with _ | ⟨arrival, rest⟩
    · rfl
    · rw [List.takeWhile_cons_of_neg (by simpa using h rfl arrival List.mem_cons_self)]
      rfl
  · rfl

/-- What is due until a time is what is due until an earlier one, and more. -/
theorem takeWhile_due_append {time later : Nat} (h : time ≤ later) (arrivals : List Arrival) :
    arrivals.takeWhile (fun arrival => arrival.due ≤ later) = arrivals.takeWhile (fun arrival => arrival.due ≤ time) ++
      (arrivals.dropWhile fun arrival => arrival.due ≤ time).takeWhile fun arrival => arrival.due ≤ later := by
  induction arrivals with
  | nil => rfl
  | cons arrival rest ih =>
    by_cases hdue : arrival.due ≤ time
    · rw [List.takeWhile_cons_of_pos (by simpa using hdue.trans h), ih, List.takeWhile_cons_of_pos (by simpa using hdue),
        List.dropWhile_cons_of_pos (by simpa using hdue), List.cons_append]
    · rw [List.takeWhile_cons_of_neg (p := fun arrival : Arrival => decide (arrival.due ≤ time)) (by simpa using hdue),
        List.dropWhile_cons_of_neg (by simpa using hdue), List.nil_append]

theorem dropWhile_due_dropWhile {time later : Nat} (h : time ≤ later) (arrivals : List Arrival) :
    (arrivals.dropWhile fun arrival => arrival.due ≤ time).dropWhile (fun arrival => arrival.due ≤ later) =
      arrivals.dropWhile fun arrival => arrival.due ≤ later := by
  induction arrivals with
  | nil => rfl
  | cons arrival rest ih =>
    by_cases hdue : arrival.due ≤ time
    · rw [List.dropWhile_cons_of_pos (by simpa using hdue), ih, List.dropWhile_cons_of_pos (by simpa using hdue.trans h)]
    · rw [List.dropWhile_cons_of_neg (p := fun arrival : Arrival => decide (arrival.due ≤ time)) (by simpa using hdue)]

theorem length_dropWhile_due (arrival : Arrival) (others : List Arrival) :
    ((arrival :: others).dropWhile fun other => other.due ≤ arrival.due).length < (arrival :: others).length := by
  rw [List.dropWhile_cons_of_pos (by simp)]
  exact Nat.lt_succ_of_le (List.dropWhile_sublist _).length_le

end Arrival

/-! ### Writing -/

namespace Modem

/-- What the modem sends some time after it has obeyed the rule, added to what is on its way. -/
def Rule.later (rule : Rule) (clock : Nat) (coming : List Arrival) : List Arrival :=
  rule.replies.foldl (fun coming reply =>
    if reply.delay = 0 then coming else Link.insertArrival ⟨clock + reply.delay, reply.data⟩ coming) coming

structure Course where
  /-- What is received up to the end of the writes, with the time of each receipt. -/
  heard : List Arrival := []
  written : List Bytes := []
  fault : Option Fault := none
  /-- When the last write ends. -/
  ended : Nat
  rules : List Rule
  /-- What is still on its way then. -/
  coming : List Arrival

/-- The course with a write before it, during which so much is received. -/
def Course.precededBy (course : Course) (heard : List Arrival) (part : Bytes) : Course :=
  { course with heard := heard ++ course.heard, written := part :: course.written }

/-- What happens when the parts are written one after the other: a rule may hold a write back, send replies and let the
    write fail, and then no more is written. -/
def course (rules : List Rule) (clock : Nat) (coming : List Arrival) : List Bytes → Course
  | [] => { ended := clock, rules, coming }
  | part :: rest =>
    match decide? part rules with
    | none => (course rules clock coming rest).precededBy [] part
    | some (rule, rules) =>
      let time := clock + rule.delay
      let heard := Arrival.during clock rule.delay coming ++ [⟨time, rule.rushed⟩]
      let coming := rule.later time (Arrival.beyond clock rule.delay coming)
      match rule.fault with
      | some fault => { heard, written := [part], fault, ended := time, rules, coming }
      | none => (course rules time coming rest).precededBy heard part

variable (rules : List Rule) (clock : Nat) (coming : List Arrival) (parts : List Bytes)

theorem course_written : (course rules clock coming parts).written <+: parts ∧
    ((course rules clock coming parts).fault = none → (course rules clock coming parts).written = parts) := by
  induction parts generalizing rules clock coming with
  | nil => exact ⟨List.prefix_refl _, fun _ => rfl⟩
  | cons part rest ih =>
    have more (rules : List Rule) (clock : Nat) (coming : List Arrival) :=
      (ih rules clock coming).imp (fun h => List.prefix_cons_inj part |>.mpr h) fun h hnone =>
        congrArg (part :: ·) (h hnone)
    rw [course]
    split
    · exact more _ _ _
    · rename_i rule rules' _
      simp only
      split
      · exact ⟨by simp, nofun⟩
      · exact more _ _ _

theorem course_within : clock ≤ (course rules clock coming parts).ended ∧
    ∀ receipt ∈ (course rules clock coming parts).heard,
      clock ≤ receipt.due ∧ receipt.due ≤ (course rules clock coming parts).ended := by
  induction parts generalizing rules clock coming with
  | nil => exact ⟨Nat.le_refl _, nofun⟩
  | cons part rest ih =>
    rw [course]
    split
    · exact ih rules clock coming
    · rename_i rule rules' _
      have hnow : ∀ receipt ∈ Arrival.during clock rule.delay coming ++ [⟨clock + rule.delay, rule.rushed⟩],
          clock ≤ receipt.due ∧ receipt.due ≤ clock + rule.delay :=
        List.forall_mem_append.mpr ⟨Arrival.during_within _ _ _, by simp⟩
      simp only
      split
      · exact ⟨Nat.le_add_right _ _, hnow⟩
      · obtain ⟨hended, hheard⟩ := ih rules' (clock + rule.delay)
          (rule.later (clock + rule.delay) (Arrival.beyond clock rule.delay coming))
        refine ⟨(Nat.le_add_right _ _).trans hended, List.forall_mem_append.mpr ⟨fun receipt hreceipt => ?_,
          fun receipt hreceipt => ?_⟩⟩
        · exact ⟨(hnow receipt hreceipt).1, (hnow receipt hreceipt).2.trans hended⟩
        · exact ⟨(Nat.le_add_right _ _).trans (hheard receipt hreceipt).1, (hheard receipt hreceipt).2⟩

end Modem

/-! ### Lines and their times -/

namespace LineBuffer

/-- The lines that receipts complete, each with the time at which it does. -/
def timed (buffer : LineBuffer) : List Arrival → List (Nat × Bytes)
  | [] => []
  | receipt :: rest =>
    (buffer.completes receipt.data).map (receipt.due, ·) ++ (buffer.pushAll receipt.data).1.timed rest

theorem timed_append (buffer : LineBuffer) (first rest : List Arrival) : buffer.timed (first ++ rest) =
    buffer.timed first ++ (buffer.pushAll (Arrival.bytes first)).1.timed rest := by
  induction first generalizing buffer with
  | nil => rfl
  | cons receipt first ih => simp [timed, ih, Arrival.bytes, pushAll_append]

/-- The times apart, the lines are those of the bytes. -/
theorem map_timed (buffer : LineBuffer) (receipts : List Arrival) :
    (buffer.timed receipts).map Prod.snd = buffer.completes (Arrival.bytes receipts) := by
  induction receipts generalizing buffer with
  | nil => rfl
  | cons receipt rest ih =>
    have hbytes : Arrival.bytes (receipt :: rest) = receipt.data ++ Arrival.bytes rest := rfl
    rw [hbytes, completes_append, ← ih, timed]
    simp [Function.comp_def]

theorem exists_receipt {buffer : LineBuffer} {receipts : List Arrival} {line : Nat × Bytes}
    (h : line ∈ buffer.timed receipts) : ∃ receipt ∈ receipts, receipt.due = line.1 := by
  induction receipts generalizing buffer with
  | nil => cases h
  | cons receipt rest ih =>
    rw [timed, List.mem_append] at h
    rcases h with h | h
    · obtain ⟨bytes, -, rfl⟩ := List.mem_map.mp h
      exact ⟨receipt, List.mem_cons_self, rfl⟩
    · obtain ⟨later, hlater, htime⟩ := ih h
      exact ⟨later, List.mem_cons_of_mem _ hlater, htime⟩

/-- The buffer holds no more than one line, and no line is longer. -/
theorem push_fits {buffer : LineBuffer} (h : buffer.held.length ≤ Limits.line) (byte : UInt8) :
    (buffer.push byte).1.held.length ≤ Limits.line ∧
      ∀ line, (buffer.push byte).2 = some (.line line) → line.length ≤ Limits.line := by
  have hempty : ([] : Bytes).length ≤ Limits.line := by simp
  have hprompt : [prompt].length ≤ Limits.line := by decide
  unfold push
  split
  · unfold endLine
    split
    · exact ⟨hempty, nofun⟩
    · split
      · exact ⟨hempty, nofun⟩
      · exact ⟨hempty, by rintro _ ⟨⟩; exact h⟩
  · split
    · exact ⟨h, nofun⟩
    · split
      · exact ⟨h, nofun⟩
      · unfold store
        split
        · exact ⟨h, by rintro _ ⟨⟩; exact hprompt⟩
        · split
          · rename_i hroom
            exact ⟨by simpa [Nat.succ_le_iff] using hroom, nofun⟩
          · exact ⟨h, nofun⟩

theorem pushAll_fits {buffer : LineBuffer} (h : buffer.held.length ≤ Limits.line) (bytes : Bytes) :
    (buffer.pushAll bytes).1.held.length ≤ Limits.line ∧
      ∀ line ∈ buffer.completes bytes, line.length ≤ Limits.line := by
  induction bytes generalizing buffer with
  | nil => exact ⟨h, nofun⟩
  | cons byte rest ih =>
    obtain ⟨hheld, hline⟩ := push_fits h byte
    obtain ⟨hrest, hlines⟩ := ih hheld
    refine ⟨hrest, fun line hmem => ?_⟩
    rw [show byte :: rest = [byte] ++ rest from rfl, completes_append, List.mem_append] at hmem
    rcases hmem with hmem | hmem
    · rcases hpush : buffer.push byte with ⟨after, _ | (found | cause)⟩
      · simp [completes, pushAll, hpush] at hmem
      · have hfound : line = found := by simpa [completes, pushAll, hpush, LineSplit.line?] using hmem
        exact hfound ▸ hline found (by rw [hpush])
      · simp [completes, pushAll, hpush, LineSplit.line?] at hmem
    · exact hlines line hmem

theorem timed_fits {buffer : LineBuffer} (h : buffer.held.length ≤ Limits.line) (receipts : List Arrival) :
    ∀ line ∈ buffer.timed receipts, line.2.length ≤ Limits.line := by
  intro line hline
  refine (pushAll_fits h (Arrival.bytes receipts)).2 line.2 ?_
  rw [← map_timed]
  exact List.mem_map_of_mem hline

end LineBuffer

/-! ### Answers -/

theorem Text.encode_append (first rest : String) : Text.encode (first ++ rest) = Text.encode first ++ Text.encode rest := by
  simp [Text.encode_eq_flatMap]

/-- The line is `expected` and what it answers, in UTF-8, and none of the lines that the modem sends of its own accord. -/
def Answers (expected : String) (line : Bytes) (answer : String) : Prop :=
  ¬Intake.noticeMark <+: line ∧ line ≠ Intake.closedMark ∧ line = Text.encode expected ++ Text.encode answer

instance (expected : String) (line : Bytes) (answer : String) : Decidable (Answers expected line answer) :=
  inferInstanceAs (Decidable (_ ∧ _ ∧ _))

theorem answerOf?_eq_some_iff {expected : String} {line : Bytes} {answer : String} (hfits : line.length ≤ Limits.line) :
    Intake.answerOf? expected line = some answer ↔ Answers expected line answer := by
  have hrest (text : String) (hline : line = Text.encode text) :
      Slot.answerOf? expected text = some answer ↔ line = Text.encode expected ++ Text.encode answer := by
    have hsize : text.utf8ByteSize ≤ Limits.line := by rwa [hline, Text.length_encode] at hfits
    rw [Slot.answerOf?_eq_some_iff hsize, ← Text.encode_append, hline]
    exact ⟨congrArg Text.encode, Command.encode_injective⟩
  rw [Intake.answerOf?, Answers]
  by_cases hown : Intake.noticeMark.isPrefixOf line ∨ line = Intake.closedMark
  · rw [if_pos hown]
    rcases hown with hown | hown
    · simp [List.isPrefixOf_iff_prefix.mp hown]
    · simp [hown]
  · rw [if_neg hown]
    obtain ⟨hnotice, hclosed⟩ := not_or.mp hown
    rw [and_iff_right (mt List.isPrefixOf_iff_prefix.mpr hnotice), and_iff_right hclosed]
    rcases hdecode : Text.decode? line with _ | text
    · refine iff_of_false (Option.some_ne_none _).symm fun hline => ?_
      rw [hline, ← Text.encode_append, Text.decode?_encode] at hdecode
      cases hdecode
    · exact hrest text (Text.eq_encode_of_decode? hdecode)

/-- The first of the lines that answers, with its time. -/
def answerIn? (expected : String) (lines : List (Nat × Bytes)) : Option (Nat × String) :=
  lines.findSome? fun line => (Intake.answerOf? expected line.2).map (line.1, ·)

theorem answerIn?_append (expected : String) (first rest : List (Nat × Bytes)) :
    answerIn? expected (first ++ rest) = (answerIn? expected first).or (answerIn? expected rest) :=
  List.findSome?_append

theorem map_answerIn? (expected : String) (lines : List (Nat × Bytes)) :
    (answerIn? expected lines).map Prod.snd = (lines.map Prod.snd).findSome? (Intake.answerOf? expected) := by
  induction lines with
  | nil => rfl
  | cons line rest ih =>
    rw [List.map_cons, List.findSome?_cons, answerIn?, List.findSome?_cons]
    rcases Intake.answerOf? expected line.2 with _ | answer
    · exact ih
    · rfl

theorem mem_of_answerIn? {expected : String} {lines : List (Nat × Bytes)} {time : Nat} {answer : String}
    (h : answerIn? expected lines = some (time, answer)) : ∃ line ∈ lines, line.1 = time := by
  obtain ⟨line, hline, hanswer⟩ := List.exists_of_findSome?_eq_some h
  obtain ⟨answer', -, heq⟩ := Option.map_eq_some_iff.mp hanswer
  exact ⟨line, hline, congrArg Prod.fst heq⟩

section
variable {expected : String} {lines : List (Nat × Bytes)} (hfits : ∀ line ∈ lines, line.2.length ≤ Limits.line)
include hfits

theorem answerIn?_of_first {before after : List (Nat × Bytes)} {time : Nat} {line : Bytes} {answer : String}
    (hlines : lines = before ++ (time, line) :: after) (hanswer : Answers expected line answer)
    (hfirst : ∀ earlier ∈ before, ∀ other, ¬Answers expected earlier.2 other) :
    answerIn? expected lines = some (time, answer) := by
  have hbefore : answerIn? expected before = none := by
    refine List.findSome?_eq_none_iff.mpr fun earlier hearlier => Option.map_eq_none_iff.mpr ?_
    refine Option.eq_none_iff_forall_ne_some.mpr fun other hother => hfirst earlier hearlier other ?_
    exact (answerOf?_eq_some_iff (hfits earlier (by simp [hlines, hearlier]))).mp hother
  have hline := (answerOf?_eq_some_iff (hfits (time, line) (by simp [hlines]))).mpr hanswer
  rw [hlines, answerIn?_append, hbefore, Option.none_or, answerIn?, List.findSome?_cons]
  simp [hline]

theorem answerIn?_eq_none (hnone : ∀ line ∈ lines, ∀ answer, ¬Answers expected line.2 answer) :
    answerIn? expected lines = none := by
  refine List.findSome?_eq_none_iff.mpr fun line hline => Option.map_eq_none_iff.mpr ?_
  refine Option.eq_none_iff_forall_ne_some.mpr fun answer hanswer => hnone line hline answer ?_
  exact (answerOf?_eq_some_iff (hfits line hline)).mp hanswer

end

/-! ### The slot -/

/-- Question number `number` has been put, with what has answered it since, for which nobody has been woken yet. -/
def Slot.posed (number : UInt32) (expected : String) (answer : Option String) : Slot where
  generation := number
  question := some ⟨number, expected, answer⟩
  wakeUp := answer.map fun _ => number

theorem Slot.hear_posed (number : UInt32) (expected : String) (answer : Option String) (line : String) :
    ∃ answer', ((Slot.posed number expected answer).hear line).1 = Slot.posed number expected answer' := by
  cases answer with
  | some answer => exact ⟨some answer, rfl⟩
  | none =>
    rcases hanswer : Slot.answerOf? expected line with _ | answer
    · exact ⟨none, by simp [Slot.hear, Slot.posed, hanswer]⟩
    · exact ⟨some answer, by simp [Slot.hear, Slot.posed, hanswer]⟩

/-- The first line that answers, of those that bytes complete, is what the question takes, unless it has an answer. -/
theorem feed_posed {intake : Intake} {number : UInt32} {expected : String} {answer : Option String}
    (h : intake.slot = Slot.posed number expected answer) (bytes : Bytes) : (intake.feed bytes).slot =
      Slot.posed number expected
        (answer.or ((intake.buffer.completes bytes).findSome? (Intake.answerOf? expected))) := by
  obtain ⟨answer', hslot⟩ : ∃ answer', (intake.feed bytes).slot = Slot.posed number expected answer' := by
    refine Intake.feed_slot (P := fun slot => ∃ answer', slot = Slot.posed number expected answer') ?_ ⟨answer, h⟩ bytes
    rintro slot line ⟨before, rfl⟩
    exact Slot.hear_posed number expected before line
  have hfirst : Intake.firstAnswer? expected (LineSplit.found intake bytes) =
      (intake.buffer.completes bytes).findSome? (Intake.answerOf? expected) := by
    have hfound : (intake.buffer.pushAll bytes).2 = LineSplit.found intake bytes := by rw [LineSplit.found_eq]
    rw [LineBuffer.completes, hfound, Intake.firstAnswer?, ← List.head?_filterMap, ← List.head?_filterMap,
      List.filterMap_filterMap]
    congr 2
    funext event
    cases event <;> rfl
  have hquestion := intake.feed_question bytes
  rw [hslot, h, Slot.posed, Slot.posed, Option.map_some] at hquestion
  have hanswer := congrArg Slot.Question.answer (Option.some.inj hquestion)
  rw [hslot, ← hfirst]
  exact congrArg _ hanswer

end SensorLink
