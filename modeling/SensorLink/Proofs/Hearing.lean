import Mathlib.Data.List.Infix
import SensorLink.Proofs.Exchange
import SensorLink.Proofs.LineSplit

/-! How a question gets its answer: it takes the first line that fits and comes while it waits, and whoever waits for
    it returns that answer and no other. -/

namespace SensorLink

/-! ### Lines and questions -/

namespace LineSplit
open LineBuffer

theorem buffer_line (line : Bytes) : buffer (line ++ [cr, lf]) = {} := by
  have hpieces : (pieces (line ++ [cr, lf])).2 = [] := by
    have h := pieces_concat (line ++ [cr]) lf
    rw [if_pos (by simp)] at h
    rw [show line ++ [cr, lf] = line ++ [cr] ++ [lf] by simp, h]
  have hlast : ¬lf = cr := by decide
  simp [buffer, hpieces, hlast, body, text]

end LineSplit

theorem Slot.answerOf?_eq_none_iff {expected line : String} :
    Slot.answerOf? expected line = none ↔ ¬expected.toList <+: line.toList := by
  rw [Slot.answerOf?, Option.map_eq_none_iff, ← List.isPrefixOf_iff_prefix, ← List.isSome_isPrefixOf?_eq_isPrefixOf,
    Bool.not_eq_true, Option.isSome_eq_false_iff, Option.isNone_iff_eq_none]

theorem Slot.prefix_of_answerOf? {expected line answer : String} (h : answerOf? expected line = some answer) :
    expected.toList <+: line.toList :=
  not_not.mp fun hmisses => by simp [answerOf?_eq_none_iff.mpr hmisses] at h

theorem Slot.answerOf?_eq_some_iff {expected line answer : String} (h : line.utf8ByteSize ≤ Limits.line) :
    Slot.answerOf? expected line = some answer ↔ line = expected ++ answer := by
  constructor
  · intro hanswer
    obtain ⟨rest, hrest, hanswer⟩ := Option.map_eq_some_iff.mp hanswer
    have hline : line = expected ++ String.ofList rest := by
      rw [← String.toList_inj, String.toList_append, String.toList_ofList]
      exact (List.isPrefixOf?_eq_some_iff_append_eq.mp hrest).symm
    have hsize : (String.ofList rest).utf8ByteSize ≤ Limits.line := by
      rw [hline, String.utf8ByteSize_append] at h
      omega
    rwa [← hanswer, if_pos hsize]
  · rintro rfl
    have hsize : answer.utf8ByteSize ≤ Limits.line := by
      rw [String.utf8ByteSize_append] at h
      omega
    simp [Slot.answerOf?, hsize]

theorem Slot.collect_eq_some_iff {slot : Slot} {generation : UInt32} {answer : String} :
    (slot.collect generation).2 = some answer ↔ ∃ expected, slot.question = some ⟨generation, expected, some answer⟩ := by
  constructor
  · intro h
    by_cases hthere : ∃ expected other, slot.question = some ⟨generation, expected, some other⟩
    · obtain ⟨expected, other, hquestion⟩ := hthere
      rw [Slot.collect_own hquestion] at h
      cases h
      exact ⟨expected, hquestion⟩
    · rw [Slot.collect_eq_self fun expected other hquestion => hthere ⟨expected, other, hquestion⟩] at h
      cases h
  · rintro ⟨expected, hquestion⟩
    rw [Slot.collect_own hquestion]

/-- A question that has been offered an answer takes it, unless it has one. -/
def Slot.Question.offer (question : Slot.Question) (answer : Option String) : Slot.Question :=
  { question with answer := question.answer.or answer }

theorem Slot.Question.offer_offer (question : Slot.Question) (first second : Option String) :
    (question.offer first).offer second = question.offer (first.or second) := by
  simp [offer, Option.or_assoc]

theorem Slot.hear_question (slot : Slot) (line : String) : (slot.hear line).1.question =
    slot.question.map fun question => question.offer (answerOf? question.expected line) := by
  unfold Slot.hear
  split
  · rename_i generation expected heq
    rw [heq]
    split
    · rename_i answer hanswer
      simp [Question.offer, hanswer]
    · rename_i hanswer
      simp [Question.offer, hanswer, heq]
  · rename_i hne
    rcases hquestion : slot.question with _ | ⟨generation, expected, _ | answer⟩
    · rfl
    · exact absurd hquestion (hne generation expected)
    · rfl

theorem Slot.hear_number (slot : Slot) (line : String) : (slot.hear line).1.generation = slot.generation := by
  unfold Slot.hear
  split
  · split <;> rfl
  · rfl

theorem Slot.hear_false {slot after : Slot} {line : String} (h : slot.hear line = (after, false)) : after = slot := by
  unfold Slot.hear at h
  split at h
  · split at h <;> cases h
    rfl
  · cases h
    rfl

namespace Intake

/-- What a line answers to a question that expects `expected`. -/
def answerOf? (expected : String) (line : Bytes) : Option String :=
  if noticeMark.isPrefixOf line ∨ line = closedMark then none
  else (Text.decode? line).bind (Slot.answerOf? expected)

/-- What the first line that fits answers. -/
def firstAnswer? (expected : String) (events : List LineBuffer.Event) : Option String :=
  events.findSome? fun
    | .line line => answerOf? expected line
    | .rejected _ => none

theorem firstAnswer?_append (expected : String) (first rest : List LineBuffer.Event) :
    firstAnswer? expected (first ++ rest) = (firstAnswer? expected first).or (firstAnswer? expected rest) :=
  List.findSome?_append

theorem route_question (intake : Intake) (line : Bytes) : (intake.route line).1.slot.question =
    intake.slot.question.map fun question => question.offer (answerOf? question.expected line) := by
  have kept (h : ∀ expected, answerOf? expected line = none) : intake.slot.question =
      intake.slot.question.map fun question => question.offer (answerOf? question.expected line) := by
    simp [h, Slot.Question.offer]
  unfold Intake.route
  split
  · rename_i hnotice
    have hkept := kept fun expected => by simp [answerOf?, hnotice]
    split <;> exact hkept
  · rename_i hnotice
    split
    · rename_i hclosed
      exact kept fun expected => by simp [answerOf?, hclosed]
    · rename_i hclosed
      split
      · rename_i hdecode
        exact kept fun expected => by simp [answerOf?, hdecode]
      · rename_i text hdecode
        have hanswer (expected : String) : answerOf? expected line = Slot.answerOf? expected text := by
          simp [answerOf?, hnotice, hclosed, hdecode]
        have hhear := intake.slot.hear_question text
        simp only [← hanswer] at hhear
        rcases hheard : intake.slot.hear text with ⟨slot, _ | _⟩
        · rw [hheard, Slot.hear_false hheard] at hhear
          exact hhear
        · rw [hheard] at hhear
          exact hhear

theorem receive_question (intake : Intake) (byte : UInt8) : (intake.receive byte).slot.question =
    intake.slot.question.map fun question =>
      question.offer (firstAnswer? question.expected (intake.buffer.push byte).2.toList) := by
  unfold Intake.receive
  rcases hpush : intake.buffer.push byte with ⟨buffer, _ | (line | cause)⟩
  · simp [firstAnswer?, Slot.Question.offer]
  · rw [route_question]
    simp [firstAnswer?]
  · simp [firstAnswer?, Slot.Question.offer]

/-- The first of the received lines that fits answers a question that waits. -/
theorem feed_question (intake : Intake) (bytes : Bytes) : (intake.feed bytes).slot.question =
    intake.slot.question.map fun question =>
      question.offer (firstAnswer? question.expected (LineSplit.found intake bytes)) := by
  induction bytes generalizing intake with
  | nil => simp [feed, LineSplit.found, firstAnswer?, Slot.Question.offer]
  | cons byte rest ih =>
    rw [LineSplit.feed_cons, ih, receive_question, Option.map_map]
    congr 1
    funext question
    show (question.offer _).offer _ = _
    rw [Slot.Question.offer_offer, LineSplit.found, firstAnswer?_append]
    rfl

theorem feed_number (intake : Intake) (bytes : Bytes) :
    (intake.feed bytes).slot.generation = intake.slot.generation :=
  feed_slot (P := fun slot => slot.generation = intake.slot.generation)
    (fun slot line h => (slot.hear_number line).trans h) rfl bytes

end Intake

/-! ### A modem that sends whole lines of its own accord -/

/-- No part of a line has been received, nothing is on its way, and the modem replies to no write at once. -/
structure Link.Quiet (link : Link) : Prop where
  buffer : link.intake.buffer = {}
  arrivals : link.arrivals = []
  rules : ∀ rule ∈ link.rules, rule.replies = []

/-- Nor does the modem reply to a write that it holds back. -/
def Dialogue.Hold.Quiet : Dialogue.Hold → Prop
  | .writing _ rule _ _ => rule.replies = []
  | .listening .. | .pausing _ => True

theorem decide?_replies {written : Bytes} {rules rest : List Modem.Rule} {rule : Modem.Rule}
    (h : Modem.decide? written rules = some (rule, rest)) (hrules : ∀ rule ∈ rules, rule.replies = []) :
    rule.replies = [] ∧ ∀ rule ∈ rest, rule.replies = [] := by
  induction rules generalizing rest with
  | nil => cases h
  | cons first rules ih =>
    have hfirst := hrules first List.mem_cons_self
    have hrules' : ∀ rule ∈ rules, rule.replies = [] := fun r hr => hrules r (List.mem_cons_of_mem _ hr)
    unfold Modem.decide? at h
    split at h
    · cases h
      exact ⟨hfirst, by simpa using ⟨hfirst, hrules'⟩⟩
    · obtain ⟨⟨chosen, rest'⟩, hdecide, heq⟩ := Option.map_eq_some_iff.mp h
      cases heq
      obtain ⟨hchosen, hrest⟩ := ih hdecide hrules'
      exact ⟨hchosen, by simpa using ⟨hfirst, hrest⟩⟩

theorem obey_quiet {link : Link} {rule : Modem.Rule} (h : rule.replies = []) :
    link.obey rule = (link, rule.fault) := by
  simp [Link.obey, h]

theorem transmit_quiet {link : Link} (h : link.Quiet) (parts : List Bytes) :
    (link.transmit parts).1.intake = link.intake ∧ (link.transmit parts).1.Quiet ∧
      ∀ due rule rest, (link.transmit parts).2 = .stalled due rule rest → rule.replies = [] := by
  induction parts generalizing link with
  | nil => exact ⟨rfl, h, fun _ _ _ hstalled => by cases hstalled⟩
  | cons part rest ih =>
    unfold Link.transmit
    simp only
    split
    · exact ih ⟨h.buffer, h.arrivals, h.rules⟩
    · rename_i rule rules hdecide
      obtain ⟨hrule, hrules⟩ := decide?_replies hdecide h.rules
      have hquiet : Link.Quiet { link with sent := link.sent ++ [part], rules } := ⟨h.buffer, h.arrivals, hrules⟩
      split
      · exact ⟨rfl, hquiet, by rintro _ _ _ ⟨⟩; exact hrule⟩
      · rw [obey_quiet hrule]
        rcases rule.fault with _ | fault
        · exact ih hquiet
        · exact ⟨rfl, hquiet, fun _ _ _ hstalled => by cases hstalled⟩

namespace Dialogue

/-- A look for the answer to a question has led from `link` to `after`. -/
structure Found (link : Link) (number : UInt32) (after : Link × Option String) : Prop where
  quiet : link.Quiet → after.1.Quiet
  count : after.1.intake.slot.generation = link.intake.slot.generation
  question : after.1.intake.slot.question = if after.2.isSome then none else link.intake.slot.question
  answered : ∀ answer, after.2 = some answer → ∃ expected,
    link.intake.slot.question = some ⟨number, expected, some answer⟩

theorem collect_number (slot : Slot) (number : UInt32) : (slot.collect number).1.generation = slot.generation := by
  unfold Slot.collect
  split
  · split <;> rfl
  · rfl

theorem found_look (link : Link) (number : UInt32) : Found link number (link.look number) := by
  have hquestion := look_question link.intake.slot number
  have hnumber := collect_number link.intake.slot number
  have hanswer := @Slot.collect_eq_some_iff link.intake.slot number
  unfold Link.look
  unfold Slot.look at hquestion ⊢
  rcases hcollect : link.intake.slot.collect number with ⟨slot, _ | answer⟩ <;>
    rw [hcollect] at hquestion hnumber hanswer
  · exact ⟨fun h => ⟨h.buffer, h.arrivals, h.rules⟩, hnumber, hquestion, by rintro _ ⟨⟩⟩
  · exact ⟨fun h => ⟨h.buffer, h.arrivals, h.rules⟩, hnumber, hquestion, fun _ h => hanswer.mp h⟩

theorem found_lookAgain (link : Link) (number : UInt32) : Found link number (link.lookAgain number) := by
  have hquestion := lookAgain_question link.intake.slot number
  have hnumber := collect_number { link.intake.slot with wakeUp := none } number
  have hanswer := @Slot.collect_eq_some_iff { link.intake.slot with wakeUp := none } number
  unfold Link.lookAgain
  unfold Slot.lookAgain at hquestion ⊢
  rcases hwake : link.intake.slot.wakeUp with _ | woken <;> rw [hwake] at hquestion
  · exact ⟨fun h => ⟨h.buffer, h.arrivals, h.rules⟩, rfl, hquestion, by rintro _ ⟨⟩⟩
  · simp only at hquestion ⊢
    rcases hcollect : { link.intake.slot with wakeUp := none : Slot }.collect number with ⟨slot, _ | answer⟩ <;>
      rw [hcollect] at hquestion hnumber hanswer
    · exact ⟨fun h => ⟨h.buffer, h.arrivals, h.rules⟩, hnumber, hquestion, by rintro _ ⟨⟩⟩
    · exact ⟨fun h => ⟨h.buffer, h.arrivals, h.rules⟩, hnumber, hquestion, fun _ h => hanswer.mp h⟩

/-- A visit of the request that waits with the last question has led from `link` to `after`: an answer that it
    returns was in the slot. -/
structure Heard (link : Link) (after : Link × Progress) : Prop where
  quiet : after.1.Quiet
  count : after.1.intake.slot.generation = link.intake.slot.generation
  outcome : match after.2 with
    | .waiting hold => after.1.intake.slot.question = link.intake.slot.question ∧ hold.Quiet ∧
        hold.generation? = some link.intake.slot.generation
    | .finished (.ok answer) => after.1.intake.slot.question = none ∧ ∃ expected,
        link.intake.slot.question = some ⟨link.intake.slot.generation, expected, some answer⟩
    | .finished (.error _) => after.1.intake.slot.question = none

variable {link : Link}

theorem question_forget (h : ∀ question, link.intake.slot.question = some question →
    question.generation = link.intake.slot.generation) :
    (link.forget link.intake.slot.generation).intake.slot.question = none := by
  have hnone : (link.forget link.intake.slot.generation).pending? = none := pending?_forget fun g hg => by
    obtain ⟨question, hquestion, rfl⟩ := Option.map_eq_some_iff.mp hg
    exact (h question hquestion).symm
  exact Option.map_eq_none_iff.mp hnone

theorem forget_count (link : Link) (number : UInt32) :
    (link.forget number).intake.slot.generation = link.intake.slot.generation := by
  unfold Link.forget Link.withSlot Slot.forget
  dsimp only
  split
  · split <;> rfl
  · rfl

theorem quiet_forget (h : link.Quiet) (number : UInt32) : (link.forget number).Quiet := ⟨h.buffer, h.arrivals, h.rules⟩

theorem heard_listen (hquiet : link.Quiet) (timeout : Nat) :
    Heard link (listen link (some ⟨link.intake.slot.generation, timeout⟩)) := by
  obtain ⟨hquiet', hcount, hquestion, hanswered⟩ := found_look link link.intake.slot.generation
  simp only [listen]
  rcases hlook : link.look link.intake.slot.generation with ⟨after, _ | answer⟩ <;>
    simp only [hlook, Option.isSome, Bool.false_eq_true, if_false, if_true] at hquiet' hcount hquestion hanswered
  · exact ⟨hquiet' hquiet, hcount, hquestion, trivial, rfl⟩
  · exact ⟨hquiet' hquiet, hcount, hquestion, hanswered answer rfl⟩

theorem heard_proceed (hquiet : link.Quiet)
    (hlast : ∀ question, link.intake.slot.question = some question →
      question.generation = link.intake.slot.generation) (parts : List Bytes) (timeout : Nat) :
    Heard link (proceed (some ⟨link.intake.slot.generation, timeout⟩) (link.transmit parts)) := by
  obtain ⟨hintake, hquiet', hstalled⟩ := transmit_quiet hquiet parts
  rcases htransmit : link.transmit parts with ⟨after, _ | fault | ⟨due, rule, rest⟩⟩ <;>
    rw [htransmit] at hintake hquiet' hstalled <;> simp only [proceed] <;> simp only at hintake
  · have h := heard_listen hquiet' timeout
    rw [hintake] at h
    exact ⟨h.quiet, hintake ▸ h.count, by simpa only [hintake] using h.outcome⟩
  · rw [← hintake] at hlast ⊢
    exact ⟨quiet_forget hquiet' _, (forget_count _ _).trans (by rw [hintake]), question_forget hlast⟩
  · exact ⟨hquiet', by rw [hintake], by rw [hintake], hstalled _ _ _ rfl, rfl⟩

theorem heard_resume {hold : Hold} (hquiet : link.Quiet)
    (hlast : ∀ question, link.intake.slot.question = some question →
      question.generation = link.intake.slot.generation) (hhold : hold.Quiet)
    (hnumber : hold.generation? = some link.intake.slot.generation) : Heard link (resume link hold) := by
  cases hold with
  | pausing due => cases hnumber
  | writing due rule rest expectation =>
    obtain ⟨⟨generation, timeout⟩, rfl, rfl⟩ := Option.map_eq_some_iff.mp hnumber
    simp only [resume]
    split
    · unfold Link.resumeTransmit
      rw [obey_quiet hhold]
      rcases rule.fault with _ | fault
      · exact heard_proceed hquiet hlast rest timeout
      · exact ⟨quiet_forget hquiet _, forget_count _ _, question_forget hlast⟩
    · exact ⟨hquiet, rfl, rfl, hhold, rfl⟩
  | listening generation deadline =>
    obtain rfl : generation = link.intake.slot.generation := Option.some.inj hnumber
    obtain ⟨hquiet', hcount, hquestion, hanswered⟩ := found_lookAgain link link.intake.slot.generation
    simp only [resume]
    rcases hlook : link.lookAgain link.intake.slot.generation with ⟨after, _ | answer⟩ <;>
      simp only [hlook, Option.isSome, Bool.false_eq_true, if_false, if_true] at hquiet' hcount hquestion hanswered
    · simp only
      split
      · rw [← hcount, ← hquestion] at hlast
        rw [← hcount]
        exact ⟨quiet_forget (hquiet' hquiet) _, (forget_count _ _).trans hcount, question_forget hlast⟩
      · exact ⟨hquiet' hquiet, hcount, hquestion, trivial, rfl⟩
    · exact ⟨hquiet' hquiet, hcount, hquestion, hanswered answer rfl⟩

theorem ask_question {expected : String} {after : Link} {number : UInt32}
    (h : link.ask expected = .ok (after, number)) : number = link.intake.slot.generation + 1 ∧
      after.intake.slot.generation = number ∧ after.intake.slot.question = some ⟨number, expected, none⟩ ∧
      (link.Quiet → after.Quiet) := by
  unfold Link.ask Slot.ask at h
  split at h
  · rename_i slot g heq
    split at heq
    · cases heq
    · split at heq
      · cases heq
      · cases heq
        cases h
        exact ⟨rfl, rfl, rfl, fun h => ⟨h.buffer, h.arrivals, h.rules⟩⟩
  · cases h

theorem heard_start (hquiet : link.Quiet) (hnone : link.intake.slot.question = none) (parts : List Bytes)
    (expected : String) (timeout : Nat) :
    (start link (.ask parts expected timeout)).1.Quiet ∧
      match start link (.ask parts expected timeout) with
      | (after, .waiting hold) =>
        after.intake.slot.generation = link.intake.slot.generation + 1 ∧
          after.intake.slot.question = some ⟨after.intake.slot.generation, expected, none⟩ ∧ hold.Quiet ∧
          hold.generation? = some after.intake.slot.generation
      | (after, .finished result) =>
        after.intake.slot.question = none ∧ ∃ cause, result = .error cause := by
  rcases hask : link.ask expected with (_ | _) | ⟨after, number⟩
  · simp only [start, hask]
    exact ⟨hquiet, hnone, _, rfl⟩
  · simp only [start, hask]
    exact ⟨hquiet, hnone, _, rfl⟩
  · obtain ⟨rfl, hcount, hquestion, hquiet'⟩ := ask_question hask
    have hlast (question) (h : after.intake.slot.question = some question) :
        question.generation = after.intake.slot.generation := by
      rw [hquestion] at h
      cases h
      exact hcount.symm
    have h := heard_proceed (hquiet' hquiet) hlast parts timeout
    rw [hcount] at h
    have hcount' := h.count
    have houtcome := h.outcome
    refine ⟨by simpa only [start, hask] using h.quiet, ?_⟩
    simp only [start, hask]
    rcases hproceed : proceed (some ⟨link.intake.slot.generation + 1, timeout⟩) (after.transmit parts) with
      ⟨next, hold | cause | answer⟩ <;> rw [hproceed] at hcount' houtcome <;> simp only at hcount' houtcome ⊢
    · obtain ⟨hkept, hhold, hnumber⟩ := houtcome
      exact ⟨hcount'.trans hcount, by rw [hkept, hquestion, hcount', hcount], hhold, by rw [hnumber, hcount']⟩
    · exact ⟨houtcome, cause, rfl⟩
    · obtain ⟨-, expected', hanswer⟩ := houtcome
      simp [hquestion] at hanswer

end Dialogue
end SensorLink
