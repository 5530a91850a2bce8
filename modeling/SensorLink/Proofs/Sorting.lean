import SensorLink.Proofs.Course
import SensorLink.Proofs.SlotHistory
import SensorLink.Proofs.Waiters

/-! Where lines go. Each goes to one place, in the order in which the places are tried, and leaves the others alone; so
    however an intake is used, its queue gives the notifications that found room, in their order, and a question is
    answered only by a line that is none of those the modem sends of its own accord (`History.lines_sorted`). -/

namespace SensorLink

/-- A line that is no longer than one can be. -/
abbrev Line := { bytes : Bytes // bytes.length ≤ Limits.line }

namespace Intake

/-! ### One line -/

section
variable {intake : Intake} {line : Bytes} {g : UInt32} {e answer : String}

theorem route_of_notice (h : noticeMark <+: line) : intake.route line =
    ({ intake with inbound :=
        if intake.inbound.length < Limits.inbound then intake.inbound ++ [line] else intake.inbound }, .inbound) := by
  rw [route, if_pos (List.isPrefixOf_iff_prefix.mpr h)]
  split <;> rfl

theorem route_closedMark (intake : Intake) : intake.route closedMark = ({ intake with closed := true }, .closed) := by
  rw [route, if_neg (by decide), if_pos rfl]

/-- The other lines are for the question that waits, if it takes them. -/
theorem route_of_own (hnotice : ¬noticeMark <+: line) (hclosed : line ≠ closedMark) : intake.route line =
    match Text.decode? line with
    | none => (intake, .nowhere)
    | some text => if (intake.slot.hear text).2 then ({ intake with slot := (intake.slot.hear text).1 }, .slot)
      else (intake, .nowhere) := by
  rw [route, if_neg (mt List.isPrefixOf_iff_prefix.mp hnotice), if_neg hclosed]
  rcases Text.decode? line with _ | text
  · rfl
  · simp only
    rcases intake.slot.hear text with ⟨slot, _ | _⟩ <;> rfl

theorem route_of_answers (hfits : line.length ≤ Limits.line) (hwaits : intake.slot.question = some ⟨g, e, none⟩)
    (h : Answers e line answer) : intake.route line =
      ({ intake with slot := { intake.slot with question := some ⟨g, e, some answer⟩, wakeUp := some g } }, .slot) := by
  obtain ⟨hnotice, hclosed, hline⟩ := h
  rw [← Text.encode_append] at hline
  have hsize : (e ++ answer).utf8ByteSize ≤ Limits.line := by rwa [hline, Text.length_encode] at hfits
  have hhear : intake.slot.hear (e ++ answer) =
      ({ intake.slot with question := some ⟨g, e, some answer⟩, wakeUp := some g }, true) := by
    simp [Slot.hear, hwaits, (Slot.answerOf?_eq_some_iff hsize).mpr rfl]
  rw [route_of_own hnotice hclosed, Text.decode?_eq_some_iff.mpr hline]
  simp only [hhear, if_true]

theorem route_of_misses (hnotice : ¬noticeMark <+: line) (hclosed : line ≠ closedMark)
    (h : ∀ g e answer, intake.slot.question = some ⟨g, e, none⟩ → ¬Answers e line answer) :
    intake.route line = (intake, .nowhere) := by
  rw [route_of_own hnotice hclosed]
  rcases hdecode : Text.decode? line with _ | text
  · rfl
  · have hhear : ¬(intake.slot.hear text).2 := by
      intro hheard
      obtain ⟨g, e, hwaits, rest, hrest⟩ := Slot.History.hear_eq_true_iff.mp hheard
      have htext : text = e ++ String.ofList rest := by
        rw [← String.toList_inj, String.toList_append, String.toList_ofList, hrest]
      refine h g e (String.ofList rest) hwaits ⟨hnotice, hclosed, ?_⟩
      rw [← Text.encode_append, ← htext]
      exact Text.eq_encode_of_decode? hdecode
    exact if_neg hhear

/-- An answer that is in the slot once a line has been routed was there, or is what follows on that line. -/
theorem answered_route (hfits : line.length ≤ Limits.line)
    (h : (intake.route line).1.slot.question = some ⟨g, e, some answer⟩) :
    intake.slot.question = some ⟨g, e, some answer⟩ ∨
      intake.slot.question = some ⟨g, e, none⟩ ∧ Answers e line answer := by
  rw [route_question] at h
  obtain ⟨⟨g', e', held⟩, hquestion, hoffer⟩ := Option.map_eq_some_iff.mp h
  cases held with
  | some held =>
    left
    rw [hquestion, ← hoffer]
    rfl
  | none =>
    obtain ⟨rfl, rfl, hanswer⟩ := Slot.Question.mk.inj hoffer
    exact .inr ⟨hquestion, (answerOf?_eq_some_iff hfits).mp hanswer⟩

end

/-! ### What has happened at an intake -/

inductive History.Act where
  | receive (byte : UInt8)
  /-- A line is handed over whole. -/
  | route (line : Line)
  | take
  | noteClosed
  /-- Something is done at the slot, or someone waits there. -/
  | slot (act : Slot.Lobby.Act)

inductive History.Entry where
  /-- A line was whole, and was routed by an intake that was like this. -/
  | arrived (intake : Intake) (line : Bytes)
  | taken (line : Bytes)

/-- An intake with those who wait at its slot, and what has become of lines so far, the latest last. -/
structure History where
  intake : Intake := {}
  waiters : List Slot.Waiter := []
  entries : List History.Entry := []

namespace History

/-- The line that comes of an act. -/
def arrival? (intake : Intake) : Act → Option Bytes
  | .receive byte => (intake.buffer.push byte).2.bind LineSplit.line?
  | .route line => some line
  | _ => none

def lobby (history : History) : Slot.Lobby := { slot := history.intake.slot, waiters := history.waiters }

/-- An intake and its waiters after an act, with the line that was taken. -/
def perform (history : History) : Act → Intake × List Slot.Waiter × Option Bytes
  | .receive byte => (history.intake.receive byte, history.waiters, none)
  | .route line => ((history.intake.route line).1, history.waiters, none)
  | .take =>
    match history.intake.next? with
    | some (line, intake) => (intake, history.waiters, some line)
    | none => (history.intake, history.waiters, none)
  | .noteClosed => (history.intake.noteClosed.1, history.waiters, none)
  | .slot act => ({ history.intake with slot := (history.lobby.next act).slot }, (history.lobby.next act).waiters, none)

/-- What is new about lines after an act. -/
def added (history : History) (act : Act) : List Entry :=
  (arrival? history.intake act).toList.map (.arrived history.intake) ++ (history.perform act).2.2.toList.map .taken

def next (history : History) (act : Act) : History where
  intake := (history.perform act).1
  waiters := (history.perform act).2.1
  entries := history.entries ++ history.added act

def run (start : Intake) (acts : List Act) : History := acts.foldl next { intake := start }

theorem run_concat (start : Intake) (acts : List Act) (act : Act) :
    run start (acts ++ [act]) = (run start acts).next act := by simp [run]

/-- A notification that found room. -/
def accepted? : Entry → Option Bytes
  | .arrived intake line =>
    if noticeMark.isPrefixOf line ∧ intake.inbound.length < Limits.inbound then some line else none
  | .taken _ => none

def taken? : Entry → Option Bytes
  | .taken line => some line
  | .arrived .. => none

/-! ### One act -/

theorem receive_eq_arrival (intake : Intake) (byte : UInt8) : intake.receive byte =
    (match arrival? intake (.receive byte) with
      | some line => (intake.route line).1
      | none => intake).withBuffer (intake.buffer.push byte).1 := by
  have harrival : arrival? intake (.receive byte) = (intake.buffer.push byte).2.bind LineSplit.line? := rfl
  rw [harrival, receive]
  rcases intake.buffer.push byte with ⟨buffer, _ | (line | cause)⟩
  · rfl
  · exact route_withBuffer intake buffer line
  · rfl

/-- The queue gains the line if it is accepted. -/
theorem inbound_route (intake : Intake) (line : Bytes) :
    (intake.route line).1.inbound = intake.inbound ++ (accepted? (.arrived intake line)).toList := by
  by_cases hnotice : noticeMark.isPrefixOf line
  · rw [route_inbound_of_mark hnotice, accepted?]
    by_cases hroom : intake.inbound.length < Limits.inbound <;> simp [hnotice, hroom]
  · rw [route_inbound hnotice, accepted?]
    simp [hnotice]

/-- The oldest notification is taken, if there is one, and nothing else changes. -/
theorem perform_take (history : History) : history.perform .take =
    ({ history.intake with inbound := history.intake.inbound.tail }, history.waiters, history.intake.inbound.head?) := by
  simp only [perform, next?]
  cases hinbound : history.intake.inbound with
  | nil =>
    have hself : { history.intake with inbound := [] } = history.intake := by rw [← hinbound]
    exact congrArg (·, history.waiters, none) hself.symm
  | cons line rest => rfl

variable {history : History} {act : Act}

theorem inbound_next (history : History) (act : Act) : history.intake.inbound ++ (history.added act).filterMap accepted? =
    (history.added act).filterMap taken? ++ (history.next act).intake.inbound := by
  have hroute (line : Bytes) : history.intake.inbound ++ [Entry.arrived history.intake line].filterMap accepted? =
      (history.intake.route line).1.inbound := by
    rw [inbound_route, List.filterMap_cons]
    rcases accepted? (.arrived history.intake line) with _ | line <;> rfl
  cases act with
  | receive byte =>
    have hinbound : (history.next (.receive byte)).intake.inbound = (history.intake.receive byte).inbound := rfl
    rw [hinbound, receive_eq_arrival, added]
    rcases arrival? history.intake (.receive byte) with _ | line
    · exact List.append_nil _
    · exact hroute line
  | route line => exact hroute line.1
  | take =>
    rw [added, next, perform_take]
    rcases history.intake.inbound with _ | ⟨line, rest⟩
    · rfl
    · exact List.append_nil _
  | noteClosed => exact List.append_nil _
  | slot act => exact List.append_nil _

theorem fits_next (h : history.intake.buffer.held.length ≤ Limits.line) (act : Act) :
    (history.next act).intake.buffer.held.length ≤ Limits.line := by
  cases act with
  | receive byte =>
    have hbuffer : (history.next (.receive byte)).intake.buffer = (history.intake.buffer.push byte).1 :=
      LineSplit.receive_buffer history.intake byte
    rw [hbuffer]
    exact (LineBuffer.push_fits h byte).1
  | route line =>
    have hbuffer : (history.next (.route line)).intake.buffer = history.intake.buffer :=
      LineSplit.route_buffer history.intake line
    rwa [hbuffer]
  | take =>
    rw [next, perform_take]
    exact h
  | noteClosed | slot act => exact h

theorem arrival_fits (h : history.intake.buffer.held.length ≤ Limits.line) {line : Bytes}
    (harrival : arrival? history.intake act = some line) : line.length ≤ Limits.line := by
  cases act with
  | receive byte =>
    obtain ⟨event, hevent, hline⟩ := Option.bind_eq_some_iff.mp harrival
    rcases event with bytes | cause
    · exact (LineBuffer.push_fits h byte).2 line (by rw [hevent, ← Option.some.inj hline])
    · cases hline
  | route line =>
    cases harrival
    exact line.2
  | take | noteClosed | slot act => cases harrival

/-- An act puts the answer to a question that expects `e`: the slot is told it past the routing, or a line comes. -/
def Gives (intake : Intake) (act : Act) (e answer : String) : Prop :=
  (∃ text, act = .slot (.hear text) ∧ Slot.answerOf? e text = some answer) ∨
    ∃ line, arrival? intake act = some line ∧ Answers e line answer

/-- An answer that is in the slot after an act was there, or the act has given it to the question that waited. -/
theorem answered_next (h : history.intake.buffer.held.length ≤ Limits.line) {g : UInt32} {e answer : String}
    (hanswered : (history.next act).intake.slot.question = some ⟨g, e, some answer⟩) :
    history.intake.slot.question = some ⟨g, e, some answer⟩ ∨
      history.intake.slot.question = some ⟨g, e, none⟩ ∧ Gives history.intake act e answer := by
  have hroute {line : Bytes} (harrival : arrival? history.intake act = some line)
      (hline : (history.intake.route line).1.slot.question = some ⟨g, e, some answer⟩) :
      history.intake.slot.question = some ⟨g, e, some answer⟩ ∨
        history.intake.slot.question = some ⟨g, e, none⟩ ∧ Gives history.intake act e answer :=
    (answered_route (arrival_fits h harrival) hline).imp_right
      (And.imp_right fun hanswers => .inr ⟨line, harrival, hanswers⟩)
  cases act with
  | receive byte =>
    have hslot : (history.next (.receive byte)).intake.slot = (history.intake.receive byte).slot := rfl
    rw [hslot, receive_eq_arrival] at hanswered
    rcases harrival : arrival? history.intake (.receive byte) with _ | line <;> rw [harrival] at hanswered
    · exact .inl hanswered
    · exact hroute harrival hanswered
  | route line => exact hroute rfl hanswered
  | take =>
    rw [next, perform_take] at hanswered
    exact .inl hanswered
  | noteClosed => exact .inl hanswered
  | slot act =>
    have hlobby : (history.lobby.next act).slot.question = some ⟨g, e, some answer⟩ := hanswered
    cases Slot.Lobby.answered_next hlobby with
    | heard text hears waits fits wakes => exact .inr ⟨waits, .inl ⟨text, hears ▸ rfl, fits⟩⟩
    | kept there unseen same => exact .inl there
    | inVain there looks uses => exact .inl there

/-! ### Runs -/

theorem fits_run {start : Intake} (h : start.buffer.held.length ≤ Limits.line) (acts : List Act) :
    (run start acts).intake.buffer.held.length ≤ Limits.line := by
  induction acts using List.reverseRecOn with
  | nil => exact h
  | append_singleton acts act ih =>
    rw [run_concat]
    exact fits_next ih act

/-- What was queued and what was accepted is what was taken and what is queued, in this order. -/
theorem inbound_run (start : Intake) (acts : List Act) :
    start.inbound ++ (run start acts).entries.filterMap accepted? =
      (run start acts).entries.filterMap taken? ++ (run start acts).intake.inbound := by
  induction acts using List.reverseRecOn with
  | nil => exact List.append_nil _
  | append_singleton acts act ih =>
    have hentries : ((run start acts).next act).entries = (run start acts).entries ++ (run start acts).added act := rfl
    rw [run_concat, hentries, List.filterMap_append, List.filterMap_append, List.append_assoc, ← inbound_next,
      ← List.append_assoc, ih, List.append_assoc]

/-- Each line goes to one place: a notification to the end of the queue, where it is dropped if that is full; `CLOSED` to
    the mark; a line that starts with what the question expects that waits, and is text, to that question, which it answers
    with the rest; any other nowhere. Nothing else changes. So whatever was done, the notifications taken and those queued
    are those queued first and those that have come and found room since, in their order; and whatever is done next,
    and whatever the question expects, it is answered only by a line of that kind, or past the routing. -/
theorem lines_sorted {start : Intake} (hstart : start.buffer.held.length ≤ Limits.line) (acts : List Act) :
    let history := run start acts
    let intake := history.intake
    (∀ line : Line,
      (noticeMark <+: line.1 → intake.route line = ({ intake with inbound :=
        if intake.inbound.length < Limits.inbound then intake.inbound ++ [line.1] else intake.inbound }, .inbound)) ∧
      (line.1 = closedMark → intake.route line = ({ intake with closed := true }, .closed)) ∧
      (∀ g e rest, intake.slot.question = some ⟨g, e, none⟩ → Answers e line rest → intake.route line =
        ({ intake with slot := { intake.slot with question := some ⟨g, e, some rest⟩, wakeUp := some g } }, .slot)) ∧
      (¬noticeMark <+: line.1 → line.1 ≠ closedMark →
        (∀ g e rest, intake.slot.question = some ⟨g, e, none⟩ → ¬Answers e line rest) →
        intake.route line = (intake, .nowhere))) ∧
    start.inbound ++ history.entries.filterMap accepted? = history.entries.filterMap taken? ++ intake.inbound ∧
    ∀ act g e answer, (history.next act).intake.slot.question = some ⟨g, e, some answer⟩ →
      intake.slot.question = some ⟨g, e, some answer⟩ ∨
        intake.slot.question = some ⟨g, e, none⟩ ∧ Gives intake act e answer := by
  intro history intake
  refine ⟨fun line => ⟨route_of_notice, ?_, fun g e rest hwaits => route_of_answers line.2 hwaits, route_of_misses⟩,
    inbound_run start acts, fun act g e answer => answered_next (fits_run hstart acts)⟩
  intro hclosed
  rw [hclosed, route_closedMark]

/-- A question that any text answers waits while five notifications come, one of which finds the queue full, one is taken
    and a sixth comes, the link is reported down, and a line comes that is no text; then it is answered. -/
theorem lines_sorted_of_open_question :
    let notice (byte : UInt8) : Line :=
      ⟨noticeMark ++ [byte], List.length_append.trans_le (show noticeMark.length + 1 ≤ Limits.line by decide)⟩
    let acts : List Act := .slot (.ask "") :: [1, 2, 3, 4, 5].map (fun byte => .route (notice byte)) ++
      [.take, .route (notice 6), .route ⟨closedMark, by decide⟩, .route ⟨[255], by decide⟩]
    let history := run {} acts
    ({} : Intake).buffer.held.length ≤ Limits.line ∧
      history.entries.filterMap accepted? = [1, 2, 3, 4, 6].map (fun byte => (notice byte).1) ∧
      history.entries.filterMap taken? ++ history.intake.inbound = [1, 2, 3, 4, 6].map (fun byte => (notice byte).1) ∧
      history.intake.slot.question = some ⟨1, "", none⟩ ∧
      (history.intake.route (Text.encode "OK")).1.slot.question = some ⟨1, "", some "OK"⟩ := by
  intro notice acts history
  have hstart : ({} : Intake).buffer.held.length ≤ Limits.line := by decide
  have haccepted : history.entries.filterMap accepted? = [1, 2, 3, 4, 6].map (fun byte => (notice byte).1) := by
    decide +kernel
  have hwaits : history.intake.slot.question = some ⟨1, "", none⟩ := by decide +kernel
  obtain ⟨hsorted, hqueue, -⟩ := lines_sorted hstart acts
  obtain ⟨-, -, hanswers, -⟩ := hsorted ⟨Text.encode "OK", by decide +kernel⟩
  refine ⟨hstart, haccepted, hqueue.symm.trans haccepted, hwaits, ?_⟩
  rw [hanswers 1 "" "OK" hwaits (by decide +kernel)]

end History
end Intake
end SensorLink
