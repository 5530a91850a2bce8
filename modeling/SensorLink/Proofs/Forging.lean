import SensorLink.Proofs.Hearing
import SensorLink.Proofs.NoticeText

/-! What the data of a notification can do to the one who receives it. The announced length is not looked at while the
    bytes come in, so what stands behind a line end in the data is taken for lines of the modem (`strays`). -/

namespace SensorLink
open LineBuffer LineSplit

namespace LineSplit

/-- What stands before the first line end of a stream. -/
def opening (stream : Bytes) : Bytes := (parts stream).headD []

/-- The lines that begin behind a line end of the data, when a line end follows the data. -/
def strays (data : Bytes) : List Bytes := (parts data).tail.flatMap pieceLines

theorem parts_append {first : Bytes} (h : cr ∉ first) (rest : Bytes) :
    parts (first ++ rest) = (first ++ opening rest) :: (parts rest).tail := by
  induction first with
  | nil =>
    rw [List.nil_append, List.nil_append]
    unfold opening parts
    rcases (pieces rest).1 with _ | ⟨piece, more⟩ <;> rfl
  | cons byte first ih =>
    have hbyte : byte ≠ cr := fun heq => h (heq ▸ List.mem_cons_self)
    have hcons (stream : Bytes) : parts (byte :: stream) = (byte :: opening stream) :: (parts stream).tail := by
      unfold opening parts
      cases stream with
      | nil => rfl
      | cons second stream =>
        rw [pieces, if_neg fun h => hbyte h.1]
        rcases pieces (second :: stream) with ⟨_ | ⟨piece, more⟩, tail⟩ <;> rfl
    rw [List.cons_append, hcons, opening, ih fun hmem => h (List.mem_cons_of_mem _ hmem)]
    rfl

theorem strays_of_whole {data : Bytes} (h : ¬[cr, lf] <:+: data) : strays data = [] := by
  rw [strays, parts, pieces_of_whole h]
  rfl

end LineSplit

namespace Intake

variable {intake : Intake}

/-- The first of the lines that fits answers the question that waits. -/
theorem routeAll_question (intake : Intake) (lines : List Bytes) : (intake.routeAll lines).slot.question =
    intake.slot.question.map fun question => question.offer (lines.findSome? (answerOf? question.expected)) := by
  induction lines generalizing intake with
  | nil => simp [routeAll, Slot.Question.offer]
  | cons line rest ih =>
    have hrest : (intake.routeAll (line :: rest)).slot = ((intake.route line).1.routeAll rest).slot := rfl
    rw [hrest, ih, route_question, Option.map_map]
    congr 1
    funext question
    show (question.offer _).offer _ = _
    rw [Slot.Question.offer_offer, List.findSome?_cons]
    show question.offer (Option.or _ (rest.findSome? (answerOf? question.expected))) = _
    rcases answerOf? question.expected line with _ | answer <;> rfl

/-! ### A notification with any data -/

/-- The lines of a notification: its own, which ends at the first line end of the data, and the strays. -/
theorem lines_notification {topic : Bytes} (htopic : Unbroken topic) (data : Bytes) :
    let line := Notice.header 0 topic data.length ++ text (opening data)
    lines (Notice.header 0 topic data.length ++ data ++ [cr, lf]) =
      (if line.length ≤ Limits.line then [line] else []) ++ strays data := by
  intro line
  have hheader : Unbroken (Notice.header 0 topic data.length) := Notice.unbroken_header htopic
  have htext : text (Notice.header 0 topic data.length ++ opening data) = line := by
    rw [text_append, hheader.text]
  have hmark : noticeMark <+: line := Notice.noticeMark_prefix_header.trans (List.prefix_append _ _)
  have hhead : line.head? ≠ some prompt := by
    rw [Notice.head?_of_noticeMark hmark]
    decide
  have hne : line ≠ [] := fun hnil => by
    rw [hnil, List.prefix_nil] at hmark
    exact absurd hmark (by decide)
  have hown : pieceLines (Notice.header 0 topic data.length ++ opening data) =
      if line.length ≤ Limits.line then [line] else [] := by
    rw [pieceLines_eq (htext ▸ hhead), htext]
    by_cases hlong : line.length ≤ Limits.line
    · simp [hne, hlong, Nat.not_lt.mpr hlong]
    · simp [hlong, Nat.not_le.mp hlong]
  rw [lines_ended, parts_append fun hmem => (hheader cr hmem).1 rfl, List.flatMap_cons, hown, strays]

theorem feed_notice (hbuffer : intake.buffer.IsEmpty) {stream : Bytes} (hmark : noticeMark <+: stream) :
    intake.feed stream = (intake.routeAll (lines stream)).withBuffer (LineSplit.buffer stream) := by
  rw [← feed_eq]
  exact feed_of_isEmpty hbuffer (Notice.head?_of_noticeMark hmark) (by decide)

/-- What a notification leaves behind: of its own line only a queued notification can come, and all else comes of the
    strays in its data. Data without a line end has none. -/
theorem feed_notification (intake : Intake) (topic data : Bytes) (hbuffer : intake.buffer.IsEmpty)
    (htopic : Unbroken topic) :
    let line := Notice.header 0 topic data.length ++ text (opening data)
    let own := if line.length ≤ Limits.line then [line] else []
    let after := intake.feed (Notice.header 0 topic data.length ++ data ++ [cr, lf])
    after.closed = (intake.closed || decide (closedMark ∈ strays data)) ∧
    after.slot.question = intake.slot.question.map (fun question =>
      question.offer ((strays data).findSome? (answerOf? question.expected))) ∧
    after.inbound = intake.inbound ++
      (own ++ (strays data).filter noticeMark.isPrefixOf).take (Limits.inbound - intake.inbound.length) ∧
    (¬[cr, lf] <:+: data → strays data = []) := by
  intro line own after
  have hafter : after = (intake.routeAll (own ++ strays data)).withBuffer
      (LineSplit.buffer (Notice.header 0 topic data.length ++ data ++ [cr, lf])) := by
    rw [← lines_notification htopic data]
    exact feed_notice hbuffer
      (Notice.noticeMark_prefix_header.trans ((List.prefix_append _ _).trans (List.prefix_append _ _)))
  -- The own line is a notification, and no other line than that.
  have hnotices : ∀ other ∈ own, noticeMark.isPrefixOf other := fun other hother => by
    obtain rfl : other = line := by
      simp only [own] at hother
      split at hother <;> simp_all
    exact List.isPrefixOf_iff_prefix.mpr (Notice.noticeMark_prefix_header.trans (List.prefix_append _ _))
  have hclosed : closedMark ∉ own := fun hmem => absurd (hnotices _ hmem) (by decide)
  have hanswer (expected : String) : own.findSome? (answerOf? expected) = none :=
    List.findSome?_eq_none_iff.mpr fun other hother => if_pos (.inl (hnotices other hother))
  rw [hafter, withBuffer]
  refine ⟨?_, ?_, ?_, strays_of_whole⟩ <;> dsimp only
  · rw [routeAll_closed]
    simp [hclosed]
  · rw [routeAll_question]
    simp [List.findSome?_append, hanswer]
  · rw [routeAll_inbound, List.filter_append, List.filter_eq_self.mpr hnotices]

/-- Data that looks like an answer and has no line end: the question goes on waiting. -/
theorem feed_notification_of_one_line :
    let question : Slot.Question := { generation := 1, expected := "OK" }
    let intake : Intake := { slot := { generation := 1, question := some question } }
    let data := Text.encode "OK"
    let after := intake.feed (Notice.header 0 (Text.encode "t") data.length ++ data ++ [cr, lf])
    after.closed = false ∧ after.slot.question = some question ∧
      after.inbound = [Text.encode "+MQTTSUBRECV:0,\"t\",2,OK"] := by
  intro question intake data after
  obtain ⟨hclosed, hquestion, hinbound, hnone⟩ := feed_notification intake (Text.encode "t") data ⟨rfl, rfl⟩ (by decide)
  have hstrays : strays data = [] := hnone (by decide)
  rw [hstrays] at hclosed hquestion hinbound
  exact ⟨hclosed, hquestion, hinbound.trans (by decide +kernel)⟩

/-- Data with line ends: a link that is up is reported down, the question is answered, and a second notification is
    queued, none of which the modem has said. -/
theorem forged_by_line_ends :
    let question : Slot.Question := { generation := 1, expected := "OK" }
    let intake : Intake := { slot := { generation := 1, question := some question } }
    let data := Text.encode "x\r\nCLOSED\r\nOK\r\n+MQTTSUBRECV:0,\"u\",1,y"
    let after := intake.feed (Notice.header 0 (Text.encode "t") data.length ++ data ++ [cr, lf])
    after.closed = true ∧ after.slot.question = some { question with answer := some "" } ∧
      after.inbound = [Text.encode "+MQTTSUBRECV:0,\"t\",37,x", Text.encode "+MQTTSUBRECV:0,\"u\",1,y"] := by
  decide +kernel

end Intake
end SensorLink
