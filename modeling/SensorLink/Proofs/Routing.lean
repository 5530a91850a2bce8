import Mathlib.Data.List.Infix
import SensorLink.Proofs.LineSplit

/-! What a stream does to an intake: its lines are routed one after the other (`feed_eq`), each when its last byte
    comes (`receive_eq`). A line end ends what stands before it, whatever follows. -/

namespace SensorLink

/-! ### The lines of a stream -/

namespace LineSplit
open LineBuffer

theorem buffer_nil : buffer [] = {} := by simp [buffer, pieces, body, text]

def line? : Event → Option Bytes
  | .line bytes => some bytes
  | .rejected _ => none

/-- The lines of a stream that are not refused. -/
def lines (stream : Bytes) : List Bytes := (events stream).filterMap line?

end LineSplit

/-- Nothing of a line is there yet, but a CR perhaps. -/
def LineBuffer.IsEmpty (buffer : LineBuffer) : Prop := buffer.held = [] ∧ buffer.lost = 0

theorem LineBuffer.push_of_isEmpty {buffer : LineBuffer} (h : buffer.IsEmpty) {byte : UInt8} (hbyte : byte ≠ lf) :
    buffer.push byte = LineBuffer.push {} byte := by
  obtain ⟨held, sawCr, lost⟩ := buffer
  obtain ⟨rfl, rfl⟩ := h
  simp [push, store, hbyte]

open LineSplit LineBuffer

namespace Intake

/-- Puts lines where they belong, one after the other. -/
def routeAll (intake : Intake) (lines : List Bytes) : Intake :=
  lines.foldl (fun intake line => (intake.route line).1) intake

variable {intake : Intake}

theorem routeAll_append (intake : Intake) (first rest : List Bytes) :
    intake.routeAll (first ++ rest) = (intake.routeAll first).routeAll rest :=
  List.foldl_append

def withBuffer (intake : Intake) (buffer : LineBuffer) : Intake := { intake with buffer }

/-- Where a line belongs does not depend on what is in the line buffer. -/
theorem route_withBuffer (intake : Intake) (buffer : LineBuffer) (line : Bytes) :
    ((intake.withBuffer buffer).route line).1 = (intake.route line).1.withBuffer buffer := by
  unfold route withBuffer
  split
  · split <;> rfl
  · split
    · rfl
    · rcases Text.decode? line with _ | text
      · rfl
      · simp only
        rcases intake.slot.hear text with ⟨slot, _ | _⟩ <;> rfl

theorem routeAll_withBuffer (intake : Intake) (buffer : LineBuffer) (lines : List Bytes) :
    (intake.withBuffer buffer).routeAll lines = (intake.routeAll lines).withBuffer buffer := by
  induction lines generalizing intake with
  | nil => rfl
  | cons line rest ih =>
    have htail := ih (intake.route line).1
    rw [← route_withBuffer] at htail
    exact htail

/-- One byte: the lines that the longer stream has more are routed. -/
theorem receive_eq {stream : Bytes} (h : intake.buffer = LineSplit.buffer stream) (byte : UInt8) :
    ∃ more, lines (stream ++ [byte]) = lines stream ++ more ∧
      intake.receive byte = (intake.withBuffer (LineSplit.buffer (stream ++ [byte]))).routeAll more := by
  obtain ⟨hbuffer, hevents⟩ := push_buffer stream byte
  refine ⟨((LineSplit.buffer stream).push byte).2.toList.filterMap line?, ?_, ?_⟩
  · rw [lines, hevents, List.filterMap_append]
    rfl
  · unfold receive
    rw [h, ← hbuffer]
    rcases (LineSplit.buffer stream).push byte with ⟨after, _ | ⟨bytes | cause⟩⟩ <;> rfl

/-- All lines of a stream are routed. -/
theorem feed_eq (intake : Intake) (stream : Bytes) :
    (intake.withBuffer {}).feed stream = (intake.routeAll (lines stream)).withBuffer (LineSplit.buffer stream) := by
  induction stream using List.reverseRecOn with
  | nil => rfl
  | append_singleton stream byte ih =>
    obtain ⟨more, hmore, hreceive⟩ := receive_eq (congrArg Intake.buffer ih) byte
    have hfeed : (intake.withBuffer {}).feed (stream ++ [byte]) = ((intake.withBuffer {}).feed stream).receive byte :=
      feed_append _ _ _
    rw [hfeed, hreceive, ih, hmore, routeAll_append, routeAll_withBuffer, routeAll_withBuffer]
    rfl

/-! ### What some lines do -/

theorem route_closed (intake : Intake) (line : Bytes) :
    (intake.route line).1.closed = (intake.closed || decide (closedMark = line)) := by
  have hmark : noticeMark.isPrefixOf closedMark = false := by decide
  unfold route
  split
  · have hne : ¬closedMark = line := by
      rintro rfl
      simp_all
    split <;> simp [hne]
  · split
    · simp_all
    · have hne : ¬closedMark = line := fun h => by simp_all
      split
      · simp [hne]
      · split <;> simp [hne]

/-- The link is reported down exactly if one of the lines says so. -/
theorem routeAll_closed (intake : Intake) (lines : List Bytes) :
    (intake.routeAll lines).closed = (intake.closed || decide (closedMark ∈ lines)) := by
  induction lines generalizing intake with
  | nil => simp [routeAll]
  | cons line rest ih =>
    have hrest : (intake.routeAll (line :: rest)).closed = ((intake.route line).1.routeAll rest).closed := rfl
    rw [hrest, ih, route_closed, Bool.or_assoc]
    simp

theorem route_inbound_of_mark {line : Bytes} (h : noticeMark.isPrefixOf line) : (intake.route line).1.inbound =
    if intake.inbound.length < Limits.inbound then intake.inbound ++ [line] else intake.inbound := by
  rw [route, if_pos h]
  split <;> rfl

theorem route_inbound {line : Bytes} (h : ¬noticeMark.isPrefixOf line) :
    (intake.route line).1.inbound = intake.inbound := by
  unfold route
  rw [if_neg h]
  split
  · rfl
  · split
    · rfl
    · split <;> rfl

/-- Of the lines that are notifications, as many as there is room for are queued. -/
theorem routeAll_inbound (intake : Intake) (lines : List Bytes) : (intake.routeAll lines).inbound =
    intake.inbound ++ (lines.filter noticeMark.isPrefixOf).take (Limits.inbound - intake.inbound.length) := by
  induction lines generalizing intake with
  | nil => simp [routeAll]
  | cons line rest ih =>
    have hrest : (intake.routeAll (line :: rest)).inbound = ((intake.route line).1.routeAll rest).inbound := rfl
    rw [hrest, ih]
    by_cases hmark : noticeMark.isPrefixOf line
    · rw [route_inbound_of_mark hmark, List.filter_cons_of_pos hmark]
      split
      · rename_i hroom
        obtain ⟨room, hroom⟩ := Nat.exists_eq_add_of_lt hroom
        have hleft : Limits.inbound - intake.inbound.length = room + 1 := by omega
        rw [hleft, List.take_succ_cons, List.append_assoc, List.length_append, List.length_singleton,
          ← Nat.sub_sub, hleft]
        rfl
      · rename_i hfull
        rw [Nat.sub_eq_zero_of_le (Nat.not_lt.mp hfull)]
        simp
    · rw [route_inbound hmark, List.filter_cons_of_neg hmark]

/-! ### The first byte of a line -/

theorem receive_of_isEmpty (h : intake.buffer.IsEmpty) {byte : UInt8} (hbyte : byte ≠ lf) :
    intake.receive byte = (intake.withBuffer {}).receive byte := by
  unfold receive
  rw [push_of_isEmpty h hbyte]
  rfl

theorem feed_of_isEmpty (h : intake.buffer.IsEmpty) {stream : Bytes} {first : UInt8}
    (hhead : stream.head? = some first) (hfirst : first ≠ lf) :
    intake.feed stream = (intake.withBuffer {}).feed stream := by
  obtain ⟨rest, rfl⟩ := List.head?_eq_some_iff.mp hhead
  show (intake.receive first).feed rest = ((intake.withBuffer {}).receive first).feed rest
  rw [receive_of_isEmpty h hfirst]

end Intake

/-! ### One line alone -/

namespace LineSplit

/-- None of the bytes is deleted from a line. -/
def Unbroken (bytes : Bytes) : Prop := ∀ byte ∈ bytes, byte ≠ cr ∧ byte ≠ lf ∧ byte ≠ nul

instance (bytes : Bytes) : Decidable (Unbroken bytes) :=
  List.decidableBAll (fun byte => byte ≠ cr ∧ byte ≠ lf ∧ byte ≠ nul) bytes

variable {line stream first rest : Bytes}

theorem unbroken_append : Unbroken (first ++ rest) ↔ Unbroken first ∧ Unbroken rest := List.forall_mem_append

theorem Unbroken.text (h : Unbroken line) : text line = line := by
  refine List.filter_eq_self.mpr fun byte hbyte => ?_
  exact decide_eq_true (h byte hbyte)

theorem unbroken_iff_text : Unbroken line ↔ text line = line := by
  simp only [Unbroken, LineSplit.text, List.filter_eq_self, decide_eq_true_eq]

theorem text_append (first rest : Bytes) : text (first ++ rest) = text first ++ text rest := List.filter_append ..

theorem Unbroken.whole (h : Unbroken line) : ¬[cr, lf] <:+: line := fun hcut =>
  (h cr (hcut.subset List.mem_cons_self)).1 rfl

theorem pieces_of_whole (h : ¬[cr, lf] <:+: stream) : pieces stream = ([], stream) := by
  induction stream using List.reverseRecOn with
  | nil => rfl
  | append_singleton stream byte ih =>
    rw [pieces_concat, ih fun hcut => h (hcut.trans (List.prefix_append _ _).isInfix), if_neg]
    rintro ⟨rfl, hlast⟩
    obtain ⟨before, rfl⟩ := List.getLast?_eq_some_iff.mp hlast
    exact h ⟨before, [], by simp⟩

/-- A line without CR LF stays one when a CR follows it. -/
theorem whole_concat_cr (h : ¬[cr, lf] <:+: line) : ¬[cr, lf] <:+: line ++ [cr] := by
  intro hcut
  rcases List.infix_concat_iff.mp hcut with ⟨before, hbefore⟩ | hcut
  · have hlast := congrArg List.getLast? hbefore
    simp [cr, lf] at hlast
  · exact h hcut

theorem takeWhile_of_head (h : line.head? ≠ some prompt) : line.takeWhile (· = prompt) = [] := by
  cases line with
  | nil => rfl
  | cons first rest => exact List.takeWhile_cons_of_neg (by simpa using h)

/-- What comes before a line end gives no line, as long as it does not start with `>`. -/
theorem events_of_whole (h : ¬[cr, lf] <:+: stream) (hprompt : (text stream).head? ≠ some prompt) :
    events stream = [] := by
  simp [events, pieces_of_whole h, prompts, takeWhile_of_head hprompt]

/-- What stands before, between and behind the line ends of a stream. -/
def parts (stream : Bytes) : List Bytes := (pieces stream).1 ++ [(pieces stream).2]

theorem pieces_ended (stream : Bytes) : pieces (stream ++ [cr, lf]) = (parts stream, []) := by
  have hcr : pieces (stream ++ [cr]) = ((pieces stream).1, (pieces stream).2 ++ [cr]) := by
    rw [pieces_concat, if_neg (by simp [cr, lf])]
  have hstream : stream ++ [cr, lf] = (stream ++ [cr]) ++ [lf] := by simp
  rw [hstream, pieces_concat, if_pos (by simp), hcr, List.dropLast_concat, parts]

/-- The lines that a piece gives, once it is whole. -/
def pieceLines (piece : Bytes) : List Bytes := (prompts piece ++ ending piece).filterMap line?

theorem lines_ended (stream : Bytes) : lines (stream ++ [cr, lf]) = (parts stream).flatMap pieceLines := by
  have hnil : prompts [] = [] := rfl
  rw [lines, events, pieces_ended, hnil, List.append_nil, List.filterMap_flatMap]
  rfl

theorem pieceLines_eq {piece : Bytes} (h : (text piece).head? ≠ some prompt) :
    pieceLines piece = if text piece = [] ∨ Limits.line < (text piece).length then [] else [text piece] := by
  have hprompts : (text piece).takeWhile (· = prompt) = [] := takeWhile_of_head h
  have hbody : body piece = text piece := by
    have hsplit := List.takeWhile_append_dropWhile (p := (· = prompt)) (l := text piece)
    rwa [hprompts, List.nil_append] at hsplit
  rw [pieceLines, prompts, hprompts, List.map_nil, List.nil_append, ending, hbody]
  by_cases hempty : text piece = []
  · simp [hempty]
  · by_cases hlong : Limits.line < (text piece).length
    · simp [hempty, hlong, Nat.not_le.mpr hlong, line?]
    · simp [hempty, hlong, Nat.not_lt.mp hlong, line?]

/-- A whole line is given at its end, unless nothing is left of it or it is too long. -/
theorem lines_line (h : ¬[cr, lf] <:+: line) (hprompt : (text line).head? ≠ some prompt) :
    lines (line ++ [cr, lf]) = if text line = [] ∨ Limits.line < (text line).length then [] else [text line] := by
  rw [lines_ended, parts, pieces_of_whole h, List.nil_append, List.flatMap_singleton, pieceLines_eq hprompt]

end LineSplit
end SensorLink
