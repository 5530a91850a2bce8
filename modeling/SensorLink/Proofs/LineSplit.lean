import Mathlib.Data.List.Induction
import Mathlib.Data.List.TakeWhile
import SensorLink.Receiver

/-! The lines of a whole stream, computed without a state: the stream is cut at every CR LF, and each piece
    gives its lines. The line buffer finds the same lines byte by byte (`pushAll_eq`), and a receiver finds them in
    whatever portions the bytes come (`Receiver.run_eq`). -/

namespace SensorLink
namespace LineSplit
open LineBuffer

/-! ### The pieces of a stream -/

/-- The pieces that a CR LF ends, and what follows the last of them. -/
def pieces : Bytes → List Bytes × Bytes
  | [] => ([], [])
  | [byte] => ([], [byte])
  | first :: second :: rest =>
    if first = cr ∧ second = lf then ([] :: (pieces rest).1, (pieces rest).2)
    else match pieces (second :: rest) with
      | ([], tail) => ([], first :: tail)
      | (piece :: more, tail) => ((first :: piece) :: more, tail)

/-- What is left of a piece when CR, LF and NUL are deleted. -/
def text (piece : Bytes) : Bytes := piece.filter fun byte => byte ≠ cr ∧ byte ≠ lf ∧ byte ≠ nul

/-- One line for each `>` at the start of a piece. -/
def prompts (piece : Bytes) : List Event :=
  ((text piece).takeWhile (· = prompt)).map fun _ => .line [prompt]

/-- What follows the `>` at the start of a piece. -/
def body (piece : Bytes) : Bytes := (text piece).dropWhile (· = prompt)

/-- What the end of a piece gives. -/
def ending (piece : Bytes) : List Event :=
  if body piece = [] then []
  else if (body piece).length ≤ Limits.line then [.line (body piece)]
  else [.rejected .overflow]

/-- All that a stream gives. -/
def events (stream : Bytes) : List Event :=
  ((pieces stream).1.flatMap fun piece => prompts piece ++ ending piece) ++ prompts (pieces stream).2

/-- The line buffer behind a stream. -/
def buffer (stream : Bytes) : LineBuffer where
  held := (body (pieces stream).2).take Limits.line
  sawCr := stream.getLast? = some cr
  lost := (body (pieces stream).2).length - Limits.line

theorem flatten_pieces (stream : Bytes) :
    (pieces stream).1.flatMap (· ++ [cr, lf]) ++ (pieces stream).2 = stream := by
  fun_induction pieces stream with
  | case1 => rfl
  | case2 byte => rfl
  | case3 first second rest h ih =>
    obtain ⟨rfl, rfl⟩ := h
    simpa using ih
  | case4 first second rest h tail heq ih =>
    simpa [heq] using ih
  | case5 first second rest h piece more tail heq ih =>
    simpa [heq] using ih

theorem getLast?_tail {stream : Bytes} (h : stream.getLast? = some cr) :
    (pieces stream).2.getLast? = some cr := by
  rw [← flatten_pieces stream, List.getLast?_append] at h
  cases htail : (pieces stream).2.getLast? with
  | some last => simpa [htail] using h
  | none =>
    -- Nothing follows the pieces, which end with LF.
    rw [htail, Option.none_or] at h
    obtain hnil | ⟨more, piece, hmore⟩ := List.eq_nil_or_concat (pieces stream).1
    · simp [hnil] at h
    · simp [hmore, cr, lf] at h

/-- A byte more ends the last piece, or belongs to it. -/
theorem pieces_concat (stream : Bytes) (byte : UInt8) :
    pieces (stream ++ [byte]) =
      if byte = lf ∧ stream.getLast? = some cr then
        ((pieces stream).1 ++ [(pieces stream).2.dropLast], [])
      else ((pieces stream).1, (pieces stream).2 ++ [byte]) := by
  fun_induction pieces stream with
  | case1 => simp [pieces]
  | case2 first => by_cases h : first = cr <;> by_cases h' : byte = lf <;> simp [pieces, h, h']
  | case3 first second rest h ih =>
    obtain ⟨rfl, rfl⟩ := h
    have hlast : (cr :: lf :: rest).getLast? = some cr ↔ rest.getLast? = some cr := by
      cases rest <;> simp [List.getLast?_cons_cons, cr, lf]
    simp only [List.cons_append, pieces, and_self, if_true, ih, hlast]
    split <;> simp
  | case4 first second rest h tail heq ih =>
    simp only [List.cons_append] at ih
    simp only [List.cons_append, pieces, h, if_false, ih, heq, List.getLast?_cons_cons]
    by_cases hend : byte = lf ∧ (second :: rest).getLast? = some cr
    · -- The CR that the line end began with belongs to the tail, which is then not empty.
      have htail := getLast?_tail hend.2
      rw [heq] at htail
      have hne : tail ≠ [] := by rintro rfl; simp at htail
      simp [hend, List.dropLast_cons_of_ne_nil hne]
    · simp [hend]
  | case5 first second rest h piece more tail heq ih =>
    simp only [List.cons_append] at ih
    simp only [List.cons_append, pieces, h, if_false, ih, heq, List.getLast?_cons_cons]
    by_cases hend : byte = lf ∧ (second :: rest).getLast? = some cr <;> simp [hend]

/-- The stream is cut wherever a CR LF stands: no piece holds one. -/
theorem not_infix_pieces (stream : Bytes) :
    (∀ piece ∈ (pieces stream).1, ¬[cr, lf] <:+: piece) ∧ ¬[cr, lf] <:+: (pieces stream).2 := by
  induction stream using List.reverseRecOn with
  | nil => simp [pieces]
  | append_singleton stream byte ih =>
    rw [pieces_concat]
    by_cases hend : byte = lf ∧ stream.getLast? = some cr
    · rw [if_pos hend]
      have hdrop : ¬[cr, lf] <:+: (pieces stream).2.dropLast := fun h =>
        ih.2 (h.trans (List.dropLast_prefix _).isInfix)
      simpa [or_imp, forall_and] using ⟨ih.1, hdrop⟩
    · rw [if_neg hend]
      refine ⟨ih.1, fun h => ?_⟩
      rcases List.infix_concat_iff.mp h with hsuffix | hinfix
      · -- A new occurrence would end with the new byte, and the CR before it would end the stream.
        obtain ⟨before, hbefore⟩ := hsuffix
        have hsplit : (before ++ [cr]) ++ [lf] = (pieces stream).2 ++ [byte] := by simpa using hbefore
        obtain ⟨htail, hbyte⟩ := List.append_inj' hsplit rfl
        have hlast : stream.getLast? = some cr := by
          rw [← flatten_pieces stream, List.getLast?_append, ← htail]
          simp
        exact hend ⟨(List.singleton_inj.mp hbyte).symm, hlast⟩
      · exact ih.2 hinfix

/-! ### Byte by byte -/

theorem text_dropLast {piece : Bytes} (h : piece.getLast? = some cr) : text piece.dropLast = text piece := by
  obtain ⟨before, rfl⟩ := List.getLast?_eq_some_iff.mp h
  simp [text]

theorem text_concat_of_break (piece : Bytes) {byte : UInt8} (h : byte = cr ∨ byte = lf ∨ byte = nul) :
    text (piece ++ [byte]) = text piece := by
  rcases h with rfl | rfl | rfl <;> simp [text]

theorem text_concat (piece : Bytes) {byte : UInt8} (hcr : byte ≠ cr) (hlf : byte ≠ lf) (hnul : byte ≠ nul) :
    text (piece ++ [byte]) = text piece ++ [byte] := by
  simp [text, hcr, hlf, hnul]

/-- Only a `>` behind nothing but `>` adds to the prompts. -/
theorem prompts_concat {piece : Bytes} {byte : UInt8} (h : text (piece ++ [byte]) = text piece ++ [byte]) :
    prompts (piece ++ [byte]) =
      if byte = prompt ∧ body piece = [] then prompts piece ++ [.line [prompt]] else prompts piece := by
  unfold prompts body
  rw [h, List.takeWhile_append]
  have hlen : ((text piece).takeWhile (· = prompt)).length = (text piece).length ↔
      (text piece).dropWhile (· = prompt) = [] := by
    have hsum := congrArg List.length (List.takeWhile_append_dropWhile (p := (· = prompt)) (l := text piece))
    rw [List.length_append] at hsum
    rw [← List.length_eq_zero_iff]
    omega
  by_cases hnil : (text piece).dropWhile (· = prompt) = []
  · -- The text so far is nothing but `>`.
    have hall := List.takeWhile_append_dropWhile (p := (· = prompt)) (l := text piece)
    rw [hnil, List.append_nil] at hall
    by_cases hbyte : byte = prompt <;> simp [hnil, hbyte, hall]
  · simp [hlen, hnil]

theorem body_concat {piece : Bytes} {byte : UInt8} (h : text (piece ++ [byte]) = text piece ++ [byte]) :
    body (piece ++ [byte]) = if byte = prompt ∧ body piece = [] then [] else body piece ++ [byte] := by
  unfold body
  rw [h, List.dropWhile_append]
  by_cases hnil : (text piece).dropWhile (· = prompt) = [] <;> by_cases hbyte : byte = prompt <;>
    simp [hnil, hbyte]

theorem endLine_buffer (stream : Bytes) :
    (buffer stream).endLine = ({}, (ending (pieces stream).2).head?) := by
  by_cases hnil : body (pieces stream).2 = []
  · simp [endLine, buffer, ending, hnil]
  · by_cases hlong : (body (pieces stream).2).length ≤ Limits.line
    · have hlost : ¬0 < (body (pieces stream).2).length - Limits.line := by omega
      simp [endLine, buffer, ending, hnil, hlong, List.take_of_length_le]
    · have hlost : 0 < (body (pieces stream).2).length - Limits.line := by omega
      simp [endLine, buffer, ending, hnil, hlong, hlost]

theorem toList_head?_ending (piece : Bytes) : (ending piece).head?.toList = ending piece := by
  unfold ending
  split
  · rfl
  · split <;> rfl

/-- A text byte: it is a prompt, it still fits, or it is counted as lost. -/
theorem store_buffer (stream : Bytes) {byte : UInt8}
    (h : text ((pieces stream).2 ++ [byte]) = text (pieces stream).2 ++ [byte]) :
    ((buffer stream).store byte).1 =
        { held := (body ((pieces stream).2 ++ [byte])).take Limits.line
          lost := (body ((pieces stream).2 ++ [byte])).length - Limits.line } ∧
      prompts ((pieces stream).2 ++ [byte]) =
        prompts (pieces stream).2 ++ ((buffer stream).store byte).2.toList := by
  have hpos : 0 < Limits.line := by decide
  have hheld : (buffer stream).held = [] ↔ body (pieces stream).2 = [] := by
    simp [buffer, hpos.ne']
  rw [prompts_concat h, body_concat h]
  unfold store
  by_cases hprompt : byte = prompt ∧ body (pieces stream).2 = []
  · rw [if_pos (by rwa [hheld])]
    simp [hprompt, buffer]
  · rw [if_neg (by rwa [hheld]), if_neg hprompt, if_neg hprompt]
    by_cases hfits : (body (pieces stream).2).length < Limits.line
    · have hlen : (buffer stream).held.length < Limits.line := by simp [buffer]; omega
      have hnew : (body (pieces stream).2 ++ [byte]).length ≤ Limits.line := by simp; omega
      rw [if_pos hlen, List.take_of_length_le hnew, Nat.sub_eq_zero_of_le hnew]
      simp [buffer, List.take_of_length_le hfits.le, hfits.le]
    · have hlen : ¬(buffer stream).held.length < Limits.line := by simp [buffer]; omega
      rw [if_neg hlen, List.take_append_of_le_length (by omega), List.length_append, List.length_singleton,
        Nat.sub_add_comm (by omega)]
      simp [buffer]

/-- One byte: the line buffer goes on from the buffer of a stream to that of the longer stream, and gives
    what the longer stream gives more. -/
theorem push_buffer (stream : Bytes) (byte : UInt8) :
    ((buffer stream).push byte).1 = buffer (stream ++ [byte]) ∧
      events (stream ++ [byte]) = events stream ++ ((buffer stream).push byte).2.toList := by
  unfold LineBuffer.push
  by_cases hend : byte = lf ∧ stream.getLast? = some cr
  · -- The line ends: its piece loses the CR, which is no text, and an empty one follows.
    have hsaw : byte = lf ∧ (buffer stream).sawCr = true := by simpa [buffer] using hend
    have htext := text_dropLast (getLast?_tail hend.2)
    have hprompts : prompts (pieces stream).2.dropLast = prompts (pieces stream).2 := by
      unfold prompts; rw [htext]
    have hending : ending (pieces stream).2.dropLast = ending (pieces stream).2 := by
      unfold ending body; rw [htext]
    have hnil : prompts [] = [] := rfl
    rw [if_pos hsaw, endLine_buffer]
    refine ⟨?_, ?_⟩
    · simp [buffer, pieces_concat, hend, body, text, cr, lf]
    · simp [events, pieces_concat, hend, hprompts, hending, hnil, toList_head?_ending]
  · have hsaw : ¬(byte = lf ∧ (buffer stream).sawCr = true) := by simpa [buffer] using hend
    have hpieces : pieces (stream ++ [byte]) = ((pieces stream).1, (pieces stream).2 ++ [byte]) := by
      rw [pieces_concat, if_neg hend]
    have hevents : ∀ more, prompts ((pieces stream).2 ++ [byte]) = prompts (pieces stream).2 ++ more →
        events (stream ++ [byte]) = events stream ++ more := fun more h => by
      simp only [events, hpieces, h, List.append_assoc]
    rw [if_neg hsaw]
    by_cases hbreak : byte = cr ∨ byte = lf ∨ byte = nul
    · -- A byte that is deleted.
      have htext := text_concat_of_break (pieces stream).2 hbreak
      have hbody : body ((pieces stream).2 ++ [byte]) = body (pieces stream).2 := by
        unfold body; rw [htext]
      have hprompts : events (stream ++ [byte]) = events stream ++ [] :=
        hevents [] (by unfold prompts; rw [htext, List.append_nil])
      have hbuffer : buffer (stream ++ [byte]) = { buffer stream with sawCr := decide (byte = cr) } := by
        simp only [buffer, hpieces, hbody, List.getLast?_concat, Option.some.injEq]
      rw [hbuffer]
      by_cases hcr : byte = cr
      · rw [if_pos hcr]
        exact ⟨by simp [hcr], hprompts⟩
      · rw [if_neg hcr, if_pos (hbreak.resolve_left hcr)]
        exact ⟨by simp [hcr], hprompts⟩
    · obtain ⟨hcr, hlf, hnul⟩ : byte ≠ cr ∧ byte ≠ lf ∧ byte ≠ nul := by simpa using hbreak
      obtain ⟨hstore, hprompts⟩ := store_buffer stream (text_concat _ hcr hlf hnul)
      rw [if_neg hcr, if_neg (by simp [hlf, hnul])]
      exact ⟨by rw [hstore]; simp [buffer, hpieces, hcr], hevents _ hprompts⟩

/-- The line buffer finds the lines of the whole stream. -/
theorem pushAll_eq (stream : Bytes) : LineBuffer.pushAll {} stream = (buffer stream, events stream) := by
  induction stream using List.reverseRecOn with
  | nil => rfl
  | append_singleton stream byte ih =>
    obtain ⟨hbuffer, hevents⟩ := push_buffer stream byte
    rw [pushAll_append, ih, hevents, ← hbuffer]
    simp [pushAll]

/-! ### Portions -/

/-- What the line buffer of an intake makes of the bytes that the intake receives. -/
def found (intake : Intake) : Bytes → List Event
  | [] => []
  | byte :: rest => (intake.buffer.push byte).2.toList ++ found (intake.receive byte) rest

def foundIn (intake : Intake) : List Bytes → List Event
  | [] => []
  | portion :: portions => found intake portion ++ foundIn (intake.feed portion) portions

theorem route_buffer (intake : Intake) (line : Bytes) : (intake.route line).1.buffer = intake.buffer := by
  unfold Intake.route
  split
  · split <;> rfl
  · split
    · rfl
    · split
      · rfl
      · split <;> rfl

theorem receive_buffer (intake : Intake) (byte : UInt8) :
    (intake.receive byte).buffer = (intake.buffer.push byte).1 := by
  unfold Intake.receive
  split
  · rename_i heq
    rw [route_buffer, heq]
  · rename_i heq
    rw [heq]

theorem feed_cons (intake : Intake) (byte : UInt8) (rest : Bytes) :
    intake.feed (byte :: rest) = (intake.receive byte).feed rest := rfl

theorem found_eq (intake : Intake) (bytes : Bytes) :
    intake.buffer.pushAll bytes = ((intake.feed bytes).buffer, found intake bytes) := by
  induction bytes generalizing intake with
  | nil => rfl
  | cons byte rest ih =>
    have htail := ih (intake.receive byte)
    rw [receive_buffer] at htail
    simp only [pushAll, htail, found, feed_cons]

/-- Where the portions are cut makes no difference. -/
theorem foundIn_eq (intake : Intake) (portions : List Bytes) :
    intake.buffer.pushAll portions.flatten =
      ((portions.foldl Intake.feed intake).buffer, foundIn intake portions) := by
  induction portions generalizing intake with
  | nil => rfl
  | cons portion portions ih =>
    rw [List.flatten_cons, pushAll_append, found_eq intake portion]
    simp only [ih (intake.feed portion), List.foldl_cons, foundIn]

end LineSplit

/-! ### A serial line -/

namespace Receiver

def Chunk.bytes : Chunk → Bytes
  | .data bytes => bytes
  | .fault _ => []

@[simp] theorem Chunk.bytes_data (bytes : Bytes) : (Chunk.data bytes).bytes = bytes := rfl

@[simp] theorem Chunk.bytes_fault (cause : Fault) : (Chunk.fault cause).bytes = [] := rfl

/-- The bytes before the first read that gives none, because the line ended or failed. -/
def stream (chunks : List Chunk) : Bytes := (chunks.takeWhile (·.bytes ≠ [])).flatMap Chunk.bytes

/-- What stops the reading: a failure, unless the line ended first. -/
def fault? (chunks : List Chunk) : Option Fault :=
  match chunks.dropWhile (·.bytes ≠ []) with
  | .fault cause :: _ => some cause
  | _ => none

theorem flatten_map_range {α : Type} (size : Nat) (xs : List α) (n : Nat) :
    ((List.range n).map fun i => (xs.drop (size * i)).take size).flatten = xs.take (size * n) := by
  induction n with
  | zero => simp
  | succ n ih =>
    rw [List.range_succ, List.map_append, List.flatten_append, ih, Nat.mul_succ, List.take_add]
    simp

theorem flatten_chunks {α : Type} {size : Nat} (hsize : 0 < size) (xs : List α) :
    (Cut.chunks size xs).flatten = xs := by
  unfold Cut.chunks
  rw [flatten_map_range]
  apply List.take_of_length_le
  have hlt := Nat.lt_mul_div_succ (xs.length + size - 1) hsize
  rw [Nat.mul_succ] at hlt
  omega

theorem run_eq (intake : Intake) (chunks : List Chunk) :
    (run intake chunks).intake = (run intake chunks).reads.foldl Intake.feed intake ∧
      (run intake chunks).reads.flatten = stream chunks ∧
      (run intake chunks).rest = (chunks.dropWhile (·.bytes ≠ [])).tail ∧
      (run intake chunks).fault = fault? chunks := by
  fun_induction run intake chunks with
  | case1 intake => simp [stream, fault?]
  | case2 intake cause rest => simp [stream, fault?]
  | case3 intake rest => simp [stream, fault?, Intake.feed]
  | case4 intake bytes rest hne given outcome ih =>
    obtain ⟨hintake, hreads, hrest, hfault⟩ := ih
    have hbytes : bytes ≠ [] := fun h => hne h
    have hgiven : given.flatten = bytes := flatten_chunks (by decide) bytes
    refine ⟨?_, ?_, ?_, ?_⟩
    · rw [List.foldl_append]
      exact hintake
    · simpa [hgiven, stream, hbytes] using hreads
    · simpa [hbytes] using hrest
    · simpa [fault?, hbytes] using hfault

end Receiver

namespace LineSplit
open LineBuffer

/-- However a stream is cut, into calls of any sizes or into the reads of a serial line, the line buffer finds
    exactly the events of its pieces; it is left with the body of the last piece, as much as fits, and knows
    whether a CR came last. The reads take the bytes up to the first that gives nothing. -/
theorem events_of_any_cut (intake : Intake) (portions : List Bytes) (chunks : List Receiver.Chunk) :
    let fresh : Intake := { intake with buffer := {} }
    let fed := portions.foldl Intake.feed fresh
    let outcome := Receiver.run fresh chunks
    (LineBuffer.pushAll {} portions.flatten).2 = events portions.flatten ∧
    foundIn fresh portions = events portions.flatten ∧
    fed.buffer.held.length = min Limits.line (body (pieces portions.flatten).2).length ∧
    (fed.buffer.sawCr = true ↔ portions.flatten.getLast? = some cr) ∧
    outcome.reads.flatten = Receiver.stream chunks ∧
    outcome.intake = outcome.reads.foldl Intake.feed fresh ∧
    foundIn fresh outcome.reads = events (Receiver.stream chunks) ∧
    outcome.rest = (chunks.dropWhile (·.bytes ≠ [])).tail ∧
    outcome.fault = Receiver.fault? chunks := by
  intro fresh fed outcome
  -- Any portions of a stream leave the buffer of the stream and find its events.
  have hall : ∀ portions : List Bytes, (portions.foldl Intake.feed fresh).buffer = buffer portions.flatten ∧
      foundIn fresh portions = events portions.flatten := fun portions => by
    have h := foundIn_eq fresh portions
    rw [show fresh.buffer = {} from rfl, pushAll_eq] at h
    exact ⟨(congrArg Prod.fst h).symm, (congrArg Prod.snd h).symm⟩
  obtain ⟨hbuffer, hfound⟩ := hall portions
  obtain ⟨hintake, hreads, hrest, hfault⟩ := Receiver.run_eq fresh chunks
  refine ⟨by rw [pushAll_eq], hfound, ?_, ?_, hreads, hintake, ?_, hrest, hfault⟩
  · rw [hbuffer, buffer, List.length_take]
  · rw [hbuffer, buffer, decide_eq_true_iff]
  · rw [(hall outcome.reads).2, hreads]

end LineSplit
end SensorLink
