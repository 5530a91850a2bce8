import SensorLink.Proofs.CommandText
import SensorLink.Proofs.NoticeText
import SensorLink.Identity
import SensorLink.Dialogue

/-! When a command is one line on the wire: exactly if each value in its quotes is (`isOneLine_ofParts?`). Quoting
    leaves line breaks and NUL as they are, so they have to be kept out of the values. -/

namespace SensorLink
open LineSplit

/-! ### Texts without line breaks -/

namespace Text

/-- A text that is one line on the wire. -/
def IsOneLine (text : String) : Prop := Unbroken (encode text)

instance (text : String) : Decidable (IsOneLine text) := inferInstanceAs (Decidable (Unbroken (encode text)))

theorem isOneLine_iff {text : String} : IsOneLine text ↔ ∀ c ∈ text.toList, Command.isBreaking c = false := by
  have hbyte {b : UInt8} (hb : b < 128) : b ∉ encode text ↔ ∀ c ∈ text.toList, c.toNat ≠ b.toNat := by
    simp [mem_encode_iff hb]
  have hbytes : IsOneLine text ↔
      LineBuffer.cr ∉ encode text ∧ LineBuffer.lf ∉ encode text ∧ LineBuffer.nul ∉ encode text := by
    constructor
    · intro h
      exact ⟨fun hmem => (h _ hmem).1 rfl, fun hmem => (h _ hmem).2.1 rfl, fun hmem => (h _ hmem).2.2 rfl⟩
    · rintro ⟨hcr, hlf, hnul⟩ byte hmem
      exact ⟨fun heq => hcr (heq ▸ hmem), fun heq => hlf (heq ▸ hmem), fun heq => hnul (heq ▸ hmem)⟩
  rw [hbytes, hbyte (by decide), hbyte (by decide), hbyte (by decide), ← forall₂_and, ← forall₂_and]
  refine forall₂_congr fun c _ => ?_
  simp only [Command.isBreaking, Bool.or_eq_false_iff, beq_eq_false_iff_ne, ne_eq, ← Char.toNat_inj, and_assoc]
  exact Iff.rfl

end Text

namespace Command
open Text

/-! ### Commands -/

theorem isOneLine_digits (n : Nat) : ∀ c ∈ Nat.toDigits 10 n, isBreaking c = false := fun c hc => by
  have hdigit := Notice.isDigit_of_mem hc
  simp only [isBreaking, Bool.or_eq_false_iff, beq_eq_false_iff_ne]
  refine ⟨⟨?_, ?_⟩, ?_⟩ <;> rintro rfl <;> simp at hdigit

theorem isOneLine_quote (value : List Char) :
    (∀ c ∈ quote value, isBreaking c = false) ↔ ∀ c ∈ value, isBreaking c = false := by
  have hescape (c : Char) : (∀ d ∈ escape c, isBreaking d = false) ↔ isBreaking c = false := by
    have hbackslash : isBreaking '\\' = false := by decide
    unfold escape
    split <;> simp [hbackslash]
  have hquote : isBreaking '"' = false := by decide
  rw [quote, List.forall_mem_cons, List.forall_mem_append, List.forall_mem_flatMap]
  simp only [hescape, List.forall_mem_singleton, hquote, and_true, true_and]

def Part.plain? : Part → Option String
  | .plain text => some text
  | _ => none

def Part.quoted? : Part → Option String
  | .quoted value => some value
  | _ => none

/-- A command is one line exactly if the values in its quotes are. -/
theorem isOneLine_ofParts? {parts : List Part} {command : Command} (h : ofParts? parts = some command)
    (hplain : ∀ text ∈ parts.filterMap Part.plain?, IsOneLine text) :
    IsOneLine command.text ↔ ∀ value ∈ parts.filterMap Part.quoted?, IsOneLine value := by
  rw [isOneLine_iff, ofParts?_eq_some_iff.mp h, List.forall_mem_flatMap]
  simp only [List.mem_filterMap] at hplain ⊢
  constructor
  · rintro h value ⟨part, hpart, hvalue⟩
    cases part with
    | quoted other =>
      cases hvalue
      exact isOneLine_iff.mpr ((isOneLine_quote _).mp (h _ hpart))
    | plain text | number n => cases hvalue
  · intro h part hpart
    cases part with
    | plain text => exact isOneLine_iff.mp (hplain text ⟨_, hpart, rfl⟩)
    | quoted value => exact (isOneLine_quote _).mpr (isOneLine_iff.mp (h value ⟨_, hpart, rfl⟩))
    | number n => exact isOneLine_digits n

theorem isOneLine_inlineText? {payload : Bytes} {text : String} (h : inlineText? payload = some text) :
    IsOneLine text := by
  obtain ⟨-, hclean⟩ := Option.filter_eq_some_iff.mp h
  simpa [isOneLine_iff] using hclean

end Command

/-! ### Full topics -/

/-- What holds of the separator holds of every character of a topic exactly if it does in each of its parts. -/
theorem Topic.forall_mem_ofLevels {P : Char → Prop} (hseparator : P Topic.separator) (parts : List String) :
    (∀ c ∈ (Topic.ofLevels parts).toList, P c) ↔ ∀ part ∈ parts, ∀ c ∈ part.toList, P c := by
  have hintercalate (pieces : List (List Char)) :
      (∀ c ∈ [Topic.separator].intercalate pieces, P c) ↔ ∀ piece ∈ pieces, ∀ c ∈ piece, P c := by
    induction pieces with
    | nil => simp [List.intercalate]
    | cons first rest ih =>
      cases rest with
      | nil => simp [List.intercalate]
      | cons second rest =>
        rw [List.intercalate_cons_cons, List.forall_mem_append, List.forall_mem_append, ih]
        simp [hseparator]
  rw [Topic.ofLevels, String.toList_ofList, hintercalate]
  simp

theorem isOneLine_ofLevels (levels : List String) :
    Text.IsOneLine (Topic.ofLevels levels) ↔ ∀ level ∈ levels, Text.IsOneLine level := by
  simp only [Text.isOneLine_iff]
  exact Topic.forall_mem_ofLevels (P := fun c => Command.isBreaking c = false) (by decide) levels

/-- What is written for one line is one line. -/
theorem pieces_line {text : String} (h : Text.IsOneLine text) :
    pieces (Dialogue.line text).flatten = ([Text.encode text], []) := by
  have hline : (Dialogue.line text).flatten = Text.encode text ++ [LineBuffer.cr, LineBuffer.lf] := by
    simp [Dialogue.line, Dialogue.lineEnd]
  rw [hline, pieces_ended, parts, pieces_of_whole h.whole, List.nil_append]

end SensorLink
