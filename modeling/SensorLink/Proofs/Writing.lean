import Mathlib.Data.String.Basic
import Mathlib.Tactic.Common
import SensorLink.Command.Basic

/-! Writing a command. Every way to write comes to writing characters one after the other (`Writes`), and of those a
    command takes the longest beginning that it has room for (`append_longest`). So a value in quotes is written whole
    exactly if it fits, and else as far as it fits (`appendQuoted_exact`). -/

namespace SensorLink

/-! ### Beginnings of a text -/

/-- The longest beginning of a text, in whole characters, that takes no more than `room` bytes. -/
structure Text.IsLongestIn (room : Nat) (text part : List Char) : Prop where
  begins : part <+: text
  fits : String.utf8Len part ≤ room
  longest : ∀ other, other <+: text → String.utf8Len other ≤ room → other <+: part

namespace Text.IsLongestIn
variable {room : Nat} {c : Char} {text part : List Char}

/-- It is the whole text exactly if that fits. -/
theorem eq_iff (h : IsLongestIn room text part) : part = text ↔ String.utf8Len text ≤ room := by
  constructor
  · rintro rfl
    exact h.fits
  · intro hfits
    have hwhole : text <+: part := h.longest text (List.prefix_refl text) hfits
    exact h.begins.eq_of_length_le hwhole.length_le

theorem nil : IsLongestIn room [] [] :=
  ⟨List.prefix_refl [], Nat.zero_le room, fun _ hother _ => hother⟩

theorem cons (h : IsLongestIn room text part) : IsLongestIn (c.utf8Size + room) (c :: text) (c :: part) where
  begins := (List.prefix_cons_inj c).mpr h.begins
  fits := by
    have hfits := h.fits
    rw [String.utf8Len_cons]
    omega
  longest other hother hfits := by
    cases other with
    | nil => exact List.nil_prefix
    | cons d other =>
      obtain ⟨rfl, hrest⟩ := List.cons_prefix_cons.mp hother
      rw [String.utf8Len_cons] at hfits
      exact (List.prefix_cons_inj d).mpr (h.longest other hrest (by omega))

theorem of_lt (h : room < c.utf8Size) : IsLongestIn room (c :: text) [] where
  begins := List.nil_prefix
  fits := Nat.zero_le room
  longest other hother hfits := by
    cases other with
    | nil => exact List.nil_prefix
    | cons d other =>
      obtain ⟨rfl, -⟩ := List.cons_prefix_cons.mp hother
      rw [String.utf8Len_cons] at hfits
      omega

end Text.IsLongestIn

namespace Command

theorem eq_of_text {command other : Command} (h : command.text = other.text) : command = other := by
  cases command
  cases other
  cases h
  rfl

/-! ### Characters -/

/-- How many bytes a command has room for. -/
def room (command : Command) : Nat := Limits.command - command.text.utf8ByteSize

theorem size_add_room (command : Command) : command.text.utf8ByteSize + command.room = Limits.command :=
  Nat.add_sub_of_le command.fits

/-- A character is written, or there is no room for it. -/
theorem push_cases (command : Command) (c : Char) :
    (∃ after, command.push c = (after, true) ∧ after.text = command.text.push c ∧
      command.room = c.utf8Size + after.room) ∨
    (command.push c = (command, false) ∧ command.room < c.utf8Size) := by
  have hroom := command.size_add_room
  by_cases hfits : command.text.utf8ByteSize + c.utf8Size ≤ Limits.command
  · let after : Command := ⟨command.text.push c, by simpa [String.utf8ByteSize_push] using hfits⟩
    have hafter : command.text.utf8ByteSize + c.utf8Size + after.room = Limits.command := by
      rw [← String.utf8ByteSize_push]
      exact after.size_add_room
    exact .inl ⟨after, dif_pos hfits, rfl, by omega⟩
  · exact .inr ⟨dif_neg hfits, by omega⟩

theorem append_cons (command : Command) (c : Char) (cs : List Char) :
    command.append (c :: cs) = (command.push c).andThen fun command => command.append cs := rfl

theorem append_singleton (command : Command) (c : Char) : command.append [c] = command.push c := by
  rw [append_cons]
  obtain ⟨after, complete⟩ := command.push c
  cases complete <;> rfl

/-- Characters are written as far as they fit, and it is told whether that is all of them. -/
theorem append_longest (command : Command) (cs : List Char) :
    ∃ part, Text.IsLongestIn command.room cs part ∧
      (command.append cs).1.text.toList = command.text.toList ++ part ∧ ((command.append cs).2 = true ↔ part = cs) := by
  -- What comes behind the first character is written to the command that holds it, so this is about every command.
  induction cs generalizing command with
  | nil => exact ⟨[], .nil, (List.append_nil _).symm, iff_of_true rfl rfl⟩
  | cons c cs ih =>
    rw [append_cons]
    rcases push_cases command c with ⟨after, hpush, htext, hroom⟩ | ⟨hpush, hroom⟩
    · obtain ⟨part, hpart, hheld, hall⟩ := ih after
      rw [hpush, hroom]
      refine ⟨c :: part, hpart.cons, ?_, ?_⟩
      · rw [Written.andThen, hheld, htext, String.toList_push, List.append_assoc, List.singleton_append]
      · rw [Written.andThen, hall, List.cons.injEq, and_iff_right rfl]
    · rw [hpush]
      exact ⟨[], .of_lt hroom, (List.append_nil _).symm, iff_of_false Bool.false_ne_true (List.cons_ne_nil c cs).symm⟩

theorem append_eq_iff {command after : Command} {cs : List Char} :
    command.append cs = (after, true) ↔ after.text.toList = command.text.toList ++ cs := by
  obtain ⟨part, hpart, hheld, hall⟩ := command.append_longest cs
  constructor
  · intro h
    rw [h] at hheld hall
    rwa [hall.mp rfl] at hheld
  · intro h
    -- `after` is itself no longer than a command may be.
    have hfits : String.utf8Len cs ≤ command.room := by
      have hafter := after.fits
      have hroom := command.size_add_room
      rw [← String.utf8Len_toList, h, String.utf8Len_append, String.utf8Len_toList] at hafter
      omega
    obtain rfl := hpart.eq_iff.mpr hfits
    have htext : (command.append part).1.text = after.text := String.toList_inj.mp (hheld.trans h.symm)
    exact Prod.ext (eq_of_text htext) (hall.mpr rfl)

/-! ### Ways to write -/

theorem Written.andThen_assoc (written : Written) (write next : Command → Written) :
    (written.andThen write).andThen next = written.andThen fun command => (write command).andThen next := by
  obtain ⟨command, complete⟩ := written
  cases complete <;> rfl

theorem append_append (command : Command) (cs ds : List Char) :
    command.append (cs ++ ds) = (command.append cs).andThen fun command => command.append ds := by
  induction cs generalizing command with
  | nil => rfl
  | cons c cs ih =>
    rw [List.cons_append, append_cons, append_cons, Written.andThen_assoc]
    simp only [ih]

/-- A way to write that comes to writing characters one after the other. -/
def Writes (write : Command → Written) (cs : List Char) : Prop := ∀ command, write command = command.append cs

theorem writes_push (c : Char) : Writes (fun command => command.push c) [c] := fun command =>
  (append_singleton command c).symm

theorem Writes.andThen {write next : Command → Written} {cs ds : List Char} (h : Writes write cs) (hnext : Writes next ds) :
    Writes (fun command => (write command).andThen next) (cs ++ ds) := fun command => by
  rw [append_append, ← h command, ← funext hnext]

theorem Writes.each {α : Type} {write : Command → α → Written} {spell : α → List Char}
    (h : ∀ item, Writes (fun command => write command item) (spell item)) (items : List α) :
    Writes (fun command => command.each write items) (items.flatMap spell) := by
  induction items with
  | nil => exact fun _ => rfl
  | cons item items ih =>
    rw [List.flatMap_cons]
    exact (h item).andThen ih

theorem writes_pushEscaped (c : Char) : Writes (fun command => command.pushEscaped c) (escape c) := by
  unfold pushEscaped escape
  split
  · exact (writes_push '\\').andThen (writes_push c)
  · exact writes_push c

theorem writes_appendQuoted (value : String) :
    Writes (fun command => command.appendQuoted value) (quote value.toList) :=
  (writes_push '"').andThen ((Writes.each writes_pushEscaped value.toList).andThen (writes_push '"'))

theorem writes_appendPart (part : Part) : Writes (fun command => command.appendPart part) part.chars := by
  cases part with
  | plain text => exact fun _ => rfl
  | quoted value => exact writes_appendQuoted value
  | number n => exact fun _ => rfl

/-- A value in quotes is written whole if it fits, byte for byte, and else as far as it fits, in whole characters. What the
    command held stays as it was. -/
theorem appendQuoted_exact (start : Command) (value : String) :
    let quoted := String.ofList (quote value.toList)
    let result := start.appendQuoted value
    (result.2 = true ↔ start.text.utf8ByteSize + quoted.utf8ByteSize ≤ Limits.command) ∧
    (if result.2 then result.1.text = start.text ++ quoted
      else ∃ part, Text.IsLongestIn start.room quoted.toList part ∧ result.1.text = start.text ++ String.ofList part) ∧
    start.text.toList <+: result.1.text.toList ∧ result.1.text.utf8ByteSize ≤ Limits.command := by
  intro quoted result
  obtain ⟨part, hpart, hheld, hall⟩ := start.append_longest (quote value.toList)
  rw [← writes_appendQuoted value start] at hheld hall
  have hroom := start.size_add_room
  have htext : result.1.text = start.text ++ String.ofList part := by
    rw [← String.toList_inj, hheld, String.toList_append, String.toList_ofList]
  refine ⟨?_, ?_, ⟨part, hheld.symm⟩, result.1.fits⟩
  · rw [hall, hpart.eq_iff, String.utf8ByteSize_ofList]
    omega
  · split
    · rename_i hcomplete
      rw [htext, hall.mp hcomplete]
    · exact ⟨part, by rwa [String.toList_ofList], htext⟩

/-- The backslash still fits, and the quote behind it does not. -/
example :
    let start : Command := ⟨String.ofList (List.replicate 510 'x'), by decide +kernel⟩
    (start.appendQuoted "\"").1.text = start.text ++ "\"\\" ∧ (start.appendQuoted "\"").2 = false := by decide +kernel

end Command
end SensorLink
