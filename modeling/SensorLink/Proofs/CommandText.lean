import Mathlib.Data.String.Basic
import Mathlib.Tactic.Common
import SensorLink.Command.Mqtt
import SensorLink.LineBuffer
import SensorLink.Proofs.Writing

/-! The texts of commands. A command is made of its parts exactly if they fit (`ofParts?_eq_some_iff`), and whoever
    reads it can tell what it is about: two patterns never give one command. -/

namespace SensorLink
namespace Command

/-- The parts give a command exactly if there is one with their text. -/
theorem ofParts?_eq_some_iff {parts : List Part} {command : Command} :
    ofParts? parts = some command ↔ command.text.toList = parts.flatMap Part.chars := by
  have hparts : empty.each appendPart parts = empty.append (parts.flatMap Part.chars) :=
    Writes.each writes_appendPart parts empty
  have htext : empty.append (parts.flatMap Part.chars) = (command, true) ↔
      command.text.toList = parts.flatMap Part.chars := append_eq_iff
  rw [← htext, ofParts?, hparts]
  split <;> rename_i heq <;> simp [heq]

theorem escape_injective {p q : List Char} (h : p.flatMap escape = q.flatMap escape) : p = q := by
  have nonempty (c : Char) (cs : List Char) : (c :: cs).flatMap escape ≠ [] := by
    simp only [List.flatMap_cons, escape]
    split <;> simp
  induction p generalizing q with
  | nil =>
    cases q with
    | nil => rfl
    | cons d ds => exact absurd h.symm (nonempty d ds)
  | cons c cs ih =>
    cases q with
    | nil => exact absurd h (nonempty c cs)
    | cons d ds =>
      simp only [List.flatMap_cons, escape] at h
      split at h <;> split at h <;> simp only [List.cons_append, List.nil_append, List.cons.injEq, true_and] at h
      · rw [h.1, ih h.2]
      · -- A backslash is never written on its own.
        rename_i hd
        exact absurd (.inr (.inr h.1.symm)) hd
      · rename_i hc _
        exact absurd (.inr (.inr h.1)) hc
      · rw [h.1, ih h.2]

theorem quote_injective {p q : String} (h : quote p.toList = quote q.toList) : p = q := by
  simp only [quote, List.cons.injEq, true_and] at h
  exact String.toList_inj.mp (escape_injective (List.append_cancel_right h))

theorem encode_injective {s t : String} (h : Text.encode s = Text.encode t) : s = t := by
  have hdecode := Text.decode?_encode s
  rw [h, Text.decode?_encode] at hdecode
  exact (Option.some.inj hdecode).symm

/-! ### Publishing -/

section
variable {topic text : String} {payload : Bytes} {qos : UInt8} {retain : Bool} {command : Command}

theorem encode_inlineText? (h : inlineText? payload = some text) : payload = Text.encode text :=
  Text.decode?_eq_some_iff.mp (Option.filter_eq_some_iff.mp h).1

/-- What goes in the command is a text without line breaks. -/
theorem publish?_eq_inline (h : publish? topic payload qos retain = some (.inline command)) :
    ∃ text, inlineText? payload = some text ∧ publishInline? topic text qos retain = some command := by
  unfold publish? at h
  split at h
  · rename_i made hmade
    cases h
    exact Option.bind_eq_some_iff.mp hmade
  · obtain ⟨header, -, hform⟩ := Option.map_eq_some_iff.mp h
    cases hform

theorem publish?_eq_raw (h : publish? topic payload qos retain = some (.raw command)) :
    publishHeader? topic payload.length qos retain = some command := by
  unfold publish? at h
  split at h
  · cases h
  · obtain ⟨header, hheader, hform⟩ := Option.map_eq_some_iff.mp h
    cases hform
    exact hheader

end

/-! ### Subscribing and unsubscribing -/

section
variable {pattern other : String} {qos : UInt8} {command : Command}

theorem subscribe?_eq_some_iff : subscribe? pattern qos = some command ↔
    command.text.toList = "AT+MQTTSUB=0,".toList ++ (quote pattern.toList ++ (',' :: Nat.toDigits 10 qos.toNat)) := by
  rw [subscribe?, ofParts?_eq_some_iff]
  simp [Part.chars, linkId]

theorem unsubscribe?_eq_some_iff : unsubscribe? pattern = some command ↔
    command.text.toList = "AT+MQTTUNSUB=0,".toList ++ quote pattern.toList := by
  rw [unsubscribe?, ofParts?_eq_some_iff]
  simp [Part.chars, linkId]

/-- A pattern that can be subscribed to can be unsubscribed from: the command is no longer. -/
theorem unsubscribe?_isSome (h : subscribe? pattern qos = some command) : (unsubscribe? pattern).isSome := by
  have hlength : command.text.utf8ByteSize ≤ Limits.command := command.fits
  rw [← String.utf8Len_toList, subscribe?_eq_some_iff.mp h] at hlength
  have hfits : (String.ofList ("AT+MQTTUNSUB=0,".toList ++ quote pattern.toList)).utf8ByteSize ≤ Limits.command := by
    refine Nat.le_trans ?_ hlength
    obtain ⟨digit, digits, hdigits⟩ := List.exists_cons_of_ne_nil (Nat.toDigits_ne_nil (b := 10) (n := qos.toNat))
    have hpos := digit.utf8Size_pos
    have hcomma : ','.utf8Size = 1 := by decide
    have hsub : String.utf8Len "AT+MQTTSUB=0,".toList = 13 := by decide
    have hunsub : String.utf8Len "AT+MQTTUNSUB=0,".toList = 15 := by decide
    simp only [String.utf8ByteSize_ofList, hdigits, String.utf8Len_append, String.utf8Len_cons]
    omega
  exact Option.isSome_iff_exists.mpr ⟨⟨_, hfits⟩, unsubscribe?_eq_some_iff.mpr (String.toList_ofList ..)⟩

theorem subscribe?_injective {command' : Command} (h : subscribe? pattern qos = some command)
    (h' : subscribe? other qos = some command') (htext : command.text = command'.text) : pattern = other := by
  have hlist := congrArg String.toList htext
  rw [subscribe?_eq_some_iff.mp h, subscribe?_eq_some_iff.mp h', List.append_cancel_left_eq] at hlist
  exact quote_injective (List.append_cancel_right hlist)

theorem unsubscribe?_injective {command' : Command} (h : unsubscribe? pattern = some command)
    (h' : unsubscribe? other = some command') (htext : command.text = command'.text) : pattern = other := by
  have hlist := congrArg String.toList htext
  rw [unsubscribe?_eq_some_iff.mp h, unsubscribe?_eq_some_iff.mp h', List.append_cancel_left_eq] at hlist
  exact quote_injective hlist

theorem subscribe?_ne_unsubscribe? {command' : Command} (h : subscribe? pattern qos = some command)
    (h' : unsubscribe? other = some command') : command.text ≠ command'.text := by
  intro htext
  have hlist := congrArg String.toList htext
  rw [subscribe?_eq_some_iff.mp h, unsubscribe?_eq_some_iff.mp h'] at hlist
  simp at hlist

end

/-! ### Orders on the wire -/

/-- What the modem is told about a pattern. -/
inductive Order where
  | subscribe
  | unsubscribe
  deriving DecidableEq

/-- The command that gives an order. -/
def order? (qos : UInt8) (pattern : String) : Order → Option Command
  | .subscribe => subscribe? pattern qos
  | .unsubscribe => unsubscribe? pattern

/-- The order about a pattern that a write gives, if it gives one. -/
def orderOf? (qos : UInt8) (pattern : String) (part : Bytes) : Option Order :=
  [Order.subscribe, Order.unsubscribe].find? fun order =>
    (order? qos pattern order).map (fun command => Text.encode command.text) = some part

/-- The command that a publish begins with. -/
def PublishForm.command : PublishForm → Command
  | .inline command | .raw command => command

section
variable {qos : UInt8} {pattern other : String} {order order' : Order} {command command' : Command}

theorem order?_injective (h : order? qos pattern order = some command) (h' : order? qos other order' = some command')
    (htext : command.text = command'.text) : pattern = other ∧ order = order' := by
  cases order <;> cases order'
  · exact ⟨subscribe?_injective h h' htext, rfl⟩
  · exact absurd htext (subscribe?_ne_unsubscribe? h h')
  · exact absurd htext.symm (subscribe?_ne_unsubscribe? h' h)
  · exact ⟨unsubscribe?_injective h h' htext, rfl⟩

theorem orderOf?_eq_some_iff {part : Bytes} : orderOf? qos pattern part = some order ↔
    ∃ command, order? qos pattern order = some command ∧ part = Text.encode command.text := by
  constructor
  · intro h
    have hfound := List.find?_some h
    simp only [decide_eq_true_eq] at hfound
    obtain ⟨command, hcommand, hpart⟩ := Option.map_eq_some_iff.mp hfound
    exact ⟨command, hcommand, hpart.symm⟩
  · rintro ⟨command, hcommand, rfl⟩
    -- The other order would be another command.
    have unique {order' : Order} (h : (order? qos pattern order').map (fun command => Text.encode command.text) =
        some (Text.encode command.text)) : order' = order := by
      obtain ⟨command', hcommand', hpart⟩ := Option.map_eq_some_iff.mp h
      exact (order?_injective hcommand' hcommand (encode_injective hpart)).2
    unfold orderOf?
    cases order with
    | subscribe => simp [hcommand]
    | unsubscribe =>
      rw [List.find?_cons_of_neg]
      · simp [hcommand]
      · simp only [decide_eq_true_eq]
        exact fun h => absurd (unique h) (by simp)

/-- A command gives its own order, and about its own pattern only. -/
theorem orderOf?_command (h : order? qos other order = some command) :
    orderOf? qos pattern (Text.encode command.text) = if other = pattern then some order else none := by
  split
  · rename_i heq
    exact orderOf?_eq_some_iff.mpr ⟨command, heq ▸ h, rfl⟩
  · rename_i hne
    refine Option.eq_none_iff_forall_ne_some.mpr fun order' horder => ?_
    obtain ⟨command', hcommand', hpart⟩ := orderOf?_eq_some_iff.mp horder
    exact hne (order?_injective h hcommand' (encode_injective hpart)).1

/-- Every order begins with one of two texts, and what begins otherwise gives none. -/
theorem orderOf?_eq_none {text : String} (h : text.toList.take 8 ∉ ["AT+MQTTS".toList, "AT+MQTTU".toList]) :
    orderOf? qos pattern (Text.encode text) = none := by
  refine Option.eq_none_iff_forall_ne_some.mpr fun order horder => h ?_
  obtain ⟨command, hcommand, hpart⟩ := orderOf?_eq_some_iff.mp horder
  rw [encode_injective hpart]
  cases order with
  | subscribe =>
    rw [subscribe?_eq_some_iff.mp hcommand]
    simp
  | unsubscribe =>
    rw [unsubscribe?_eq_some_iff.mp hcommand]
    simp

theorem orderOf?_lineEnd : orderOf? qos pattern [LineBuffer.cr, LineBuffer.lf] = none := by
  have hnone : "\r\n".toList.take 8 ∉ ["AT+MQTTS".toList, "AT+MQTTU".toList] := by decide
  exact orderOf?_eq_none hnone

/-- Commands that publish are no orders. -/
theorem orderOf?_publish? {topic : String} {payload : Bytes} {qos' : UInt8} {retain : Bool} {form : PublishForm}
    (h : publish? topic payload qos' retain = some form) :
    orderOf? qos pattern (Text.encode form.command.text) = none := by
  refine orderOf?_eq_none ?_
  cases form with
  | inline command =>
    obtain ⟨text, -, hparts⟩ := publish?_eq_inline h
    rw [PublishForm.command, ofParts?_eq_some_iff.mp hparts]
    simp [Part.chars]
  | raw header =>
    rw [PublishForm.command, ofParts?_eq_some_iff.mp (publish?_eq_raw h)]
    simp [Part.chars]

end
end Command
end SensorLink
