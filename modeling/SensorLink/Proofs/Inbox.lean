import SensorLink.Proofs.NoticeText
import SensorLink.Proofs.Steps
import SensorLink.Proofs.Table

/-! What becomes of the notifications in a stream that is received in portions while the queue is read in between. A
    notification is accepted if it is whole, fits a line, and is complete when the queue has room; the deliveries are
    those of the accepted ones, in their order, and of no other line. -/

namespace SensorLink
open LineBuffer LineSplit

/-! ### What the modem sends -/

/-- A notification as the modem sends it. Its data may hold any bytes but a line end. -/
structure Notification where
  link : UInt8
  topic : String
  data : Bytes
  named : topic ≠ ""
  unbroken : Unbroken (Text.encode topic)
  unquoted : ¬Text.encode "\"," <:+: Text.encode topic
  unended : ¬[cr, lf] <:+: data

namespace Notification

def line (notification : Notification) : Bytes :=
  Notice.header notification.link.toNat (Text.encode notification.topic) notification.data.length ++ notification.data

def message (notification : Notification) : Message := { topic := notification.topic, data := notification.data }

end Notification

/-- A line of printable characters that is neither a notification nor starts with the prompt. -/
structure Remark where
  line : Bytes
  printable : line.all fun byte => 32 ≤ byte && byte < 127
  unprompted : line.head? ≠ some prompt
  unmarked : ¬Intake.noticeMark <+: line

inductive Item where
  | notification (notification : Notification)
  | remark (remark : Remark)

namespace Item

def line : Item → Bytes
  | .notification n => n.line
  | .remark r => r.line

def bytes (item : Item) : Bytes := item.line ++ [cr, lf]

/-- A notification that is still itself when it has been received, and fits a line. -/
def deliverable? : Item → Option Notification
  | .notification n => if Unbroken n.data ∧ n.line.length ≤ Limits.line then some n else none
  | .remark _ => none

theorem whole_append {first rest : Bytes} (h : Unbroken first) (hrest : ¬[cr, lf] <:+: rest) :
    ¬[cr, lf] <:+: first ++ rest := by
  induction first with
  | nil => exact hrest
  | cons byte first ih =>
    intro hcut
    rcases List.infix_cons_iff.mp hcut with hstart | hcut
    · exact (h byte List.mem_cons_self).1 (List.cons_prefix_cons.mp hstart).1.symm
    · exact ih (fun b hb => h b (List.mem_cons_of_mem _ hb)) hcut

theorem unbroken_remark (remark : Remark) : Unbroken remark.line := fun byte hbyte => by
  have hrange := List.all_eq_true.mp remark.printable byte hbyte
  refine ⟨?_, ?_, ?_⟩ <;> rintro rfl <;> cases hrange

theorem whole_line (item : Item) : ¬[cr, lf] <:+: item.line := by
  cases item with
  | notification n => exact whole_append (Notice.unbroken_header n.unbroken) n.unended
  | remark r => exact (unbroken_remark r).whole

/-- What is left of a notification when it has been received. -/
theorem text_notification (n : Notification) : text n.line =
    Notice.header n.link.toNat (Text.encode n.topic) n.data.length ++ text n.data := by
  rw [Notification.line, text_append, (Notice.unbroken_header n.unbroken).text]

theorem noticeMark_prefix_text (n : Notification) : Intake.noticeMark <+: text n.line := by
  rw [text_notification]
  exact Notice.noticeMark_prefix_header.trans (List.prefix_append _ _)

theorem head?_text (item : Item) : (text item.line).head? ≠ some prompt := by
  cases item with
  | notification n =>
    rw [line, Notice.head?_of_noticeMark (noticeMark_prefix_text n)]
    decide
  | remark r => exact (unbroken_remark r).text ▸ r.unprompted

theorem head?_bytes (item : Item) : item.bytes.head? ≠ some lf := by
  cases item with
  | notification n =>
    have hmark : Intake.noticeMark <+: n.line ++ [cr, lf] :=
      Notice.noticeMark_prefix_header.trans ((List.prefix_append _ _).trans (List.prefix_append _ _))
    rw [bytes, line, Notice.head?_of_noticeMark hmark]
    decide
  | remark r =>
    rw [bytes, line, List.head?_append]
    cases hfirst : r.line.head? with
    | none => decide
    | some first =>
      rw [Option.some_or, ne_eq, Option.some_inj]
      exact (unbroken_remark r first (List.mem_of_mem_head? hfirst)).2.1

/-- Nothing comes of an item before its end. -/
theorem lines_unfinished {item : Item} {got : Bytes} (h : got <+: item.line ++ [cr]) : lines got = [] := by
  have hcut : ¬[cr, lf] <:+: got := fun hcut =>
    whole_concat_cr item.whole_line (hcut.trans h.isInfix)
  have htext : text got <+: text item.line := by
    have hfilter : text got <+: text (item.line ++ [cr]) := h.filter _
    rwa [text_concat_of_break _ (.inl rfl)] at hfilter
  have hprompt : (text got).head? ≠ some prompt := by
    obtain ⟨rest, hrest⟩ := htext
    cases hgot : text got with
    | nil => simp
    | cons first more =>
      have hhead := item.head?_text
      rwa [← hrest, hgot] at hhead
  rw [lines, events_of_whole hcut hprompt]
  rfl

end Item

/-! ### What the queue makes of an item -/

/-- The messages of the lines that can be understood. -/
def understood (lines : List Bytes) : List Message := lines.filterMap fun line => (Notice.parse line).toOption

theorem understood_append (first rest : List Bytes) :
    understood (first ++ rest) = understood first ++ understood rest :=
  List.filterMap_append

theorem parse_text (n : Notification) (h : (text n.line).length ≤ Limits.line) :
    (Notice.parse (text n.line)).toOption = (Item.notification n).deliverable?.map Notification.message := by
  have hlong : (text n.data).length < UInt64.size := by
    have hline : Limits.line < UInt64.size := by decide
    rw [Item.text_notification, List.length_append] at h
    omega
  rw [Item.text_notification, Notice.parse_header n.link.toNat_lt n.named n.unquoted]
  by_cases hdata : Unbroken n.data
  · rw [hdata.text] at hlong ⊢
    have hline : n.line.length ≤ Limits.line := by rwa [Item.text_notification, hdata.text] at h
    rw [if_pos ⟨hlong, Nat.le_refl _⟩, Item.deliverable?, if_pos ⟨hdata, hline⟩, List.take_length]
    rfl
  · -- Some of the announced data has been deleted.
    have hshort : (text n.data).length < n.data.length := by
      refine Nat.lt_of_le_of_ne (List.length_filter_le _ _) fun hlength => hdata ?_
      exact unbroken_iff_text.mpr (List.filter_sublist.eq_of_length hlength)
    rw [if_neg fun h => Nat.not_le.mpr hshort h.2, Item.deliverable?, if_neg fun h => hdata h.1]
    rfl

/-- When an item is complete, the queue gains its message if it is one that can be delivered and there is room. -/
theorem understood_item (intake : Intake) (item : Item) :
    understood (intake.routeAll (lines item.bytes)).inbound = understood intake.inbound ++
      ((if intake.inbound.length < Limits.inbound then item.deliverable? else none).map
        Notification.message).toList := by
  rw [Item.bytes, lines_line item.whole_line item.head?_text, Intake.routeAll_inbound, understood_append]
  congr 1
  cases item with
  | remark r =>
    have hnone : ([r.line].filter Intake.noticeMark.isPrefixOf) = [] :=
      List.filter_cons_of_neg fun hmark => r.unmarked (List.isPrefixOf_iff_prefix.mp hmark)
    rw [Item.line, (Item.unbroken_remark r).text]
    split <;> simp [hnone, Item.deliverable?, understood]
  | notification n =>
    have hmark : Intake.noticeMark <+: text n.line := Item.noticeMark_prefix_text n
    have hne : text n.line ≠ [] := fun hnil => by
      rw [hnil, List.prefix_nil] at hmark
      exact absurd hmark (by decide)
    by_cases hlong : Limits.line < (text n.line).length
    · -- A line that is too long stays too long when nothing is deleted from it.
      have hnone : (Item.notification n).deliverable? = none :=
        if_neg fun h => Nat.not_lt.mpr h.2 (Nat.lt_of_lt_of_le hlong (List.length_filter_le _ _))
      rw [Item.line, if_pos (.inr hlong), hnone]
      simp [understood]
    · have hone : [text n.line].filter Intake.noticeMark.isPrefixOf = [text n.line] :=
        List.filter_cons_of_pos (List.isPrefixOf_iff_prefix.mpr hmark)
      rw [Item.line, if_neg (by simp [hne, hlong]), hone]
      split
      · rename_i hroom
        have htake : [text n.line].take (Limits.inbound - intake.inbound.length) = [text n.line] :=
          List.take_of_length_le (by rw [List.length_singleton]; omega)
        rw [htake, ← parse_text n (Nat.not_lt.mp hlong)]
        cases hmessage : Notice.parse (text n.line) <;> simp [understood, hmessage, Except.toOption]
      · rename_i hfull
        rw [Nat.sub_eq_zero_of_le (Nat.not_lt.mp hfull)]
        rfl

end SensorLink
