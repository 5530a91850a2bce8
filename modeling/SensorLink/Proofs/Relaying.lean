import SensorLink.Proofs.Fitting
import SensorLink.Proofs.Forging
import SensorLink.Proofs.OneLine

/-! From one node to another. A payload that goes in the command comes in a notification that fits a line, for the command
    has at least as much around the topic and the payload as the notification (`length_notice`), and the receiver gets the
    payload as it was sent. -/

namespace SensorLink
open LineBuffer LineSplit

/-! ### What goes in the command -/

namespace Command

theorem size_publishInline? {topic text : String} {qos : UInt8} {retain : Bool} {command : Command}
    (h : publishInline? topic text qos retain = some command) :
    topic.utf8ByteSize + text.utf8ByteSize + 22 ≤ Limits.command := by
  have hfits := command.fits
  have hcomma : String.utf8Len ",".toList = 1 := by decide
  have hmark : String.utf8Len "AT+MQTTPUB=".toList = 11 := by decide
  have hlink := size_toDigits_pos linkId
  have hqos := size_toDigits_pos qos.toNat
  have hretain := size_toDigits_pos retain.toNat
  have htopic := le_size_quote topic.toList
  have htext := le_size_quote text.toList
  rw [← String.utf8Len_toList command.text, ofParts?_eq_some_iff.mp h] at hfits
  rw [String.utf8Len_toList] at htopic htext
  simp only [List.flatMap_cons, List.flatMap_nil, Part.chars, String.utf8Len_append, String.utf8Len_nil, hmark,
    hcomma] at hfits
  omega

/-- What goes in the command is one line, and leaves room for the rest of the command. -/
theorem inline_payload {topic : String} {payload : Bytes} {qos : UInt8} {retain : Bool} {command : Command}
    (h : publish? topic payload qos retain = some (.inline command)) :
    Unbroken payload ∧ topic.utf8ByteSize + payload.length + 22 ≤ Limits.command := by
  obtain ⟨text, htext, hcommand⟩ := publish?_eq_inline h
  rw [encode_inlineText? htext, Text.length_encode]
  exact ⟨isOneLine_inlineText? htext, size_publishInline? hcommand⟩

end Command

/-! ### What the other node receives -/

namespace Notice

theorem length_numeral {n : Nat} (h : n < 1000) : (numeral n).length ≤ 3 := by
  rw [numeral, Text.length_encode, String.utf8ByteSize_ofList]
  exact size_toDigits h

theorem length_notice {topic data : Bytes} (h : data.length < 1000) :
    (header 0 topic data.length ++ data).length ≤ topic.length + data.length + 22 := by
  have hnumeral := length_numeral h
  have hmark : (Intake.noticeMark ++ Text.encode ":").length = 13 := by decide
  have hlink : (numeral 0).length = 1 := by decide
  have hcomma : (Text.encode ",").length = 1 := by decide
  have hopen : (Text.encode "\"").length = 1 := by decide
  have hclose : (Text.encode "\",").length = 2 := by decide
  rw [header]
  simp only [List.length_append] at hmark ⊢
  omega

end Notice

namespace Intake

/-- A notification that fits and has no line end in it is queued as it is, and nothing else happens. -/
theorem feed_whole_notice {intake : Intake} (hbuffer : intake.buffer.IsEmpty) (hroom : intake.inbound.length < Limits.inbound)
    {line : Bytes} (hmark : noticeMark <+: line) (hline : Unbroken line) (hfits : line.length ≤ Limits.line) :
    intake.feed (line ++ [cr, lf]) = { intake with buffer := {}, inbound := intake.inbound ++ [line] } := by
  have hhead : (text line).head? ≠ some prompt := by
    rw [hline.text, Notice.head?_of_noticeMark hmark]
    decide
  have hne : line ≠ [] := by
    rintro rfl
    exact absurd hmark (by decide)
  have hlines : lines (line ++ [cr, lf]) = [line] := by
    rw [lines_line hline.whole hhead, hline.text, if_neg]
    rintro (hnil | hlong)
    · exact hne hnil
    · omega
  have hempty : LineSplit.buffer (line ++ [cr, lf]) = {} := by
    rw [LineSplit.buffer, pieces_ended]
    simp [body, text, cr, lf]
  have hroute : (intake.route line).1 = { intake with inbound := intake.inbound ++ [line] } := by
    rw [route, if_pos (List.isPrefixOf_iff_prefix.mpr hmark), if_pos hroom]
  rw [feed_notice hbuffer (hmark.trans (List.prefix_append _ _)), hlines, hempty]
  show (intake.route line).1.withBuffer {} = _
  rw [hroute, withBuffer]

end Intake

section
variable {identity : Identity} {scope : Scope} {topic full : String} {payload : Bytes} {qos : UInt8} {retain : Bool}
  {command : Command} {intake : Intake}

/-- What one node publishes in a command another can receive: the modem's notification of it fits a line, comes into the
    queue as the one line that it is, and is read as the topic and the payload that were published. -/
theorem inline_is_received (htopic : identity.fullTopic scope topic = .ok full) (hline : Text.IsOneLine full)
    (hquote : ¬Text.encode "\"," <:+: Text.encode full)
    (hpublish : Command.publish? full payload qos retain = some (.inline command)) (hbuffer : intake.buffer.IsEmpty)
    (hroom : intake.inbound.length < Limits.inbound) :
    let line := Notice.header 0 (Text.encode full) payload.length ++ payload
    line.length ≤ Limits.line ∧
    intake.feed (line ++ [cr, lf]) = { intake with buffer := {}, inbound := intake.inbound ++ [line] } ∧
    Notice.parse line = .ok { topic := full, data := payload } := by
  intro line
  obtain ⟨hpayload, hsize⟩ := Command.inline_payload hpublish
  have hcommand : Limits.command = 512 := rfl
  have hlimit : Limits.command ≤ Limits.line := by decide
  have hfits : line.length ≤ Limits.line := by
    have hlength : line.length ≤ (Text.encode full).length + payload.length + 22 := Notice.length_notice (by omega)
    rw [Text.length_encode] at hlength
    omega
  have hmark : Intake.noticeMark <+: line := Notice.noticeMark_prefix_header.trans (List.prefix_append _ _)
  have hunbroken : Unbroken line := unbroken_append.mpr ⟨Notice.unbroken_header hline, hpayload⟩
  refine ⟨hfits, Intake.feed_whole_notice hbuffer hroom hmark hunbroken hfits, ?_⟩
  have hlong : payload.length < UInt64.size := by
    have hword : 512 < UInt64.size := by decide
    omega
  rw [Notice.parse_header (by decide) (Identity.fullTopic_ne_empty htopic) hquote, if_pos ⟨hlong, Nat.le_refl _⟩,
    List.take_length]

end

/-- A payload may hold the two characters that a topic may not. -/
theorem inline_is_received_of_quotes :
    let payload := Text.encode "[\"t\",\"21 °C\"]"
    let command : Command :=
      ⟨"AT+MQTTPUB=0,\"sensor/DATA\",\"[\\\"t\\\"\\,\\\"21 °C\\\"]\",1,0", by decide⟩
    let line := Text.encode "+MQTTSUBRECV:0,\"sensor/DATA\",14,[\"t\",\"21 °C\"]"
    Command.publish? "sensor/DATA" payload 1 false = some (.inline command) ∧ line.length ≤ Limits.line ∧
      Intake.feed {} (line ++ [cr, lf]) = { inbound := [line] } ∧
      Notice.parse line = .ok { topic := "sensor/DATA", data := payload } := by
  intro payload command line
  let sensor : Identity := ⟨"", "sensor", by decide, by decide, by decide, by decide, by decide⟩
  have htopic : sensor.fullTopic .own "DATA" = .ok "sensor/DATA" := by decide +kernel
  have hpublish : Command.publish? "sensor/DATA" payload 1 false = some (.inline command) := by decide +kernel
  have hline : Notice.header 0 (Text.encode "sensor/DATA") payload.length ++ payload = line := by decide +kernel
  have hbuffer : ({} : Intake).buffer.IsEmpty := ⟨rfl, rfl⟩
  obtain ⟨hfits, hfeed, hparse⟩ :=
    inline_is_received htopic (by decide +kernel) (by decide +kernel) hpublish hbuffer (by decide)
  rw [hline] at hfits hfeed hparse
  exact ⟨hpublish, hfits, hfeed, hparse⟩

end SensorLink
