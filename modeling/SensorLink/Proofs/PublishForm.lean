import SensorLink.Proofs.Fitting
import SensorLink.Proofs.Requests

/-! In which form a payload is published, byte by byte. Every full topic leaves a command room enough, even if each of its
    characters has to be escaped. -/

namespace SensorLink
namespace Command

/-! ### The two texts -/

/-- A publish with the payload in the command. -/
def publishText (topic text : String) (qos : UInt8) (retain : Bool) : String :=
  String.ofList ("AT+MQTTPUB=0,".toList ++ quote topic.toList ++ [','] ++ quote text.toList ++ [','] ++
    Nat.toDigits 10 qos.toNat ++ (if retain then ",1" else ",0").toList)

/-- A publish that announces a payload of so many bytes. -/
def announceText (topic : String) (length : Nat) (qos : UInt8) (retain : Bool) : String :=
  String.ofList ("AT+MQTTPUBRAW=0,".toList ++ quote topic.toList ++ [','] ++ Nat.toDigits 10 length ++ [','] ++
    Nat.toDigits 10 qos.toNat ++ (if retain then ",1" else ",0").toList)

theorem toDigits_retain (retain : Bool) :
    ',' :: Nat.toDigits 10 retain.toNat = (if retain then ",1" else ",0").toList := by
  cases retain <;> decide

theorem publishInline?_eq (topic text : String) (qos : UInt8) (retain : Bool) :
    publishInline? topic text qos retain = ofText? (publishText topic text qos retain) := by
  rw [publishInline?, ofParts?_eq_ofText?]
  refine congrArg (fun chars => ofText? (String.ofList chars)) ?_
  rw [← toDigits_retain]
  simp [Part.chars, linkId]

theorem publishHeader?_eq (topic : String) (length : Nat) (qos : UInt8) (retain : Bool) :
    publishHeader? topic length qos retain = ofText? (announceText topic length qos retain) := by
  rw [publishHeader?, ofParts?_eq_ofText?]
  refine congrArg (fun chars => ofText? (String.ofList chars)) ?_
  rw [← toDigits_retain]
  simp [Part.chars, linkId]

/-! ### The choice -/

theorem inlineText?_eq_some_iff {payload : Bytes} {text : String} :
    inlineText? payload = some text ↔ payload = Text.encode text ∧ Text.IsOneLine text := by
  rw [inlineText?, Option.filter_eq_some_iff, Text.decode?_eq_some_iff, Text.isOneLine_iff]
  simp

/-- The payload is a text of one line that leaves the command short enough. -/
def GoesInline (topic : String) (payload : Bytes) (qos : UInt8) (retain : Bool) : Prop :=
  ∃ text, payload = Text.encode text ∧ Text.IsOneLine text ∧
    (publishText topic text qos retain).utf8ByteSize ≤ Limits.command

section
variable {topic : String} {payload : Bytes} {qos : UInt8} {retain : Bool}

theorem publish?_of_goesInline (h : GoesInline topic payload qos retain) : ∃ text command, payload = Text.encode text ∧
    command.text = publishText topic text qos retain ∧ publish? topic payload qos retain = some (.inline command) := by
  obtain ⟨text, hpayload, hline, hfits⟩ := h
  have hcommand : publishInline? topic text qos retain = some ⟨publishText topic text qos retain, hfits⟩ := by
    rw [publishInline?_eq, ofText?_eq_some_iff]
  refine ⟨text, ⟨_, hfits⟩, hpayload, rfl, ?_⟩
  rw [publish?, inlineText?_eq_some_iff.mpr ⟨hpayload, hline⟩, Option.bind_some, hcommand]

theorem publish?_of_not_goesInline (h : ¬GoesInline topic payload qos retain) :
    publish? topic payload qos retain = (ofText? (announceText topic payload.length qos retain)).map .raw := by
  have hnone : ((inlineText? payload).bind fun text => publishInline? topic text qos retain) = none := by
    refine Option.eq_none_iff_forall_ne_some.mpr fun command hcommand => h ?_
    obtain ⟨text, htext, hinline⟩ := Option.bind_eq_some_iff.mp hcommand
    obtain ⟨hpayload, hline⟩ := inlineText?_eq_some_iff.mp htext
    rw [publishInline?_eq] at hinline
    exact ⟨text, hpayload, hline, ofText?_isSome_iff.mp (by rw [hinline]; rfl)⟩
  rw [publish?, hnone, publishHeader?_eq]

end

/-- The form of a publish, if there is one, and its text. -/
structure Chosen (topic : String) (payload : Bytes) (qos : UInt8) (retain : Bool) : Prop where
  inline_iff : (∃ text command, payload = Text.encode text ∧ command.text = publishText topic text qos retain ∧
    publish? topic payload qos retain = some (.inline command)) ↔ GoesInline topic payload qos retain
  raw_iff : (∃ header, header.text = announceText topic payload.length qos retain ∧
    publish? topic payload qos retain = some (.raw header)) ↔
      ¬GoesInline topic payload qos retain ∧ (announceText topic payload.length qos retain).utf8ByteSize ≤ Limits.command
  none_iff : publish? topic payload qos retain = none ↔
    ¬GoesInline topic payload qos retain ∧ Limits.command < (announceText topic payload.length qos retain).utf8ByteSize

theorem chosen (topic : String) (payload : Bytes) (qos : UInt8) (retain : Bool) : Chosen topic payload qos retain := by
  by_cases hinline : GoesInline topic payload qos retain
  · obtain ⟨text, command, hpayload, htext, hform⟩ := publish?_of_goesInline hinline
    refine ⟨iff_of_true ⟨text, command, hpayload, htext, hform⟩ hinline, iff_of_false ?_ fun h => h.1 hinline,
      iff_of_false ?_ fun h => h.1 hinline⟩ <;> rw [hform] <;> simp
  · have hform := publish?_of_not_goesInline hinline
    have hnot : ¬∃ text command, payload = Text.encode text ∧ command.text = publishText topic text qos retain ∧
        publish? topic payload qos retain = some (.inline command) := by
      rintro ⟨text, command, -, -, hcommand⟩
      rw [hform] at hcommand
      obtain ⟨header, -, hheader⟩ := Option.map_eq_some_iff.mp hcommand
      cases hheader
    refine ⟨iff_of_false hnot hinline, ?_, ?_⟩
    · rw [and_iff_right hinline, ← ofText?_isSome_iff, Option.isSome_iff_exists]
      simp only [hform, Option.map_eq_some_iff, PublishForm.raw.injEq, exists_eq_right, ofText?_eq_some_iff, and_self]
    · rw [and_iff_right hinline, hform, Option.map_eq_none_iff, ofText?_eq_none_iff]

/-! ### Full topics -/

theorem size_announceText (topic : String) (length : Nat) (qos : UInt8) (retain : Bool) :
    (announceText topic length qos retain).utf8ByteSize =
      String.utf8Len (quote topic.toList) + (Nat.toDigits 10 length).length + (Nat.toDigits 10 qos.toNat).length + 20 := by
  have hmark : String.utf8Len "AT+MQTTPUBRAW=0,".toList = 16 := by decide
  have hcomma : String.utf8Len [','] = 1 := by decide
  have hretain : String.utf8Len (if retain then ",1" else ",0").toList = 2 := by cases retain <;> decide
  unfold announceText
  simp only [String.utf8ByteSize_ofList, String.utf8Len_append, hmark, hcomma, hretain, utf8Len_toDigits]
  omega

/-- Any payload can be announced under a topic that fits a table entry. -/
theorem publish?_isSome {full : String} (h : full.utf8ByteSize ≤ Limits.fullTopic) {payload : Bytes}
    (hlength : payload.length < 2 ^ 64) (qos : UInt8) (retain : Bool) : (publish? full payload qos retain).isSome := by
  have hfits : (announceText full payload.length qos retain).utf8ByteSize ≤ Limits.command := by
    have hquote := size_quote full.toList
    have hdigits : (Nat.toDigits 10 payload.length).length ≤ 20 :=
      (Nat.length_toDigits_le_iff (by decide) (by decide)).mpr (Nat.lt_trans hlength (by decide))
    have hqos := size_digits qos
    have hlimits : 2 * Limits.fullTopic + 2 + 20 + 3 + 20 ≤ Limits.command := by decide
    rw [String.utf8Len_toList] at hquote
    rw [utf8Len_toDigits] at hqos
    have hsize := size_announceText full payload.length qos retain
    omega
  rw [Option.isSome_iff_ne_none]
  intro hnone
  exact Nat.not_le.mpr ((chosen full payload qos retain).none_iff.mp hnone).2 hfits

end Command

section
variable {node : Node} {scope : Scope} {topic full : String} {payload : Bytes}

/-- A publish is refused for its topic only. -/
theorem publishForm_error (hlength : payload.length < 2 ^ 64) {cause : Failure Fault}
    (h : node.publishForm scope topic payload = .error cause) : ∃ refusal, cause = .topic refusal := by
  unfold Node.publishForm at h
  cases hcheck : Topic.checkConcrete topic with
  | error refusal =>
    rw [hcheck] at h
    cases h
    exact ⟨refusal, rfl⟩
  | ok _ =>
    cases hfull : node.identity.fullTopic scope topic with
    | error refusal =>
      rw [hcheck, hfull] at h
      cases h
      exact ⟨refusal, rfl⟩
    | ok full =>
      obtain ⟨form, hform⟩ := Option.isSome_iff_exists.mp
        (Command.publish?_isSome (size_fullTopic hfull) hlength node.messaging.qos node.messaging.retain)
      simp only [hcheck, hfull, Except.mapError, bind, Except.bind, hform] at h
      cases h

theorem enter_refused {subscriber : Subscriber} {cause : Failure Fault}
    (h : (node.enter full subscriber false).2 = .finished (.failed cause)) : cause = .tableFull := by
  unfold Node.enter at h
  split at h <;> cases h
  rfl

/-- A subscription is refused at once for its topic, or because the table is full. -/
theorem subscribe_refused {pattern : String} {subscriber : Subscriber} {cause : Failure Fault}
    (h : (node.subscribe scope pattern subscriber).2 = .finished (.failed cause)) :
    (∃ refusal, cause = .topic refusal) ∨ cause = .tableFull := by
  unfold Node.subscribe at h
  split at h
  · cases h
    exact .inl ⟨_, rfl⟩
  · rename_i full hpattern
    split at h
    · cases h
    · split at h
      · cases h
        exact .inr rfl
      · exact .inr (enter_refused h)
    · split at h
      · cases h
        exact .inr rfl
      · have hsome := subscribe?_isSome (size_fullTopic (fullTopic_of_fullPattern hpattern)) node.messaging.qos
        split at h
        · rename_i hnone
          rw [hnone] at hsome
          cases hsome
        · cases h

end

/-- A payload goes in the command if it is a text of one line and the command, with all that is escaped, is not too long;
    else its length is announced, if that is not too long. Under a full topic nothing is ever too long, so no publish or
    subscription fails for that, and every pattern that is dropped is told to the modem. -/
theorem form_by_size :
    (∀ topic payload qos retain, Command.Chosen topic payload qos retain) ∧
    (∀ (identity : Identity) scope topic full, identity.fullTopic scope topic = .ok full →
      (∀ (payload : Bytes) qos retain, payload.length < 2 ^ 64 → (Command.publish? full payload qos retain).isSome) ∧
      (∀ qos, (Command.subscribe? full qos).isSome) ∧
      ∀ (node : Node) answer, ∃ command, Command.unsubscribe? full = some command ∧ node.dropPattern full answer =
        .talk (.command command.text Command.acknowledged node.messaging.commandTimeout) (.unsubscribe answer)) ∧
    ∀ node : Node,
      (∀ scope topic (payload : Bytes) cause, payload.length < 2 ^ 64 →
        node.publishForm scope topic payload = .error cause → ∃ refusal, cause = .topic refusal) ∧
      ∀ scope pattern subscriber cause, (node.subscribe scope pattern subscriber).2 = .finished (.failed cause) →
        (∃ refusal, cause = .topic refusal) ∨ cause = .tableFull := by
  refine ⟨Command.chosen, fun identity scope topic full hfull => ?_,
    fun node => ⟨fun _ _ _ _ hlength => publishForm_error hlength, fun _ _ _ _ => subscribe_refused⟩⟩
  have hfits := size_fullTopic hfull
  exact ⟨fun _ qos retain hlength => Command.publish?_isSome hfits hlength qos retain, subscribe?_isSome hfits,
    fun node answer => dropPattern_of_fits hfits node answer⟩

/-- The longest topic, of nothing but characters that are escaped. -/
theorem form_by_size_of_longest_topic :
    let domain := String.ofList (List.replicate 64 '"')
    let clientId := String.ofList (List.replicate 32 ',')
    let topic := String.ofList (List.replicate 75 '\\')
    let full := domain ++ "/" ++ clientId ++ "/" ++ topic
    let payload : Bytes := List.replicate 1000 0
    ∃ identity : Identity, identity.fullTopic .own topic = .ok full ∧ full.utf8ByteSize = Limits.fullTopic ∧
      payload.length < 2 ^ 64 ∧ (Command.publish? full payload 255 true).isSome ∧ (Command.subscribe? full 255).isSome := by
  intro domain clientId topic full payload
  let identity : Identity := ⟨domain, clientId, by decide +kernel, by decide +kernel, by decide +kernel, by decide +kernel,
    by decide +kernel⟩
  have hfull : identity.fullTopic .own topic = .ok full := by decide +kernel
  have hlength : payload.length < 2 ^ 64 := by decide +kernel
  obtain ⟨-, hqualified, -⟩ := form_by_size
  obtain ⟨hpublish, hsubscribe, -⟩ := hqualified identity .own topic full hfull
  exact ⟨identity, hfull, by decide +kernel, hlength, hpublish payload 255 true hlength, hsubscribe 255⟩

end SensorLink
