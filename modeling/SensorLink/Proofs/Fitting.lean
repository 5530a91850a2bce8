import SensorLink.Proofs.Qualifying
import SensorLink.Proofs.Subscribing

/-! What fits where. A command is made of its parts exactly if its text is no longer than a command may be
    (`ofParts?_eq_ofText?`). A full pattern always fits a table entry (`size_fullTopic`) and a command
    (`subscribe?_isSome`), so a new pair is refused for one reason only: that the table is full (`enter_of_new`). -/

namespace SensorLink
open Command

/-! ### Full topics -/

/-- A full topic fits a table entry. -/
theorem size_fullTopic {identity : Identity} {scope : Scope} {topic full : String}
    (h : identity.fullTopic scope topic = .ok full) : full.utf8ByteSize ≤ Limits.fullTopic := by
  obtain ⟨-, hfits, rfl⟩ := Identity.fullTopic_eq_ok_iff.mp h
  exact Identity.size_root_append hfits

/-! ### Commands and their texts -/

namespace Command

theorem ofText?_eq_some_iff {text : String} {command : Command} : ofText? text = some command ↔ command.text = text := by
  obtain ⟨other, fits⟩ := command
  unfold ofText?
  constructor
  · intro h
    split at h <;> cases h
    rfl
  · rintro rfl
    exact dif_pos fits

theorem ofText?_isSome_iff {text : String} : (ofText? text).isSome ↔ text.utf8ByteSize ≤ Limits.command := by
  unfold ofText?
  split <;> simp [*]

theorem ofText?_eq_none_iff {text : String} : ofText? text = none ↔ Limits.command < text.utf8ByteSize := by
  rw [← Option.not_isSome_iff_eq_none, ofText?_isSome_iff, Nat.not_le]

/-- The parts are written character by character, and either all of them fit or there is no command. -/
theorem ofParts?_eq_ofText? (parts : List Part) : ofParts? parts = ofText? (String.ofList (parts.flatMap Part.chars)) := by
  refine Option.ext fun command => ?_
  rw [ofParts?_eq_some_iff, ofText?_eq_some_iff, ← String.toList_inj, String.toList_ofList]

theorem ofParts?_isSome_iff {parts : List Part} :
    (ofParts? parts).isSome ↔ String.utf8Len (parts.flatMap Part.chars) ≤ Limits.command := by
  rw [ofParts?_eq_ofText?, ofText?_isSome_iff, String.utf8ByteSize_ofList]

end Command

/-! ### Sizes -/

/-- Quoting writes at most two bytes for one. -/
theorem size_quote (value : List Char) : String.utf8Len (quote value) ≤ 2 * String.utf8Len value + 2 := by
  have hquote : '"'.utf8Size = 1 := by decide
  have hbackslash : '\\'.utf8Size = 1 := by decide
  have hvalue : String.utf8Len (value.flatMap escape) ≤ 2 * String.utf8Len value := by
    induction value with
    | nil => exact Nat.le_refl _
    | cons c cs ih =>
      have hpos := c.utf8Size_pos
      have hescape : String.utf8Len (escape c) ≤ c.utf8Size + 1 := by
        unfold escape
        split <;> simp [hbackslash]
      rw [List.flatMap_cons, String.utf8Len_append, String.utf8Len_cons]
      omega
  simp only [quote, String.utf8Len_cons, String.utf8Len_append, String.utf8Len_nil, hquote]
  omega

theorem le_size_quote (value : List Char) : String.utf8Len value + 2 ≤ String.utf8Len (quote value) := by
  have hquote : '"'.utf8Size = 1 := by decide
  have hvalue : String.utf8Len value ≤ String.utf8Len (value.flatMap escape) := by
    induction value with
    | nil => exact Nat.le_refl _
    | cons c cs ih =>
      have hescape : c.utf8Size ≤ String.utf8Len (escape c) := by
        unfold escape
        split <;> simp
      rw [List.flatMap_cons, String.utf8Len_append, String.utf8Len_cons]
      omega
  simp only [quote, String.utf8Len_cons, String.utf8Len_append, String.utf8Len_nil, hquote]
  omega

/-- A digit takes one byte. -/
theorem utf8Len_toDigits (n : Nat) : String.utf8Len (Nat.toDigits 10 n) = (Nat.toDigits 10 n).length := by
  have hdigits : ∀ c ∈ Nat.toDigits 10 n, c.utf8Size = 1 := fun c hc => by
    have hdigit := Nat.isDigit_of_mem_toDigits (by decide) (by decide) hc
    simp only [Char.isDigit, Bool.and_eq_true, decide_eq_true_eq] at hdigit
    exact Char.utf8Size_eq_one_iff.mpr (UInt32.le_trans hdigit.2 (by decide))
  generalize Nat.toDigits 10 n = digits at hdigits ⊢
  induction digits with
  | nil => rfl
  | cons digit digits ih =>
    obtain ⟨hdigit, hdigits⟩ := List.forall_mem_cons.mp hdigits
    rw [String.utf8Len_cons, hdigit, ih hdigits, List.length_cons]

theorem size_toDigits_pos (n : Nat) : 0 < String.utf8Len (Nat.toDigits 10 n) := by
  rw [utf8Len_toDigits]
  exact Nat.length_toDigits_pos

theorem size_toDigits {n : Nat} (h : n < 1000) : String.utf8Len (Nat.toDigits 10 n) ≤ 3 := by
  rw [utf8Len_toDigits, Nat.length_toDigits_le_iff (by decide) (by decide)]
  exact h

theorem size_digits (qos : UInt8) : String.utf8Len (Nat.toDigits 10 qos.toNat) ≤ 3 :=
  size_toDigits (Nat.lt_trans qos.toNat_lt (by decide))

/-- A pattern that fits a table entry can be subscribed to. -/
theorem subscribe?_isSome {full : String} (h : full.utf8ByteSize ≤ Limits.fullTopic) (qos : UInt8) :
    (subscribe? full qos).isSome := by
  have hfits : (String.ofList ("AT+MQTTSUB=0,".toList ++ (quote full.toList ++ (',' :: Nat.toDigits 10 qos.toNat)))).utf8ByteSize
      ≤ Limits.command := by
    have hquote := size_quote full.toList
    have hdigits := size_digits qos
    have hcomma : ','.utf8Size = 1 := by decide
    have hsub : String.utf8Len "AT+MQTTSUB=0,".toList = 13 := by decide
    have hlimits : 13 + (2 * Limits.fullTopic + 2) + 4 ≤ Limits.command := by decide
    rw [String.utf8Len_toList] at hquote
    simp only [String.utf8ByteSize_ofList, String.utf8Len_append, String.utf8Len_cons]
    omega
  exact Option.isSome_iff_exists.mpr ⟨⟨_, hfits⟩, subscribe?_eq_some_iff.mpr (String.toList_ofList ..)⟩

theorem unsubscribe?_isSome_of_fits {full : String} (h : full.utf8ByteSize ≤ Limits.fullTopic) :
    (unsubscribe? full).isSome := by
  obtain ⟨command, hcommand⟩ := Option.isSome_iff_exists.mp (subscribe?_isSome h 0)
  exact unsubscribe?_isSome hcommand

theorem dropPattern_of_fits {full : String} (h : full.utf8ByteSize ≤ Limits.fullTopic) (node : Node) (answer : Answer) :
    ∃ command, unsubscribe? full = some command ∧ node.dropPattern full answer =
      .talk (.command command.text acknowledged node.messaging.commandTimeout) (.unsubscribe answer) := by
  obtain ⟨command, hcommand⟩ := Option.isSome_iff_exists.mp (unsubscribe?_isSome_of_fits h)
  exact ⟨command, hcommand, by rw [Node.dropPattern, hcommand]⟩

/-! ### The commands of the connection -/

namespace Command

theorem join?_isSome_iff {credentials : Credentials} : (join? credentials).isSome ↔
    String.utf8Len (quote credentials.ssid.toList) + String.utf8Len (quote credentials.password.toList) + 10 ≤
      Limits.command := by
  have hmark : String.utf8Len "AT+CWJAP=".toList = 9 := by decide
  have hcomma : String.utf8Len ",".toList = 1 := by decide
  rw [join?, ofParts?_isSome_iff]
  simp only [List.flatMap_cons, List.flatMap_nil, Part.chars, String.utf8Len_append, String.utf8Len_nil, hmark, hcomma]
  omega

theorem userConfig?_isSome_iff {broker : Broker} : (userConfig? broker).isSome ↔
    String.utf8Len (quote broker.clientId.toList) + String.utf8Len (quote broker.username.toList) +
      String.utf8Len (quote broker.password.toList) + 28 ≤ Limits.command := by
  have hmark : String.utf8Len "AT+MQTTUSERCFG=".toList = 15 := by decide
  have hlink : String.utf8Len (Nat.toDigits 10 linkId) = 1 := by decide
  have hscheme : String.utf8Len ",1,".toList = 3 := by decide
  have hcomma : String.utf8Len ",".toList = 1 := by decide
  have hrest : String.utf8Len ",0,0,\"\"".toList = 7 := by decide
  rw [userConfig?, ofParts?_isSome_iff]
  simp only [List.flatMap_cons, List.flatMap_nil, Part.chars, String.utf8Len_append, String.utf8Len_nil, hmark, hlink,
    hscheme, hcomma, hrest]
  omega

theorem openSession?_isSome_iff {broker : Broker} : (openSession? broker).isSome ↔
    String.utf8Len (quote broker.host.toList) + (Nat.toDigits 10 broker.tcpPort.toNat).length + 17 ≤ Limits.command := by
  have hmark : String.utf8Len "AT+MQTTCONN=".toList = 12 := by decide
  have hlink : String.utf8Len (Nat.toDigits 10 linkId) = 1 := by decide
  have hcomma : String.utf8Len ",".toList = 1 := by decide
  have hreconnect : String.utf8Len (Nat.toDigits 10 broker.reconnect.toNat) = 1 := by
    cases broker.reconnect <;> decide
  rw [openSession?, ofParts?_isSome_iff]
  simp only [List.flatMap_cons, List.flatMap_nil, Part.chars, String.utf8Len_append, String.utf8Len_nil, hmark, hlink,
    hcomma, hreconnect, utf8Len_toDigits]
  omega

theorem closeSession?_isSome : closeSession?.isSome := ofParts?_isSome_iff.mpr (by decide)

end Command

/-! ### The table -/

section
variable {node : Node} {pattern : String} {subscriber : Subscriber}

/-- A new pair is put in, or refused because the table is full; a pattern that the modem was asked for and that nobody
    holds is then dropped again. -/
theorem enter_of_new (hnew : ⟨pattern, subscriber⟩ ∉ node.table.entries) (hfits : pattern.utf8ByteSize ≤ Limits.fullTopic)
    (asked : Bool) : node.enter pattern subscriber asked =
      if node.table.isFull then
        (node, if asked && !node.table.holds pattern then node.dropPattern pattern (.failed .tableFull)
          else .finished (.failed .tableFull))
      else ({ node with table := node.table.add ⟨pattern, subscriber⟩ }, .finished .done) := by
  unfold Node.enter
  rw [Subscriptions.insert?_of_new hnew]
  cases node.table.isFull
  · simp [hfits]
  · cases asked && !node.table.holds pattern <;> simp

/-- The modem has acknowledged a pattern for a new pair. -/
theorem after_acknowledged (hnew : ⟨pattern, subscriber⟩ ∉ node.table.entries)
    (hfits : pattern.utf8ByteSize ≤ Limits.fullTopic) (command : Command) (retries : Nat) (answer : String) :
    node.after (.subscribe pattern subscriber command retries) (.ok answer) =
      if node.table.isFull then
        (node.release, if node.table.holds pattern then .finished (.failed .tableFull)
          else node.dropPattern pattern (.failed .tableFull))
      else (({ node with table := node.table.add ⟨pattern, subscriber⟩ } : Node).release, .finished .done) := by
  have hafter : node.after (.subscribe pattern subscriber command retries) (.ok answer) =
      ((node.enter pattern subscriber true).1.release, (node.enter pattern subscriber true).2) := rfl
  rw [hafter, enter_of_new hnew hfits]
  cases node.table.isFull <;> cases node.table.holds pattern <;> rfl

end
end SensorLink
