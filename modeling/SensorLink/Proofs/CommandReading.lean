import SensorLink.Command.Network
import SensorLink.Proofs.CommandText
import SensorLink.Proofs.NoticeText

/-! Reading commands. The fixed text that a command begins with tells its kind, and its parameters are read one after the
    other: in quotes, a backslash takes the next character as it is, and the first quote without one ends the value. What
    is read is what the command was made of (`decode?_ofParts?`). -/

namespace SensorLink.Command

/-! ### Parameters -/

/-- What a place in a command holds. -/
inductive Field where
  | plain (text : String)
  | quoted
  | number

inductive Value where
  | text (value : String)
  | number (n : Nat)

/-- A value up to the quote that ends it, and what follows. -/
def readQuoted? : List Char → Option (List Char × List Char)
  | [] => none
  | ['\\'] => none
  | '\\' :: c :: rest => (readQuoted? rest).map fun (value, rest) => (c :: value, rest)
  | c :: rest => if c = '"' then some ([], rest) else (readQuoted? rest).map fun (value, rest) => (c :: value, rest)

/-- The value at the beginning of a text, if the field has one, and what follows. -/
def Field.read? : Field → List Char → Option (List Value × List Char)
  | .plain text, cs => (text.toList.isPrefixOf? cs).map fun rest => ([], rest)
  | .quoted, [] => none
  | .quoted, c :: cs =>
    if c = '"' then (readQuoted? cs).map fun (value, rest) => ([.text (String.ofList value)], rest) else none
  | .number, cs =>
    (Notice.digits? (cs.takeWhile Char.isDigit)).map fun n => ([.number n], cs.dropWhile Char.isDigit)

/-- The values of a text that consists of the fields. -/
def readAll? : List Field → List Char → Option (List Value)
  | [], cs => if cs = [] then some [] else none
  | field :: fields, cs => do
    let (values, rest) ← field.read? cs
    let more ← readAll? fields rest
    some (values ++ more)

def Part.field : Part → Field
  | .plain text => .plain text
  | .quoted _ => .quoted
  | .number _ => .number

def Part.values : Part → List Value
  | .plain _ => []
  | .quoted value => [.text value]
  | .number n => [.number n]

/-- What follows a number does not go on with digits. -/
def Part.EndsBefore (rest : List Char) : Part → Prop
  | .number _ => ∀ c ∈ rest.head?, c.isDigit = false
  | .plain _ | .quoted _ => True

def Separate : List Part → Prop
  | [] => True
  | part :: parts => part.EndsBefore (parts.flatMap Part.chars) ∧ Separate parts

theorem readQuoted?_escape (value rest : List Char) :
    readQuoted? (value.flatMap escape ++ '"' :: rest) = some (value, rest) := by
  induction value with
  | nil => simp [readQuoted?]
  | cons c value ih =>
    rw [List.flatMap_cons, List.append_assoc]
    by_cases hc : c = '"' ∨ c = ',' ∨ c = '\\'
    · rw [escape, if_pos hc, List.cons_append, List.singleton_append, readQuoted?, ih]
      rfl
    · obtain ⟨hquote, -, hbackslash⟩ : c ≠ '"' ∧ c ≠ ',' ∧ c ≠ '\\' := by simpa using hc
      rw [escape, if_neg hc, List.singleton_append, readQuoted?, if_neg hquote, ih]
      · rfl
      · simp [hbackslash]
      · simp [hbackslash]

theorem read?_chars (part : Part) {rest : List Char} (h : part.EndsBefore rest) :
    part.field.read? (part.chars ++ rest) = some (part.values, rest) := by
  cases part with
  | plain text =>
    have hprefix : text.toList.isPrefixOf? (text.toList ++ rest) = some rest :=
      List.isPrefixOf?_eq_some_iff_append_eq.mpr rfl
    simp [Part.field, Field.read?, Part.chars, Part.values, hprefix]
  | quoted value =>
    have hvalue := readQuoted?_escape value.toList rest
    simp [Part.field, Field.read?, Part.chars, Part.values, quote, hvalue]
  | number n =>
    have hdigits : ∀ c ∈ Nat.toDigits 10 n, c.isDigit = true := fun c => Notice.isDigit_of_mem
    have hrest : rest.takeWhile Char.isDigit = [] ∧ rest.dropWhile Char.isDigit = rest := by
      cases rest with
      | nil => exact ⟨rfl, rfl⟩
      | cons c rest =>
        have hc : ¬c.isDigit = true := by simpa using h c rfl
        exact ⟨List.takeWhile_cons_of_neg hc, List.dropWhile_cons_of_neg hc⟩
    rw [Part.field, Part.chars, Field.read?, List.takeWhile_append_of_pos hdigits, List.dropWhile_append_of_pos hdigits,
      hrest.1, hrest.2, List.append_nil, Notice.digits?_toDigits]
    rfl

/-- The values that a text was made of are read back, each at its place. -/
theorem readAll?_chars {parts : List Part} (h : Separate parts) :
    readAll? (parts.map Part.field) (parts.flatMap Part.chars) = some (parts.flatMap Part.values) := by
  induction parts with
  | nil => rfl
  | cons part parts ih =>
    simp only [List.map_cons, List.flatMap_cons, readAll?, read?_chars part h.1, ih h.2, Option.bind_eq_bind,
      Option.bind_some]

/-! ### Commands -/

/-- What a command is about. -/
inductive Content where
  | publish (topic text : String) (qos : UInt8) (retain : Bool)
  /-- The payload follows, and has so many bytes. -/
  | announce (topic : String) (length : Nat) (qos : UInt8) (retain : Bool)
  | subscribe (pattern : String) (qos : UInt8)
  | unsubscribe (pattern : String)
  | join (ssid password : String)
  | userConfig (clientId username password : String)
  | openSession (host : String) (tcpPort : UInt16) (reconnect : Bool)
  deriving DecidableEq

inductive Kind where
  | publish
  | announce
  | subscribe
  | unsubscribe
  | join
  | userConfig
  | openSession
  deriving DecidableEq

namespace Kind

def all : List Kind := [.publish, .announce, .subscribe, .unsubscribe, .join, .userConfig, .openSession]

/-- What every command of the kind begins with. -/
def mark : Kind → String
  | .publish => "AT+MQTTPUB="
  | .announce => "AT+MQTTPUBRAW="
  | .subscribe => "AT+MQTTSUB="
  | .unsubscribe => "AT+MQTTUNSUB="
  | .join => "AT+CWJAP="
  | .userConfig => "AT+MQTTUSERCFG="
  | .openSession => "AT+MQTTCONN="

def fields (kind : Kind) : List Field :=
  .plain kind.mark :: match kind with
    | .publish =>
      [.number, .plain ",", .quoted, .plain ",", .quoted, .plain ",", .number, .plain ",", .number]
    | .announce =>
      [.number, .plain ",", .quoted, .plain ",", .number, .plain ",", .number, .plain ",", .number]
    | .subscribe => [.number, .plain ",", .quoted, .plain ",", .number]
    | .unsubscribe => [.number, .plain ",", .quoted]
    | .join => [.quoted, .plain ",", .quoted]
    | .userConfig =>
      [.number, .plain ",1,", .quoted, .plain ",", .quoted, .plain ",", .quoted, .plain ",0,0,\"\""]
    | .openSession => [.number, .plain ",", .quoted, .plain ",", .number, .plain ",", .number]

end Kind

def flag? : Nat → Option Bool
  | 0 => some false
  | 1 => some true
  | _ => none

def byte? (n : Nat) : Option UInt8 := if n < UInt8.size then some (.ofNat n) else none

def tcpPort? (n : Nat) : Option UInt16 := if n < UInt16.size then some (.ofNat n) else none

/-- What the values say, if the modem's only connection is meant. -/
def Kind.content? : Kind → List Value → Option Content
  | .publish, [.number link, .text topic, .text text, .number qos, .number retain] =>
    if link = linkId then do some (.publish topic text (← byte? qos) (← flag? retain)) else none
  | .announce, [.number link, .text topic, .number length, .number qos, .number retain] =>
    if link = linkId then do some (.announce topic length (← byte? qos) (← flag? retain)) else none
  | .subscribe, [.number link, .text pattern, .number qos] =>
    if link = linkId then do some (.subscribe pattern (← byte? qos)) else none
  | .unsubscribe, [.number link, .text pattern] => if link = linkId then some (.unsubscribe pattern) else none
  | .join, [.text ssid, .text password] => some (.join ssid password)
  | .userConfig, [.number link, .text clientId, .text username, .text password] =>
    if link = linkId then some (.userConfig clientId username password) else none
  | .openSession, [.number link, .text host, .number tcpPort, .number reconnect] =>
    if link = linkId then do some (.openSession host (← tcpPort? tcpPort) (← flag? reconnect)) else none
  | _, _ => none

def kindOf? (text : String) : Option Kind :=
  Kind.all.find? fun kind => kind.mark.toList.isPrefixOf text.toList

def decode? (text : String) : Option Content := do
  let kind ← kindOf? text
  let values ← readAll? kind.fields text.toList
  kind.content? values

theorem flag?_toNat (b : Bool) : flag? b.toNat = some b := by cases b <;> rfl

theorem byte?_toNat (n : UInt8) : byte? n.toNat = some n := by
  rw [byte?, if_pos n.toNat_lt, UInt8.ofNat_toNat]

theorem tcpPort?_toNat (n : UInt16) : tcpPort? n.toNat = some n := by
  rw [tcpPort?, if_pos n.toNat_lt, UInt16.ofNat_toNat]

/-- No mark begins with another. -/
theorem mark_prefix_mark {kind other : Kind} (h : kind.mark.toList <+: other.mark.toList) : kind = other := by
  revert h
  cases kind <;> cases other <;> decide

theorem kindOf?_of_mark {text : String} {kind : Kind} (h : kind.mark.toList <+: text.toList) :
    kindOf? text = some kind := by
  have hall : kind ∈ Kind.all := by cases kind <;> decide
  have hunique (other : Kind) : other.mark.toList.isPrefixOf text.toList = true ↔ other = kind := by
    rw [List.isPrefixOf_iff_prefix]
    constructor
    · intro hother
      rcases List.prefix_or_prefix_of_prefix hother h with hmark | hmark
      · exact mark_prefix_mark hmark
      · exact (mark_prefix_mark hmark).symm
    · rintro rfl
      exact h
  cases hfound : kindOf? text with
  | none =>
    have hnone := List.find?_eq_none.mp hfound kind hall
    exact absurd ((hunique kind).mpr rfl) hnone
  | some other =>
    have hmark : other.mark.toList.isPrefixOf text.toList = true :=
      List.find?_some (p := fun kind : Kind => kind.mark.toList.isPrefixOf text.toList) hfound
    rw [(hunique other).mp hmark]

/-- A command that is made of the parts that its kind calls for is read as what their values say. -/
theorem decode?_ofParts? {parts : List Part} {command : Command} (h : ofParts? parts = some command) (kind : Kind)
    (hfields : parts.map Part.field = kind.fields) (hseparate : Separate parts) :
    decode? command.text = kind.content? (parts.flatMap Part.values) := by
  have htext := ofParts?_eq_some_iff.mp h
  have hmark : kind.mark.toList <+: command.text.toList := by
    cases parts with
    | nil => cases hfields
    | cons part parts =>
      have hpart : part.field = .plain kind.mark := (List.cons.inj hfields).1
      cases part with
      | plain text =>
        cases hpart
        rw [htext]
        exact List.prefix_append _ _
      | quoted value | number n => cases hpart
  have hread : readAll? kind.fields command.text.toList = some (parts.flatMap Part.values) := by
    rw [← hfields, htext, readAll?_chars hseparate]
  simp only [decode?, kindOf?_of_mark hmark, hread, Option.bind_eq_bind, Option.bind_some]

/-! ### What the node writes -/

/-- The node forms the command, and this is what it was asked to write. -/
inductive Carries : Command → Content → Prop where
  | publish {topic text : String} {qos : UInt8} {retain : Bool} {command : Command}
      (h : publish? topic (Text.encode text) qos retain = some (.inline command)) :
      Carries command (.publish topic text qos retain)
  | announce {topic : String} {payload : Bytes} {qos : UInt8} {retain : Bool} {header : Command}
      (h : publish? topic payload qos retain = some (.raw header)) :
      Carries header (.announce topic payload.length qos retain)
  | subscribe {pattern : String} {qos : UInt8} {command : Command} (h : subscribe? pattern qos = some command) :
      Carries command (.subscribe pattern qos)
  | unsubscribe {pattern : String} {command : Command} (h : unsubscribe? pattern = some command) :
      Carries command (.unsubscribe pattern)
  | join {credentials : Credentials} {command : Command} (h : join? credentials = some command) :
      Carries command (.join credentials.ssid credentials.password)
  | userConfig {broker : Broker} {command : Command} (h : userConfig? broker = some command) :
      Carries command (.userConfig broker.clientId broker.username broker.password)
  | openSession {broker : Broker} {command : Command} (h : openSession? broker = some command) :
      Carries command (.openSession broker.host broker.tcpPort broker.reconnect)

theorem decode?_carried {content : Content} (h : Carries command content) : decode? command.text = some content := by
  cases h with
  | @publish topic text qos retain command h =>
    obtain ⟨text', htext, hcommand⟩ := publish?_eq_inline h
    cases encode_injective (encode_inlineText? htext)
    rw [decode?_ofParts? hcommand .publish rfl (by simp [Separate, Part.EndsBefore, Part.chars])]
    simp [Part.values, Kind.content?, byte?_toNat, flag?_toNat]
  | @announce topic payload qos retain header h =>
    rw [decode?_ofParts? (publish?_eq_raw h) .announce rfl (by simp [Separate, Part.EndsBefore, Part.chars])]
    simp [Part.values, Kind.content?, byte?_toNat, flag?_toNat]
  | @subscribe pattern qos command h =>
    rw [decode?_ofParts? h .subscribe rfl (by simp [Separate, Part.EndsBefore, Part.chars])]
    simp [Part.values, Kind.content?, byte?_toNat]
  | unsubscribe h =>
    rw [decode?_ofParts? h .unsubscribe rfl (by simp [Separate, Part.EndsBefore, Part.chars])]
    simp [Part.values, Kind.content?]
  | join h =>
    rw [decode?_ofParts? h .join rfl (by simp [Separate, Part.EndsBefore])]
    simp [Part.values, Kind.content?]
  | userConfig h =>
    rw [decode?_ofParts? h .userConfig rfl (by simp [Separate, Part.EndsBefore, Part.chars])]
    simp [Part.values, Kind.content?]
  | @openSession broker command h =>
    rw [decode?_ofParts? h .openSession rfl (by simp [Separate, Part.EndsBefore, Part.chars])]
    simp [Part.values, Kind.content?, tcpPort?_toNat, flag?_toNat]

/-- A command says what it was made of, and nothing else: it is read back as that, so commands about different things have
    different texts. A publish with the payload in the command has a payload that is a text. -/
theorem contents_read_back :
    (∀ command content, Carries command content → decode? command.text = some content) ∧
    (∀ command command' content content', Carries command content → Carries command' content' → content ≠ content' →
      command.text ≠ command'.text) ∧
    ∀ topic payload qos retain command, publish? topic payload qos retain = some (.inline command) →
      ∃ text, Text.decode? payload = some text ∧ Carries command (.publish topic text qos retain) := by
  refine ⟨fun _ _ => decode?_carried, fun command command' content content' h h' hne htext => hne ?_,
    fun topic payload qos retain command h => ?_⟩
  · have hread := decode?_carried h
    rw [htext, decode?_carried h'] at hread
    exact (Option.some.inj hread).symm
  · obtain ⟨text, htext, -⟩ := publish?_eq_inline h
    cases encode_inlineText? htext
    exact ⟨text, Text.decode?_encode text, .publish h⟩

/-- Quotes, commas and backslashes: in a network's name and its password, where they do not move the border between the
    two, and in a topic and a payload. -/
theorem contents_read_back_of_quotes :
    let command : Command := ⟨"AT+CWJAP=\"a\\\"\",\"b\\,\\\"c\"", by decide⟩
    let other : Command := ⟨"AT+CWJAP=\"a\\\"\\,\\\"b\",\"c\"", by decide⟩
    let message : Command := ⟨"AT+MQTTPUB=0,\"t\\,\",\"é\\\\\\\"\",1,1", by decide⟩
    Carries command (.join "a\"" "b,\"c") ∧ decode? command.text = some (.join "a\"" "b,\"c") ∧
      Carries other (.join "a\",\"b" "c") ∧ command.text ≠ other.text ∧
      publish? "t," (Text.encode "é\\\"") 1 true = some (.inline message) ∧
      ∃ text, Text.decode? (Text.encode "é\\\"") = some text ∧ Carries message (.publish "t," text 1 true) := by
  intro command other message
  obtain ⟨hread, hdifferent, hinline⟩ := contents_read_back
  have hcommand : Carries command (.join "a\"" "b,\"c") := @Carries.join ⟨"a\"", "b,\"c"⟩ command (by decide +kernel)
  have hother : Carries other (.join "a\",\"b" "c") := @Carries.join ⟨"a\",\"b", "c"⟩ other (by decide +kernel)
  have hmessage : publish? "t," (Text.encode "é\\\"") 1 true = some (.inline message) := by decide +kernel
  exact ⟨hcommand, hread _ _ hcommand, hother, hdifferent _ _ _ _ hcommand hother (by decide), hmessage,
    hinline _ _ _ _ _ hmessage⟩

end SensorLink.Command
