import SensorLink.Proofs.NoticeText

/-! Which lines are notifications: those that are put together from fields that are well formed, and then there is one way
    only to take them apart (`split?_eq_some_iff`). A line is malformed if there is none (`parses_exactly`). -/

namespace SensorLink.Notice

/-! ### Numbers -/

/-- A field stands for a number: decimal digits, with or without a plus sign, between blanks or none. -/
def Spells (field : Bytes) (n : Nat) : Prop :=
  ∃ before sign digits after : List Char,
    field = Text.encode (String.ofList (before ++ (sign ++ digits) ++ after)) ∧
      (∀ c ∈ before ++ after, Text.isBlank c = true) ∧ (sign = [] ∨ sign = ['+']) ∧ digits ≠ [] ∧
      (∀ c ∈ digits, c.isDigit = true) ∧ Nat.ofDigitChars 10 digits 0 = n

theorem exists_padding (cs : List Char) : ∃ before after,
    cs = before ++ Text.trim cs ++ after ∧ ∀ c ∈ before ++ after, Text.isBlank c = true := by
  let inner := cs.dropWhile Text.isBlank
  have hinner : inner = Text.trim cs ++ (inner.reverse.takeWhile Text.isBlank).reverse := by
    rw [Text.trim, ← List.reverse_append, List.takeWhile_append_dropWhile, List.reverse_reverse]
  refine ⟨cs.takeWhile Text.isBlank, (inner.reverse.takeWhile Text.isBlank).reverse, ?_, fun c hc => ?_⟩
  · rw [List.append_assoc, ← hinner, List.takeWhile_append_dropWhile]
  · rcases List.mem_append.mp hc with hmem | hmem
    · exact List.mem_takeWhile_imp hmem
    · exact List.mem_takeWhile_imp (List.mem_reverse.mp hmem)

theorem digits?_eq_some_iff {cs : List Char} {n : Nat} :
    digits? cs = some n ↔ cs ≠ [] ∧ (∀ c ∈ cs, c.isDigit = true) ∧ Nat.ofDigitChars 10 cs 0 = n := by
  simp [digits?, and_assoc]

theorem number?_eq_some_iff {bound : Nat} {field : Bytes} {n : Nat} :
    number? bound field = some n ↔ Spells field n ∧ n < bound := by
  have hbounded {cs : List Char} : ((digits? cs).bind fun m => if m < bound then some m else none) = some n ↔
      digits? cs = some n ∧ n < bound := by
    simp [Option.bind_eq_some_iff]
  constructor
  · intro h
    simp only [number?, Option.bind_eq_bind, Option.bind_eq_some_iff, Text.decode?_eq_some_iff] at h
    obtain ⟨text, rfl, h⟩ := h
    obtain ⟨before, after, htext, hblank⟩ := exists_padding text.toList
    have hfield : text = String.ofList (before ++ Text.trim text.toList ++ after) := by
      rw [← htext, String.ofList_toList]
    split at h
    · rename_i digits hsigned
      obtain ⟨hvalue, hbound⟩ := hbounded.mp h
      obtain ⟨hne, hdigits, hvalue⟩ := digits?_eq_some_iff.mp hvalue
      exact ⟨⟨before, ['+'], digits, after, by rw [hfield, hsigned]; rfl, hblank, .inr rfl, hne, hdigits, hvalue⟩, hbound⟩
    · obtain ⟨hvalue, hbound⟩ := hbounded.mp h
      obtain ⟨hne, hdigits, hvalue⟩ := digits?_eq_some_iff.mp hvalue
      exact ⟨⟨before, [], _, after, congrArg Text.encode hfield, hblank, .inl rfl, hne, hdigits, hvalue⟩, hbound⟩
  · rintro ⟨⟨before, sign, digits, after, rfl, hblank, hsign, hne, hdigits, hvalue⟩, hbound⟩
    have hinner : ∀ c ∈ sign ++ digits, ¬Text.isBlank c = true := by
      refine List.forall_mem_append.mpr ⟨?_, fun c hc => not_isBlank_of_isDigit (hdigits c hc)⟩
      rcases hsign with rfl | rfl
      · exact List.forall_mem_nil _
      · simp only [List.mem_singleton, forall_eq]
        decide
    have hread := hbounded.mpr ⟨digits?_eq_some_iff.mpr ⟨hne, hdigits, hvalue⟩, hbound⟩
    simp only [number?, Text.decode?_encode, Option.bind_eq_bind, Option.bind_some, String.toList_ofList,
      trim_padded hblank hinner]
    rcases hsign with rfl | rfl
    · rw [List.nil_append]
      split
      · rename_i others
        have hplus : '+'.isDigit = true := hdigits _ List.mem_cons_self
        simp at hplus
      · exact hread
    · exact hread

/-! ### Fields -/

/-- The fields of a notification. -/
structure Fields where
  link : Bytes
  topic : Bytes
  length : Bytes
  /-- The data and what follows it on the line. -/
  rest : Bytes

def Fields.line (fields : Fields) : Bytes :=
  Text.encode "+MQTTSUBRECV:" ++ fields.link ++ Text.encode ",\"" ++ fields.topic ++ Text.encode "\"," ++ fields.length ++
    Text.encode "," ++ fields.rest

/-- The fields are those of a notification that announces `size` bytes of data. No field holds the mark that ends it. -/
structure Fields.WellFormed (fields : Fields) (size : Nat) : Prop where
  link : ∃ n < UInt8.size, Spells fields.link n
  linkEnds : ¬Text.encode "," <:+: fields.link
  topic : fields.topic ≠ []
  topicEnds : ¬Text.encode "\"," <:+: fields.topic
  length : Spells fields.length size
  lengthEnds : ¬Text.encode "," <:+: fields.length
  representable : size < UInt64.size
  complete : size ≤ fields.rest.length

theorem once?_comma {text before rest : Bytes} : Cut.once? (Text.encode ",") text = some (before, rest) ↔
    text = before ++ (Text.encode "," ++ rest) ∧ ¬Text.encode "," <:+: before := by
  have hmark : (Text.encode ",").dropLast = [] := by decide
  rw [Cut.once?_eq_some_iff (by decide), hmark, List.append_nil]

theorem once?_quote {text before rest : Bytes} : Cut.once? (Text.encode "\",") text = some (before, rest) ↔
    text = before ++ (Text.encode "\"," ++ rest) ∧ ¬Text.encode "\"," <:+: before := by
  have hmark : (Text.encode "\",").dropLast = [34] := by decide
  have hlast : (Text.encode "\",").getLast? = some 44 := by decide
  rw [Cut.once?_eq_some_iff (by decide), hmark, List.infix_concat_iff]
  refine and_congr_right fun _ => not_congr (or_iff_right ?_)
  -- No mark ends with a quote.
  rintro ⟨start, hstart⟩
  have hquote := congrArg List.getLast? hstart
  simp [hlast] at hquote

theorem split?_eq_some_iff {line topic data : Bytes} : split? line = some (topic, data) ↔
    ∃ fields size, Fields.line fields = line ∧ fields.WellFormed size ∧ fields.topic = topic ∧
      fields.rest.take size = data := by
  have hmark : Intake.noticeMark ++ Text.encode ":" = Text.encode "+MQTTSUBRECV:" := by decide
  have hopen : Text.encode ",\"" = Text.encode "," ++ Text.encode "\"" := by decide
  simp only [split?, Option.bind_eq_bind, Option.bind_eq_some_iff, List.isPrefixOf?_eq_some_iff_append_eq,
    Prod.exists, once?_comma, once?_quote, number?_eq_some_iff, Option.ite_none_right_eq_some, Option.some.injEq,
    Prod.mk.injEq, hmark]
  constructor
  · rintro ⟨_, rfl, link, _, ⟨rfl, hlinkEnds⟩, n, ⟨hlink, hbound⟩, _, rfl, name, _, ⟨rfl, hnameEnds⟩, length, rest,
      ⟨rfl, hlengthEnds⟩, size, ⟨hlength, hsize⟩, ⟨hne, hcomplete⟩, rfl, rfl⟩
    exact ⟨⟨link, name, length, rest⟩, size, by simp [Fields.line, hopen],
      ⟨⟨n, hbound, hlink⟩, hlinkEnds, hne, hnameEnds, hlength, hlengthEnds, hsize, hcomplete⟩, rfl, rfl⟩
  · rintro ⟨⟨link, name, length, rest⟩, size, rfl, hfields, rfl, rfl⟩
    obtain ⟨n, hbound, hlink⟩ := hfields.link
    exact ⟨_, by simp [Fields.line, hopen], link, _, ⟨rfl, hfields.linkEnds⟩, n, ⟨hlink, hbound⟩, _, rfl, name, _,
      ⟨rfl, hfields.topicEnds⟩, length, rest, ⟨rfl, hfields.lengthEnds⟩, size, ⟨hfields.length, hfields.representable⟩,
      ⟨hfields.topic, hfields.complete⟩, rfl, rfl⟩

/-! ### Lines -/

section
variable {line : Bytes}

theorem parse_eq_ok_iff {message : Message} :
    parse line = .ok message ↔ split? line = some (Text.encode message.topic, message.data) := by
  unfold parse
  split
  · simp [*]
  · rename_i topic data hsplit
    rw [hsplit]
    split
    · rename_i text htext
      obtain rfl := Text.decode?_eq_some_iff.mp htext
      constructor
      · rintro ⟨⟩
        rfl
      · intro h
        obtain ⟨htopic, rfl⟩ := Prod.mk.inj (Option.some.inj h)
        rw [htopic, Text.decode?_encode] at htext
        cases htext
        rfl
    · rename_i hnone
      refine iff_of_false nofun fun h => ?_
      obtain ⟨rfl, -⟩ := Prod.mk.inj (Option.some.inj h)
      rw [Text.decode?_encode] at hnone
      cases hnone

theorem parse_eq_malformed_iff : parse line = .error .malformedNotice ↔ split? line = none := by
  unfold parse
  split
  · simp [*]
  · split <;> simp [*]

theorem parse_eq_notText_iff : parse line = .error .notText ↔
    ∃ topic data, split? line = some (topic, data) ∧ ∀ text, topic ≠ Text.encode text := by
  unfold parse
  split
  · simp [*]
  · rename_i topic data hsplit
    split
    · rename_i text htext
      refine iff_of_false nofun ?_
      rintro ⟨topic', data', heq, hnone⟩
      obtain ⟨rfl, -⟩ := Prod.mk.inj (Option.some.inj (hsplit.symm.trans heq))
      exact hnone text (Text.decode?_eq_some_iff.mp htext)
    · rename_i hnone
      refine iff_of_true rfl ⟨topic, data, hsplit, fun text htext => ?_⟩
      rw [htext, Text.decode?_encode] at hnone
      cases hnone

end

/-- A line is understood exactly if it is put together from well-formed fields, with a text for its topic, and then its
    data is as much as it announces of what stands behind; it is refused as no text exactly if such fields have a topic
    that is none, and as malformed exactly if there are no such fields. So a notification as the modem writes it is read
    back, whatever follows its data. -/
theorem parses_exactly (line : Bytes) :
    (∀ message, parse line = .ok message ↔ ∃ fields size, Fields.line fields = line ∧ fields.WellFormed size ∧
      fields.topic = Text.encode message.topic ∧ fields.rest.take size = message.data) ∧
    (parse line = .error .notText ↔ ∃ fields size, Fields.line fields = line ∧ fields.WellFormed size ∧
      ∀ text, fields.topic ≠ Text.encode text) ∧
    (parse line = .error .malformedNotice ↔ ¬∃ fields size, Fields.line fields = line ∧ fields.WellFormed size) ∧
    ∀ (link : UInt8) (topic : String) (data trailing : Bytes), topic ≠ "" → ¬Text.encode "\"," <:+: Text.encode topic →
      data.length < UInt64.size →
      parse (header link.toNat (Text.encode topic) data.length ++ (data ++ trailing)) = .ok { topic, data } := by
  refine ⟨fun message => ?_, ?_, ?_, fun link topic data trailing hne hquote hlong => ?_⟩
  · rw [parse_eq_ok_iff, split?_eq_some_iff]
  · rw [parse_eq_notText_iff]
    constructor
    · rintro ⟨topic, data, hsplit, hnone⟩
      obtain ⟨fields, size, hline, hfields, rfl, -⟩ := split?_eq_some_iff.mp hsplit
      exact ⟨fields, size, hline, hfields, hnone⟩
    · rintro ⟨fields, size, hline, hfields, hnone⟩
      exact ⟨_, _, split?_eq_some_iff.mpr ⟨fields, size, hline, hfields, rfl, rfl⟩, hnone⟩
  · rw [parse_eq_malformed_iff, Option.eq_none_iff_forall_ne_some]
    constructor
    · rintro hnone ⟨fields, size, hline, hfields⟩
      exact hnone _ (split?_eq_some_iff.mpr ⟨fields, size, hline, hfields, rfl, rfl⟩)
    · rintro hnone ⟨topic, data⟩ hsplit
      obtain ⟨fields, size, hline, hfields, -⟩ := split?_eq_some_iff.mp hsplit
      exact hnone ⟨fields, size, hline, hfields⟩
  · have hcomplete : data.length ≤ (data ++ trailing).length := (List.prefix_append data trailing).length_le
    rw [parse_header link.toNat_lt hne hquote, if_pos ⟨hlong, hcomplete⟩, List.take_left]

/-- Blanks and a plus sign around numbers are read over, and so is what follows the data; and a topic may hold quotes, and
    the data any bytes. -/
theorem parses_exactly_with_blanks :
    parse (Text.encode "+MQTTSUBRECV: +07 ,\"a\",2\t,x,y") = .ok { topic := "a", data := Text.encode "x," } ∧
      ("a/\"b" ≠ "" ∧ ¬Text.encode "\"," <:+: Text.encode "a/\"b" ∧ ([255, 44] : Bytes).length < UInt64.size) ∧
      parse (header 255 (Text.encode "a/\"b") 2 ++ ([255, 44] ++ [13])) = .ok { topic := "a/\"b", data := [255, 44] } := by
  have hplain : "a/\"b" ≠ "" ∧ ¬Text.encode "\"," <:+: Text.encode "a/\"b" ∧ ([255, 44] : Bytes).length < UInt64.size := by
    decide +kernel
  have hlink : Spells (Text.encode " +07 ") 7 :=
    ⟨[' '], ['+'], ['0', '7'], [' '], by decide +kernel, List.all_eq_true.mp (by decide), .inr rfl, by decide,
      List.all_eq_true.mp (by decide), by decide⟩
  have hlength : Spells (Text.encode "2\t") 2 :=
    ⟨[], [], ['2'], ['\t'], by decide +kernel, List.all_eq_true.mp (by decide), .inl rfl, by decide,
      List.all_eq_true.mp (by decide), by decide⟩
  have hfields : Fields.WellFormed ⟨Text.encode " +07 ", Text.encode "a", Text.encode "2\t", Text.encode "x,y"⟩ 2 :=
    ⟨⟨7, by decide, hlink⟩, by decide +kernel, by decide +kernel, by decide +kernel, hlength, by decide +kernel,
      by decide, by decide +kernel⟩
  refine ⟨((parses_exactly _).1 _).mpr ⟨_, 2, ?_, hfields, rfl, ?_⟩, hplain, ?_⟩
  · decide +kernel
  · decide +kernel
  · exact (parses_exactly []).2.2.2 255 "a/\"b" [255, 44] [13] hplain.1 hplain.2.1 hplain.2.2

end SensorLink.Notice
