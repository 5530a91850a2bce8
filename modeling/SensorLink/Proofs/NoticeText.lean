import Mathlib.Data.List.Infix
import SensorLink.Notice
import SensorLink.Proofs.Routing

/-! The modem's notification as a text, and what its reader makes of it: the topic and the data, if all the data is
    there (`parse_header`). -/

namespace SensorLink

/-! ### The first occurrence of a mark -/

namespace Cut
variable {α : Type} {mark : List α}

/-- A mark that starts before another one ends before the last element of that. -/
theorem prefix_cons_append_iff (first : α) (before rest : List α) :
    mark <+: first :: (before ++ (mark ++ rest)) ↔ mark <+: first :: (before ++ mark.dropLast) := by
  have hwhole : first :: (before ++ mark.dropLast) <+: first :: (before ++ (mark ++ rest)) := by
    rw [List.prefix_cons_inj, List.prefix_append_right_inj]
    exact (List.dropLast_prefix mark).trans (List.prefix_append mark rest)
  refine ⟨fun h => List.prefix_of_prefix_length_le h hwhole ?_, fun h => h.trans hwhole⟩
  simp only [List.length_append, List.length_cons, List.length_dropLast]
  omega

variable [DecidableEq α]

/-- What stands before a mark, if the mark does not start earlier. -/
theorem once?_append (hmark : mark ≠ []) {before : List α} (h : ¬mark <:+: before ++ mark.dropLast) (rest : List α) :
    once? mark (before ++ (mark ++ rest)) = some (before, rest) := by
  induction before with
  | nil =>
    have hstart : mark.isPrefixOf? (mark ++ rest) = some rest := List.isPrefixOf?_eq_some_iff_append_eq.mpr rfl
    rw [List.nil_append]
    cases hlist : mark ++ rest with
    | nil => exact absurd (List.append_eq_nil_iff.mp hlist).1 hmark
    | cons first others => rw [once?, ← hlist, hstart]
  | cons first before ih =>
    rw [List.cons_append, List.infix_cons_iff, not_or] at h
    have hnone : mark.isPrefixOf? (first :: (before ++ (mark ++ rest))) = none :=
      Option.eq_none_iff_forall_ne_some.mpr fun others hothers =>
        h.1 ((prefix_cons_append_iff ..).mp ⟨others, List.isPrefixOf?_eq_some_iff_append_eq.mp hothers⟩)
    rw [List.cons_append, once?, hnone]
    simp only
    rw [ih h.2]
    rfl

/-- A text is cut at the first place where the mark stands, and nowhere else. -/
theorem once?_eq_some_iff (hmark : mark ≠ []) {text before rest : List α} : once? mark text = some (before, rest) ↔
    text = before ++ (mark ++ rest) ∧ ¬mark <:+: before ++ mark.dropLast := by
  refine ⟨fun h => ?_, fun ⟨htext, hfirst⟩ => htext ▸ once?_append hmark hfirst rest⟩
  induction text generalizing before with
  | nil =>
    obtain ⟨rest, hrest, -⟩ := Option.map_eq_some_iff.mp h
    exact absurd (List.append_eq_nil_iff.mp (List.isPrefixOf?_eq_some_iff_append_eq.mp hrest)).1 hmark
  | cons first text ih =>
    rw [once?] at h
    split at h
    · rename_i hstart
      cases h
      refine ⟨(List.isPrefixOf?_eq_some_iff_append_eq.mp hstart).symm, fun hcut => ?_⟩
      have hlength := hcut.length_le
      have hpos := List.length_pos_iff.mpr hmark
      rw [List.nil_append, List.length_dropLast] at hlength
      omega
    · rename_i hstart
      obtain ⟨⟨before, rest⟩, hcut, heq⟩ := Option.map_eq_some_iff.mp h
      cases heq
      obtain ⟨rfl, hfirst⟩ := ih hcut
      refine ⟨rfl, ?_⟩
      rw [List.cons_append, List.infix_cons_iff, not_or]
      refine ⟨fun hprefix => ?_, hfirst⟩
      obtain ⟨others, hothers⟩ := (prefix_cons_append_iff ..).mpr hprefix
      rw [List.isPrefixOf?_eq_some_iff_append_eq.mpr hothers] at hstart
      cases hstart

end Cut

namespace Notice
open LineSplit

/-! ### Numbers -/

/-- A number as the modem writes it. -/
def numeral (n : Nat) : Bytes := Text.encode (String.ofList (Nat.toDigits 10 n))

theorem isDigit_of_mem {c : Char} {n : Nat} (h : c ∈ Nat.toDigits 10 n) : c.isDigit = true :=
  Nat.isDigit_of_mem_toDigits (by decide) (by decide) h

theorem isDigit_of_mem_numeral {byte : UInt8} {n : Nat} (h : byte ∈ numeral n) (hascii : byte < 128) :
    48 ≤ byte.toNat ∧ byte.toNat ≤ 57 := by
  obtain ⟨c, hc, hbyte⟩ := (Text.mem_encode_iff hascii _).mp h
  have hdigit := isDigit_of_mem (String.toList_ofList ▸ hc)
  simp only [Char.isDigit, Bool.and_eq_true, decide_eq_true_eq, ge_iff_le, UInt32.le_iff_toNat_le] at hdigit
  rw [← hbyte]
  exact hdigit

theorem not_isBlank_of_isDigit {c : Char} (h : c.isDigit = true) : ¬Text.isBlank c = true := fun hblank => by
  simp only [Char.isDigit, Bool.and_eq_true, decide_eq_true_eq, ge_iff_le, UInt32.le_iff_toNat_le] at h
  have hrange : 48 ≤ c.toNat ∧ c.toNat ≤ 57 := h
  simp only [Text.isBlank, Text.blankRanges, List.any_cons, List.any_nil, Bool.or_eq_true, Bool.and_eq_true,
    decide_eq_true_eq, Bool.false_eq_true, or_false] at hblank
  omega

/-- Blanks around a text without any are all that is trimmed. -/
theorem trim_padded {before cs after : List Char} (hblank : ∀ c ∈ before ++ after, Text.isBlank c = true)
    (h : ∀ c ∈ cs, ¬Text.isBlank c = true) : Text.trim (before ++ cs ++ after) = cs := by
  have hkeep {ds : List Char} (hds : ∀ c ∈ ds, c ∈ cs) : ds.dropWhile Text.isBlank = ds := by
    cases ds with
    | nil => rfl
    | cons d ds => exact List.dropWhile_cons_of_neg (h d (hds d List.mem_cons_self))
  obtain ⟨hbefore, hafter⟩ := List.forall_mem_append.mp hblank
  have hstart : (before ++ cs ++ after).dropWhile Text.isBlank = (cs ++ after).dropWhile Text.isBlank := by
    rw [List.append_assoc, List.dropWhile_append_of_pos hbefore]
  rw [Text.trim, hstart, List.dropWhile_append, hkeep fun _ => id]
  split
  · rename_i hempty
    rw [List.isEmpty_iff.mp hempty, List.dropWhile_eq_nil_iff.mpr hafter]
    rfl
  · rw [List.reverse_append, List.dropWhile_append_of_pos fun c hc => hafter c (List.mem_reverse.mp hc),
      hkeep fun _ => List.mem_reverse.mp, List.reverse_reverse]

theorem trim_digits {cs : List Char} (h : ∀ c ∈ cs, c.isDigit = true) : Text.trim cs = cs := by
  have htrim : Text.trim ([] ++ cs ++ []) = cs := trim_padded nofun fun c hc => not_isBlank_of_isDigit (h c hc)
  rwa [List.nil_append, List.append_nil] at htrim

theorem digits?_toDigits (n : Nat) : digits? (Nat.toDigits 10 n) = some n := by
  rw [digits?, if_pos ⟨Nat.toDigits_ne_nil, List.all_eq_true.mpr fun c => isDigit_of_mem⟩,
    Nat.ofDigitChars_ten_toDigits]

theorem number?_numeral (bound n : Nat) : number? bound (numeral n) = if n < bound then some n else none := by
  simp only [number?, numeral, Text.decode?_encode, Option.bind_eq_bind, Option.bind_some, String.toList_ofList,
    trim_digits fun c => isDigit_of_mem]
  split
  · rename_i cs heq
    have hplus : '+'.isDigit = true := isDigit_of_mem (heq ▸ List.mem_cons_self)
    simp at hplus
  · rw [digits?_toDigits, Option.bind_some]

theorem comma_not_mem_numeral (n : Nat) : (44 : UInt8) ∉ numeral n := fun h => by
  have hdigit := isDigit_of_mem_numeral h (by decide)
  simp at hdigit

/-! ### Notifications -/

/-- A notification up to its data, of which it announces `length` bytes. -/
def header (link : Nat) (topic : Bytes) (length : Nat) : Bytes :=
  Intake.noticeMark ++ Text.encode ":" ++ (numeral link ++ (Text.encode "," ++ (Text.encode "\"" ++
    (topic ++ (Text.encode "\"," ++ (numeral length ++ Text.encode ","))))))

variable {link length : Nat} {topic : Bytes}

theorem once?_numeral (n : Nat) (rest : Bytes) :
    Cut.once? (Text.encode ",") (numeral n ++ (Text.encode "," ++ rest)) = some (numeral n, rest) := by
  refine Cut.once?_append (by decide) (fun hcut => ?_) rest
  have hcomma : (44 : UInt8) ∈ numeral n ++ (Text.encode ",").dropLast :=
    hcut.subset (by decide : (44 : UInt8) ∈ Text.encode ",")
  rcases List.mem_append.mp hcomma with hmem | hmem
  · exact comma_not_mem_numeral n hmem
  · exact absurd hmem (by decide)

theorem once?_topic (h : ¬Text.encode "\"," <:+: topic) (rest : Bytes) :
    Cut.once? (Text.encode "\",") (topic ++ (Text.encode "\"," ++ rest)) = some (topic, rest) := by
  refine Cut.once?_append (by decide) (fun hcut => ?_) rest
  have hquote : (Text.encode "\",").dropLast = [34] := by decide
  rw [hquote] at hcut
  rcases List.infix_concat_iff.mp hcut with ⟨before, hbefore⟩ | hcut
  · have hlast := congrArg List.getLast? hbefore
    have hcomma : (Text.encode "\",").getLast? = some 44 := by decide
    simp [hcomma] at hlast
  · exact h hcut

theorem split?_header (hlink : link < UInt8.size) (hquote : ¬Text.encode "\"," <:+: topic) (data : Bytes) :
    split? (header link topic length ++ data) =
      if topic ≠ [] ∧ length < UInt64.size ∧ length ≤ data.length then some (topic, data.take length) else none := by
  have hmark (rest : Bytes) : (Intake.noticeMark ++ Text.encode ":").isPrefixOf?
      (Intake.noticeMark ++ Text.encode ":" ++ rest) = some rest := List.isPrefixOf?_eq_some_iff_append_eq.mpr rfl
  have hopen (rest : Bytes) : (Text.encode "\"").isPrefixOf? (Text.encode "\"" ++ rest) = some rest :=
    List.isPrefixOf?_eq_some_iff_append_eq.mpr rfl
  rw [header]
  simp only [List.append_assoc] at hmark ⊢
  simp only [split?, hmark, hopen, once?_numeral, once?_topic hquote, number?_numeral, if_pos hlink,
    Option.bind_eq_bind, Option.bind_some]
  by_cases hlength : length < UInt64.size
  · rw [if_pos hlength, Option.bind_some]
    simp only [hlength, true_and]
  · rw [if_neg hlength, Option.bind_none, if_neg fun h => hlength h.2.1]

/-- A notification is understood exactly if all the data that it announces is there. -/
theorem parse_header (hlink : link < UInt8.size) {topic : String} (hne : topic ≠ "")
    (hquote : ¬Text.encode "\"," <:+: Text.encode topic) (data : Bytes) :
    parse (header link (Text.encode topic) length ++ data) =
      if length < UInt64.size ∧ length ≤ data.length then .ok { topic, data := data.take length }
      else .error .malformedNotice := by
  have hbytes : Text.encode topic ≠ [] := fun hnil => by
    have hsize := Text.length_encode topic
    rw [hnil, List.length_nil, eq_comm, String.utf8ByteSize_eq_zero_iff] at hsize
    exact hne hsize
  rw [parse, split?_header hlink hquote]
  simp only [ne_eq, hbytes, not_false_eq_true, true_and]
  split
  · rename_i hnone
    rw [if_neg (by simpa using hnone)]
  · rename_i topic' data' hsome
    obtain ⟨hfits, heq⟩ := Option.ite_none_right_eq_some.mp hsome
    cases heq
    rw [if_pos hfits, Text.decode?_encode]

/-! ### What the line buffer deletes -/

theorem unbroken_numeral (n : Nat) : Unbroken (numeral n) := fun byte hbyte => by
  refine ⟨?_, ?_, ?_⟩ <;> rintro rfl <;> exact absurd (isDigit_of_mem_numeral hbyte (by decide)) (by decide)

theorem unbroken_header (htopic : Unbroken topic) : Unbroken (header link topic length) := by
  have hplain : Unbroken (Intake.noticeMark ++ Text.encode ":") ∧ Unbroken (Text.encode ",") ∧
      Unbroken (Text.encode "\"") ∧ Unbroken (Text.encode "\",") := by decide
  obtain ⟨hmark, hcomma, hopen, hclose⟩ := hplain
  simp only [header, unbroken_append] at hmark ⊢
  exact ⟨hmark, unbroken_numeral _, hcomma, hopen, htopic, hclose, unbroken_numeral _, hcomma⟩

theorem noticeMark_prefix_header : Intake.noticeMark <+: header link topic length :=
  ⟨_, (List.append_assoc ..).symm⟩

theorem head?_of_noticeMark {line : Bytes} (h : Intake.noticeMark <+: line) : line.head? = some 43 := by
  obtain ⟨rest, rfl⟩ := h
  have hmark : Intake.noticeMark.head? = some 43 := by decide
  rw [List.head?_append, hmark, Option.some_or]

end Notice
end SensorLink
