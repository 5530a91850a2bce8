import Mathlib.Tactic.Common
import SensorLink.Topic.Pattern

/-! Topics as lists of levels, and which of them a pattern covers: level by level up to its first `#` and, without one,
    to the end of both (`covers_iff`). A pattern covers no fewer topics when levels of it give way to wildcards
    (`covers_set`, `covers_take`). -/

namespace SensorLink.Topic

/-! ### Levels -/

theorem ofLevels_singleton (level : String) : ofLevels [level] = level := by simp [ofLevels, List.intercalate]

theorem ofLevels_cons (first : String) {rest : List String} (h : rest ≠ []) :
    ofLevels (first :: rest) = first ++ String.singleton separator ++ ofLevels rest := by
  obtain ⟨second, rest, rfl⟩ := List.exists_cons_of_ne_nil h
  rw [← String.toList_inj]
  simp [ofLevels, List.intercalate_cons_cons]

/-- A level with separators in it counts as several. -/
theorem levels_ofLevels_eq {parts : List String} (h : parts ≠ []) : levels (ofLevels parts) = parts.flatMap levels := by
  induction parts with
  | nil => exact absurd rfl h
  | cons first rest ih =>
    cases rest with
    | nil => simp [ofLevels, List.intercalate]
    | cons second rest =>
      have hcons : (ofLevels (first :: second :: rest)).toList =
          first.toList ++ separator :: (ofLevels (second :: rest)).toList := by
        simp [ofLevels_cons]
      rw [List.flatMap_cons, ← ih (by simp), levels, hcons, List.splitOn, List.splitOnP_append_cons _ _ (by simp),
        List.map_append]
      rfl

theorem eq_of_levels {topic other : String} (h : levels topic = levels other) : topic = other := by
  rw [← ofLevels_levels topic, h, ofLevels_levels]

theorem levels_of_single {text : String} (h : separator ∉ text.toList) : levels text = [text] := by
  rw [← ofLevels_singleton text, levels_ofLevels (by simp) (by simpa using h), ofLevels_singleton]

theorem levels_ne_nil (topic : String) : levels topic ≠ [] := by simp [levels]

theorem separator_notMem_of_mem_levels {topic level : String} (h : level ∈ levels topic) : separator ∉ level.toList := by
  have hpieces (cs : List Char) : ∀ piece ∈ cs.splitOn separator, separator ∉ piece := by
    induction cs with
    | nil => simp
    | cons c cs ih =>
      obtain ⟨first, rest, hsplit⟩ := List.exists_cons_of_ne_nil (List.splitOn_ne_nil separator cs)
      rw [hsplit, List.forall_mem_cons] at ih
      rw [List.splitOn_cons_eq_if_modifyHead, hsplit]
      split
      · exact List.forall_mem_cons.mpr ⟨List.not_mem_nil, List.forall_mem_cons.mpr ih⟩
      · rename_i hc
        refine List.forall_mem_cons.mpr ⟨fun hmem => ?_, ih.2⟩
        rcases List.mem_cons.mp hmem with heq | hmem
        · exact hc (beq_iff_eq.mpr heq.symm)
        · exact ih.1 hmem
  obtain ⟨piece, hpiece, rfl⟩ := List.mem_map.mp h
  rw [String.toList_ofList]
  exact hpieces _ piece hpiece

/-! ### Names and wildcards -/

/-- A level that is no wildcard. -/
def IsName (level : String) : Prop := level ≠ oneLevel ∧ level ≠ anyLevels

theorem isConcrete_iff (topic : String) : isConcrete topic = true ↔ ∀ level ∈ levels topic, IsName level := by
  simp [isConcrete, IsName]

theorem covers_cons {wanted : String} (h : wanted ≠ anyLevels) (level : String) (pattern topic : List String) :
    covers (wanted :: pattern) (level :: topic) = true ↔
      (wanted = level ∨ wanted = oneLevel) ∧ covers pattern topic = true := by
  simp [covers, h, or_comm]

theorem covers_anyLevels (pattern topic : List String) : covers (anyLevels :: pattern) topic = true := by
  cases topic <;> simp [covers]

/-- Either `#` covers all that is left, or the first level covers one. -/
theorem covers_cons_iff {wanted : String} {pattern topic : List String} : covers (wanted :: pattern) topic = true ↔
    wanted = anyLevels ∨ ∃ level rest, topic = level :: rest ∧ (wanted = level ∨ wanted = oneLevel) ∧
      covers pattern rest = true := by
  by_cases hany : wanted = anyLevels
  · exact iff_of_true (hany ▸ covers_anyLevels ..) (.inl hany)
  · cases topic with
    | nil => simp [covers, hany]
    | cons level topic => simp [covers_cons hany, hany]

theorem covers_nil_iff (wanted : String) (pattern : List String) :
    covers (wanted :: pattern) [] = true ↔ wanted = anyLevels := by
  simp [covers]

/-- Levels that both begin with do not matter, unless the pattern ends among them. -/
theorem covers_append {root : List String} (h : ∀ level ∈ root, level ≠ anyLevels) (pattern topic : List String) :
    covers (root ++ pattern) (root ++ topic) = covers pattern topic := by
  induction root with
  | nil => rfl
  | cons level rest ih =>
    have hlevel : level ≠ anyLevels := h level List.mem_cons_self
    have hrest : covers (rest ++ pattern) (rest ++ topic) = covers pattern topic :=
      ih fun other hother => h other (List.mem_cons_of_mem _ hother)
    simp [covers, hlevel, hrest]

/-! ### Which topics a pattern covers -/

/-- The first `n` levels are the same, where the pattern does not have `+`. -/
def AgreeBelow (n : Nat) (pattern topic : List String) : Prop :=
  ∀ j < n, pattern[j]? = some oneLevel ∨ pattern[j]? = topic[j]?

section
variable {pattern topic : List String}

theorem agreeBelow_succ {n : Nat} {wanted level : String} :
    AgreeBelow (n + 1) (wanted :: pattern) (level :: topic) ↔
      (wanted = level ∨ wanted = oneLevel) ∧ AgreeBelow n pattern topic := by
  simp only [AgreeBelow, Nat.forall_lt_succ_left, List.getElem?_cons_zero, List.getElem?_cons_succ, Option.some.injEq]
  rw [or_comm]

theorem covers_iff : covers pattern topic = true ↔
    (∃ i, pattern.idxOf? anyLevels = some i ∧ i ≤ topic.length ∧ AgreeBelow i pattern topic) ∨
      anyLevels ∉ pattern ∧ pattern.length = topic.length ∧ AgreeBelow pattern.length pattern topic := by
  induction pattern generalizing topic with
  | nil => cases topic <;> simp [covers, AgreeBelow]
  | cons wanted pattern ih =>
    by_cases hany : wanted = anyLevels
    · subst hany
      exact iff_of_true (covers_anyLevels ..) (.inl ⟨0, by simp [List.idxOf?_cons], Nat.zero_le _, nofun⟩)
    · have hfirst : (wanted :: pattern).idxOf? anyLevels = (pattern.idxOf? anyLevels).map (· + 1) := by
        rw [List.idxOf?_cons, if_neg (by simpa using hany)]
      have hmem : anyLevels ∉ wanted :: pattern ↔ anyLevels ∉ pattern := by simp [Ne.symm hany]
      cases topic with
      | nil => simp [covers_nil_iff, hany, hfirst]
      | cons level topic =>
        rw [covers_cons hany, ih, and_or_left, hmem, hfirst]
        refine or_congr ⟨?_, ?_⟩ ?_
        · rintro ⟨hlevel, i, hi, hlong, hagree⟩
          exact ⟨i + 1, by rw [hi]; rfl, Nat.succ_le_succ hlong, agreeBelow_succ.mpr ⟨hlevel, hagree⟩⟩
        · rintro ⟨_, hfound, hlong, hagree⟩
          obtain ⟨i, hi, rfl⟩ := Option.map_eq_some_iff.mp hfound
          obtain ⟨hlevel, hagree⟩ := agreeBelow_succ.mp hagree
          exact ⟨hlevel, i, hi, Nat.le_of_succ_le_succ hlong, hagree⟩
        · rw [List.length_cons, List.length_cons, Nat.succ_inj, agreeBelow_succ, and_left_comm, and_left_comm (b := _ = _)]

/-- Levels that are no wildcards cover themselves only. -/
theorem covers_names (h : ∀ level ∈ pattern, IsName level) : covers pattern topic = true ↔ pattern = topic := by
  induction pattern generalizing topic with
  | nil => cases topic <;> simp [covers]
  | cons wanted pattern ih =>
    obtain ⟨⟨hone, hany⟩, hrest⟩ := List.forall_mem_cons.mp h
    cases topic with
    | nil => simp [covers_nil_iff, hany]
    | cons level topic => rw [covers_cons hany, ih hrest, or_iff_left hone, List.cons.injEq]

/-- `+` in the place of a level other than `#` loses no topic. -/
theorem covers_set {i : Nat} (hlevel : pattern[i]? ≠ some anyLevels) (h : covers pattern topic = true) :
    covers (pattern.set i oneLevel) topic = true := by
  induction pattern generalizing topic i with
  | nil => exact h
  | cons wanted pattern ih =>
    rcases covers_cons_iff.mp h with rfl | ⟨level, rest, rfl, hwanted, hrest⟩
    · cases i with
      | zero => exact absurd rfl hlevel
      | succ i => exact covers_anyLevels ..
    · cases i with
      | zero => exact covers_cons_iff.mpr (.inr ⟨level, rest, rfl, .inr rfl, hrest⟩)
      | succ i => exact covers_cons_iff.mpr (.inr ⟨level, rest, rfl, hwanted, ih hlevel hrest⟩)

/-- `#` in the place of what follows the first levels loses no topic. -/
theorem covers_take (n : Nat) (h : covers pattern topic = true) :
    covers (pattern.take n ++ [anyLevels]) topic = true := by
  induction pattern generalizing topic n with
  | nil => rw [List.take_nil, List.nil_append, covers_anyLevels]
  | cons wanted pattern ih =>
    cases n with
    | zero => exact covers_anyLevels ..
    | succ n =>
      rcases covers_cons_iff.mp h with rfl | ⟨level, rest, rfl, hwanted, hrest⟩
      · exact covers_anyLevels ..
      · exact covers_cons_iff.mpr (.inr ⟨level, rest, rfl, hwanted, ih n hrest⟩)

end

theorem levels_set (pattern : String) (i : Nat) :
    levels (ofLevels ((levels pattern).set i oneLevel)) = (levels pattern).set i oneLevel := by
  refine levels_ofLevels (by simp [levels_ne_nil]) fun level hlevel => ?_
  rcases List.mem_or_eq_of_mem_set hlevel with hmem | rfl
  · exact separator_notMem_of_mem_levels hmem
  · decide

theorem levels_take (pattern : String) (n : Nat) :
    levels (ofLevels ((levels pattern).take n ++ [anyLevels])) = (levels pattern).take n ++ [anyLevels] := by
  refine levels_ofLevels (by simp) fun level hlevel => ?_
  rcases List.mem_append.mp hlevel with hmem | hmem
  · exact separator_notMem_of_mem_levels (List.mem_of_mem_take hmem)
  · rw [List.mem_singleton.mp hmem]
    decide

/-- A pattern with `#` in it accepts the topics that agree with it up to the first one, and any other pattern those that
    agree with it and have as many levels. So a pattern without wildcards accepts itself only, and a pattern still
    accepts all that it did once `+` stands in the place of a level other than `#`, or `#` in the place of all levels from
    some point on. -/
theorem accepts_exactly (pattern topic : String) :
    (accepts pattern topic = true ↔
      (∃ i, (levels pattern).idxOf? anyLevels = some i ∧ i ≤ (levels topic).length ∧
        AgreeBelow i (levels pattern) (levels topic)) ∨
      anyLevels ∉ levels pattern ∧ (levels pattern).length = (levels topic).length ∧
        AgreeBelow (levels pattern).length (levels pattern) (levels topic)) ∧
    (isConcrete pattern = true → (accepts pattern topic = true ↔ pattern = topic)) ∧
    (accepts pattern topic = true →
      (∀ i, (levels pattern)[i]? ≠ some anyLevels →
        accepts (ofLevels ((levels pattern).set i oneLevel)) topic = true) ∧
      ∀ n, accepts (ofLevels ((levels pattern).take n ++ [anyLevels])) topic = true) := by
  refine ⟨covers_iff, fun hconcrete => ?_, fun h => ⟨fun i hi => ?_, fun n => ?_⟩⟩
  · rw [accepts, covers_names ((isConcrete_iff pattern).mp hconcrete)]
    exact ⟨eq_of_levels, congrArg levels⟩
  · rw [accepts, levels_set]
    exact covers_set hi h
  · rw [accepts, levels_take]
    exact covers_take n h

/-- An empty level counts as one: `a//c` accepts itself, and `a/+/c`, `a/#` and `a//c/#` accept it too. -/
theorem accepts_exactly_with_empty_level :
    (isConcrete "a//c" = true ∧ accepts "a//c" "a//c" = true ∧ (levels "a//c")[1]? ≠ some anyLevels) ∧
      accepts "a/+/c" "a//c" = true ∧ accepts "a/#" "a//c" = true ∧ accepts "a//c/#" "a//c" = true := by
  obtain ⟨-, hplain, hwiden⟩ := accepts_exactly "a//c" "a//c"
  have hconcrete : isConcrete "a//c" = true := by decide +kernel
  have haccepts : accepts "a//c" "a//c" = true := (hplain hconcrete).mpr rfl
  have hlevel : (levels "a//c")[1]? ≠ some anyLevels := by decide +kernel
  obtain ⟨hset, htake⟩ := hwiden haccepts
  have hone : ofLevels ((levels "a//c").set 1 oneLevel) = "a/+/c" := by decide +kernel
  have hfirst : ofLevels ((levels "a//c").take 1 ++ [anyLevels]) = "a/#" := by decide +kernel
  have hall : ofLevels ((levels "a//c").take 3 ++ [anyLevels]) = "a//c/#" := by decide +kernel
  exact ⟨⟨hconcrete, haccepts, hlevel⟩, hone ▸ hset 1 hlevel, hfirst ▸ htake 1, hall ▸ htake 3⟩

end SensorLink.Topic
