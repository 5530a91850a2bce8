import SensorLink.Proofs.Wildcards

/-! Which texts are patterns, place by place (`levelsFit_iff`), and which topics a pattern stands for: those that come of
    it by one level in the place of each `+`, and any levels, or none, in the place of a `#` at its end (`covers_filled`,
    `eq_filled_of_covers`). -/

namespace SensorLink.Topic

/-! ### Texts that are patterns -/

/-- What may stand at place `i` of a pattern with `n` levels: a text without wildcard characters, a `+`, and at the end
    a `#`. -/
def MayStand (level : String) (i n : Nat) : Prop := Plain level ∨ level = oneLevel ∨ level = anyLevels ∧ i + 1 = n

theorem levelFits_iff (level : String) (rest : List String) :
    levelFits level rest = true ↔ MayStand level 0 (rest.length + 1) := by
  unfold levelFits MayStand
  split
  · rename_i hany
    subst hany
    have hplain : ¬ Plain anyLevels := by decide
    have hone : anyLevels ≠ oneLevel := by decide
    rw [or_iff_right hplain, or_iff_right hone, and_iff_right rfl, Nat.zero_add, Nat.right_eq_add,
      List.isEmpty_iff_length_eq_zero]
  · rename_i hany
    rw [Bool.or_eq_true, beq_iff_eq, all_plain_iff, or_comm]
    simp [hany]

/-- Each level is judged by its own text and by whether it is the last one. -/
theorem levelsFit_iff (pattern : List String) : levelsFit pattern = true ↔
    ∀ i level, pattern[i]? = some level → MayStand level i pattern.length := by
  induction pattern with
  | nil => simp [levelsFit]
  | cons first rest ih =>
    have hshift (level : String) (i : Nat) : MayStand level (i + 1) (rest.length + 1) ↔ MayStand level i rest.length := by
      unfold MayStand
      rw [Nat.add_right_cancel_iff]
    rw [levelsFit, Bool.and_eq_true, levelFits_iff, ih, List.length_cons]
    constructor
    · rintro ⟨hfirst, hrest⟩ (_ | i) level hlevel
      · rw [List.getElem?_cons_zero, Option.some.injEq] at hlevel
        exact hlevel ▸ hfirst
      · exact (hshift level i).mpr (hrest i level hlevel)
    · intro h
      exact ⟨h 0 first rfl, fun i level hlevel => (hshift level i).mp (h (i + 1) level hlevel)⟩

theorem checkPattern_eq_empty_iff {pattern : String} : checkPattern pattern = .error .empty ↔ pattern = "" := by
  unfold checkPattern
  split
  · simp [*]
  · split <;> simp [*]

theorem checkPattern_eq_invalidWildcard_iff {pattern : String} :
    checkPattern pattern = .error .invalidWildcard ↔ pattern ≠ "" ∧ levelsFit (levels pattern) ≠ true := by
  unfold checkPattern
  split
  · simp [*]
  · split <;> simp [*]

/-! ### Topics of a pattern -/

/-- The levels of a pattern with `chosen i` for a `+` at place `i`, and with `rest` for a `#` and all behind it. -/
def filled : List String → (Nat → String) → List String → List String
  | [], _, _ => []
  | wanted :: pattern, chosen, rest =>
    if wanted = anyLevels then rest
    else (if wanted = oneLevel then chosen 0 else wanted) :: filled pattern (fun i => chosen (i + 1)) rest

section
variable {pattern topic : List String} {chosen : Nat → String} {rest : List String}

theorem covers_filled (pattern : List String) (chosen : Nat → String) (rest : List String) :
    covers pattern (filled pattern chosen rest) = true := by
  induction pattern generalizing chosen with
  | nil => rfl
  | cons wanted pattern ih =>
    rw [covers_cons_iff, filled]
    split
    · exact .inl ‹_›
    · refine .inr ⟨_, _, rfl, ?_, ih _⟩
      split
      · exact .inr ‹_›
      · exact .inl rfl

/-- A topic comes of any pattern that covers it, by its own levels. -/
theorem eq_filled_of_covers (h : covers pattern topic = true) :
    topic = filled pattern (fun i => topic.getD i "") (topic.drop (pattern.idxOf anyLevels)) := by
  induction pattern generalizing topic with
  | nil =>
    cases topic with
    | nil => rfl
    | cons level topic => cases h
  | cons wanted pattern ih =>
    rw [filled]
    split
    · rename_i hany
      rw [hany, List.idxOf_cons_self, List.drop_zero]
    · rename_i hany
      obtain hwanted | ⟨level, topic, rfl, hlevel, hcovers⟩ := covers_cons_iff.mp h
      · exact absurd hwanted hany
      have hfirst : (if wanted = oneLevel then level else wanted) = level := by
        split
        · rfl
        · exact hlevel.resolve_right ‹_›
      rw [List.idxOf_cons_ne _ hany, List.drop_succ_cons, List.getD_cons_zero, hfirst]
      exact congrArg (level :: ·) (ih hcovers)

/-- A level there is one of the pattern's own, or one of those that were put in. -/
theorem mem_filled {level : String} (h : level ∈ filled pattern chosen rest) :
    level ∈ pattern ∨ (∃ i, level = chosen i) ∨ level ∈ rest := by
  induction pattern generalizing chosen with
  | nil => cases h
  | cons wanted pattern ih =>
    rw [filled] at h
    split at h
    · exact .inr (.inr h)
    · rcases List.mem_cons.mp h with rfl | h
      · split
        · exact .inr (.inl ⟨0, rfl⟩)
        · exact .inl List.mem_cons_self
      · exact (ih h).imp (List.mem_cons_of_mem _) (Or.imp_left fun ⟨i, hi⟩ => ⟨i + 1, hi⟩)

/-- Only `#`, put first, may leave no level at all. -/
theorem filled_eq_nil (hne : pattern ≠ []) (h : filled pattern chosen rest = []) : ∃ behind, pattern = anyLevels :: behind := by
  cases pattern with
  | nil => exact absurd rfl hne
  | cons wanted behind =>
    rw [filled] at h
    split at h
    · exact ⟨behind, by rw [‹wanted = anyLevels›]⟩
    · cases h

end

/-- A text that is one level of a topic. -/
def IsLevel (text : String) : Prop := separator ∉ text.toList

theorem accepts_filled (pattern : String) {chosen : Nat → String} {rest : List String} (hchosen : ∀ i, IsLevel (chosen i))
    (hrest : ∀ level ∈ rest, IsLevel level) :
    accepts pattern (ofLevels (filled (levels pattern) chosen rest)) = true := by
  rw [accepts]
  by_cases hnil : filled (levels pattern) chosen rest = []
  · obtain ⟨behind, hpattern⟩ := filled_eq_nil (levels_ne_nil pattern) hnil
    rw [hpattern, covers_anyLevels]
  · rw [levels_ofLevels hnil fun level hlevel => ?_, covers_filled]
    rcases mem_filled hlevel with hmem | ⟨i, rfl⟩ | hmem
    · exact separator_notMem_of_mem_levels hmem
    · exact hchosen i
    · exact hrest level hmem

theorem isLevel_getD_levels (topic : String) (i : Nat) : IsLevel ((levels topic).getD i "") := by
  rw [List.getD_eq_getElem?_getD]
  rcases hlevel : (levels topic)[i]? with _ | level
  · exact List.not_mem_nil
  · exact separator_notMem_of_mem_levels (List.mem_of_getElem? hlevel)

/-- The empty text is refused as empty. Any other text is a pattern exactly if each of its levels is plain, or is `+`, or is
    `#` and the last one, and is refused for its wildcards otherwise. The topics that a pattern accepts are those that come
    of it by one level for each `+` and by any levels, or none, for a `#` at its end. -/
theorem patterns_exactly (pattern : String) :
    (checkPattern pattern = .error .empty ↔ pattern = "") ∧
    (checkPattern pattern = .ok () ↔ pattern ≠ "" ∧
      ∀ i level, (levels pattern)[i]? = some level → MayStand level i (levels pattern).length) ∧
    (checkPattern pattern = .error .invalidWildcard ↔ pattern ≠ "" ∧
      ∃ i level, (levels pattern)[i]? = some level ∧ ¬ MayStand level i (levels pattern).length) ∧
    ∀ topic, accepts pattern topic = true ↔ ∃ chosen rest, (∀ i, IsLevel (chosen i)) ∧ (∀ level ∈ rest, IsLevel level) ∧
      topic = ofLevels (filled (levels pattern) chosen rest) := by
  refine ⟨checkPattern_eq_empty_iff, ?_, ?_, fun topic => ⟨fun h => ?_, ?_⟩⟩
  · rw [checkPattern_eq_ok_iff, levelsFit_iff]
  · rw [checkPattern_eq_invalidWildcard_iff, Ne, Ne, levelsFit_iff]
    push Not
    rfl
  · refine ⟨fun i => (levels topic).getD i "", (levels topic).drop ((levels pattern).idxOf anyLevels),
      isLevel_getD_levels topic, fun level hlevel => ?_, ?_⟩
    · exact separator_notMem_of_mem_levels (List.mem_of_mem_drop hlevel)
    · rw [← eq_filled_of_covers h, ofLevels_levels]
  · rintro ⟨chosen, rest, hchosen, hrest, rfl⟩
    exact accepts_filled pattern hchosen hrest

/-- `#` stands for no level at all as well. -/
example : ofLevels (filled (levels "a/+/#") (fun _ => "b") []) = "a/b" := by decide +kernel

end SensorLink.Topic
