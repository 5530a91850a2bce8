/-! A topic as the list of its levels, which `/` separates. -/

namespace SensorLink.Topic

def separator : Char := '/'

/-- The levels of a topic; the empty topic has one empty level. -/
def levels (topic : String) : List String := (topic.toList.splitOn separator).map String.ofList

/-- The topic with these levels. A level that holds separators itself counts as several. -/
def ofLevels (levels : List String) : String :=
  String.ofList ([separator].intercalate (levels.map String.toList))

theorem ofLevels_levels (topic : String) : ofLevels (levels topic) = topic := by
  have h : (topic.toList.splitOn separator).map (String.toList ∘ String.ofList) =
      topic.toList.splitOn separator := by
    simp [Function.comp_def]
  rw [ofLevels, levels, List.map_map, h, List.intercalate_splitOn, String.ofList_toList]

theorem levels_ofLevels {levels : List String} (hne : levels ≠ [])
    (h : ∀ level ∈ levels, separator ∉ level.toList) : Topic.levels (ofLevels levels) = levels := by
  rw [Topic.levels, ofLevels, String.toList_ofList, List.splitOn_intercalate]
  · simp [Function.comp_def]
  · intro cs hcs
    obtain ⟨level, hlevel, rfl⟩ := List.mem_map.1 hcs
    exact h level hlevel
  · simpa using hne

end SensorLink.Topic
