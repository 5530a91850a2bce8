import SensorLink.Proofs.Qualifying
import SensorLink.Topic.Message

/-! Structured topics, built part by part. The store for a topic has room for the longest of them (`size_ofTwin`), so
    nothing is left out, and a topic's levels are the parts it was built from. These give the parts back: no two topics
    are built alike (`built_exactly`). -/

namespace SensorLink.Topic

/-! ### The store for a topic -/

/-- One more part. -/
theorem ofLevels_cons_cons (first second : String) (rest : List String) :
    ofLevels (first :: second :: rest) = ofLevels ((first ++ String.singleton separator ++ second) :: rest) := by
  cases rest with
  | nil => rw [ofLevels_cons first (by simp), ofLevels_singleton, ofLevels_singleton]
  | cons third rest =>
    have hcons (level : String) := ofLevels_cons level (List.cons_ne_nil third rest)
    rw [ofLevels_cons first (by simp), hcons, hcons]
    simp only [String.append_assoc]

theorem size_le_ofLevels_cons (first : String) (rest : List String) :
    first.utf8ByteSize ≤ (ofLevels (first :: rest)).utf8ByteSize := by
  cases rest with
  | nil => rw [ofLevels_singleton]
  | cons second rest =>
    rw [ofLevels_cons first (by simp), String.utf8ByteSize_append, String.utf8ByteSize_append]
    omega

theorem addPart_of_fits {held part : String}
    (h : (held ++ String.singleton separator ++ part).utf8ByteSize ≤ Limits.topic) :
    addPart held part = held ++ String.singleton separator ++ part := by
  rw [String.utf8ByteSize_append] at h
  have hseparator : (held ++ String.singleton separator).utf8ByteSize ≤ Limits.topic := by omega
  rw [String.utf8ByteSize_append] at hseparator
  rw [addPart, Text.put_of_fits hseparator, Text.put_of_fits h]

/-- A store that has room for the parts and the separators takes all of them. -/
theorem build_eq_ofLevels {parts : List String} (h : (ofLevels parts).utf8ByteSize ≤ Limits.topic) :
    build parts = ofLevels parts := by
  have hfold (rest : List String) : ∀ held, (ofLevels (held :: rest)).utf8ByteSize ≤ Limits.topic →
      rest.foldl addPart held = ofLevels (held :: rest) := by
    induction rest with
    | nil => exact fun held _ => (ofLevels_singleton held).symm
    | cons part rest ih =>
      intro held h
      rw [ofLevels_cons_cons] at h ⊢
      rw [List.foldl_cons, addPart_of_fits (Nat.le_trans (size_le_ofLevels_cons _ rest) h), ih _ h]
  cases parts with
  | nil => rfl
  | cons first rest =>
    have hfirst : "".utf8ByteSize + first.utf8ByteSize ≤ Limits.topic := by
      rw [String.utf8ByteSize_empty, Nat.zero_add]
      exact Nat.le_trans (size_le_ofLevels_cons first rest) h
    rw [build, Text.put_of_fits hfirst, String.empty_append, hfold rest first h]

/-! ### Tags and labels -/

/-- A tag is a level of its own, and no wildcard. -/
theorem separator_notMem_tag (kind : Kind) : separator ∉ kind.tag.toList := by cases kind <;> decide

theorem tag_ne (kind : Kind) : kind.tag ≠ oneLevel ∧ kind.tag ≠ anyLevels := by cases kind <;> decide

theorem tag_injective {kind other : Kind} (h : kind.tag = other.tag) : kind = other := by
  revert h
  cases kind <;> cases other <;> decide

theorem size_tag (kind : Kind) : kind.tag.utf8ByteSize ≤ Limits.kind := by cases kind <;> decide

theorem Label.text_injective {label other : Label} (h : label.text = other.text) : label = other := by
  cases label
  cases other
  cases h
  rfl

/-- A text is accepted as the label that it is the text of. -/
theorem Label.ofText_eq_ok_iff {text : String} {label : Label} : Label.ofText text = .ok label ↔ text = label.text := by
  constructor
  · intro h
    unfold Label.ofText at h
    repeat' split at h
    all_goals cases h
    rfl
  · rintro rfl
    rw [Label.ofText, dif_neg label.nonempty, dif_neg label.singleLevel, dif_pos label.fits]

/-! ### Structured topics -/

section
variable (twin : Label) (kind : Kind) (id : Option Label)

theorem separator_notMem_levels : ∀ level ∈ kind.tag :: (id.map Label.text).toList, separator ∉ level.toList := by
  refine List.forall_mem_cons.mpr ⟨separator_notMem_tag kind, fun level hlevel => ?_⟩
  obtain ⟨label, -, rfl⟩ := Option.map_eq_some_iff.mp (Option.mem_toList.mp hlevel)
  exact label.singleLevel

theorem size_parts :
    (ofLevels (kind.tag :: (id.map Label.text).toList)).utf8ByteSize ≤ Limits.kind + 1 + Limits.label := by
  have hsize := size_ofLevels (show kind.tag :: (id.map Label.text).toList ≠ [] by simp)
  have htag := size_tag kind
  cases id with
  | none =>
    simp only [Option.map_none, Option.toList_none, List.map_cons, List.map_nil, List.sum_cons, List.sum_nil] at hsize ⊢
    omega
  | some id =>
    have hid := id.fits
    simp only [Option.map_some, Option.toList_some, List.map_cons, List.map_nil, List.sum_cons, List.sum_nil] at hsize ⊢
    omega

/-- With a twin in front, the longest parts take just as many bytes as a topic may have. -/
theorem size_twin_parts :
    (ofLevels (twin.text :: kind.tag :: (id.map Label.text).toList)).utf8ByteSize ≤ Limits.topic := by
  have hparts := size_parts kind id
  have htwin := twin.fits
  have hseparator : (String.singleton separator).utf8ByteSize = 1 := by decide
  have hlimit : Limits.topic = Limits.label + 1 + (Limits.kind + 1 + Limits.label) := rfl
  rw [ofLevels_cons _ (by simp), String.utf8ByteSize_append, String.utf8ByteSize_append, hseparator]
  omega

theorem own_eq : own kind id = ofLevels (kind.tag :: (id.map Label.text).toList) :=
  build_eq_ofLevels (Nat.le_trans (size_parts kind id) (by decide))

theorem ofTwin_eq : ofTwin twin kind id = ofLevels (twin.text :: kind.tag :: (id.map Label.text).toList) :=
  build_eq_ofLevels (size_twin_parts twin kind id)

theorem size_own : (own kind id).utf8ByteSize ≤ Limits.topic :=
  own_eq kind id ▸ Nat.le_trans (size_parts kind id) (by decide)

theorem size_ofTwin : (ofTwin twin kind id).utf8ByteSize ≤ Limits.topic :=
  ofTwin_eq twin kind id ▸ size_twin_parts twin kind id

theorem levels_own : levels (own kind id) = kind.tag :: (id.map Label.text).toList := by
  rw [own_eq]
  exact levels_ofLevels (by simp) (separator_notMem_levels kind id)

theorem levels_ofTwin : levels (ofTwin twin kind id) = twin.text :: levels (own kind id) := by
  rw [levels_own, ofTwin_eq]
  exact levels_ofLevels (by simp) (List.forall_mem_cons.mpr ⟨twin.singleLevel, separator_notMem_levels kind id⟩)

theorem own_ne_empty : own kind id ≠ "" := fun hempty => by
  have hlevels := levels_own kind id
  rw [hempty, levels_of_single (by simp)] at hlevels
  exact absurd (List.cons.inj hlevels).1 (by cases kind <;> decide)

theorem ofTwin_ne_empty : ofTwin twin kind id ≠ "" := fun hempty => by
  have hlevels := levels_ofTwin twin kind id
  rw [hempty, levels_of_single (by simp)] at hlevels
  exact twin.nonempty (List.cons.inj hlevels).1.symm

end

section
variable {twin twin' : Label} {kind kind' : Kind} {id id' : Option Label}

/-- The levels of a topic tell what it was built from. -/
theorem own_inj : own kind id = own kind' id' ↔ kind = kind' ∧ id = id' := by
  constructor
  · intro h
    have hlevels := congrArg levels h
    rw [levels_own, levels_own] at hlevels
    obtain ⟨htag, hid⟩ := List.cons.inj hlevels
    refine ⟨tag_injective htag, ?_⟩
    rcases id with _ | id <;> rcases id' with _ | id'
    · rfl
    · cases hid
    · cases hid
    · exact congrArg some (Label.text_injective (List.cons.inj hid).1)
  · rintro ⟨rfl, rfl⟩
    rfl

theorem ofTwin_inj : ofTwin twin kind id = ofTwin twin' kind' id' ↔ twin = twin' ∧ kind = kind' ∧ id = id' := by
  constructor
  · intro h
    have hlevels := congrArg levels h
    rw [levels_ofTwin, levels_ofTwin] at hlevels
    obtain ⟨htwin, hown⟩ := List.cons.inj hlevels
    exact ⟨Label.text_injective htwin, own_inj.mp (eq_of_levels hown)⟩
  · rintro ⟨rfl, rfl, rfl⟩
    rfl

end

/-- A structured topic is its parts with a `/` between any two, whole: it fits the store for topics, its levels are the
    parts, and no identity refuses it in any scope. Different parts, or an id and none, build different topics. Every text
    that is accepted as a label is the text of one, so this is so for all of them. -/
theorem built_exactly (twin : Label) (kind : Kind) (id : Option Label) :
    (own kind id = match id with
      | none => kind.tag
      | some id => kind.tag ++ "/" ++ id.text) ∧
    (ofTwin twin kind id = match id with
      | none => twin.text ++ "/" ++ kind.tag
      | some id => twin.text ++ "/" ++ kind.tag ++ "/" ++ id.text) ∧
    (own kind id).utf8ByteSize ≤ Limits.topic ∧ (ofTwin twin kind id).utf8ByteSize ≤ Limits.topic ∧
    levels (own kind id) = kind.tag :: (id.map Label.text).toList ∧
    levels (ofTwin twin kind id) = twin.text :: kind.tag :: (id.map Label.text).toList ∧
    (∀ (identity : Identity) (scope : Scope), (∃ full, identity.fullTopic scope (own kind id) = .ok full) ∧
      ∃ full, identity.fullTopic scope (ofTwin twin kind id) = .ok full) ∧
    (∀ kind' id', own kind id = own kind' id' ↔ kind = kind' ∧ id = id') ∧
    (∀ twin' kind' id', ofTwin twin kind id = ofTwin twin' kind' id' ↔ twin = twin' ∧ kind = kind' ∧ id = id') ∧
    ∀ text, Label.ofText text = .ok twin ↔ text = twin.text := by
  have hslash : String.singleton separator = "/" := rfl
  refine ⟨?_, ?_, size_own kind id, size_ofTwin twin kind id, levels_own kind id,
    (levels_ofTwin twin kind id).trans (by rw [levels_own]), fun identity scope => ⟨?_, ?_⟩, fun _ _ => own_inj,
    fun _ _ _ => ofTwin_inj, fun _ => Label.ofText_eq_ok_iff⟩
  · rw [own_eq]
    cases id with
    | none => exact ofLevels_singleton _
    | some id =>
      show ofLevels [kind.tag, id.text] = _
      rw [ofLevels_cons _ (by simp), ofLevels_singleton, hslash]
  · rw [ofTwin_eq]
    cases id with
    | none =>
      show ofLevels [twin.text, kind.tag] = _
      rw [ofLevels_cons _ (by simp), ofLevels_singleton, hslash]
    | some id =>
      show ofLevels [twin.text, kind.tag, id.text] = _
      rw [ofLevels_cons_cons, ofLevels_cons _ (by simp), ofLevels_singleton, hslash]
  · exact ⟨_, Identity.fullTopic_eq (own_ne_empty kind id) (size_own kind id)⟩
  · exact ⟨_, Identity.fullTopic_eq (ofTwin_ne_empty twin kind id) (size_ofTwin twin kind id)⟩

/-- The longest parts fill the store. -/
example :
    let longest : Label := ⟨"12345678901234567890123456789012", by decide, by decide, by decide⟩
    (ofTwin longest .heartbeat (some longest)).utf8ByteSize = Limits.topic := by decide +kernel

end SensorLink.Topic
