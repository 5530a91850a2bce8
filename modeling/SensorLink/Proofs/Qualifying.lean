import Mathlib.Algebra.GroupWithZero.Nat
import Mathlib.Data.String.Basic
import SensorLink.Identity
import SensorLink.Proofs.Matching

/-! Full topics: the levels of an identity, in front of the levels of a topic. The store for a full topic takes every part
    of it (`fullTopic_eq_ite`), and no level in front is a wildcard, so patterns and topics of one scope meet exactly as
    they did without the identity (`qualifies_exactly`). -/

namespace SensorLink

/-! ### Sizes -/

/-- Every level is written with one byte more, but for one. -/
theorem size_ofLevels {levels : List String} (h : levels ≠ []) :
    (Topic.ofLevels levels).utf8ByteSize + 1 = (levels.map fun level => level.utf8ByteSize + 1).sum := by
  have hseparator : (String.singleton Topic.separator).utf8ByteSize = 1 := by decide
  induction levels with
  | nil => exact absurd rfl h
  | cons first rest ih =>
    cases rest with
    | nil => simp [Topic.ofLevels, List.intercalate]
    | cons second rest =>
      have hrest := ih (by simp)
      rw [Topic.ofLevels_cons first (by simp), String.utf8ByteSize_append, String.utf8ByteSize_append, hseparator,
        List.map_cons, List.sum_cons, ← hrest]
      omega

theorem size_root (identity : Identity) (scope : Scope) :
    ((identity.root scope).map fun level => level.utf8ByteSize + 1).sum ≤ Limits.domain + 1 + (Limits.clientId + 1) := by
  have hdomain := identity.domainFits
  have hclientId := identity.clientIdFits
  have hlevel (level : String) (rest : List String) :
      (((level :: rest).filter (· ≠ "")).map fun level => level.utf8ByteSize + 1).sum ≤
        level.utf8ByteSize + 1 + ((rest.filter (· ≠ "")).map fun level => level.utf8ByteSize + 1).sum := by
    rw [List.filter_cons]
    split <;> simp
  cases scope with
  | own =>
    have hboth := hlevel identity.domain [identity.clientId]
    have hlast := hlevel identity.clientId []
    rw [List.filter_nil, List.map_nil, List.sum_nil] at hlast
    show (([identity.domain, identity.clientId].filter (· ≠ "")).map _).sum ≤ _
    omega
  | remote =>
    have honly := hlevel identity.domain []
    rw [List.filter_nil, List.map_nil, List.sum_nil] at honly
    show (([identity.domain].filter (· ≠ "")).map _).sum ≤ _
    omega

namespace Identity
open Topic

variable {identity : Identity} {scope : Scope} {topic other pattern full : String}

/-! ### The store for a full topic -/

theorem extend_of_fits {held part : String} (h : held.utf8ByteSize + part.utf8ByteSize + 1 ≤ Limits.fullTopic) :
    extend held part = held ++ part ++ String.singleton separator := by
  have hseparator : (String.singleton separator).utf8ByteSize = 1 := by decide
  rw [extend, Text.put_of_fits (Nat.le_of_succ_le h)]
  refine congrArg Prod.fst (Text.put_of_fits ?_)
  rwa [String.utf8ByteSize_append, hseparator]

/-- A store that has room for all parts and the topic takes all of them. -/
theorem put_foldl_extend (parts : List String) (held topic : String)
    (h : held.utf8ByteSize + (ofLevels (parts ++ [topic])).utf8ByteSize ≤ Limits.fullTopic) :
    Text.put Limits.fullTopic (parts.foldl extend held) topic = (held ++ ofLevels (parts ++ [topic]), true) := by
  induction parts generalizing held with
  | nil =>
    rw [List.nil_append, ofLevels_singleton] at h ⊢
    exact Text.put_of_fits h
  | cons part parts ih =>
    have hseparator : (String.singleton separator).utf8ByteSize = 1 := by decide
    rw [List.cons_append, ofLevels_cons part (by simp)] at h ⊢
    simp only [String.utf8ByteSize_append, hseparator] at h
    rw [List.foldl_cons, extend_of_fits (by omega), ih]
    · simp only [String.append_assoc]
    · simp only [String.utf8ByteSize_append, hseparator]
      omega

theorem size_root_append (h : topic.utf8ByteSize ≤ Limits.topic) :
    (ofLevels (identity.root scope ++ [topic])).utf8ByteSize ≤ Limits.fullTopic := by
  have hsize := size_ofLevels (show identity.root scope ++ [topic] ≠ [] by simp)
  have hroot := size_root identity scope
  rw [List.map_append, List.sum_append, List.map_singleton, List.sum_singleton] at hsize
  have hlimit : Limits.fullTopic = Limits.domain + 1 + (Limits.clientId + 1) + Limits.topic := by decide
  omega

/-- The store for full topics has room for every part. -/
theorem fullTopic_eq_ite (identity : Identity) (scope : Scope) (topic : String) : identity.fullTopic scope topic =
    if topic = "" then .error .empty
    else if topic.utf8ByteSize ≤ Limits.topic then .ok (ofLevels (identity.root scope ++ [topic]))
    else .error .tooLong := by
  rw [fullTopic]
  split
  · rfl
  · split
    · rename_i hfits
      rw [put_foldl_extend, String.empty_append]
      rw [String.utf8ByteSize_empty, Nat.zero_add]
      exact size_root_append hfits
    · rfl

theorem fullTopic_eq (hne : topic ≠ "") (hfits : topic.utf8ByteSize ≤ Limits.topic) :
    identity.fullTopic scope topic = .ok (ofLevels (identity.root scope ++ [topic])) := by
  rw [fullTopic_eq_ite, if_neg hne, if_pos hfits]

theorem fullTopic_eq_ok_iff : identity.fullTopic scope topic = .ok full ↔
    topic ≠ "" ∧ topic.utf8ByteSize ≤ Limits.topic ∧ full = ofLevels (identity.root scope ++ [topic]) := by
  rw [fullTopic_eq_ite]
  split
  · simp [*]
  · split <;> simp [*, eq_comm]

/-! ### Levels in front -/

theorem levels_fullTopic (h : identity.fullTopic scope topic = .ok full) :
    levels full = (identity.root scope).flatMap levels ++ levels topic := by
  obtain ⟨-, -, rfl⟩ := fullTopic_eq_ok_iff.mp h
  rw [levels_ofLevels_eq (by simp), List.flatMap_append, List.flatMap_singleton]

/-- No level of an identity is a wildcard. -/
theorem isName_of_mem_root : ∀ level ∈ (identity.root scope).flatMap levels, IsName level := by
  have hparts : ∀ part ∈ identity.root scope, isConcrete part = true := by
    intro part hpart
    cases scope <;> rw [root] at hpart
    case own =>
      rcases List.mem_cons.mp (List.mem_of_mem_filter hpart) with rfl | hclient
      · exact identity.concreteDomain
      · exact List.mem_singleton.mp hclient ▸ identity.concreteClientId
    case remote => exact List.mem_singleton.mp (List.mem_of_mem_filter hpart) ▸ identity.concreteDomain
  intro level hlevel
  obtain ⟨part, hpart, hlevel⟩ := List.mem_flatMap.mp hlevel
  exact (isConcrete_iff part).mp (hparts part hpart) level hlevel

/-- No level in front stands for any levels. -/
theorem ne_of_mem_root : ∀ level ∈ (identity.root scope).flatMap levels, level ≠ anyLevels :=
  fun level hlevel => (isName_of_mem_root level hlevel).2

theorem fullTopic_ne_empty (h : identity.fullTopic scope topic = .ok full) : full ≠ "" := by
  rintro rfl
  have hempty : levels "" = [""] := levels_of_single (by simp)
  have hlevels := levels_fullTopic h
  rw [hempty] at hlevels
  -- The only level there is comes of the topic itself.
  rcases List.append_eq_singleton_iff.mp hlevels.symm with ⟨-, htopic⟩ | ⟨-, htopic⟩
  · exact (fullTopic_eq_ok_iff.mp h).1 (eq_of_levels (htopic.trans hempty.symm))
  · exact levels_ne_nil topic htopic

theorem flatMap_levels_root : (identity.root scope).flatMap levels =
    (if identity.domain = "" then [] else levels identity.domain) ++
      (if scope = .own ∧ identity.clientId ≠ "" then [identity.clientId] else []) := by
  have hclient := levels_of_single identity.singleLevel
  cases scope <;> by_cases hdomain : identity.domain = "" <;> by_cases hempty : identity.clientId = "" <;>
    simp [root, hdomain, hempty, hclient]

/-- What the identity puts in front makes no difference to who covers whom. -/
theorem accepts_fullTopic {wanted : String} (hwanted : identity.fullTopic scope pattern = .ok wanted)
    (hfull : identity.fullTopic scope topic = .ok full) : accepts wanted full = accepts pattern topic := by
  rw [accepts, levels_fullTopic hwanted, levels_fullTopic hfull,
    covers_append ne_of_mem_root, accepts]

theorem fullTopic_injective (h : identity.fullTopic scope topic = .ok full)
    (hother : identity.fullTopic scope other = .ok full) : topic = other := by
  have hlevels := (levels_fullTopic h).symm.trans (levels_fullTopic hother)
  exact eq_of_levels (List.append_cancel_left hlevels)

/-- A topic is refused if it is empty or too long, and for no other reason. Else its full topic has the levels of the
    domain, for an own topic that of the client id, and its own, and nothing of them is lost; an empty domain or client id
    adds no level. Patterns and topics of one scope meet exactly as they do without the identity, and no two topics have
    the same full topic. -/
theorem qualifies_exactly (identity : Identity) (scope : Scope) (topic : String) :
    (identity.fullTopic scope topic = .error .empty ↔ topic = "") ∧
    (identity.fullTopic scope topic = .error .tooLong ↔ Limits.topic < topic.utf8ByteSize) ∧
    (topic ≠ "" → topic.utf8ByteSize ≤ Limits.topic → ∃ full, identity.fullTopic scope topic = .ok full ∧
      full = ofLevels ((if identity.domain = "" then [] else levels identity.domain) ++
        (if scope = .own ∧ identity.clientId ≠ "" then [identity.clientId] else []) ++ levels topic) ∧
      ∀ other full', identity.fullTopic scope other = .ok full' →
        accepts full' full = accepts other topic ∧ accepts full full' = accepts topic other ∧
          (full = full' → topic = other)) := by
  refine ⟨?_, ?_, fun hne hfits => ?_⟩
  · rw [fullTopic_eq_ite]
    split
    · simp [*]
    · split <;> simp [*]
  · rw [fullTopic_eq_ite]
    split
    · rename_i hempty
      simp [hempty]
    · split
      · rename_i hfits
        exact iff_of_false nofun (Nat.not_lt.mpr hfits)
      · rename_i hlong
        exact iff_of_true rfl (Nat.not_le.mp hlong)
  · have hfull : identity.fullTopic scope topic = _ := fullTopic_eq hne hfits
    refine ⟨_, hfull, ?_, fun other full' hother =>
      ⟨accepts_fullTopic hother hfull, accepts_fullTopic hfull hother, fun heq => fullTopic_injective hfull (heq ▸ hother)⟩⟩
    rw [← flatMap_levels_root, ← levels_fullTopic hfull, ofLevels_levels]

/-- A domain of several levels, one of them empty, and a topic whose characters take more than one byte. -/
theorem qualifies_exactly_of_sensor : ∃ identity, ofParts "eip://es" "enV5" = .ok identity ∧
    ("t/°C" ≠ "" ∧ "t/°C".utf8ByteSize ≤ Limits.topic) ∧ identity.fullTopic .own "t/°C" = .ok "eip://es/enV5/t/°C" ∧
    identity.fullTopic .own "+/°C" = .ok "eip://es/enV5/+/°C" ∧
    accepts "eip://es/enV5/+/°C" "eip://es/enV5/t/°C" = accepts "+/°C" "t/°C" := by
  let identity : Identity := ⟨"eip://es", "enV5", by decide, by decide, by decide, by decide, by decide⟩
  have hfits : "t/°C" ≠ "" ∧ "t/°C".utf8ByteSize ≤ Limits.topic := by decide
  obtain ⟨full, hfull, hlevels, hmeets⟩ := (qualifies_exactly identity .own "t/°C").2.2 hfits.1 hfits.2
  obtain rfl : full = "eip://es/enV5/t/°C" := hlevels.trans (by decide +kernel)
  have hpattern : identity.fullTopic .own "+/°C" = .ok "eip://es/enV5/+/°C" := by decide +kernel
  exact ⟨identity, rfl, hfits, hfull, hpattern, (hmeets _ _ hpattern).1⟩

end Identity
end SensorLink
