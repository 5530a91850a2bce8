import Mathlib.Data.List.Induction
import Mathlib.Data.List.Perm.Subperm
import SensorLink.Subscriptions

/-! What the table holds after a pair was put in or taken out, and who wants a message. -/

namespace SensorLink
namespace Subscriptions

variable {table after : Subscriptions} {pattern other : String} {subscriber : Subscriber}

theorem holds_iff : table.holds pattern = true ↔ ∃ entry ∈ table.entries, entry.pattern = pattern := by
  simp [holds]

theorem holds_mono (h : ∀ entry ∈ table.entries, entry ∈ after.entries) (hheld : table.holds pattern = true) :
    after.holds pattern = true := by
  obtain ⟨entry, hentry, hpattern⟩ := holds_iff.mp hheld
  exact holds_iff.mpr ⟨entry, h entry hentry, hpattern⟩

/-- A pair brings a new pattern exactly if nobody holds it. -/
theorem holds_eq_novelty (subscriber : Subscriber) :
    table.holds pattern = decide (table.novelty pattern subscriber ≠ .newPattern) := by
  unfold novelty
  split
  · rename_i hmem
    exact holds_iff.mpr ⟨_, hmem, rfl⟩
  · split <;> simp_all

theorem mem_insert? {novelty : Novelty} (h : table.insert? pattern subscriber = some (after, novelty))
    (entry : Subscription) : entry ∈ after.entries ↔ entry ∈ table.entries ∨ entry = ⟨pattern, subscriber⟩ := by
  unfold insert? at h
  split at h
  · rename_i hnovelty
    cases h
    unfold Subscriptions.novelty at hnovelty
    split at hnovelty
    · rename_i hmem
      exact ⟨.inl, fun h => h.elim id (· ▸ hmem)⟩
    · split at hnovelty <;> cases hnovelty
  · split at h
    · rename_i hroom
      cases h
      simp [add_entries hroom.2]
    · cases h

theorem holds_insert? {novelty : Novelty} (h : table.insert? pattern subscriber = some (after, novelty)) :
    after.holds other = (table.holds other || decide (pattern = other)) := by
  rw [Bool.eq_iff_iff, Bool.or_eq_true, holds_iff, holds_iff, decide_eq_true_iff]
  simp only [mem_insert? h, or_and_right, exists_or, exists_eq_left]

theorem notMem_of_not_holds (h : table.holds pattern = false) (subscriber : Subscriber) :
    ⟨pattern, subscriber⟩ ∉ table.entries := fun hmem => by
  simpa [h] using holds_iff.mpr ⟨_, hmem, rfl⟩

theorem novelty_of_new (hnew : ⟨pattern, subscriber⟩ ∉ table.entries) :
    table.novelty pattern subscriber = if table.holds pattern then .existingPattern else .newPattern :=
  if_neg hnew

/-- A pair that is new stands behind all others, if there is room for it. -/
theorem insert?_of_new (hnew : ⟨pattern, subscriber⟩ ∉ table.entries) : table.insert? pattern subscriber =
    if pattern.utf8ByteSize ≤ Limits.fullTopic ∧ table.isFull = false then
      some (table.add ⟨pattern, subscriber⟩, if table.holds pattern then .existingPattern else .newPattern)
    else none := by
  rw [← novelty_of_new hnew]
  unfold insert?
  split
  · rename_i hduplicate
    rw [novelty_of_new hnew] at hduplicate
    split at hduplicate <;> cases hduplicate
  · rfl

/-- Taking out an element whose place the last one takes leaves the others. -/
theorem swapErase_perm {α : Type} {xs : List α} {i : Nat} (h : i < xs.length) :
    (swapErase xs i).Perm (xs.eraseIdx i) := by
  rcases List.eq_nil_or_concat' xs with rfl | ⟨front, last, rfl⟩
  · simp at h
  have hswap : swapErase (front ++ [last]) i = front.set i last := by simp [swapErase]
  rw [hswap]
  rcases Nat.lt_or_ge i front.length with hi | hi
  · rw [List.eraseIdx_append_of_lt_length hi]
    exact (List.set_perm_cons_eraseIdx hi last).trans (List.perm_append_singleton _ _).symm
  · obtain rfl : i = front.length := by
      rw [List.length_append, List.length_singleton] at h
      omega
    rw [List.set_eq_of_length_le (Nat.le_refl _), List.eraseIdx_append_of_length_le (Nat.le_refl _)]
    simp

/-- What is left is what there was but for the pair, of which there is one place less. -/
theorem erase_entries (table : Subscriptions) (pattern : String) (subscriber : Subscriber) :
    (⟨pattern, subscriber⟩ ∉ table.entries ∧ table.erase pattern subscriber = (table, .absent)) ∨
    ∃ i, ∃ h : i < table.entries.length, table.entries[i] = ⟨pattern, subscriber⟩ ∧
      (table.erase pattern subscriber).1.entries.Perm (table.entries.eraseIdx i) ∧
      (table.erase pattern subscriber).2 =
        if (table.erase pattern subscriber).1.holds pattern then .shared else .last := by
  unfold erase
  split
  · rename_i hindex
    exact .inl ⟨List.idxOf?_eq_none_iff.mp hindex, rfl⟩
  · rename_i i hindex
    obtain ⟨hlt, hget, -⟩ := List.idxOf?_eq_some_iff.mp hindex
    exact .inr ⟨i, hlt, hget, swapErase_perm hlt, rfl⟩

theorem mem_of_mem_erase {entry : Subscription} (h : entry ∈ (table.erase pattern subscriber).1.entries) :
    entry ∈ table.entries := by
  rcases erase_entries table pattern subscriber with ⟨-, hsame⟩ | ⟨i, _, _, hperm, _⟩
  · rwa [hsame] at h
  · exact List.mem_of_mem_eraseIdx (hperm.mem_iff.mp h)

theorem holds_erase_of_ne (hne : pattern ≠ other) :
    (table.erase pattern subscriber).1.holds other = table.holds other := by
  rcases erase_entries table pattern subscriber with
    ⟨-, hsame⟩ | ⟨i, hi, hget, hperm, _⟩
  · rw [hsame]
  · -- The pair that is gone has the other pattern.
    have hmem (entry : Subscription) : entry ∈ table.entries ↔ entry = ⟨pattern, subscriber⟩ ∨
        entry ∈ (table.erase pattern subscriber).1.entries := by
      rw [← (List.getElem_cons_eraseIdx_perm hi).mem_iff, List.mem_cons, hget, hperm.mem_iff]
    rw [Bool.eq_iff_iff, holds_iff, holds_iff]
    simp only [hmem, or_and_right, exists_or, exists_eq_left, hne, false_or]

/-- The last pair of a pattern leaves nobody who holds it; any other leaves the pattern as it is. -/
theorem holds_erase : (table.erase pattern subscriber).1.holds pattern =
    if (table.erase pattern subscriber).2 = .last then false else table.holds pattern := by
  rcases erase_entries table pattern subscriber with
    ⟨-, hsame⟩ | ⟨i, hi, hget, hperm, hremainder⟩
  · rw [hsame]
    rfl
  · have hheld : table.holds pattern = true := holds_iff.mpr ⟨_, List.getElem_mem hi, by rw [hget]⟩
    rw [hremainder, hheld]
    cases (table.erase pattern subscriber).1.holds pattern <;> rfl

/-! ### Who wants a message -/

theorem nodup_eraseDups (subscribers : List Subscriber) : subscribers.eraseDups.Nodup := by
  induction hn : subscribers.length using Nat.strongRecOn generalizing subscribers with
  | ind n ih =>
    cases subscribers with
    | nil => exact List.nodup_nil
    | cons first rest =>
      rw [List.eraseDups_cons, List.nodup_cons]
      refine ⟨by simp [List.mem_eraseDups], ih _ ?_ _ rfl⟩
      have hlength := List.length_filter_le (fun other => !other == first) rest
      rw [List.length_cons] at hn
      omega

theorem length_eraseDups_le (subscribers : List Subscriber) : subscribers.eraseDups.length ≤ subscribers.length :=
  (List.subperm_of_subset (nodup_eraseDups subscribers) fun _ => List.mem_eraseDups.mp).length_le

theorem eraseDups_concat (subscribers : List Subscriber) (last : Subscriber) : (subscribers ++ [last]).eraseDups =
    if last ∈ subscribers then subscribers.eraseDups else subscribers.eraseDups ++ [last] := by
  rw [List.eraseDups_append]
  split <;> rename_i hmem <;> simp [List.removeAll, hmem, List.eraseDups_cons]

/-- A store with room for all subscribers loses none. -/
theorem foldl_gather {room : Nat} {subscribers : List Subscriber} (h : subscribers.length ≤ room) :
    subscribers.foldl (gather room) [] = subscribers.eraseDups := by
  induction subscribers using List.reverseRecOn with
  | nil => rfl
  | append_singleton subscribers last ih =>
    rw [List.length_append, List.length_singleton] at h
    have hroom : ¬room ≤ subscribers.eraseDups.length := by
      have hlength := length_eraseDups_le subscribers
      omega
    rw [List.foldl_append, ih (Nat.le_of_succ_le h), eraseDups_concat]
    simp [gather, hroom, List.mem_eraseDups]

/-- The store of a table loses nobody who wants a message. -/
theorem wanting_eq (table : Subscriptions) (topic : String) : table.wanting topic =
    ((table.entries.filter fun entry => Topic.accepts entry.pattern topic).map Subscription.subscriber).eraseDups := by
  refine foldl_gather ?_
  rw [List.length_map]
  exact Nat.le_trans (List.length_filter_le _ _) table.fits

theorem mem_wanting {topic : String} : subscriber ∈ table.wanting topic ↔
    ∃ entry ∈ table.entries, Topic.accepts entry.pattern topic ∧ entry.subscriber = subscriber := by
  simp [wanting_eq, List.mem_eraseDups, and_assoc]

theorem nodup_wanting (table : Subscriptions) (topic : String) : (table.wanting topic).Nodup := by
  rw [wanting_eq]
  exact nodup_eraseDups _

end Subscriptions
end SensorLink
