import Mathlib.Data.Finset.Card
import Mathlib.Data.List.Chain
import Mathlib.Data.List.DropRight
import SensorLink.Proofs.Table

/-! Whatever is put into a table, taken out and cleared away, in whatever order: it stays the list of a finite set of
    pairs (`Pairs`) with the same answers, and each pattern comes and goes in turn until the table is cleared. -/

namespace SensorLink.Subscriptions

inductive History.Act where
  | insert (pair : Subscription)
  | erase (pair : Subscription)
  | clear

/-- An act with what came of it. No novelty is that of a pair that was refused. -/
inductive History.Entry where
  | inserted (pair : Subscription) (novelty : Option Novelty)
  | erased (pair : Subscription) (remainder : Remainder)
  | cleared
  deriving DecidableEq

/-- A state with all that was done to it, the latest last. -/
structure History (State : Type) where
  state : State
  entries : List History.Entry := []

namespace History

variable {State : Type}

def next (perform : State → Act → State × Entry) (history : History State) (act : Act) : History State where
  state := (perform history.state act).1
  entries := history.entries ++ [(perform history.state act).2]

def run (perform : State → Act → State × Entry) (start : State) (acts : List Act) : History State :=
  acts.foldl (next perform) { state := start }

theorem run_concat (perform : State → Act → State × Entry) (start : State) (acts : List Act) (act : Act) :
    run perform start (acts ++ [act]) = next perform (run perform start acts) act := by
  simp [run]

end History

open History

def perform (table : Subscriptions) : Act → Subscriptions × Entry
  | .insert pair =>
    match table.insert? pair.pattern pair.subscriber with
    | some (after, novelty) => (after, .inserted pair (some novelty))
    | none => (table, .inserted pair none)
  | .erase pair =>
    ((table.erase pair.pattern pair.subscriber).1, .erased pair (table.erase pair.pattern pair.subscriber).2)
  | .clear => (table.clear, .cleared)

/-! ### A finite set of pairs -/

abbrev Pairs := Finset Subscription

namespace Pairs

/-- A pair is refused if it is new and there is no room for it, or its pattern is too long. -/
def insert (capacity : Nat) (pairs : Pairs) (pair : Subscription) : Pairs × Option Novelty :=
  if pair ∈ pairs then (pairs, some .duplicate)
  else if capacity ≤ pairs.card ∨ Limits.fullTopic < pair.pattern.utf8ByteSize then (pairs, none)
  else
    (Insert.insert pair pairs,
      some (if ∀ other ∈ pairs, other.pattern ≠ pair.pattern then .newPattern else .existingPattern))

def erase (pairs : Pairs) (pair : Subscription) : Pairs × Remainder :=
  (Finset.erase pairs pair,
    if pair ∉ pairs then .absent
    else if ∃ other ∈ pairs, other ≠ pair ∧ other.pattern = pair.pattern then .shared
    else .last)

def perform (capacity : Nat) (pairs : Pairs) : Act → Pairs × Entry
  | .insert pair => ((pairs.insert capacity pair).1, .inserted pair (pairs.insert capacity pair).2)
  | .erase pair => ((pairs.erase pair).1, .erased pair (pairs.erase pair).2)
  | .clear => (∅, .cleared)

end Pairs

section
variable {table : Subscriptions} {pair : Subscription}

/-! ### What an act does -/

theorem erase_of_notMem (h : pair ∉ table.entries) : table.erase pair.pattern pair.subscriber = (table, .absent) := by
  rcases erase_entries table pair.pattern pair.subscriber with ⟨-, hsame⟩ | ⟨i, hi, hget, -⟩
  · exact hsame
  · exact absurd (List.mem_of_getElem hget) h

/-- The pair that is taken out is the one, as it is in one place only. -/
theorem erase_perm (hnodup : table.entries.Nodup) (h : pair ∈ table.entries) :
    (table.erase pair.pattern pair.subscriber).1.entries.Perm (table.entries.erase pair) ∧
      (table.erase pair.pattern pair.subscriber).2 =
        if (table.erase pair.pattern pair.subscriber).1.holds pair.pattern then .shared else .last := by
  rcases erase_entries table pair.pattern pair.subscriber with ⟨hnew, -⟩ | ⟨i, hi, hget, hperm, hremainder⟩
  · exact absurd h hnew
  · refine ⟨hperm.trans (List.Perm.of_eq ?_), hremainder⟩
    rw [← hnodup.erase_getElem i hi, hget]

/-- What stands behind all others leaves no trace when it is taken out. -/
theorem erase_add (hnew : pair ∉ table.entries) (hroom : table.entries.length < table.capacity) :
    ((table.add pair).erase pair.pattern pair.subscriber).1 = table := by
  obtain ⟨capacity, entries, hfits⟩ := table
  have hindex : (entries ++ [pair]).idxOf? pair = some entries.length := by
    rw [List.idxOf?_eq_some_iff]
    refine ⟨by simp, by simp, fun i hi heq => hnew ?_⟩
    rw [List.getElem_append_left hi] at heq
    exact List.mem_of_getElem heq
  have hswap : swapErase (entries ++ [pair]) entries.length = entries := by
    simp [swapErase, List.set_eq_of_length_le]
  simp [Subscriptions.erase, add, dif_pos hroom, hindex, hswap]

/-- What comes of an act at a table without a pair that is there twice. -/
inductive Comes (table : Subscriptions) : Act → Subscriptions × Entry → Prop
  | duplicate {pair : Subscription} (there : pair ∈ table.entries) :
      Comes table (.insert pair) (table, .inserted pair (some .duplicate))
  | refused {pair : Subscription} (new : pair ∉ table.entries)
      (noRoom : table.capacity ≤ table.entries.length ∨ Limits.fullTopic < pair.pattern.utf8ByteSize) :
      Comes table (.insert pair) (table, .inserted pair none)
  | added {pair : Subscription} {after : Subscriptions} (new : pair ∉ table.entries)
      (room : ¬(table.capacity ≤ table.entries.length ∨ Limits.fullTopic < pair.pattern.utf8ByteSize))
      (capacity : after.capacity = table.capacity) (entries : after.entries = table.entries ++ [pair]) :
      Comes table (.insert pair)
        (after, .inserted pair (some (if table.holds pair.pattern then .existingPattern else .newPattern)))
  | absent {pair : Subscription} (new : pair ∉ table.entries) :
      Comes table (.erase pair) (table, .erased pair .absent)
  | erased {pair : Subscription} {after : Subscriptions} (there : pair ∈ table.entries)
      (capacity : after.capacity = table.capacity) (entries : after.entries.Perm (table.entries.erase pair)) :
      Comes table (.erase pair) (after, .erased pair (if after.holds pair.pattern then .shared else .last))
  | cleared : Comes table .clear (table.clear, .cleared)

theorem comes_perform (hnodup : table.entries.Nodup) (act : Act) : Comes table act (table.perform act) := by
  cases act with
  | insert pair =>
    by_cases hthere : pair ∈ table.entries
    · have hinsert : table.insert? pair.pattern pair.subscriber = some (table, .duplicate) := by
        rw [insert?, novelty, if_pos hthere]
      rw [perform, hinsert]
      exact .duplicate hthere
    · have hinsert := insert?_of_new hthere
      split at hinsert
      · rename_i hroom
        rw [perform, hinsert]
        refine .added hthere ?_ (add_capacity table pair) (add_entries hroom.2 pair)
        rw [isFull, decide_eq_false_iff_not] at hroom
        omega
      · rename_i hroom
        rw [perform, hinsert]
        rw [isFull, decide_eq_false_iff_not] at hroom
        exact .refused hthere (by omega)
  | erase pair =>
    by_cases hthere : pair ∈ table.entries
    · obtain ⟨hperm, hremainder⟩ := erase_perm hnodup hthere
      rw [perform, hremainder]
      refine .erased hthere ?_ hperm
      unfold Subscriptions.erase
      split <;> rfl
    · rw [perform, erase_of_notMem hthere]
      exact .absent hthere
  | clear => exact .cleared

section
variable {act : Act} {outcome : Subscriptions × Entry}

theorem Comes.nodup (h : Comes table act outcome) (hnodup : table.entries.Nodup) : outcome.1.entries.Nodup := by
  cases h with
  | duplicate there | refused new noRoom | absent new => exact hnodup
  | added new room capacity entries =>
    rw [entries, ← List.concat_eq_append]
    exact hnodup.concat new
  | erased there capacity entries => exact entries.nodup_iff.mpr (hnodup.erase _)
  | cleared => exact List.nodup_nil

theorem Comes.capacity_eq (h : Comes table act outcome) : outcome.1.capacity = table.capacity := by
  cases h with
  | added new room capacity entries => exact capacity
  | erased there capacity entries => exact capacity
  | _ => rfl

/-- An act does to the pairs of a table what it does to a set of them. -/
theorem Comes.toFinset (h : Comes table act outcome) (hnodup : table.entries.Nodup) :
    Pairs.perform table.capacity table.entries.toFinset act = (outcome.1.entries.toFinset, outcome.2) := by
  have hcard : table.entries.toFinset.card = table.entries.length := List.toFinset_card_of_nodup hnodup
  cases h with
  | duplicate there => simp [Pairs.perform, Pairs.insert, there]
  | refused new noRoom => simp [Pairs.perform, Pairs.insert, new, hcard, noRoom]
  | @added pair after new room capacity entries =>
    have hset : after.entries.toFinset = Insert.insert pair table.entries.toFinset := by
      rw [entries, List.toFinset_append, List.toFinset_cons, List.toFinset_nil, Finset.union_comm]
      rfl
    have hheld : (∀ other ∈ table.entries, other.pattern ≠ pair.pattern) ↔ table.holds pair.pattern = false := by
      simp [holds]
    simp only [Pairs.perform, Pairs.insert, List.mem_toFinset, new, if_false, hcard, room, hset, hheld]
    cases table.holds pair.pattern <;> rfl
  | absent new => simp [Pairs.perform, Pairs.erase, new]
  | @erased pair after there capacity entries =>
    have hmem (other : Subscription) : other ∈ after.entries ↔ other ≠ pair ∧ other ∈ table.entries := by
      rw [entries.mem_iff, hnodup.mem_erase_iff]
    have hset : after.entries.toFinset = table.entries.toFinset.erase pair := by
      ext other
      simp [hmem]
    have hshared : (∃ other ∈ table.entries, other ≠ pair ∧ other.pattern = pair.pattern) ↔
        after.holds pair.pattern = true := by
      simp only [holds_iff, hmem, and_assoc, and_left_comm]
    simp only [Pairs.perform, Pairs.erase, hset, hshared, List.mem_toFinset, there, not_true_eq_false, if_false]
  | cleared => rfl

end
end

/-! ### Patterns come and go -/

/-- What an act makes of a pattern at the broker. -/
inductive Turn where
  | begun
  | ended
  deriving DecidableEq

def History.Entry.turn? (pattern : String) : Entry → Option Turn
  | .inserted pair (some .newPattern) => if pair.pattern = pattern then some .begun else none
  | .erased pair .last => if pair.pattern = pattern then some .ended else none
  | _ => none

/-- The turns of a pattern since the table was last cleared. -/
def turns (pattern : String) (entries : List Entry) : List Turn :=
  (entries.rtakeWhile (· ≠ .cleared)).filterMap (Entry.turn? pattern)

/-- The turns follow one another, the first is a beginning, and the last one says whether the pattern is held. -/
structure InTurn (turns : List Turn) (held : Bool) : Prop where
  chain : turns.IsChain (· ≠ ·)
  first : turns.head? ≠ some .ended
  last : turns.getLast? = some .begun ↔ held = true

namespace InTurn

variable {turns : List Turn}

theorem nil : InTurn [] false where
  chain := .nil
  first := nofun
  last := by simp

theorem begin (h : InTurn turns false) : InTurn (turns ++ [.begun]) true where
  chain := by
    refine List.isChain_append.mpr ⟨h.chain, .singleton _, ?_⟩
    rintro last hlast _ ⟨⟩ rfl
    exact absurd (h.last.mp hlast) Bool.false_ne_true
  first := by
    cases turns with
    | nil => simp
    | cons first rest => exact h.first
  last := by simp

theorem finish (h : InTurn turns true) : InTurn (turns ++ [.ended]) false where
  chain := by
    refine List.isChain_append.mpr ⟨h.chain, .singleton _, ?_⟩
    rintro last hlast _ ⟨⟩ rfl
    cases (h.last.mpr rfl).symm.trans hlast
  first := by
    cases turns with
    | nil => cases h.last.mpr rfl
    | cons first rest => exact h.first
  last := by simp

end InTurn

theorem turns_concat (pattern : String) (entries : List Entry) (entry : Entry) : turns pattern (entries ++ [entry]) =
    if entry = .cleared then [] else turns pattern entries ++ (entry.turn? pattern).toList := by
  unfold turns
  rw [List.rtakeWhile_concat]
  by_cases h : entry = .cleared
  · simp [h]
  · cases hturn : entry.turn? pattern <;> simp [h, hturn, List.filterMap_append]

/-- A pattern that is begun was not held and is now, one that is ended was held and is not, and all else leaves it. -/
theorem Comes.turn {table after : Subscriptions} {act : Act} {entry : Entry} (h : Comes table act (after, entry))
    (hnodup : table.entries.Nodup) (hkept : entry ≠ .cleared) (pattern : String) :
    match entry.turn? pattern with
    | some .begun => table.holds pattern = false ∧ after.holds pattern = true
    | some .ended => table.holds pattern = true ∧ after.holds pattern = false
    | none => after.holds pattern = table.holds pattern := by
  cases h with
  | duplicate there | refused new noRoom | absent new => simp [Entry.turn?]
  | @added pair after new room capacity entries =>
    have hafter : after.holds pattern = (table.holds pattern || decide (pair.pattern = pattern)) := by
      rw [Bool.eq_iff_iff, Bool.or_eq_true, holds_iff, holds_iff, decide_eq_true_iff]
      simp [entries, or_and_right, exists_or]
    by_cases hpattern : pair.pattern = pattern
    · subst hpattern
      cases hheld : table.holds pair.pattern <;> simp [Entry.turn?, hheld, hafter]
    · cases table.holds pair.pattern <;> simp [Entry.turn?, hpattern, hafter]
  | @erased pair after there capacity entries =>
    by_cases hpattern : pair.pattern = pattern
    · subst hpattern
      have hheld : table.holds pair.pattern = true := holds_iff.mpr ⟨pair, there, rfl⟩
      cases hafter : after.holds pair.pattern <;> simp [Entry.turn?, hheld]
    · have hafter : after.holds pattern = table.holds pattern := by
        rw [Bool.eq_iff_iff, holds_iff, holds_iff]
        simp only [entries.mem_iff, hnodup.mem_erase_iff]
        constructor
        · rintro ⟨other, ⟨-, hmem⟩, rfl⟩
          exact ⟨other, hmem, rfl⟩
        · rintro ⟨other, hmem, rfl⟩
          exact ⟨other, ⟨fun heq => hpattern (heq ▸ rfl), hmem⟩, rfl⟩
      cases after.holds pair.pattern <;> simp [Entry.turn?, hpattern, hafter]
  | cleared => exact absurd rfl hkept

theorem Comes.inTurn {table after : Subscriptions} {act : Act} {entry : Entry} (h : Comes table act (after, entry))
    (hnodup : table.entries.Nodup) {pattern : String} {entries : List Entry}
    (hturns : InTurn (turns pattern entries) (table.holds pattern)) :
    InTurn (turns pattern (entries ++ [entry])) (after.holds pattern) := by
  rw [turns_concat]
  split
  · rename_i hcleared
    subst hcleared
    cases h with
    | cleared => exact .nil
  · rename_i hkept
    have hturn := h.turn hnodup hkept pattern
    split at hturn
    · rename_i hbegun
      rw [hturn.1] at hturns
      rw [hbegun, hturn.2]
      exact hturns.begin
    · rename_i hended
      rw [hturn.1] at hturns
      rw [hended, hturn.2]
      exact hturns.finish
    · rename_i hnone
      rwa [hnone, hturn, Option.toList_none, List.append_nil]

/-! ### Histories -/

/-- A table with its history, beside a set to which the same was done. -/
structure Sound (capacity : Nat) (history : History Subscriptions) (pairs : History Pairs) : Prop where
  capacity_eq : history.state.capacity = capacity
  nodup : history.state.entries.Nodup
  state_eq : history.state.entries.toFinset = pairs.state
  entries_eq : history.entries = pairs.entries
  inTurn : ∀ pattern, InTurn (turns pattern history.entries) (history.state.holds pattern)

theorem sound_next {capacity : Nat} {history : History Subscriptions} {pairs : History Pairs}
    (h : Sound capacity history pairs) (act : Act) :
    Sound capacity (history.next perform act) (pairs.next (Pairs.perform capacity) act) := by
  have hcomes := comes_perform h.nodup act
  have hpairs := hcomes.toFinset h.nodup
  rw [h.capacity_eq, h.state_eq] at hpairs
  refine ⟨hcomes.capacity_eq.trans h.capacity_eq, hcomes.nodup h.nodup, ?_, ?_, fun pattern => ?_⟩
  · simp only [History.next, hpairs]
  · simp only [History.next, hpairs, h.entries_eq]
  · exact hcomes.inTurn h.nodup (h.inTurn pattern)

theorem sound_run (capacity : Nat) (acts : List Act) :
    Sound capacity (run perform { capacity } acts) (run (Pairs.perform capacity) ∅ acts) := by
  induction acts using List.reverseRecOn with
  | nil => exact ⟨rfl, List.nodup_nil, rfl, rfl, fun _ => .nil⟩
  | append_singleton acts act ih =>
    rw [run_concat, run_concat]
    exact sound_next ih act

/-- A pair that was there leaves the table as it is, and one that was not can be taken out again without a trace. -/
theorem insert?_restored {table after : Subscriptions} {pair : Subscription} {novelty : Novelty}
    (h : table.insert? pair.pattern pair.subscriber = some (after, novelty)) :
    if novelty = .duplicate then after = table else (after.erase pair.pattern pair.subscriber).1 = table := by
  by_cases hthere : pair ∈ table.entries
  · rw [insert?, Subscriptions.novelty, if_pos hthere] at h
    cases h
    rfl
  · rw [insert?_of_new hthere] at h
    split at h
    · rename_i hroom
      cases h
      have hrestored := erase_add hthere (by simpa [isFull] using hroom.2)
      cases table.holds pair.pattern <;> exact hrestored
    · cases h

/-- Whatever has been done to a new table: no pair is in it twice, it never outgrows its capacity, and it has the pairs and
    has given the answers of a bounded set; what it has already leaves it as it is, and what was just put in can be taken
    out without a trace; and since it was last cleared each pattern has been begun and ended in turn. -/
theorem bounded_set_of_pairs (capacity : Nat) (acts : List Act) :
    let history := run perform { capacity } acts
    let table := history.state
    let pairs := run (Pairs.perform capacity) ∅ acts
    table.entries.Nodup ∧ table.entries.length ≤ capacity ∧
      table.entries.toFinset = pairs.state ∧ history.entries = pairs.entries ∧
      (∀ (pair : Subscription) (after : Subscriptions) (novelty : Novelty),
        table.insert? pair.pattern pair.subscriber = some (after, novelty) →
        if novelty = .duplicate then after = table else (after.erase pair.pattern pair.subscriber).1 = table) ∧
      ∀ pattern, (turns pattern history.entries).IsChain (· ≠ ·) ∧ (turns pattern history.entries).head? ≠ some .ended := by
  intro history table pairs
  have hsound : Sound capacity history pairs := sound_run capacity acts
  refine ⟨hsound.nodup, ?_, hsound.state_eq, hsound.entries_eq, fun _ _ _ => insert?_restored,
    fun pattern => ⟨(hsound.inTurn pattern).chain, (hsound.inTurn pattern).first⟩⟩
  calc table.entries.length
    _ ≤ table.capacity := table.fits
    _ = capacity := hsound.capacity_eq

/-- In a full table the last pair takes the place of the one that is taken out, which then goes behind it; its pattern is
    begun once, as another has it all the while. -/
theorem bounded_set_of_pairs_of_full_table :
    let acts : List Act := [.insert ⟨"a", 1⟩, .insert ⟨"b", 1⟩, .insert ⟨"a", 2⟩, .insert ⟨"c", 1⟩, .erase ⟨"a", 1⟩]
    let history := run perform { capacity := 3 } acts
    let table := history.state
    table.entries = [⟨"a", 2⟩, ⟨"b", 1⟩] ∧ history.entries = (run (Pairs.perform 3) ∅ acts).entries ∧
      table.insert? "a" 1 = some (table.add ⟨"a", 1⟩, .existingPattern) ∧
      ((table.add ⟨"a", 1⟩).erase "a" 1).1 = table ∧ turns "a" history.entries = [.begun] := by
  intro acts history table
  have hinsert : table.insert? "a" 1 = some (table.add ⟨"a", 1⟩, .existingPattern) := by decide +kernel
  obtain ⟨-, -, -, hentries, hrestored, -⟩ := bounded_set_of_pairs 3 acts
  exact ⟨by decide +kernel, hentries, hinsert, hrestored ⟨"a", 1⟩ _ _ hinsert, by decide +kernel⟩

end SensorLink.Subscriptions
