import SensorLink.Limits
import SensorLink.Topic.Pattern

/-! Who wants which messages: a bounded table of pairs of a pattern and a subscriber. -/

namespace SensorLink

abbrev Subscriber := Nat

structure Subscription where
  pattern : String
  subscriber : Subscriber
  deriving DecidableEq

structure Subscriptions where
  capacity : Nat
  entries : List Subscription := []
  fits : entries.length ≤ capacity := by first | exact Nat.zero_le _ | decide
  deriving DecidableEq

namespace Subscriptions

/-- What is new about a pair that is put in. -/
inductive Novelty where
  | newPattern
  | existingPattern
  | duplicate
  deriving DecidableEq

/-- What a pair that is taken out leaves of its pattern. -/
inductive Remainder where
  | absent
  /-- Another subscriber has the pattern. -/
  | shared
  | last
  deriving DecidableEq

def isFull (table : Subscriptions) : Bool := decide (table.capacity ≤ table.entries.length)

def holds (table : Subscriptions) (pattern : String) : Bool :=
  table.entries.any fun entry => entry.pattern == pattern

def novelty (table : Subscriptions) (pattern : String) (subscriber : Subscriber) : Novelty :=
  if ⟨pattern, subscriber⟩ ∈ table.entries then .duplicate
  else if table.holds pattern then .existingPattern
  else .newPattern

/-- The table with one more entry behind the others. A full table stays as it is. -/
def add (table : Subscriptions) (entry : Subscription) : Subscriptions :=
  if h : table.entries.length < table.capacity then
    { table with
      entries := table.entries ++ [entry]
      fits := by rwa [List.length_append, List.length_singleton] }
  else table

theorem add_capacity (table : Subscriptions) (entry : Subscription) : (table.add entry).capacity = table.capacity := by
  unfold add
  split <;> rfl

theorem add_entries {table : Subscriptions} (h : table.isFull = false) (entry : Subscription) :
    (table.add entry).entries = table.entries ++ [entry] := by
  have hroom : table.entries.length < table.capacity := by simpa [isFull] using h
  rw [add, dif_pos hroom]

/-- Puts in a pair, or gives nothing if it is new and there is no room for it. -/
def insert? (table : Subscriptions) (pattern : String) (subscriber : Subscriber) :
    Option (Subscriptions × Novelty) :=
  match table.novelty pattern subscriber with
  | .duplicate => some (table, .duplicate)
  | novelty =>
    if pattern.utf8ByteSize ≤ Limits.fullTopic ∧ table.isFull = false then
      some (table.add ⟨pattern, subscriber⟩, novelty)
    else none

/-- A list without its element at `i`, whose place the last element takes. -/
def swapErase {α : Type} (xs : List α) (i : Nat) : List α :=
  match xs.getLast? with
  | none => []
  | some last => xs.dropLast.set i last

theorem length_swapErase_le {α : Type} (xs : List α) (i : Nat) : (swapErase xs i).length ≤ xs.length := by
  unfold swapErase
  split <;> simp

def erase (table : Subscriptions) (pattern : String) (subscriber : Subscriber) : Subscriptions × Remainder :=
  match table.entries.idxOf? ⟨pattern, subscriber⟩ with
  | none => (table, .absent)
  | some i =>
    let table := { table with
      entries := swapErase table.entries i
      fits := Nat.le_trans (length_swapErase_le table.entries i) table.fits }
    (table, if table.holds pattern then .shared else .last)

/-- Puts a subscriber behind those found, unless it is among them. A store for `room` of them takes no more. -/
def gather (room : Nat) (found : List Subscriber) (subscriber : Subscriber) : List Subscriber :=
  if subscriber ∈ found ∨ room ≤ found.length then found else found ++ [subscriber]

/-- The subscribers with a pattern that the topic satisfies, each once, in the order of their first such
    pair, in a store for as many as the table has entries at most. -/
def wanting (table : Subscriptions) (topic : String) : List Subscriber :=
  ((table.entries.filter fun entry => Topic.accepts entry.pattern topic).map
    Subscription.subscriber).foldl (gather table.capacity) []

def clear (table : Subscriptions) : Subscriptions := { capacity := table.capacity }

end Subscriptions
end SensorLink
