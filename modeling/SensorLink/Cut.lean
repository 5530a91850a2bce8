/-! Cutting lists: the two sides of the first occurrence of a mark, and pieces of one size. -/

namespace SensorLink.Cut

/-- What stands before and after the first occurrence of `mark`. -/
def once? {α : Type} [DecidableEq α] (mark : List α) : List α → Option (List α × List α)
  | [] => (mark.isPrefixOf? []).map fun rest => ([], rest)
  | x :: xs =>
    match mark.isPrefixOf? (x :: xs) with
    | some rest => some ([], rest)
    | none => (once? mark xs).map fun (before, rest) => (x :: before, rest)

/-- Pieces of `size` elements, the last of which may be shorter. -/
def chunks {α : Type} (size : Nat) (xs : List α) : List (List α) :=
  (List.range ((xs.length + size - 1) / size)).map fun i => (xs.drop (size * i)).take size

end SensorLink.Cut
