/-! Stores for text, each of a fixed number of bytes. -/

namespace SensorLink.Text

/-- Puts a text behind what a store of `capacity` bytes holds, or nothing of it if it does not fit, and tells which. -/
def put (capacity : Nat) (held text : String) : String × Bool :=
  if held.utf8ByteSize + text.utf8ByteSize ≤ capacity then (held ++ text, true) else (held, false)

theorem put_of_fits {capacity : Nat} {held text : String} (h : held.utf8ByteSize + text.utf8ByteSize ≤ capacity) :
    put capacity held text = (held ++ text, true) :=
  if_pos h

end SensorLink.Text
