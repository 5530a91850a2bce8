import SensorLink.Cut
import SensorLink.Modem

/-! The sending end of a serial line. It takes a bounded number of bytes in each call; a write makes as many
    calls as it needs, and then one that flushes. -/

namespace SensorLink

structure Transmitter where
  /-- The most bytes that one call takes. -/
  limit : Nat
  /-- The number of the call that fails, counted from one. -/
  failing : Option Nat
  calls : Nat := 0

namespace Transmitter

inductive Event where
  | wrote (bytes : Bytes)
  | flushed
  | failed
  deriving DecidableEq

/-- Makes the calls in turn, until one fails. -/
def perform (sender : Transmitter) : List Event → Transmitter × List Event × Option Fault
  | [] => (sender, [], none)
  | event :: rest =>
    let sender := { sender with calls := sender.calls + 1 }
    if sender.failing = some sender.calls then (sender, [.failed], some ⟨sender.calls⟩)
    else
      let (sender, events, fault) := sender.perform rest
      (sender, event :: events, fault)

/-- Writes some bytes and flushes them. -/
def send (sender : Transmitter) (bytes : Bytes) : Transmitter × List Event × Option Fault :=
  sender.perform ((Cut.chunks sender.limit bytes).map .wrote ++ [.flushed])

/-- Writes one after the other, whether or not an earlier one failed. -/
def sendAll (sender : Transmitter) : List Bytes → List Event × List (Option Fault)
  | [] => ([], [])
  | bytes :: rest =>
    let (sender, events, fault) := sender.send bytes
    let (later, faults) := sender.sendAll rest
    (events ++ later, fault :: faults)

end Transmitter
end SensorLink
