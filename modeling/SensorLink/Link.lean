import SensorLink.Intake
import SensorLink.Modem

/-! The link to the modem as a node sees it: what has been received, who waits for what, whether some task holds
    the modem, what the modem will do, the clock, what is still on its way, and all that was written. Time is
    in microseconds. -/

namespace SensorLink

structure Arrival where
  due : Nat
  data : Bytes
  deriving DecidableEq

structure Link where
  intake : Intake := {}
  alarm : Alarm := {}
  /-- A task holds the modem, and no other may talk to it. -/
  held : Bool := false
  rules : List Modem.Rule := []
  clock : Nat := 0
  /-- By time, and by order of sending at one time. -/
  arrivals : List Arrival := []
  sent : List Bytes := []
  deriving DecidableEq

namespace Link

def setAlarm (link : Link) (event : Alarm.Event) : Link := { link with alarm := link.alarm.set event }

def announce (link : Link) (events : List Alarm.Event) : Link :=
  { link with alarm := link.alarm.announce events }

/-! ### Receiving -/

def feed (link : Link) (data : Bytes) : Link :=
  let intake := link.intake.feed data
  { link with intake }.announce intake.events

/-- Puts an arrival behind all that are due no later. -/
def insertArrival (arrival : Arrival) : List Arrival → List Arrival
  | [] => [arrival]
  | next :: rest =>
    if next.due ≤ arrival.due then next :: insertArrival arrival rest else arrival :: next :: rest

def schedule (link : Link) (delay : Nat) (data : Bytes) : Link :=
  { link with arrivals := insertArrival ⟨link.clock + delay, data⟩ link.arrivals }

/-- Moves the clock on to a time, with all that arrives until then. -/
def advance (link : Link) (time : Nat) : Link :=
  let due := link.arrivals.takeWhile fun arrival => arrival.due ≤ time
  let rest := link.arrivals.dropWhile fun arrival => arrival.due ≤ time
  due.foldl (fun link arrival => link.feed arrival.data)
    { link with clock := max link.clock time, arrivals := rest }

/-- Forgets what has been received. Who waits for a report that the link went down misses the next one. -/
def clear (link : Link) : Link :=
  { link with intake := link.intake.clear, alarm := link.alarm.unset .closed }

/-! ### The slot -/

def withSlot (link : Link) (slot : Slot) : Link := { link with intake := { link.intake with slot } }

/-- Puts a question. Who still waits for the answer to an earlier one misses the next answer. -/
def ask (link : Link) (expected : String) : Except Slot.Refusal (Link × UInt32) :=
  match link.intake.slot.ask expected with
  | .ok (slot, generation) => .ok ({ link.withSlot slot with alarm := link.alarm.unset .answer }, generation)
  | .error cause => .error cause

def forget (link : Link) (generation : UInt32) : Link := link.withSlot (link.intake.slot.forget generation)

/-- What a look at the slot comes to: who finds no answer sets the alarm. -/
def orSetAlarm (link : Link) : Slot × Option String → Link × Option String
  | (slot, some answer) => (link.withSlot slot, some answer)
  | (slot, none) => ((link.withSlot slot).setAlarm .answer, none)

def look (link : Link) (generation : UInt32) : Link × Option String :=
  link.orSetAlarm (link.intake.slot.look generation)

def lookAgain (link : Link) (generation : UInt32) : Link × Option String :=
  link.orSetAlarm (link.intake.slot.lookAgain generation)

/-! ### Sending -/

/-- A reply without delay has arrived already. -/
def reply (link : Link) (reply : Modem.Reply) : Link :=
  if reply.delay = 0 then link.feed reply.data else link.schedule reply.delay reply.data

/-- The modem does what a rule says, and the write succeeds or fails. -/
def obey (link : Link) (rule : Modem.Rule) : Link × Option Fault :=
  (rule.replies.foldl reply link, rule.fault)

inductive Transmission where
  | complete
  | failed (fault : Fault)
  /-- The modem holds back a write until `due`; the writes in `rest` follow it. -/
  | stalled (due : Nat) (rule : Modem.Rule) (rest : List Bytes)
  deriving DecidableEq

/-- Writes one part after the other, until one fails or is held back. -/
def transmit (link : Link) : List Bytes → Link × Transmission
  | [] => (link, .complete)
  | part :: rest =>
    let link := { link with sent := link.sent ++ [part] }
    match Modem.decide? part link.rules with
    | none => link.transmit rest
    | some (rule, rules) =>
      let link := { link with rules }
      if rule.delay > 0 then (link, .stalled (link.clock + rule.delay) rule rest)
      else match link.obey rule with
        | (link, some fault) => (link, .failed fault)
        | (link, none) => link.transmit rest

def resumeTransmit (link : Link) (rule : Modem.Rule) (rest : List Bytes) : Link × Transmission :=
  match link.obey rule with
  | (link, some fault) => (link, .failed fault)
  | (link, none) => link.transmit rest

end Link
end SensorLink
