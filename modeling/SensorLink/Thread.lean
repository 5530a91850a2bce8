import SensorLink.Call

/-! Threads of calls on a node, in time that moves only when nothing can go on without it. -/

namespace SensorLink

inductive Outcome where
  | answer (answer : Answer)
  | cancelled
  | all (outcomes : List Outcome)

/-- A call, a thread with a time limit, or several side by side. -/
inductive Thread where
  | start (call : Call)
  | running (task : Task)
  /-- The deadline is set on the first visit. -/
  | within (duration : Nat) (deadline : Option Nat) (body : Thread)
  | join (threads : List Thread)
  | ended (outcome : Outcome)

namespace Thread

def ofTask : Node × Task → Node × Thread
  | (node, .finished answer) => (node, .ended (.answer answer))
  | (node, task) => (node, .running task)

/-- What every thread has come to, if all have ended. -/
def outcomes? : List Thread → Option (List Outcome)
  | [] => some []
  | .ended outcome :: threads => (outcomes? threads).map (outcome :: ·)
  | _ :: _ => none

mutual

def drop (node : Node) : Thread → Node
  | .running task => node.drop task
  | .within _ _ body => drop node body
  | .join threads => dropAll node threads
  | .start _ | .ended _ => node

def dropAll (node : Node) : List Thread → Node
  | [] => node
  | thread :: threads => dropAll (drop node thread) threads

end

mutual

/-- Visits a thread: what has a time limit before the clock is looked at, and threads side by side in their
    order. -/
def visit (node : Node) : Thread → Node × Thread
  | .start call =>
    let (node, task) := call.start node
    ofTask (node.run task)
  | .running task => ofTask (node.visit task)
  | .within duration deadline body =>
    match visit node body, deadline with
    | (node, .ended outcome), _ => (node, .ended outcome)
    | (node, body), none => (node, .within duration (some (node.link.clock + duration)) body)
    | (node, body), some due =>
      if due ≤ node.link.clock then (drop node body, .ended .cancelled)
      else (node, .within duration (some due) body)
  | .join threads =>
    let (node, threads) := visitAll node threads
    match outcomes? threads with
    | some outcomes => (node, .ended (.all outcomes))
    | none => (node, .join threads)
  | .ended outcome => (node, .ended outcome)

def visitAll (node : Node) : List Thread → Node × List Thread
  | [] => (node, [])
  | thread :: threads =>
    let (node, thread) := visit node thread
    let (node, threads) := visitAll node threads
    (node, thread :: threads)

end

def earlier? : Option Nat → Option Nat → Option Nat
  | some a, some b => some (min a b)
  | some a, none => some a
  | none, b => b

mutual

def deadline? : Thread → Option Nat
  | .running (.parked wait) => wait.deadline?
  | .within _ deadline body => earlier? deadline (deadline? body)
  | .join threads => earliest? threads
  | .start _ | .running _ | .ended _ => none

def earliest? : List Thread → Option Nat
  | [] => none
  | thread :: threads => earlier? (deadline? thread) (earliest? threads)

end

/-- Whether a thread can go on before any time passes: something has come, or its time is up already. -/
def isAwake (node : Node) (thread : Thread) : Bool :=
  node.link.alarm.ringing || (deadline? thread).any (· ≤ node.link.clock)

/-- The next time at which something happens: a deadline passes or bytes arrive. -/
def nextTime? (node : Node) (thread : Thread) : Option Nat :=
  earlier? (deadline? thread) (node.link.arrivals.head?.map Arrival.due)

/-- Runs a thread to its end, in at most so many visits; it comes to nothing if it waits for what never
comes. -/
def finish : Nat → Node → Thread → Node × Option Outcome
  | 0, node, thread => (drop node thread, none)
  | visits + 1, node, thread =>
    match visit node.stopAlarm thread with
    | (node, .ended outcome) => (node, some outcome)
    | (node, thread) =>
      if isAwake node thread then finish visits node thread
      else match nextTime? node thread with
        | none => (drop node thread, none)
        | some time => finish visits (node.advance time) thread

end Thread
end SensorLink
