import SensorLink.Dialogue
import SensorLink.Command.Mqtt
import SensorLink.Posting
import SensorLink.Settings
import SensorLink.Subscriptions

/-! Tasks of a node. Between two visits a task waits for something; while it holds the modem, it also remembers
    the stage that its request belongs to, which says how to go on with the result. -/

namespace SensorLink

inductive Answer where
  | done
  | flag (value : Bool)
  | count (n : Nat)
  | text (value : String)
  | collected (value : Option String)
  | identity (domain clientId : String)
  | options (value : UplinkOptions)
  | failed (cause : Failure Fault)
  | fault (cause : Fault)
  | notAsked (cause : Slot.Refusal)
  | notPosted (cause : PostRefusal)
  | badTopic (cause : TopicRefusal)
  | badLine (cause : LineRefusal)
  deriving DecidableEq

def Answer.ofResult : Except (Failure Fault) Unit → Answer
  | .ok () => .done
  | .error cause => .failed cause

/-- What a publish is part of. -/
inductive Goal where
  | report
  /-- Emptying the queue, of which so many postings have been published. -/
  | drain (published : Nat)
  | serve
  deriving DecidableEq

/-- An operation that is tried again after a while until it succeeds. -/
structure Retry (α : Type) where
  target : α
  delay : Nat
  failures : Nat := 0
  deriving DecidableEq

/-- What the result of a request means. -/
inductive Stage where
  /-- The text of the answer is reported, or the failure. -/
  | text
  /-- Whether there was an answer is reported. -/
  | flag
  | done
  /-- Success is reported, or what the transport did. -/
  | fault
  | publishInline (goal : Goal)
  | publishHeader (payload : Bytes) (goal : Goal)
  | publishBody (goal : Goal)
  | subscribe (pattern : String) (subscriber : Subscriber) (command : Command) (retries : Nat)
  | unsubscribe (answer : Answer)
  | reset
  | settle
  | flush
  | probe
  | backoff
  | echo
  | single (retries : Nat)
  | join (retry : Option (Retry Credentials))
  | leave
  | configure (session : Command) (retry : Option (Retry Broker))
  | openSession (retry : Option (Retry Broker))
  | closeSession
  deriving DecidableEq

inductive Wait where
  /-- The modem, to start with a request. -/
  | modem (request : Dialogue.Request) (stage : Stage)
  /-- Its request, with the modem held. -/
  | request (hold : Dialogue.Hold) (stage : Stage)
  | clock (due : Nat)
  | rejoin (due : Nat) (retry : Retry Credentials)
  | reopen (due : Nat) (retry : Retry Broker)
  /-- A notification to deliver, or one after the other for ever. -/
  | notice (forever : Bool)
  /-- A notification to deliver or a posting to publish, for ever. -/
  | work
  | posting
  /-- Nothing but its turn, to publish the next posting if there is one. -/
  | drain (published : Nat)
  | room (posting : Posting)
  | closed
  deriving DecidableEq

inductive Task where
  | parked (wait : Wait)
  /-- Looks whether it can go on. -/
  | checking (wait : Wait)
  /-- Holds the modem and is about to make a request. -/
  | asking (request : Dialogue.Request) (stage : Stage)
  | finished (answer : Answer)
  deriving DecidableEq

/-- Makes a request as soon as the modem is free. -/
def Task.talk (request : Dialogue.Request) (stage : Stage) : Task := .checking (.modem request stage)

/-- How a task that holds the modem goes on. -/
inductive Next where
  /-- With another request, still holding the modem. -/
  | again (request : Dialogue.Request) (stage : Stage)
  /-- Without the modem. -/
  | leave (task : Task)
  deriving DecidableEq

def Goal.next : Goal → Except (Failure Fault) Unit → Task
  | .report, result => .finished (.ofResult result)
  | .drain published, .ok () => .checking (.drain (published + 1))
  | .drain published, .error _ => .checking (.drain published)
  | .serve, _ => .checking .work

end SensorLink
