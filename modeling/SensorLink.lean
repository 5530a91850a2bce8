import SensorLink.Messages
import SensorLink.Receiver
import SensorLink.Session
import SensorLink.Text.Quoted
import SensorLink.Transmitter
import SensorLink.Proofs.Credit
import SensorLink.Proofs.Ledger
import SensorLink.Proofs.Routing
import SensorLink.Proofs.NoticeText
import SensorLink.Proofs.Inbox
import SensorLink.Proofs.Delivering
import SensorLink.Proofs.Forging
import SensorLink.Proofs.Effects
import SensorLink.Proofs.OneLine
import SensorLink.Proofs.Requests
import SensorLink.Proofs.BrokerSession
import SensorLink.Proofs.Connecting
import SensorLink.Proofs.Receiving
import SensorLink.Proofs.LinkLoss
import SensorLink.Proofs.Fitting
import SensorLink.Proofs.Progress
import SensorLink.Proofs.Telling
import SensorLink.Proofs.Traffic
import SensorLink.Proofs.Contest
import SensorLink.Proofs.Racing
import SensorLink.Proofs.Structured
import SensorLink.Proofs.Addressing
import SensorLink.Proofs.CommandReading
import SensorLink.Proofs.Relaying
import SensorLink.Proofs.Forwarding
import SensorLink.Proofs.Outbox
import SensorLink.Proofs.Reading
import SensorLink.Proofs.Serving
import SensorLink.Proofs.Waiters
import SensorLink.Proofs.Wildcards
import SensorLink.Proofs.Clearing
import SensorLink.Proofs.Course
import SensorLink.Proofs.Timing
import SensorLink.Proofs.Closing
import SensorLink.Proofs.Answering
import SensorLink.Proofs.NoticeGrammar
import SensorLink.Proofs.SlotHistory
import SensorLink.Proofs.TableHistory
import SensorLink.Proofs.Dispatching
import SensorLink.Proofs.PublishForm
import SensorLink.Proofs.Publishing
import SensorLink.Proofs.Transcript
import SensorLink.Proofs.Bystanders
import SensorLink.Proofs.PowerUp
import SensorLink.Proofs.Attempts
import SensorLink.Proofs.Operations
import SensorLink.Proofs.Retrying
import SensorLink.Proofs.Transcribing
import SensorLink.Proofs.SubscribeTries
import SensorLink.Proofs.Sorting
import SensorLink.Proofs.Patterns
import SensorLink.Proofs.Writing
