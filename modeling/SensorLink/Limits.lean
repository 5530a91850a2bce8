/-! How much each fixed store holds. Lengths of text are counted in UTF-8 bytes. -/

namespace SensorLink.Limits

/-- One received line. -/
def line : Nat := 512

/-- Notifications that wait to be delivered. -/
def inbound : Nat := 4

/-- One command, without its line end. -/
def command : Nat := 512

/-- What the answer to a command is expected to start with. -/
def expected : Nat := 32

/-- A name that fills one level of a structured topic. -/
def label : Nat := 32

/-- The longest tag of a message kind. -/
def kind : Nat := 9

/-- A topic before qualification: two labels, a tag and two separators. -/
def topic : Nat := label + 1 + kind + 1 + label

def domain : Nat := 64

def clientId : Nat := 32

/-- A qualified topic: domain, client id and topic at their longest, and two separators. -/
def fullTopic : Nat := domain + 1 + clientId + 1 + topic

/-- The payload of a queued posting. -/
def payload : Nat := 128

end SensorLink.Limits
