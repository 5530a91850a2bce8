import SensorLink.Text.Utf8

/-! A modem by its rules: what it does when something is written to it. The first rule that has uses left and
    knows the bytes decides; a write that no rule knows succeeds without a reply. -/

namespace SensorLink

/-- What the transport reports when a write fails. -/
structure Fault where
  code : Nat
  deriving DecidableEq

def Fault.message (fault : Fault) : String := "Fault(" ++ toString fault.code ++ ")"

namespace Modem

/-- Bytes that the modem sends some time after a write. -/
structure Reply where
  delay : Nat
  data : Bytes
  deriving DecidableEq

structure Rule where
  trigger : Bytes
  /-- The write must be these bytes, and not only start with them. -/
  entire : Bool := false
  /-- How often the rule still applies; without a number, for ever. -/
  uses : Option Nat := none
  replies : List Reply := []
  /-- How long the modem holds back the write before it replies. -/
  delay : Nat := 0
  fault : Option Fault := none
  deriving DecidableEq

def Rule.knows (rule : Rule) (written : Bytes) : Bool :=
  rule.uses != some 0 &&
    (if rule.entire then written == rule.trigger else rule.trigger.isPrefixOf written)

/-- The rule that decides on a write, and the rules for later writes. -/
def decide? (written : Bytes) : List Rule → Option (Rule × List Rule)
  | [] => none
  | rule :: rules =>
    if rule.knows written then some (rule, { rule with uses := rule.uses.map (· - 1) } :: rules)
    else (decide? written rules).map fun (chosen, rules) => (chosen, rule :: rules)

end Modem
end SensorLink
