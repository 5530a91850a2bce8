import SensorLink.Failure
import SensorLink.Topic.Levels

/-! Patterns over topics. The level `+` stands for any one level, and a last level `#` for any levels that
    follow, none included. -/

namespace SensorLink.Topic

def oneLevel : String := "+"

def anyLevels : String := "#"

/-- Whether the levels of a pattern cover the levels of a topic. Nothing behind `#` is looked at. -/
def covers : List String → List String → Bool
  | [], [] => true
  | [], _ :: _ => false
  | wanted :: _, [] => wanted == anyLevels
  | wanted :: pattern, level :: topic =>
    wanted == anyLevels || ((wanted == oneLevel || wanted == level) && covers pattern topic)

def accepts (pattern topic : String) : Bool := covers (levels pattern) (levels topic)

/-- No level is a wildcard. A wildcard character inside a longer level is none. -/
def isConcrete (topic : String) : Bool :=
  (levels topic).all fun level => level != oneLevel && level != anyLevels

/-- A level that may stand in a pattern with `rest` behind it. -/
def levelFits (level : String) (rest : List String) : Bool :=
  if level = anyLevels then rest.isEmpty
  else level == oneLevel || level.toList.all fun c => c != '+' && c != '#'

def levelsFit : List String → Bool
  | [] => true
  | level :: rest => levelFits level rest && levelsFit rest

/-- Whether a text is a pattern to subscribe to. -/
def checkPattern (pattern : String) : Except TopicRefusal Unit :=
  if pattern = "" then .error .empty
  else if levelsFit (levels pattern) then .ok ()
  else .error .invalidWildcard

/-- Whether a text is a topic to publish to. -/
def checkConcrete (topic : String) : Except TopicRefusal Unit :=
  if topic = "" then .error .empty
  else if isConcrete topic then .ok ()
  else .error .wildcardInConcrete

end SensorLink.Topic
