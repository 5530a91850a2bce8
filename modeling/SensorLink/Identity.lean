import SensorLink.Limits
import SensorLink.Text.Store
import SensorLink.Topic.Pattern

/-! Who a node is, and where its topics live: local topics under `<domain>/<client id>/`, remote ones under
    `<domain>/`. -/

namespace SensorLink

inductive Scope where
  | own
  | remote
  deriving DecidableEq

/-- A domain of any number of levels and a client id of one. Either may be empty, and is then left out. -/
structure Identity where
  domain : String
  clientId : String
  singleLevel : Topic.separator ∉ clientId.toList
  concreteDomain : Topic.isConcrete domain = true
  concreteClientId : Topic.isConcrete clientId = true
  domainFits : domain.utf8ByteSize ≤ Limits.domain
  clientIdFits : clientId.utf8ByteSize ≤ Limits.clientId
  deriving DecidableEq

namespace Identity

def anonymous : Identity where
  domain := ""
  clientId := ""
  singleLevel := by decide
  concreteDomain := by decide
  concreteClientId := by decide
  domainFits := by decide
  clientIdFits := by decide

def ofParts (domain clientId : String) : Except TopicRefusal Identity :=
  if hlevel : Topic.separator ∈ clientId.toList then .error .containsSeparator
  else if hdomain : Topic.isConcrete domain = true then
    if hclient : Topic.isConcrete clientId = true then
      if hfits : domain.utf8ByteSize ≤ Limits.domain then
        if hfits' : clientId.utf8ByteSize ≤ Limits.clientId then
          .ok ⟨domain, clientId, hlevel, hdomain, hclient, hfits, hfits'⟩
        else .error .tooLong
      else .error .tooLong
    else .error .wildcardInConcrete
  else .error .wildcardInConcrete

/-- The levels that every topic of the scope starts with. -/
def root (identity : Identity) : Scope → List String
  | .own => [identity.domain, identity.clientId].filter (· ≠ "")
  | .remote => [identity.domain].filter (· ≠ "")

/-- A store for a full topic with one more part and a separator in it. Behind a part that does not fit, there is no
    separator either. -/
def extend (held part : String) : String :=
  match Text.put Limits.fullTopic held part with
  | (held, true) => (Text.put Limits.fullTopic held (String.singleton Topic.separator)).1
  | (held, false) => held

/-- The topic behind the levels of its scope, as far as a store for full topics takes them. -/
def fullTopic (identity : Identity) (scope : Scope) (topic : String) : Except TopicRefusal String :=
  if topic = "" then .error .empty
  else if topic.utf8ByteSize ≤ Limits.topic then
    .ok (Text.put Limits.fullTopic ((identity.root scope).foldl extend "") topic).1
  else .error .tooLong

end Identity
end SensorLink
