import SensorLink.Messages
import SensorLink.Proofs.PublishForm
import SensorLink.Proofs.Structured
import SensorLink.Proofs.Wildcards

/-! Where the messages of one node meet the subscriptions of another. A node's own topic is, as a full topic, the one
    under which the nodes of its domain know it by its client id (`own_eq_ofTwin`), and a pattern covers it level by level
    behind the domain (`accepts_ofTwin`). But a name that one may publish under need not be one to subscribe to: the two
    meet only if it is plain (`Call.reaches_iff`). -/

namespace SensorLink

namespace Topic

/-! ### Patterns over structured topics -/

theorem isConcrete_ofTwin {twin : Label} (htwin : isConcrete twin.text = true) (kind : Kind) (id : Option Label) :
    isConcrete (ofTwin twin kind id) = true ↔ isConcrete (own kind id) = true := by
  rw [isConcrete_iff, levels_of_single twin.singleLevel, List.forall_mem_singleton] at htwin
  rw [isConcrete_iff, levels_ofTwin, List.forall_mem_cons, and_iff_right htwin, isConcrete_iff]

theorem plain_own (kind : Kind) (id : Option Label) : Plain (own kind id) ↔ ∀ label ∈ id, Plain label.text := by
  have htag : Plain kind.tag := by cases kind <;> decide
  rw [plain_iff_levels, levels_own, List.forall_mem_cons, and_iff_right htag]
  simp

theorem plain_ofTwin (twin : Label) (kind : Kind) (id : Option Label) :
    Plain (ofTwin twin kind id) ↔ Plain twin.text ∧ ∀ label ∈ id, Plain label.text := by
  rw [plain_iff_levels, levels_ofTwin, List.forall_mem_cons, ← plain_iff_levels, plain_own]

/-- A topic and a pattern without wildcards: one can publish to the one and subscribe to the other exactly if the pattern
    is plain. -/
theorem checks_iff_plain {topic pattern : String} (htopic : topic ≠ "") (hpattern : pattern ≠ "")
    (hsame : isConcrete topic = true ↔ isConcrete pattern = true) :
    checkConcrete topic = .ok () ∧ checkPattern pattern = .ok () ↔ Plain pattern := by
  rw [checkConcrete_eq_ok_iff, and_iff_right htopic, hsame]
  refine ⟨fun ⟨hconcrete, hcheck⟩ => (checkPattern_of_isConcrete hpattern hconcrete).mp hcheck, fun hplain => ?_⟩
  have hconcrete := isConcrete_of_plain hplain
  exact ⟨hconcrete, (checkPattern_of_isConcrete hpattern hconcrete).mpr hplain⟩

/-- The id in a pattern stands for the id of a topic. -/
def IdFits : Option Label → Option Label → Prop
  | none, none => True
  | none, some _ => False
  | some wanted, none => wanted.text = anyLevels
  | some wanted, some id => wanted.text = id.text ∨ wanted.text = oneLevel ∨ wanted.text = anyLevels

theorem covers_id (wanted id : Option Label) :
    covers (wanted.map Label.text).toList (id.map Label.text).toList = true ↔ IdFits wanted id := by
  rcases wanted with _ | wanted <;> rcases id with _ | id
  · simp [covers, IdFits]
  · simp [covers, IdFits]
  · simp [covers, IdFits]
  · simp [covers, IdFits]
    tauto

theorem covers_own (kind kind' : Kind) (id id' : Option Label) :
    covers (levels (own kind' id')) (levels (own kind id)) = true ↔ kind = kind' ∧ IdFits id' id := by
  obtain ⟨hone, hany⟩ := tag_ne kind'
  rw [levels_own, levels_own, covers_cons hany, covers_id]
  refine and_congr_left fun _ => ⟨fun h => ?_, fun h => .inl (congrArg Kind.tag h.symm)⟩
  exact tag_injective (h.resolve_right hone).symm

end Topic

/-! ### Full topics -/

namespace Identity
open Topic

variable {identity : Identity} {scope : Scope} {domain client topic full : String}

theorem parts_of_ofParts (h : ofParts domain client = .ok identity) :
    identity.domain = domain ∧ identity.clientId = client := by
  unfold ofParts at h
  repeat' split at h
  all_goals cases h
  exact ⟨rfl, rfl⟩

theorem levels_root_own (h : identity.clientId ≠ "") :
    (identity.root .own).flatMap levels = (identity.root .remote).flatMap levels ++ [identity.clientId] := by
  have hroot : identity.root .own = identity.root .remote ++ [identity.clientId].filter (· ≠ "") := by
    rw [root, root, ← List.filter_append]
    rfl
  have hclient : [identity.clientId].filter (· ≠ "") = [identity.clientId] := by simp [h]
  rw [hroot, hclient, List.flatMap_append, List.flatMap_singleton, levels_of_single identity.singleLevel]

theorem clientId_ne (identity : Identity) : identity.clientId ≠ oneLevel ∧ identity.clientId ≠ anyLevels := by
  have hconcrete := identity.concreteClientId
  rw [isConcrete, levels_of_single identity.singleLevel] at hconcrete
  simpa using hconcrete

/-! ### Two nodes of a domain -/

section
variable {other pattern wanted : String} {a b : Identity}

theorem fullTopic_own (identity : Identity) (kind : Kind) (id : Option Label) :
    ∃ full, identity.fullTopic .own (own kind id) = .ok full :=
  ⟨_, fullTopic_eq (own_ne_empty kind id) (size_own kind id)⟩

theorem fullTopic_ofTwin (identity : Identity) (twin : Label) (kind : Kind) (id : Option Label) :
    ∃ full, identity.fullTopic .remote (ofTwin twin kind id) = .ok full :=
  ⟨_, fullTopic_eq (ofTwin_ne_empty twin kind id) (size_ofTwin twin kind id)⟩

theorem root_remote_congr (h : a.domain = b.domain) : a.root .remote = b.root .remote := by rw [root, root, h]

/-- A pattern about a twin covers an own topic exactly if it names the node, and the rest agrees. -/
theorem accepts_ofTwin {twin : Label} {kind kind' : Kind} {id id' : Option Label} (hdomain : a.domain = b.domain)
    (hclient : a.clientId ≠ "") (htwin : twin.text ≠ anyLevels) (hfull : a.fullTopic .own (own kind id) = .ok full)
    (hwanted : b.fullTopic .remote (ofTwin twin kind' id') = .ok wanted) : accepts wanted full = true ↔
      (twin.text = a.clientId ∨ twin.text = oneLevel) ∧ kind = kind' ∧ IdFits id' id := by
  rw [accepts, levels_fullTopic hwanted, levels_fullTopic hfull, levels_root_own hclient, root_remote_congr hdomain,
    List.append_assoc, covers_append ne_of_mem_root, levels_ofTwin, List.singleton_append, covers_cons htwin, covers_own]

/-- The own patterns of a node cover no own topic of another one. -/
theorem not_accepts_of_clientId (hdomain : a.domain = b.domain) (hclient : a.clientId ≠ "") (hother : b.clientId ≠ "")
    (hne : b.clientId ≠ a.clientId) (hfull : a.fullTopic .own topic = .ok full)
    (hwanted : b.fullTopic .own pattern = .ok wanted) : accepts wanted full = false := by
  obtain ⟨hone, hany⟩ := clientId_ne b
  rw [accepts, levels_fullTopic hwanted, levels_fullTopic hfull, levels_root_own hclient, levels_root_own hother,
    root_remote_congr hdomain, List.append_assoc, List.append_assoc, covers_append ne_of_mem_root,
    List.singleton_append, List.singleton_append, Bool.eq_false_iff]
  exact fun h => ((covers_cons hany _ _ _).mp h).1.elim hne hone

theorem own_eq_ofTwin {twin : Label} (hdomain : a.domain = b.domain) (hclient : a.clientId ≠ "")
    (htwin : twin.text = a.clientId) (kind : Kind) (id : Option Label) :
    a.fullTopic .own (own kind id) = b.fullTopic .remote (ofTwin twin kind id) := by
  obtain ⟨full, hfull⟩ := fullTopic_own a kind id
  obtain ⟨full', hfull'⟩ := fullTopic_ofTwin b twin kind id
  have hlevels : levels full = levels full' := by
    rw [levels_fullTopic hfull, levels_fullTopic hfull', levels_root_own hclient, root_remote_congr hdomain,
      levels_ofTwin, htwin, List.append_assoc, List.singleton_append]
  rw [hfull, hfull', eq_of_levels hlevels]

end
end Identity

/-! ### Calls on structured topics -/

namespace Call
open Topic

/-- The call is accepted, and publishes on the full topic `full`. -/
def LandsOn (node : Node) (full : String) : Call → Prop
  | .publish scope topic payload => node.identity.fullTopic scope topic = .ok full ∧ ∃ form,
      node.publishForm scope topic payload = .ok form ∧
        Command.publish? full payload node.messaging.qos node.messaging.retain = some form
  | _ => False

/-- The call is accepted, and subscribes to the full pattern `full`. -/
def ListensOn (node : Node) (full : String) : Call → Prop
  | .subscribe scope pattern _ => node.fullPattern scope pattern = .ok full
  | _ => False

/-- The one call publishes where the other listens. -/
def Reaches (publisher listener : Node) (publish subscribe : Call) : Prop :=
  ∃ full, publish.LandsOn publisher full ∧ subscribe.ListensOn listener full

section
variable {node peer : Node} {scope scope' : Scope} {topic pattern full : String} {payload : Bytes} {subscriber : Subscriber}

theorem landsOn_iff (hlength : payload.length < 2 ^ 64) : (Call.publish scope topic payload).LandsOn node full ↔
    checkConcrete topic = .ok () ∧ node.identity.fullTopic scope topic = .ok full := by
  constructor
  · rintro ⟨hfull, form, hform, -⟩
    refine ⟨?_, hfull⟩
    unfold Node.publishForm at hform
    cases hcheck : checkConcrete topic with
    | error refusal => simp [hcheck, Except.mapError, bind, Except.bind] at hform
    | ok _ => rfl
  · rintro ⟨hcheck, hfull⟩
    obtain ⟨form, hform⟩ := Option.isSome_iff_exists.mp
      (Command.publish?_isSome (size_fullTopic hfull) hlength node.messaging.qos node.messaging.retain)
    refine ⟨hfull, form, ?_, hform⟩
    simp only [Node.publishForm, hcheck, hfull, Except.mapError, bind, Except.bind, hform]

theorem listensOn_iff : (Call.subscribe scope pattern subscriber).ListensOn node full ↔
    checkPattern pattern = .ok () ∧ node.identity.fullTopic scope pattern = .ok full := by
  rw [ListensOn, Node.fullPattern]
  rcases checkPattern pattern with refusal | _ <;> simp [bind, Except.bind]

/-- A topic and a pattern that are the same to the broker meet exactly if both are accepted. -/
theorem reaches_iff (hlength : payload.length < 2 ^ 64) (hfull : node.identity.fullTopic scope topic = .ok full)
    (hsame : peer.identity.fullTopic scope' pattern = .ok full) :
    Reaches node peer (.publish scope topic payload) (.subscribe scope' pattern subscriber) ↔
      checkConcrete topic = .ok () ∧ checkPattern pattern = .ok () := by
  simp only [Reaches, landsOn_iff hlength, listensOn_iff, hfull, hsame]
  exact ⟨fun ⟨_, ⟨hconcrete, _⟩, hpattern, _⟩ => ⟨hconcrete, hpattern⟩,
    fun ⟨hconcrete, hpattern⟩ => ⟨full, ⟨hconcrete, rfl⟩, hpattern, rfl⟩⟩

end
end Call

/-- `peer` knows the node as `twin`: what the node publishes lands where the peer listens to the twin if the twin and the
    id are plain, and what the peer asks of the twin lands where the node listens if the id is. Otherwise the calls do not
    meet. -/
structure Node.KnownAs (node : Node) (twin : Topic.Label) (peer : Node) : Prop where
  data : ∀ id (value : Bytes) subscriber, value.length < 2 ^ 64 →
    (Call.Reaches node peer (.publishData id value) (.subscribeForData twin id subscriber) ↔
      Topic.Plain twin.text ∧ Topic.Plain id.text)
  heartbeat : ∀ (who : String) subscriber, who.utf8ByteSize < 2 ^ 64 →
    (Call.Reaches node peer (.publishHeartbeat who) (.subscribeForHeartbeat twin subscriber) ↔ Topic.Plain twin.text)
  start : ∀ id (receiver : String) subscriber, receiver.utf8ByteSize < 2 ^ 64 →
    (Call.Reaches peer node (.publishStart twin id receiver) (.subscribeForStart id subscriber) ↔ Topic.Plain id.text)
  stop : ∀ id (receiver : String) subscriber, receiver.utf8ByteSize < 2 ^ 64 →
    (Call.Reaches peer node (.publishStop twin id receiver) (.subscribeForStop id subscriber) ↔ Topic.Plain id.text)
  command : ∀ service (command : Bytes) subscriber, command.length < 2 ^ 64 →
    (Call.Reaches peer node (.publishCommand twin service command) (.subscribeForCommand service subscriber) ↔
      Topic.Plain service.text)

section
open Topic Identity

theorem knownAs_of_clientId {node peer : Node} {twin : Label} (hdomain : node.identity.domain = peer.identity.domain)
    (htwin : twin.text = node.identity.clientId) : node.KnownAs twin peer := by
  have hclient : node.identity.clientId ≠ "" := htwin ▸ twin.nonempty
  have hconcrete : isConcrete twin.text = true := htwin ▸ node.identity.concreteClientId
  have hsame (kind : Kind) (id : Option Label) := own_eq_ofTwin hdomain hclient htwin kind id
  have from_node (kind : Kind) (id : Option Label) {payload : Bytes} (subscriber : Subscriber)
      (hlength : payload.length < 2 ^ 64) :
      Call.Reaches node peer (.publishOwn kind id payload) (.subscribeToTwin twin kind id subscriber) ↔
        Plain twin.text ∧ ∀ label ∈ id, Plain label.text := by
    obtain ⟨full, hfull⟩ := fullTopic_own node.identity kind id
    have hmeet := checks_iff_plain (own_ne_empty kind id) (ofTwin_ne_empty twin kind id)
      (isConcrete_ofTwin hconcrete kind id).symm
    rw [← plain_ofTwin twin kind id, ← hmeet]
    exact Call.reaches_iff hlength hfull (hsame kind id ▸ hfull)
  have from_peer (kind : Kind) (id : Option Label) {payload : Bytes} (subscriber : Subscriber)
      (hlength : payload.length < 2 ^ 64) :
      Call.Reaches peer node (.publishToTwin twin kind id payload) (.subscribeOwn kind id subscriber) ↔
        ∀ label ∈ id, Plain label.text := by
    obtain ⟨full, hfull⟩ := fullTopic_ofTwin peer.identity twin kind id
    have hmeet := checks_iff_plain (ofTwin_ne_empty twin kind id) (own_ne_empty kind id) (isConcrete_ofTwin hconcrete kind id)
    rw [← plain_own kind id, ← hmeet]
    exact Call.reaches_iff hlength hfull ((hsame kind id).trans hfull)
  have size (text : String) (h : text.utf8ByteSize < 2 ^ 64) : (Text.encode text).length < 2 ^ 64 :=
    (Text.length_encode text).symm ▸ h
  have one (label : Label) : (∀ other ∈ some label, Plain other.text) ↔ Plain label.text := by simp
  exact {
    data := fun id value subscriber h => (from_node .data (some id) subscriber h).trans (and_congr_right' (one id))
    heartbeat := fun who subscriber h => (from_node .heartbeat none subscriber (size who h)).trans (and_iff_left nofun)
    start := fun id receiver subscriber h => (from_peer .start (some id) subscriber (size receiver h)).trans (one id)
    stop := fun id receiver subscriber h => (from_peer .stop (some id) subscriber (size receiver h)).trans (one id)
    command := fun service command subscriber h => (from_peer .command (some service) subscriber h).trans (one service) }

/-- Two nodes of one domain, the first of which has a client id. That is a name by which the second can call it, and then
    both mean the same full topics: every own topic of the first is the second's topic of that twin. The calls on
    structured topics meet there exactly if the names in the pattern are plain.

    A pattern of the second about a twin, `#` apart, covers an own topic of the first exactly if it is about this node or
    any one, and kind and id agree. And the own patterns of the second, if it has a client id and another one, cover no own
    topic of the first. -/
theorem addresses_agree {domain client other : String} {a b : Identity} (ha : ofParts domain client = .ok a)
    (hb : ofParts domain other = .ok b) (hclient : client ≠ "") : ∃ twin, Label.ofText client = .ok twin ∧
      (∀ kind id, ∃ full, a.fullTopic .own (own kind id) = .ok full ∧
        b.fullTopic .remote (ofTwin twin kind id) = .ok full ∧
        ∀ wanted kind' id', wanted.text ≠ anyLevels →
          ∃ pattern, b.fullTopic .remote (ofTwin wanted kind' id') = .ok pattern ∧
            (accepts pattern full = true ↔
              (wanted.text = client ∨ wanted.text = oneLevel) ∧ kind = kind' ∧ IdFits id' id)) ∧
      (∀ node peer : Node, node.identity = a → peer.identity = b → node.KnownAs twin peer) ∧
      (other ≠ "" → other ≠ client → ∀ pattern topic wanted full, b.fullTopic .own pattern = .ok wanted →
        a.fullTopic .own topic = .ok full → accepts wanted full = false) := by
  obtain ⟨hdomain, rfl⟩ := parts_of_ofParts ha
  obtain ⟨hdomain', rfl⟩ := parts_of_ofParts hb
  have hsame : a.domain = b.domain := hdomain.trans hdomain'.symm
  let twin : Label := ⟨a.clientId, hclient, a.singleLevel, a.clientIdFits⟩
  have htwin : Label.ofText a.clientId = .ok twin := by
    have hfits : a.clientId.utf8ByteSize ≤ Limits.label := a.clientIdFits
    rw [Label.ofText, dif_neg hclient, dif_neg a.singleLevel, dif_pos hfits]
  refine ⟨twin, htwin, fun kind id => ?_, ?_, fun hother hne pattern topic wanted full hwanted hfull => ?_⟩
  · obtain ⟨full, hfull⟩ := fullTopic_own a kind id
    refine ⟨full, hfull, (own_eq_ofTwin hsame hclient rfl kind id).symm.trans hfull, fun wanted kind' id' hany => ?_⟩
    obtain ⟨pattern, hpattern⟩ := fullTopic_ofTwin b wanted kind' id'
    exact ⟨pattern, hpattern, accepts_ofTwin hsame hclient hany hfull hpattern⟩
  · rintro node peer rfl rfl
    exact knownAs_of_clientId hsame rfl
  · exact not_accepts_of_clientId hsame hclient hother hne hfull hwanted

/-- A sensor and a node that hears its heartbeat and listens to the temperature of any twin. -/
theorem addresses_agree_of_sensor :
    let id : Label := ⟨"temp", by decide, by decide, by decide⟩
    let anyone : Label := ⟨"+", by decide, by decide, by decide⟩
    let sensor : Label := ⟨"enV5", by decide, by decide, by decide⟩
    ∃ a b full pattern, ofParts "eip://uni-due.de/es" "enV5" = .ok a ∧ ofParts "eip://uni-due.de/es" "hub" = .ok b ∧
      a.fullTopic .own (own .data (some id)) = .ok full ∧
      b.fullTopic .remote (ofTwin anyone .data (some id)) = .ok pattern ∧ accepts pattern full = true ∧
      Call.Reaches { table := { capacity := 1 }, depth := 1, identity := a }
        { table := { capacity := 1 }, depth := 1, identity := b } (.publishHeartbeat "enV5")
        (.subscribeForHeartbeat sensor 0) := by
  intro id anyone sensor
  let a : Identity :=
    ⟨"eip://uni-due.de/es", "enV5", by decide, by decide, by decide, by decide, by decide⟩
  let b : Identity :=
    ⟨"eip://uni-due.de/es", "hub", by decide, by decide, by decide, by decide, by decide⟩
  have ha : ofParts "eip://uni-due.de/es" "enV5" = .ok a := rfl
  have hb : ofParts "eip://uni-due.de/es" "hub" = .ok b := rfl
  obtain ⟨twin, htwin, hagree, hknown, -⟩ := addresses_agree ha hb (by decide)
  obtain rfl : sensor = twin := Except.ok.inj htwin
  obtain ⟨full, hfull, -, hpatterns⟩ := hagree .data (some id)
  obtain ⟨pattern, hpattern, haccepts⟩ := hpatterns anyone .data (some id) (by decide)
  have hheard := (hknown { table := { capacity := 1 }, depth := 1, identity := a }
    { table := { capacity := 1 }, depth := 1, identity := b } rfl rfl).heartbeat "enV5" 0 (by decide)
  exact ⟨a, b, full, pattern, ha, hb, hfull, hpattern, haccepts.mpr ⟨.inr rfl, rfl, .inl rfl⟩, hheard.mpr (by decide)⟩

/-- A node with `+` inside its client id publishes its heartbeat, but who knows it by that id cannot listen to it; and data
    with an id like that are published, but nobody can listen to them. -/
theorem heartbeat_unheard :
    let twin : Label := ⟨"x+y", by decide, by decide, by decide⟩
    let hub : Label := ⟨"hub", by decide, by decide, by decide⟩
    let id : Label := ⟨"a+b", by decide, by decide, by decide⟩
    ∃ a b, ofParts "d" "x+y" = .ok a ∧ ofParts "d" "hub" = .ok b ∧
      let node : Node := { table := { capacity := 1 }, depth := 1, identity := a }
      let peer : Node := { table := { capacity := 1 }, depth := 1, identity := b }
      (((Call.publishHeartbeat "x+y").start node).2.content? = some (.publish "d/x+y/HEARTBEAT" "x+y" 0 false) ∧
        ((Call.subscribeForHeartbeat twin 0).start peer).2 = .finished (.failed (.topic .invalidWildcard)) ∧
        ¬Call.Reaches node peer (.publishHeartbeat "x+y") (.subscribeForHeartbeat twin 0)) ∧
      ((Call.publishData id (Text.encode "7")).start peer).2.content? = some (.publish "d/hub/DATA/a+b" "7" 0 false) ∧
        ((Call.subscribeForData hub id 0).start node).2 = .finished (.failed (.topic .invalidWildcard)) := by
  intro twin hub id
  refine ⟨⟨"d", "x+y", by decide, by decide, by decide, by decide, by decide⟩,
    ⟨"d", "hub", by decide, by decide, by decide, by decide, by decide⟩, rfl, rfl, ⟨?_, ?_, ?_⟩, ?_, ?_⟩
  case refine_3 =>
    rintro ⟨full, -, hlistens⟩
    exact absurd (Call.listensOn_iff.mp hlistens).1 (by decide +kernel)
  all_goals decide +kernel

end
end SensorLink
