import SensorLink.Proofs.CommandReading
import SensorLink.Proofs.Fitting
import SensorLink.Proofs.Requests

/-! Wildcard characters in what is sent to the broker. A pattern must not have them inside a longer level, but a topic, a
    domain and a client id may: only a level that is a wildcard as a whole is kept out of these. So a filter may go out
    that is no pattern, and a topic that nobody can subscribe to by its name (`sent_topics_plain_iff`). -/

namespace SensorLink
namespace Topic

/-! ### Plain texts -/

/-- A text without any wildcard character. -/
def Plain (text : String) : Prop := ∀ c ∈ text.toList, c ≠ '+' ∧ c ≠ '#'

instance (text : String) : Decidable (Plain text) := List.decidableBAll (fun c => c ≠ '+' ∧ c ≠ '#') text.toList

theorem plain_ofLevels (parts : List String) : Plain (ofLevels parts) ↔ ∀ part ∈ parts, Plain part :=
  forall_mem_ofLevels (P := fun c => c ≠ '+' ∧ c ≠ '#') (by decide) parts

theorem plain_iff_levels (topic : String) : Plain topic ↔ ∀ level ∈ levels topic, Plain level := by
  rw [← plain_ofLevels, ofLevels_levels]

theorem all_plain_iff (level : String) : (level.toList.all fun c => c != '+' && c != '#') = true ↔ Plain level := by
  simp [Plain]

theorem levelFits_of_isName {level : String} (h : IsName level) (rest : List String) :
    levelFits level rest = true ↔ Plain level := by
  rw [levelFits, if_neg h.2, beq_eq_false_iff_ne.mpr h.1, Bool.false_or, all_plain_iff]

/-- In front of a pattern, levels that are no wildcards have to be plain. -/
theorem levelsFit_append {root : List String} (h : ∀ level ∈ root, IsName level) (pattern : List String) :
    levelsFit (root ++ pattern) = true ↔ (∀ level ∈ root, Plain level) ∧ levelsFit pattern = true := by
  induction root with
  | nil => simp
  | cons level rest ih =>
    rw [List.forall_mem_cons] at h
    rw [List.cons_append, levelsFit, Bool.and_eq_true, levelFits_of_isName h.1, ih h.2, List.forall_mem_cons, and_assoc]

theorem checkPattern_eq_ok_iff {pattern : String} :
    checkPattern pattern = .ok () ↔ pattern ≠ "" ∧ levelsFit (levels pattern) = true := by
  unfold checkPattern
  split
  · simp [*]
  · split <;> simp [*]

theorem checkConcrete_eq_ok_iff {topic : String} :
    checkConcrete topic = .ok () ↔ topic ≠ "" ∧ isConcrete topic = true := by
  unfold checkConcrete
  split
  · simp [*]
  · split <;> simp [*]

theorem isConcrete_of_plain {topic : String} (h : Plain topic) : isConcrete topic = true := by
  rw [isConcrete_iff]
  intro level hlevel
  have hplain := (plain_iff_levels topic).mp h level hlevel
  constructor <;> rintro rfl <;> exact absurd hplain (by decide)

/-- A topic to publish to is a pattern to subscribe to exactly if it is plain. -/
theorem checkPattern_of_isConcrete {topic : String} (hne : topic ≠ "") (h : isConcrete topic = true) :
    checkPattern topic = .ok () ↔ Plain topic := by
  have hfit : levelsFit (levels topic) = true ↔ Plain topic := by
    have happend := levelsFit_append ((isConcrete_iff topic).mp h) []
    rw [List.append_nil] at happend
    rw [happend, ← plain_iff_levels]
    simp [levelsFit]
  rw [checkPattern_eq_ok_iff, hfit, and_iff_right hne]

end Topic

/-! ### Full topics and patterns -/

namespace Identity
open Topic

variable {identity : Identity} {scope : Scope} {topic full : String}

theorem plain_fullTopic (h : identity.fullTopic scope topic = .ok full) :
    Plain full ↔ ∀ part ∈ identity.root scope ++ [topic], Plain part := by
  rw [(fullTopic_eq_ok_iff.mp h).2.2, plain_ofLevels]

theorem isConcrete_fullTopic (h : identity.fullTopic scope topic = .ok full) (hconcrete : isConcrete topic = true) :
    isConcrete full = true := by
  rw [isConcrete_iff] at hconcrete ⊢
  rw [levels_fullTopic h, List.forall_mem_append]
  exact ⟨isName_of_mem_root, hconcrete⟩

/-- Behind an identity, a pattern stays one exactly if the identity is plain. -/
theorem checkPattern_fullTopic (h : identity.fullTopic scope topic = .ok full) (hpattern : checkPattern topic = .ok ()) :
    checkPattern full = .ok () ↔ ∀ part ∈ identity.root scope, Plain part := by
  have hroot : (∀ level ∈ (identity.root scope).flatMap levels, Plain level) ↔ ∀ part ∈ identity.root scope, Plain part := by
    rw [List.forall_mem_flatMap]
    exact forall₂_congr fun part _ => (plain_iff_levels part).symm
  rw [checkPattern_eq_ok_iff, levels_fullTopic h, levelsFit_append isName_of_mem_root, hroot,
    and_iff_right (fullTopic_ne_empty h), and_iff_left (checkPattern_eq_ok_iff.mp hpattern).2]

end Identity

/-! ### What is sent -/

/-- What the command is about that a task is to put to the modem. -/
def Task.content? : Task → Option Command.Content
  | .checking (.modem (.ask (part :: _) _ _) _) => (Text.decode? part).bind Command.decode?
  | _ => none

/-- The topic that a message is published on. -/
def Command.Content.topic? : Command.Content → Option String
  | .publish topic .. | .announce topic .. => some topic
  | _ => none

section
open Topic Command

variable {node : Node} {scope : Scope}

theorem content?_command {text expected : String} {timeout : Nat} {stage : Stage} :
    (Task.talk (.command text expected timeout) stage).content? = decode? text := by
  show (Text.decode? (Text.encode text)).bind decode? = decode? text
  rw [Text.decode?_encode, Option.bind_some]

theorem content?_goal (goal : Goal) (result : Except (Failure Fault) Unit) : (goal.next result).content? = none := by
  unfold Goal.next
  split <;> rfl

theorem content?_subscribe {pattern : String} {subscriber : Subscriber} {content : Content}
    (h : (node.subscribe scope pattern subscriber).2.content? = some content) : ∃ full,
      checkPattern pattern = .ok () ∧ node.identity.fullTopic scope pattern = .ok full ∧
        content = .subscribe full node.messaging.qos := by
  unfold Node.subscribe at h
  split at h
  · cases h
  · rename_i full hfull
    have hcheck : checkPattern pattern = .ok () := by
      unfold Node.fullPattern at hfull
      rcases hcheck : checkPattern pattern with cause | _
      · simp [hcheck, Except.bind, bind] at hfull
      · rfl
    refine ⟨full, hcheck, fullTopic_of_fullPattern hfull, ?_⟩
    split at h
    · cases h
    · split at h
      · cases h
      · unfold Node.enter at h
        split at h <;> simp [Task.content?] at h
    · split at h
      · cases h
      · split at h
        · cases h
        · rename_i command hcommand
          rw [content?_command, decode?_carried (.subscribe hcommand)] at h
          exact (Option.some.inj h).symm

theorem content?_publish {topic : String} {payload : Bytes} {goal : Goal} {content : Content}
    (h : (node.publish scope topic payload goal).content? = some content) : ∃ full,
      checkConcrete topic = .ok () ∧ node.identity.fullTopic scope topic = .ok full ∧ content.topic? = some full := by
  have hform {form : PublishForm} (hform : node.publishForm scope topic payload = .ok form) :
      checkConcrete topic = .ok () := by
    unfold Node.publishForm at hform
    rcases hcheck : checkConcrete topic with cause | _
    · simp [hcheck, Except.mapError, Except.bind, bind] at hform
    · rfl
  unfold Node.publish at h
  split at h
  · simp [content?_goal] at h
  · rename_i command hinline
    obtain ⟨full, hfull, hpublish⟩ := publish?_of_publishForm hinline
    obtain ⟨text, htext, -⟩ := publish?_eq_inline hpublish
    rw [encode_inlineText? htext] at hpublish
    rw [content?_command, decode?_carried (.publish hpublish)] at h
    exact ⟨full, hform hinline, hfull, by rw [← Option.some.inj h]; rfl⟩
  · rename_i header hraw
    obtain ⟨full, hfull, hpublish⟩ := publish?_of_publishForm hraw
    rw [content?_command, decode?_carried (.announce hpublish)] at h
    exact ⟨full, hform hraw, hfull, by rw [← Option.some.inj h]; rfl⟩

/-- Whoever the node is: the filter in a command to subscribe is a pattern exactly if the parts of the identity in it are
    plain, and the topic in a command to publish is plain exactly if those and the topic itself are. No level of that
    topic is a wildcard in any case, but it is a pattern only if it is plain, and one can subscribe by the topic's exact
    name only if that is. -/
theorem sent_topics_plain_iff (node : Node) (scope : Scope) :
    (∀ pattern subscriber content, (node.subscribe scope pattern subscriber).2.content? = some content →
      ∃ full, node.identity.fullTopic scope pattern = .ok full ∧ content = .subscribe full node.messaging.qos ∧
        (checkPattern full = .ok () ↔ ∀ part ∈ node.identity.root scope, Plain part)) ∧
    ∀ topic payload goal content, (node.publish scope topic payload goal).content? = some content →
      ∃ full, node.identity.fullTopic scope topic = .ok full ∧ content.topic? = some full ∧ isConcrete full = true ∧
        (Plain full ↔ ∀ part ∈ node.identity.root scope ++ [topic], Plain part) ∧
        (checkPattern full = .ok () ↔ Plain full) ∧ (node.fullPattern scope topic = .ok full ↔ Plain topic) := by
  refine ⟨fun pattern subscriber content h => ?_, fun topic payload goal content h => ?_⟩
  · obtain ⟨full, hcheck, hfull, hcontent⟩ := content?_subscribe h
    exact ⟨full, hfull, hcontent, Identity.checkPattern_fullTopic hfull hcheck⟩
  · obtain ⟨full, hcheck, hfull, hcontent⟩ := content?_publish h
    obtain ⟨hne, hconcrete⟩ := checkConcrete_eq_ok_iff.mp hcheck
    have hconcrete' := Identity.isConcrete_fullTopic hfull hconcrete
    refine ⟨full, hfull, hcontent, hconcrete', Identity.plain_fullTopic hfull,
      checkPattern_of_isConcrete (Identity.fullTopic_ne_empty hfull) hconcrete', ?_⟩
    rw [← checkPattern_of_isConcrete hne hconcrete, Node.fullPattern, hfull]
    rcases checkPattern topic with cause | _ <;> simp [bind, Except.bind]

/-- A node with a plain domain and client id that subscribes to all its topics and publishes on one. -/
theorem sent_topics_plain_of_plain_identity :
    let node : Node := { table := { capacity := 1 }, depth := 1, identity := ⟨"d", "c", by decide, by decide, by decide,
      by decide, by decide⟩ }
    ((node.subscribe .own "#" 0).2.content? = some (.subscribe "d/c/#" 0) ∧ checkPattern "d/c/#" = .ok ()) ∧
      (node.publish .own "t" (Text.encode "x") .report).content? = some (.publish "d/c/t" "x" 0 false) ∧
      Plain "d/c/t" ∧ node.fullPattern .own "t" = .ok "d/c/t" := by
  intro node
  obtain ⟨hsubscribe, hpublish⟩ := sent_topics_plain_iff node .own
  have hfilter : (node.subscribe .own "#" 0).2.content? = some (.subscribe "d/c/#" 0) := by decide +kernel
  have hmessage : (node.publish .own "t" (Text.encode "x") .report).content? = some (.publish "d/c/t" "x" 0 false) := by
    decide +kernel
  obtain ⟨pattern, -, hpattern, hfits⟩ := hsubscribe _ _ _ hfilter
  obtain ⟨full, -, hfull, -, hplain, -, hname⟩ := hpublish _ _ _ _ hmessage
  cases hpattern
  cases hfull
  exact ⟨⟨hfilter, hfits.mpr (by decide)⟩, hmessage, hplain.mpr (by decide), hname.mpr (by decide)⟩

/-- A topic with `+` inside a level is published, and nobody can subscribe to it by its name; and with a domain like that,
    a filter goes out that is no pattern. -/
theorem wildcard_inside_level :
    (∃ identity, Identity.ofParts "d" "c" = .ok identity ∧
      let node : Node := { table := { capacity := 1 }, depth := 1, identity }
      (node.publish .own "a+b" (Text.encode "x") .report).content? = some (.publish "d/c/a+b" "x" 0 false) ∧
        node.fullPattern .own "a+b" = .error .invalidWildcard) ∧
    ∃ identity, Identity.ofParts "a+b" "" = .ok identity ∧
      let node : Node := { table := { capacity := 1 }, depth := 1, identity }
      (node.subscribe .own "p" 0).2.content? = some (.subscribe "a+b/p" 0) ∧
        checkPattern "a+b/p" = .error .invalidWildcard := by
  refine ⟨⟨⟨"d", "c", by decide, by decide, by decide, by decide, by decide⟩, rfl, ?_, ?_⟩,
    ⟨⟨"a+b", "", by decide, by decide, by decide, by decide, by decide⟩, rfl, ?_, ?_⟩⟩ <;> decide +kernel

end
end SensorLink
