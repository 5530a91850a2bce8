import SensorLink.Proofs.Delivering

/-! What becomes of a notification: everyone who wants the message gets it once, in the order in which they stand in the
    table first, and a malformed one comes to nothing. -/

namespace SensorLink

/-- Where a subscriber first stands with a pattern that accepts the topic. -/
def firstMatch (entries : List Subscription) (topic : String) (subscriber : Subscriber) : Nat :=
  entries.findIdx fun entry => Topic.accepts entry.pattern topic && decide (entry.subscriber = subscriber)

/-- Those who stand in the table with a pattern that accepts the topic, as often as they do. -/
def accepting (entries : List Subscription) (topic : String) : List Subscriber :=
  (entries.filter fun entry => Topic.accepts entry.pattern topic).map Subscription.subscriber

section
variable {entries : List Subscription} {last : Subscription} {topic : String} {subscriber : Subscriber}

theorem mem_accepting : subscriber ∈ accepting entries topic ↔
    ∃ entry ∈ entries, Topic.accepts entry.pattern topic ∧ entry.subscriber = subscriber := by
  simp [accepting, and_assoc]

theorem accepting_concat : accepting (entries ++ [last]) topic =
    if Topic.accepts last.pattern topic then accepting entries topic ++ [last.subscriber] else accepting entries topic := by
  unfold accepting
  cases h : Topic.accepts last.pattern topic <;> simp [h]

theorem firstMatch_lt (h : subscriber ∈ accepting entries topic) : firstMatch entries topic subscriber < entries.length := by
  obtain ⟨entry, hmem, haccepts, hsubscriber⟩ := mem_accepting.mp h
  exact List.findIdx_lt_length_of_exists ⟨entry, hmem, by simp [haccepts, hsubscriber]⟩

theorem firstMatch_of_notMem (h : subscriber ∉ accepting entries topic) :
    firstMatch entries topic subscriber = entries.length := by
  refine List.findIdx_eq_length.mpr fun entry hmem => ?_
  rw [Bool.and_eq_false_imp, decide_eq_false_iff_not]
  exact fun haccepts hsubscriber => h (mem_accepting.mpr ⟨entry, hmem, haccepts, hsubscriber⟩)

/-- What comes later does not move the first place. -/
theorem firstMatch_append (h : subscriber ∈ accepting entries topic) (more : List Subscription) :
    firstMatch (entries ++ more) topic subscriber = firstMatch entries topic subscriber := by
  have hlt := firstMatch_lt h
  unfold firstMatch at hlt ⊢
  rw [List.findIdx_append, if_pos hlt]

theorem firstMatch_concat_last (h : last.subscriber ∉ accepting entries topic) :
    entries.length ≤ firstMatch (entries ++ [last]) topic last.subscriber := by
  have hlength := firstMatch_of_notMem h
  unfold firstMatch at hlength ⊢
  rw [List.findIdx_append, if_neg (by omega)]
  omega

/-- Each subscriber found is found at its first place. -/
theorem pairwise_firstMatch (entries : List Subscription) (topic : String) : (accepting entries topic).eraseDups.Pairwise
    fun one other => firstMatch entries topic one < firstMatch entries topic other := by
  induction entries using List.reverseRecOn with
  | nil => exact .nil
  | append_singleton entries last ih =>
    have hkept : (accepting entries topic).eraseDups.Pairwise fun one other =>
        firstMatch (entries ++ [last]) topic one < firstMatch (entries ++ [last]) topic other := by
      refine ih.imp_of_mem fun hone hother hlt => ?_
      rwa [firstMatch_append (List.mem_eraseDups.mp hone), firstMatch_append (List.mem_eraseDups.mp hother)]
    rw [accepting_concat]
    split
    · rw [Subscriptions.eraseDups_concat]
      split
      · exact hkept
      · rename_i hnew
        refine List.pairwise_append.mpr ⟨hkept, List.pairwise_singleton _ _, fun one hone _ hlast => ?_⟩
        have hmem : one ∈ accepting entries topic := List.mem_eraseDups.mp hone
        rw [List.mem_singleton.mp hlast, firstMatch_append hmem]
        exact (firstMatch_lt hmem).trans_le (firstMatch_concat_last hnew)
    · exact hkept

end

namespace Node

theorem deliver_of_ok {node : Node} {line : Bytes} {message : Message} (h : Notice.parse line = .ok message) :
    node.deliver line = ({ node with deliveries := node.deliveries ++ node.table.handed message },
      .ok (node.table.wanting message.topic).length) := by
  simp only [deliver, h]
  rfl

theorem deliver_of_error {node : Node} {line : Bytes} {cause : LineRefusal} (h : Notice.parse line = .error cause) :
    node.deliver line = (node, .error cause) := by
  simp only [deliver, h]

/-- A notification goes to everyone who has a pattern that accepts its topic, once and in the order of their first places
    in the table, and to nobody else, and they are counted; a malformed line goes to nobody; and of the lines that are queued
    each is handled so, one after another, and counted, malformed or not. -/
theorem dispatches_once (node : Node) :
    (∀ line message, Notice.parse line = .ok message → ∃ subscribers : List Subscriber,
      node.table.handed message = subscribers.map (⟨·, message⟩) ∧
      node.deliver line = ({ node with deliveries := node.deliveries ++ node.table.handed message },
        .ok subscribers.length) ∧
      subscribers.Nodup ∧
      (∀ subscriber, subscriber ∈ subscribers ↔
        ∃ entry ∈ node.table.entries, Topic.accepts entry.pattern message.topic ∧ entry.subscriber = subscriber) ∧
      subscribers.Pairwise (fun one other =>
        firstMatch node.table.entries message.topic one < firstMatch node.table.entries message.topic other) ∧
      subscribers.length ≤ node.table.capacity) ∧
    (∀ line cause, Notice.parse line = .error cause → node.deliver line = (node, .error cause)) ∧
    node.deliverPending =
      ({ node.withIntake { node.link.intake with inbound := [] } with
          deliveries := node.deliveries ++
            (node.link.intake.inbound.filterMap fun line => (Notice.parse line).toOption).flatMap node.table.handed },
        node.link.intake.inbound.length) := by
  refine ⟨fun line message hparse => ⟨node.table.wanting message.topic, rfl, deliver_of_ok hparse,
    Subscriptions.nodup_wanting _ _, fun _ => Subscriptions.mem_wanting, ?_, ?_⟩,
    fun line cause hparse => deliver_of_error hparse, ?_⟩
  · rw [Subscriptions.wanting_eq]
    exact pairwise_firstMatch node.table.entries message.topic
  · rw [Subscriptions.wanting_eq]
    calc (accepting node.table.entries message.topic).eraseDups.length
      _ ≤ (accepting node.table.entries message.topic).length := Subscriptions.length_eraseDups_le _
      _ ≤ node.table.entries.length := by
        rw [accepting, List.length_map]
        exact List.length_filter_le _ _
      _ ≤ node.table.capacity := node.table.fits
  · rw [deliverPending_eq, deliver_all]
    rfl

/-- The first subscriber stands behind the second with another pattern as well, and the line in between is malformed. -/
theorem dispatches_once_to_overlapping_patterns :
    let line : Bytes := Text.encode "+MQTTSUBRECV:0,\"a/b\",1,7"
    let message : Message := { topic := "a/b", data := Text.encode "7" }
    let table : Subscriptions := { capacity := 4, entries := [⟨"a/b", 2⟩, ⟨"c", 3⟩, ⟨"a/+", 1⟩, ⟨"#", 2⟩] }
    let node : Node := { table, depth := 1, link := { intake := { inbound := [line, Text.encode "+MQTTSUBRECV:0", line] } } }
    Notice.parse line = .ok message ∧ (node.deliver line).1.deliveries = [⟨2, message⟩, ⟨1, message⟩] ∧
      node.deliverPending.1.deliveries = [⟨2, message⟩, ⟨1, message⟩, ⟨2, message⟩, ⟨1, message⟩] ∧
      node.deliverPending.2 = 3 := by
  intro line message table node
  have hparse : Notice.parse line = .ok message := by decide +kernel
  have hhanded : table.handed message = [⟨2, message⟩, ⟨1, message⟩] := by decide +kernel
  obtain ⟨hwell, -, hpending⟩ := dispatches_once node
  obtain ⟨subscribers, -, hdeliver, -⟩ := hwell line message hparse
  exact ⟨hparse, by rw [hdeliver, ← hhanded]; rfl, by rw [hpending]; decide +kernel, by rw [hpending]; rfl⟩

end Node
end SensorLink
