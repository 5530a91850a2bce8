import SensorLink.Proofs.Hearing
import SensorLink.Proofs.Inbox

/-! Receiving a stream and delivering from the queue, in any order. What has been delivered and what is still queued
    are together the notifications that were accepted (`Reception.Sound`): a byte can only add to the end of the queue,
    and a reader can only move its front to the deliveries. -/

namespace SensorLink
open LineBuffer LineSplit

/-! ### How far a stream has come -/

/-- What of a stream of items is still to come, what has been received of the first of them, and the notifications
    that were accepted. -/
structure Mail where
  coming : List Item
  got : Bytes := []
  accepted : List Notification := []

namespace Mail

/-- One more byte, when so many lines are queued. The byte that completes an item decides whether it is accepted. -/
def take (mail : Mail) (queued : Nat) (byte : UInt8) : Mail :=
  match mail.coming with
  | [] => mail
  | item :: coming =>
    if mail.got ++ [byte] = item.bytes then
      { coming, accepted := mail.accepted ++ (if queued < Limits.inbound then item.deliverable? else none).toList }
    else { mail with got := mail.got ++ [byte] }

def feed (mail : Mail) (intake : Intake) : Bytes → Mail
  | [] => mail
  | byte :: rest => (mail.take intake.inbound.length byte).feed (intake.receive byte) rest

/-- The mail is what has become of `items`, of which the bytes `fed` have been received. -/
structure Follows (items : List Item) (fed : Bytes) (mail : Mail) : Prop where
  unfinished : ∀ item ∈ mail.coming.head?, mail.got <+: item.line ++ [cr]
  split : ∃ complete, items = complete ++ mail.coming ∧ fed = complete.flatMap Item.bytes ++ mail.got ∧
    mail.accepted.Sublist (complete.filterMap Item.deliverable?)

/-- The mail and the line buffer have come equally far. Before the first byte, the buffer may have seen a CR. -/
structure Matches (items : List Item) (fed : Bytes) (mail : Mail) (intake : Intake) : Prop extends
    Mail.Follows items fed mail where
  buffer : intake.buffer = LineSplit.buffer mail.got ∨ mail.got = [] ∧ intake.buffer.IsEmpty

variable {items : List Item} {fed : Bytes} {mail : Mail} {intake : Intake}

/-- A byte of the stream belongs to the first item that is still to come. -/
theorem Follows.first (h : Follows items fed mail) {byte : UInt8} (hfed : fed ++ [byte] <+: items.flatMap Item.bytes) :
    ∃ item coming, mail.coming = item :: coming ∧ mail.got ++ [byte] <+: item.bytes := by
  obtain ⟨complete, hitems, hsplit, -⟩ := h.split
  rw [hsplit, hitems, List.flatMap_append, List.append_assoc, List.prefix_append_right_inj] at hfed
  cases hcoming : mail.coming with
  | nil =>
    rw [hcoming, List.flatMap_nil, List.prefix_nil] at hfed
    simp at hfed
  | cons item coming =>
    refine ⟨item, coming, rfl, ?_⟩
    rw [hcoming, List.flatMap_cons] at hfed
    have hlength : (mail.got ++ [byte]).length ≤ item.bytes.length := by
      have hgot := (h.unfinished item (by rw [hcoming]; rfl)).length_le
      simp only [Item.bytes, List.length_append, List.length_cons, List.length_nil] at hgot ⊢
      omega
    exact List.prefix_of_prefix_length_le hfed (List.prefix_append _ _) hlength

/-- The lines of the first item are routed when it is complete, and nothing before. -/
theorem Matches.receive (h : Matches items fed mail intake) {item : Item} (hgot : mail.got <+: item.line ++ [cr])
    {byte : UInt8} (hstart : mail.got ++ [byte] <+: item.bytes) : intake.receive byte =
      (intake.routeAll (lines (mail.got ++ [byte]))).withBuffer (LineSplit.buffer (mail.got ++ [byte])) := by
  have hlines : lines mail.got = [] := Item.lines_unfinished hgot
  have receive {intake : Intake} (hbuffer : intake.buffer = LineSplit.buffer mail.got) : intake.receive byte =
      (intake.routeAll (lines (mail.got ++ [byte]))).withBuffer (LineSplit.buffer (mail.got ++ [byte])) := by
    obtain ⟨more, hmore, hreceive⟩ := Intake.receive_eq hbuffer byte
    rw [hlines, List.nil_append] at hmore
    rw [hreceive, hmore, Intake.routeAll_withBuffer]
  rcases h.buffer with hbuffer | ⟨hnone, hempty⟩
  · exact receive hbuffer
  · -- No item starts with LF, so a CR before it changes nothing.
    have hfirst : byte ≠ lf := by
      rintro rfl
      rw [hnone, List.nil_append] at hstart
      obtain ⟨rest, hrest⟩ := hstart
      exact item.head?_bytes (by rw [← hrest]; rfl)
    have hbuffer : (intake.withBuffer {}).buffer = LineSplit.buffer mail.got := by
      rw [hnone]
      exact buffer_nil.symm
    rw [Intake.receive_of_isEmpty hempty hfirst, receive hbuffer, Intake.routeAll_withBuffer]
    rfl

/-- One more byte: what the mail accepts is what the queue gains. -/
theorem Matches.take (h : Matches items fed mail intake) {byte : UInt8}
    (hfed : fed ++ [byte] <+: items.flatMap Item.bytes) :
    Matches items (fed ++ [byte]) (mail.take intake.inbound.length byte) (intake.receive byte) ∧
      ∃ more, (mail.take intake.inbound.length byte).accepted = mail.accepted ++ more ∧
        understood (intake.receive byte).inbound = understood intake.inbound ++ more.map Notification.message := by
  obtain ⟨item, coming, hcoming, hstart⟩ := h.first hfed
  obtain ⟨complete, hitems, hsplit, haccepted⟩ := h.split
  have hgot : mail.got <+: item.line ++ [cr] := h.unfinished item (by rw [hcoming]; rfl)
  have hreceive := h.receive hgot hstart
  have hbuffer : (intake.receive byte).buffer = LineSplit.buffer (mail.got ++ [byte]) := by rw [hreceive]; rfl
  have hinbound : (intake.receive byte).inbound = (intake.routeAll (lines (mail.got ++ [byte]))).inbound := by
    rw [hreceive]
    rfl
  simp only [Mail.take, hcoming]
  by_cases hend : mail.got ++ [byte] = item.bytes
  · rw [if_pos hend]
    rw [hend] at hbuffer hinbound
    refine ⟨⟨⟨fun _ _ => List.nil_prefix, complete ++ [item], by simp [hitems, hcoming], ?_, ?_⟩, ?_⟩, _, rfl, ?_⟩
    · simp [hsplit, ← hend]
    · rw [List.filterMap_append]
      refine haccepted.append ?_
      have hone : [item].filterMap Item.deliverable? = item.deliverable?.toList := by
        cases hitem : item.deliverable? <;> simp [hitem]
      rw [hone]
      split
      · exact List.Sublist.refl _
      · exact List.nil_sublist _
    · exact .inl (by rw [hbuffer, Item.bytes, buffer_line, buffer_nil])
    · rw [hinbound, understood_item]
      cases (if intake.inbound.length < Limits.inbound then item.deliverable? else none) <;> rfl
  · -- The item is not complete yet, so nothing comes of the byte.
    rw [if_neg hend]
    have hline : mail.got ++ [byte] <+: item.line ++ [cr] := by
      have hbytes : item.bytes = item.line ++ [cr] ++ [lf] := by simp [Item.bytes]
      exact (List.prefix_concat_iff.mp (hbytes ▸ hstart)).resolve_left (hbytes ▸ hend)
    refine ⟨⟨⟨fun other hother => ?_, complete, hcoming ▸ hitems, ?_, haccepted⟩, .inl hbuffer⟩, [], ?_,
      ?_⟩
    · cases hother
      exact hline
    · rw [hsplit, List.append_assoc]
    · rw [List.append_nil]
    · rw [hinbound, Item.lines_unfinished hline, List.map_nil, List.append_nil]
      rfl

/-- A portion of the stream: what the mail accepts is what the queue gains. -/
theorem Matches.feed (h : Matches items fed mail intake) {data : Bytes}
    (hfed : fed ++ data <+: items.flatMap Item.bytes) :
    Matches items (fed ++ data) (mail.feed intake data) (intake.feed data) ∧
      ∃ more, (mail.feed intake data).accepted = mail.accepted ++ more ∧
        understood (intake.feed data).inbound = understood intake.inbound ++ more.map Notification.message := by
  induction data generalizing fed mail intake with
  | nil => exact ⟨by rwa [List.append_nil], [], (List.append_nil _).symm, (List.append_nil _).symm⟩
  | cons byte rest ih =>
    have hcons : fed ++ byte :: rest = fed ++ [byte] ++ rest := by simp
    rw [hcons] at hfed ⊢
    obtain ⟨hfirst, more, haccepted, hinbound⟩ := h.take ((List.prefix_append _ _).trans hfed)
    obtain ⟨hrest, others, haccepted', hinbound'⟩ := ih hfirst hfed
    refine ⟨hrest, more ++ others, ?_, ?_⟩
    · rw [Mail.feed, haccepted', haccepted, List.append_assoc]
    · show understood ((intake.receive byte).feed rest).inbound = _
      rw [hinbound', hinbound, List.append_assoc, List.map_append]

end Mail

/-! ### Reading the queue -/

/-- What becomes of a message: each subscriber that wants it gets it. -/
def Subscriptions.handed (table : Subscriptions) (message : Message) : List Delivery :=
  (table.wanting message.topic).map fun subscriber => ⟨subscriber, message⟩

theorem mem_handed {table : Subscriptions} {message : Message} {delivery : Delivery} :
    delivery ∈ table.handed message ↔ delivery.message = message ∧
      ∃ entry ∈ table.entries, Topic.accepts entry.pattern message.topic ∧ entry.subscriber = delivery.subscriber := by
  rw [Subscriptions.handed, List.mem_map]
  constructor
  · rintro ⟨subscriber, hwants, rfl⟩
    exact ⟨rfl, Subscriptions.mem_wanting.mp hwants⟩
  · rintro ⟨rfl, hwants⟩
    exact ⟨delivery.subscriber, Subscriptions.mem_wanting.mpr hwants, rfl⟩

theorem nodup_handed (table : Subscriptions) (message : Message) : (table.handed message).Nodup :=
  List.Pairwise.map _ (fun _ _ hne h => hne (congrArg Delivery.subscriber h)) (Subscriptions.nodup_wanting _ _)

/-- The front of the queue is delivered, and nothing else that matters to the stream changes. -/
def Node.Reads (node after : Node) : Prop :=
  ∃ front, node.link.intake.inbound = front ++ after.link.intake.inbound ∧
    after.link.intake.buffer = node.link.intake.buffer ∧ after.table = node.table ∧
    after.deliveries = node.deliveries ++ (understood front).flatMap node.table.handed

section
variable {node after : Node}

theorem deliver_eq (node : Node) (line : Bytes) : (node.deliver line).1 =
    { node with deliveries := node.deliveries ++ (understood [line]).flatMap node.table.handed } := by
  unfold Node.deliver
  cases hparse : Notice.parse line <;> simp [understood, hparse, Except.toOption, Subscriptions.handed]

theorem deliver_all (node : Node) (lines : List Bytes) :
    lines.foldl (fun node line => (node.deliver line).1) node =
      { node with deliveries := node.deliveries ++ (understood lines).flatMap node.table.handed } := by
  induction lines generalizing node with
  | nil => simp [understood]
  | cons line rest ih =>
    have hcons : understood (line :: rest) = understood [line] ++ understood rest := understood_append [line] rest
    rw [List.foldl_cons, ih, deliver_eq, hcons, List.flatMap_append, List.append_assoc]

theorem Node.Reads.refl (node : Node) : node.Reads node := ⟨[], rfl, rfl, rfl, (List.append_nil _).symm⟩

theorem reads_setAlarm (node : Node) (event : Alarm.Event) : node.Reads (node.setAlarm event) :=
  ⟨[], rfl, rfl, rfl, (List.append_nil _).symm⟩

theorem reads_deliverPending (node : Node) : node.Reads node.deliverPending.1 := by
  refine ⟨node.link.intake.inbound, ?_, ?_, ?_, ?_⟩ <;> simp only [Node.deliverPending_eq, deliver_all]
  · exact (List.append_nil _).symm
  · rfl
  · rfl
  · rfl

theorem reads_deliverNext? (h : node.deliverNext? = some after) : node.Reads after := by
  obtain ⟨line, rest, hinbound, rfl⟩ := Node.exists_of_deliverNext? h
  refine ⟨[line], ?_, ?_, ?_, ?_⟩ <;> simp only [deliver_eq]
  · exact hinbound
  · rfl
  · rfl
  · rfl

end

/-- A task that does nothing but read the queue. -/
def Task.IsReader : Task → Prop
  | .parked (.notice _) | .checking (.notice _) | .finished _ => True
  | _ => False

theorem Task.IsReader.step {task : Task} (h : task.IsReader) (node : Node) :
    node.Reads (node.step task.awaken).1 ∧ (node.step task.awaken).2.IsReader := by
  have hcheck (forever : Bool) : node.Reads (node.check (.notice forever)).1 ∧
      (node.check (.notice forever)).2.IsReader := by
    simp only [Node.check]
    split
    · rename_i after hnext
      exact ⟨reads_deliverNext? hnext, by cases forever <;> trivial⟩
    · exact ⟨reads_setAlarm node _, trivial⟩
  cases task with
  | asking request stage => exact h.elim
  | finished answer => exact ⟨.refl _, trivial⟩
  | parked wait | checking wait =>
    cases wait with
    | notice forever => exact hcheck forever
    | _ => exact h.elim

theorem Task.IsReader.stage?_eq {task : Task} (h : task.IsReader) : task.stage? = none := by
  cases task with
  | asking request stage => exact h.elim
  | finished answer => rfl
  | parked wait | checking wait =>
    cases wait with
    | notice forever => rfl
    | _ => exact h.elim

/-! ### Calls that read -/

/-- How a call reads the queue: line after line, or one line only. -/
def Call.reads? : Call → Option Bool
  | .deliverNext => some false
  | .deliverForever => some true
  | _ => none

/-- A task that looks for a line, or has had the only one that it was to read. -/
def Task.IsReading (forever : Bool) (task : Task) : Prop :=
  task.awaken = .checking (.notice forever) ∨ forever = false ∧ task = .finished .done

section
variable {node : Node} {line : Bytes} {rest : List Bytes} {forever : Bool}

theorem check_notice_nil (h : node.link.intake.inbound = []) (forever : Bool) :
    node.check (.notice forever) = (node.setAlarm .notice, .parked (.notice forever)) := by
  simp only [Node.check, Node.deliverNext?_nil h]

theorem check_notice_cons (h : node.link.intake.inbound = line :: rest) (forever : Bool) :
    node.check (.notice forever) = (((node.withIntake { node.link.intake with inbound := rest }).deliver line).1,
      if forever then .checking (.notice true) else .finished .done) := by
  simp only [Node.check, Node.deliverNext?_cons h]

theorem Task.IsReading.step {task : Task} (h : task.IsReading forever) (node : Node) :
    (node.step task.awaken).2.IsReading forever := by
  rcases h with hlooks | ⟨honce, rfl⟩
  · rw [hlooks]
    show (node.check (.notice forever)).2.IsReading forever
    cases hinbound : node.link.intake.inbound with
    | nil => exact .inl (by rw [check_notice_nil hinbound]; rfl)
    | cons line rest =>
      rw [check_notice_cons hinbound]
      cases forever with
      | true => exact .inl rfl
      | false => exact .inr ⟨rfl, rfl⟩
  · exact .inr ⟨honce, rfl⟩

theorem maintains_reading (calls : List Call) : Crowd.Maintains (fun _ => True)
    (fun call task => ∀ forever, call.reads? = some forever → task.IsReading forever) calls where
  start node _ call _ := by
    refine ⟨trivial, fun forever hreads => ?_⟩
    cases call <;> cases hreads <;> exact .inl rfl
  step node _ call task h := ⟨trivial, fun forever hreads => (h forever hreads).step node⟩
  drop _ _ _ := trivial
  advance _ _ _ := trivial

end

/-! ### Receiving and reading in any order -/

namespace Crowd

/-- A move that receives bytes or reads the queue. A reader may also be given up. -/
def Move.IsReception : Move → Prop
  | .start (.feed _) | .start .deliverPending | .start .deliverNext | .start .deliverForever => True
  | .step _ | .drop _ => True
  | _ => False

def Move.fed : Move → Bytes
  | .start (.feed data) => data
  | _ => []

section
variable {crowd : Crowd} {move : Move}

theorem readers_next (hmove : move.IsReception) (h : ∀ i task, crowd.task? i = some task → task.IsReader) (i : Nat)
    (task : Task) (htask : (crowd.next move).task? i = some task) : task.IsReader := by
  rcases task?_next htask with hold | ⟨call, rfl, -, rfl⟩ | ⟨before, rfl, hbefore, rfl⟩
  · exact h i task hold
  · cases call with
    | feed data | deliverPending | deliverNext | deliverForever => trivial
    | _ => exact hmove.elim
  · exact ((h i before hbefore).step crowd.node).2

/-- A move that receives nothing only reads. -/
theorem reads_next (hmove : move.IsReception) (h : ∀ i task, crowd.task? i = some task → task.IsReader) :
    (∃ data, move = .start (.feed data)) ∨ move.fed = [] ∧ crowd.node.Reads (crowd.next move).node := by
  cases move with
  | advance time => exact hmove.elim
  | step i =>
    refine .inr ⟨rfl, ?_⟩
    cases htask : crowd.task? i with
    | none => exact (next_step_none htask).symm ▸ .refl _
    | some task =>
      rw [next_step htask]
      exact ((h i task htask).step crowd.node).1
  | drop i =>
    refine .inr ⟨rfl, ?_⟩
    cases htask : crowd.task? i with
    | none => exact (next_drop_none htask).symm ▸ .refl _
    | some task =>
      rw [next_drop htask, drop_outside (h i task htask).stage?_eq]
      exact .refl _
  | start call =>
    cases call with
    | feed data => exact .inl ⟨data, rfl⟩
    | deliverPending => exact .inr ⟨rfl, reads_deliverPending _⟩
    | deliverNext | deliverForever => exact .inr ⟨rfl, .refl _⟩
    | _ => exact hmove.elim

/-- What a visit of reader `i` comes to: it goes on to wait if nothing is queued, and else it takes the oldest line, whose
    message goes to those that want it. -/
inductive Looks (crowd : Crowd) (i : Nat) (forever : Bool) : Prop where
  | waits (empty : crowd.node.link.intake.inbound = []) (left : (crowd.next (.step i)).node.link.intake.inbound = [])
      (idle : (crowd.next (.step i)).node.deliveries = crowd.node.deliveries)
      (parked : (crowd.next (.step i)).task? i = some (.parked (.notice forever)))
  | takes (line : Bytes) (rest : List Bytes) (oldest : crowd.node.link.intake.inbound = line :: rest)
      (left : (crowd.next (.step i)).node.link.intake.inbound = rest)
      (hands : (crowd.next (.step i)).node.deliveries =
        crowd.node.deliveries ++ (understood [line]).flatMap crowd.node.table.handed)
      (goesOn : (crowd.next (.step i)).task? i = some (if forever then .checking (.notice true) else .finished .done))

theorem looks_of_awaken {i : Nat} {task : Task} {forever : Bool} (htask : crowd.task? i = some task)
    (h : task.awaken = .checking (.notice forever)) : crowd.Looks i forever := by
  have hstep : crowd.node.step task.awaken = crowd.node.check (.notice forever) := by rw [h]; rfl
  have hnode : (crowd.next (.step i)).node = (crowd.node.check (.notice forever)).1 := by rw [next_step htask, hstep]
  have hafter : (crowd.next (.step i)).task? i = some (crowd.node.check (.notice forever)).2 := by
    rw [task?_step htask, if_pos rfl, hstep]
  cases hinbound : crowd.node.link.intake.inbound with
  | nil =>
    rw [check_notice_nil hinbound] at hnode hafter
    exact .waits hinbound (by rw [hnode]; exact hinbound) (by rw [hnode]; rfl) hafter
  | cons line rest =>
    rw [check_notice_cons hinbound] at hnode hafter
    refine .takes line rest hinbound ?_ ?_ hafter <;> rw [hnode, deliver_eq] <;> rfl

/-- A call for all that is queued: it delivers every line of the queue and counts them, and nothing is left. -/
theorem next_deliverPending (crowd : Crowd) :
    (crowd.next (.start .deliverPending)).node.link.intake.inbound = [] ∧
      (crowd.next (.start .deliverPending)).task? crowd.tasks.length =
        some (.finished (.count crowd.node.link.intake.inbound.length)) := by
  rw [task?_start, if_pos rfl]
  show crowd.node.deliverPending.1.link.intake.inbound = [] ∧ some (Task.finished (.count crowd.node.deliverPending.2)) = _
  rw [Node.deliverPending_eq, deliver_all]
  exact ⟨rfl, rfl⟩

end
end Crowd

/-- A node and those who read its queue, with the record of what has been received. -/
structure Reception where
  crowd : Crowd
  mail : Mail

namespace Reception

def next (reception : Reception) (move : Crowd.Move) : Reception :=
  { crowd := reception.crowd.next move, mail := reception.mail.feed reception.crowd.node.link.intake move.fed }

def run (reception : Reception) (moves : List Crowd.Move) : Reception := moves.foldl next reception

variable {reception : Reception} {node : Node} {items : List Item} {fed : Bytes}

theorem run_crowd (reception : Reception) (moves : List Crowd.Move) :
    (reception.run moves).crowd = reception.crowd.run moves := by
  induction moves generalizing reception with
  | nil => rfl
  | cons move rest ih => exact ih _

/-- The front of what was accepted has been delivered, and the rest of it is what the queue holds. -/
structure Sound (node : Node) (items : List Item) (fed : Bytes) (reception : Reception) : Prop extends
    Mail.Matches items fed reception.mail reception.crowd.node.link.intake where
  table : reception.crowd.node.table = node.table
  delivered : ∃ done waiting, reception.mail.accepted = done ++ waiting ∧
    reception.crowd.node.deliveries =
      node.deliveries ++ done.flatMap (fun notification => node.table.handed notification.message) ∧
    understood reception.crowd.node.link.intake.inbound = waiting.map Notification.message
  readers : ∀ i task, reception.crowd.task? i = some task → task.IsReader

/-- What a reader takes from the queue is what it delivers. -/
theorem Sound.reads (h : Sound node items fed reception) {after : Crowd}
    (hreads : reception.crowd.node.Reads after.node) (hreaders : ∀ i task, after.task? i = some task → task.IsReader) :
    Sound node items fed ⟨after, reception.mail⟩ := by
  obtain ⟨front, hinbound, hbuffer, htable, hdeliveries⟩ := hreads
  obtain ⟨done, waiting, haccepted, hdone, hwaiting⟩ := h.delivered
  rw [hinbound, understood_append] at hwaiting
  obtain ⟨first, rest, rfl, hfirst, hrest⟩ := List.map_eq_append_iff.mp hwaiting.symm
  refine ⟨⟨h.toFollows, hbuffer ▸ h.buffer⟩, htable.trans h.table, ⟨done ++ first, rest, ?_, ?_, hrest.symm⟩, hreaders⟩
  · rw [haccepted, List.append_assoc]
  · rw [hdeliveries, hdone, ← hfirst, h.table, List.flatMap_append, List.flatMap_map, List.append_assoc]

/-- What arrives goes behind what the queue holds. -/
theorem Sound.feed (h : Sound node items fed reception) {data : Bytes}
    (hfed : fed ++ data <+: items.flatMap Item.bytes) :
    Sound node items (fed ++ data) (reception.next (.start (.feed data))) := by
  obtain ⟨hmatches, more, haccepted, hinbound⟩ := h.toMatches.feed hfed
  obtain ⟨done, waiting, hsplit, hdone, hwaiting⟩ := h.delivered
  refine ⟨hmatches, h.table, ⟨done, waiting ++ more, ?_, hdone, ?_⟩, Crowd.readers_next trivial h.readers⟩
  · rw [← List.append_assoc, ← hsplit]
    exact haccepted
  · rw [List.map_append, ← hwaiting]
    exact hinbound

theorem Sound.next (h : Sound node items fed reception) {move : Crowd.Move} (hmove : move.IsReception)
    (hfed : fed ++ move.fed <+: items.flatMap Item.bytes) :
    Sound node items (fed ++ move.fed) (reception.next move) := by
  rcases Crowd.reads_next hmove h.readers with ⟨data, rfl⟩ | ⟨hnone, hreads⟩
  · exact h.feed hfed
  · rw [Reception.next, hnone, List.append_nil]
    exact h.reads hreads (Crowd.readers_next hmove h.readers)

theorem Sound.run (h : Sound node items fed reception) {moves : List Crowd.Move}
    (hmoves : ∀ move ∈ moves, move.IsReception)
    (hfed : fed ++ moves.flatMap Crowd.Move.fed <+: items.flatMap Item.bytes) :
    Sound node items (fed ++ moves.flatMap Crowd.Move.fed) (reception.run moves) := by
  induction moves generalizing fed reception with
  | nil => rwa [List.flatMap_nil, List.append_nil]
  | cons move rest ih =>
    rw [List.flatMap_cons, ← List.append_assoc] at hfed ⊢
    exact ih (h.next (hmoves move List.mem_cons_self) ((List.prefix_append _ _).trans hfed))
      (fun other hother => hmoves other (List.mem_cons_of_mem _ hother)) hfed

theorem sound_fresh (hbuffer : node.link.intake.buffer.IsEmpty) (hinbound : node.link.intake.inbound = []) :
    Sound node items [] ⟨⟨node, []⟩, { coming := items }⟩ := by
  refine ⟨⟨⟨fun _ _ => List.nil_prefix, [], rfl, rfl, List.nil_sublist _⟩, .inr ⟨rfl, hbuffer⟩⟩, rfl,
    ⟨[], [], rfl, (List.append_nil _).symm, ?_⟩, fun i task htask => ?_⟩
  · rw [hinbound]
    rfl
  · rw [Crowd.task?, List.getElem?_nil] at htask
    cases htask

/-- With nothing in the queue, what has been accepted has been delivered. -/
theorem Sound.delivered_all (h : Sound node items fed reception) (hempty : reception.crowd.node.link.intake.inbound = []) :
    reception.crowd.node.deliveries =
      node.deliveries ++ reception.mail.accepted.flatMap (fun notification => node.table.handed notification.message) := by
  obtain ⟨done, waiting, haccepted, hdone, hwaiting⟩ := h.delivered
  rw [hempty, eq_comm, understood, List.filterMap_nil, List.map_eq_nil_iff] at hwaiting
  rw [hdone, haccepted, hwaiting, List.append_nil]

/-- The deliveries are those of the accepted notifications, oldest first, but for those that are still queued: each goes
    once to every subscriber that has a pattern its topic satisfies, with its topic and its data. Nothing else is
    delivered.

    A call for all that is queued leaves nothing there, so that all that was accepted is delivered. A reader begins with a
    look, and each of its visits takes the oldest line of the queue, if there is one; one that is to read a single line is
    done when it has had one. -/
theorem delivers_accepted (node : Node) (items : List Item) (moves : List Crowd.Move)
    (hbuffer : node.link.intake.buffer.IsEmpty) (hinbound : node.link.intake.inbound = [])
    (hmoves : ∀ move ∈ moves, move.IsReception)
    (hfed : moves.flatMap Crowd.Move.fed <+: items.flatMap Item.bytes) :
    let reception : Reception := Reception.run ⟨⟨node, []⟩, { coming := items }⟩ moves
    let emptied : Crowd := reception.crowd.next (.start .deliverPending)
    reception.crowd = Crowd.run ⟨node, []⟩ moves ∧
    Mail.Follows items (moves.flatMap Crowd.Move.fed) reception.mail ∧
    (∃ done waiting, reception.mail.accepted = done ++ waiting ∧
      reception.crowd.node.deliveries =
        node.deliveries ++ done.flatMap (fun notification => node.table.handed notification.message) ∧
      understood reception.crowd.node.link.intake.inbound = waiting.map Notification.message) ∧
    (emptied.node.link.intake.inbound = [] ∧
      emptied.node.deliveries =
        node.deliveries ++ reception.mail.accepted.flatMap (fun notification => node.table.handed notification.message) ∧
      emptied.task? reception.crowd.tasks.length =
        some (.finished (.count reception.crowd.node.link.intake.inbound.length))) ∧
    (∀ call forever, call.reads? = some forever →
      (reception.crowd.next (.start call)).task? reception.crowd.tasks.length = some (.checking (.notice forever))) ∧
    (∀ i call forever task, (Crowd.calls moves)[i]? = some call → call.reads? = some forever →
      reception.crowd.task? i = some task → reception.crowd.Looks i forever ∨ forever = false ∧ task = .finished .done) ∧
    ∀ message, (node.table.handed message).Nodup ∧ ∀ delivery, delivery ∈ node.table.handed message ↔
      delivery.message = message ∧ ∃ entry ∈ node.table.entries, Topic.accepts entry.pattern message.topic ∧
        entry.subscriber = delivery.subscriber := by
  intro reception emptied
  have h : Sound node items (moves.flatMap Crowd.Move.fed) reception :=
    (sound_fresh hbuffer hinbound).run hmoves hfed
  have hcrowd : reception.crowd = Crowd.run ⟨node, []⟩ moves := run_crowd _ _
  refine ⟨hcrowd, h.toFollows, h.delivered, ?_, fun call forever hreads => ?_,
    fun i call forever task hcall hreads htask => ?_, fun message => ⟨nodup_handed _ _, fun _ => mem_handed⟩⟩
  · obtain ⟨hempty, hcount⟩ := Crowd.next_deliverPending reception.crowd
    have hmove : (Crowd.Move.start .deliverPending).IsReception := trivial
    have hnone : (Crowd.Move.start .deliverPending).fed = [] := rfl
    have hafter := h.next hmove (by rwa [hnone, List.append_nil])
    exact ⟨hempty, hafter.delivered_all hempty, hcount⟩
  · rw [Crowd.task?_start, if_pos rfl]
    cases call <;> cases hreads <;> rfl
  · have heach : (Crowd.run { node } moves).Each _ _ (Crowd.calls moves) :=
      Crowd.each_fresh trivial (maintains_reading (Crowd.calls moves))
    obtain ⟨made, hmade, hreading⟩ := heach.tasks i task (hcrowd ▸ htask)
    obtain rfl : made = call := Option.some.inj (hmade.symm.trans hcall)
    exact (hreading forever hreads).imp_left (Crowd.looks_of_awaken htask)

/-- A notification that has lost a byte of its data, a remark, and two notifications, the first of which comes in two
    portions. One reads a single line, which is the malformed one, another waits for any, and a call for all that is queued
    delivers the last. -/
theorem delivers_after_cut_notification :
    let node : Node := { table := { capacity := 4, entries := [⟨"a/b", 0⟩, ⟨"a/+", 1⟩, ⟨"a/b", 1⟩] }, depth := 1 }
    let data : Bytes := Text.encode
      "+MQTTSUBRECV:0,\"a/b\",3,x\ry\r\nready\r\n+MQTTSUBRECV:0,\"a/b\",1,7\r\n+MQTTSUBRECV:0,\"a/c\",1,8\r\n"
    let crowd : Crowd := Crowd.run ⟨node, []⟩ [.start .deliverNext, .start .deliverForever, .start (.feed (data.take 50)),
      .step 0, .start (.feed (data.drop 50)), .step 1]
    let emptied : Crowd := crowd.next (.start .deliverPending)
    (crowd.task? 0 = some (.finished .done) ∧ crowd.node.link.intake.inbound ≠ []) ∧
      emptied.node.link.intake.inbound = [] ∧ emptied.task? 4 = some (.finished (.count 1)) ∧
      emptied.node.deliveries = [⟨0, { topic := "a/b", data := Text.encode "7" }⟩,
        ⟨1, { topic := "a/b", data := Text.encode "7" }⟩, ⟨1, { topic := "a/c", data := Text.encode "8" }⟩] := by
  intro node data crowd emptied
  let cut : Notification := ⟨0, "a/b", Text.encode "x\ry", by decide, by decide, by decide, by decide⟩
  let first : Notification := ⟨0, "a/b", Text.encode "7", by decide, by decide, by decide, by decide⟩
  let second : Notification := ⟨0, "a/c", Text.encode "8", by decide, by decide, by decide, by decide⟩
  let ready : Remark := ⟨Text.encode "ready", by decide, by decide, by decide⟩
  let items : List Item := [.notification cut, .remark ready, .notification first, .notification second]
  let moves : List Crowd.Move := [.start .deliverNext, .start .deliverForever, .start (.feed (data.take 50)), .step 0,
    .start (.feed (data.drop 50)), .step 1]
  let reception : Reception := Reception.run ⟨⟨node, []⟩, { coming := items }⟩ moves
  have haccepted : reception.mail.accepted.map Notification.message = [first.message, second.message] := by decide +kernel
  have hdone : crowd.task? 0 = some (.finished .done) := by decide +kernel
  have hqueued : crowd.node.link.intake.inbound ≠ [] := by decide +kernel
  have hcount : crowd.node.link.intake.inbound.length = 1 := by decide +kernel
  have hlength : crowd.tasks.length = 4 := by decide +kernel
  obtain ⟨hcrowd, -, -, ⟨hempty, hdeliveries, hanswer⟩, -⟩ := delivers_accepted node items moves ⟨rfl, rfl⟩ rfl
    (by simp [moves, Crowd.Move.IsReception]) (by decide +kernel)
  rw [show Reception.run ⟨⟨node, []⟩, { coming := items }⟩ moves = reception from rfl] at hcrowd hempty hdeliveries hanswer
  rw [hcrowd] at hempty hdeliveries hanswer
  refine ⟨⟨hdone, hqueued⟩, hempty, ?_, ?_⟩
  · rwa [show Crowd.run ⟨node, []⟩ moves = crowd from rfl, hlength, hcount] at hanswer
  · refine hdeliveries.trans ?_
    rw [← List.flatMap_map, haccepted]
    decide +kernel

end Reception
end SensorLink
