import SensorLink.Proofs.Effects
import SensorLink.Proofs.Routing

/-! What the modem sends in the course of a run, and when it has reported that the link went down. Every move receives
    certain bytes (`Crowd.received`), and a report is pending after it if one was and nobody has taken note, or if one of
    the lines that these bytes complete is a report (`closed_next`). The notifications among them are queued, as far as
    there is room (`Link.Gains`). -/

namespace SensorLink
open LineBuffer LineSplit

/-! ### Lines -/

/-- The lines that bytes complete, given what is in the buffer. -/
def LineBuffer.completes (buffer : LineBuffer) (bytes : Bytes) : List Bytes := (buffer.pushAll bytes).2.filterMap line?

theorem completes_append (buffer : LineBuffer) (first rest : Bytes) : buffer.completes (first ++ rest) =
    buffer.completes first ++ (buffer.pushAll first).1.completes rest := by
  simp only [LineBuffer.completes, LineBuffer.pushAll_append, List.filterMap_append]

theorem receive_closed (intake : Intake) (byte : UInt8) : (intake.receive byte).closed =
    (intake.closed || decide (Intake.closedMark ∈ intake.buffer.completes [byte])) := by
  unfold Intake.receive LineBuffer.completes
  rcases hpush : intake.buffer.push byte with ⟨buffer, _ | (line | cause)⟩
  · simp [pushAll, hpush]
  · simp [Intake.route_closed, pushAll, hpush, line?]
  · simp [pushAll, hpush, line?]

/-- The notifications among the lines that bytes complete, as many as there is room for. -/
def Intake.gains (intake : Intake) (bytes : Bytes) : List Bytes :=
  ((intake.buffer.completes bytes).filter Intake.noticeMark.isPrefixOf).take (Limits.inbound - intake.inbound.length)

theorem gains_nil (intake : Intake) : intake.gains [] = [] := by simp [Intake.gains, LineBuffer.completes, pushAll]

/-- What has been gained takes room from what comes later. -/
theorem gains_append {intake mid : Intake} {first : Bytes} (hbuffer : mid.buffer = (intake.buffer.pushAll first).1)
    (hinbound : mid.inbound = intake.inbound ++ intake.gains first) (rest : Bytes) :
    intake.gains (first ++ rest) = intake.gains first ++ mid.gains rest := by
  have hlength := congrArg List.length hinbound
  rw [List.length_append, Intake.gains, List.length_take] at hlength
  simp only [Intake.gains, completes_append, List.filter_append, List.take_append, ← hbuffer]
  congr 2
  omega

theorem receive_inbound (intake : Intake) (byte : UInt8) :
    (intake.receive byte).inbound = intake.inbound ++ intake.gains [byte] := by
  unfold Intake.receive Intake.gains LineBuffer.completes
  rcases hpush : intake.buffer.push byte with ⟨buffer, _ | (line | cause)⟩
  · simp [pushAll, hpush]
  · have hroute : (Intake.route { intake with buffer } line).1.inbound = _ :=
      Intake.routeAll_inbound { intake with buffer } [line]
    simpa [pushAll, hpush, line?] using hroute
  · simp [pushAll, hpush, line?]

/-- From `link` to `after`, the modem has sent `bytes`, and nobody has taken note of a report. -/
structure Link.Receives (link : Link) (bytes : Bytes) (after : Link) : Prop where
  buffer : after.intake.buffer = (link.intake.buffer.pushAll bytes).1
  closed : after.intake.closed =
    (link.intake.closed || decide (Intake.closedMark ∈ link.intake.buffer.completes bytes))

/-- Nor has anyone taken a notification. -/
structure Link.Gains (link : Link) (bytes : Bytes) (after : Link) : Prop extends Link.Receives link bytes after where
  inbound : after.intake.inbound = link.intake.inbound ++ link.intake.gains bytes

/-! ### What the modem sends at once -/

/-- What the modem sends without delay when it obeys a rule. -/
def Modem.Rule.rushed (rule : Modem.Rule) : Bytes :=
  (rule.replies.filter (·.delay = 0)).flatMap Modem.Reply.data

/-- What the modem sends while parts are written to it, by its rules. -/
def Modem.rushed (rules : List Modem.Rule) : List Bytes → Bytes
  | [] => []
  | part :: rest =>
    match Modem.decide? part rules with
    | none => rushed rules rest
    | some (rule, rules) =>
      if rule.delay > 0 then []
      else rule.rushed ++ if rule.fault.isSome then [] else rushed rules rest

namespace Dialogue

/-- What the modem sends while a request is started. -/
def Request.received (link : Link) : Request → Bytes
  | .ask parts expected _ => if (link.ask expected).toBool then Modem.rushed link.rules parts else []
  | .send parts => Modem.rushed link.rules parts
  | .pause _ | .clear => []

/-- What the modem sends while a request that waits goes on. -/
def Hold.received (link : Link) : Hold → Bytes
  | .writing due rule rest _ =>
    if due ≤ link.clock then rule.rushed ++ if rule.fault.isSome then [] else Modem.rushed link.rules rest else []
  | .listening .. | .pausing _ => []

end Dialogue

section
variable {link mid after : Link} {first rest bytes : Bytes}

/-- Nothing has been received. -/
theorem receives_nil (hbuffer : after.intake.buffer = link.intake.buffer)
    (hclosed : after.intake.closed = link.intake.closed) : link.Receives [] after :=
  ⟨hbuffer, by simp [hclosed, LineBuffer.completes, pushAll]⟩

theorem Link.Receives.refl (link : Link) : link.Receives [] link := receives_nil rfl rfl

/-- At most the slot has changed. -/
theorem gains_of_slot {slot : Slot} (h : after.intake = { link.intake with slot }) : link.Gains [] after where
  toReceives := receives_nil (by rw [h]) (by rw [h])
  inbound := by rw [gains_nil, List.append_nil, h]

theorem Link.Gains.refl (link : Link) : link.Gains [] link := gains_of_slot rfl

theorem Link.Gains.trans (h : link.Gains first mid) (h' : mid.Gains rest after) : link.Gains (first ++ rest) after where
  buffer := by rw [h'.buffer, h.buffer, LineBuffer.pushAll_append]
  closed := by
    rw [h'.closed, h.closed, h.buffer, completes_append, Bool.or_assoc]
    simp
  inbound := by rw [gains_append h.buffer h.inbound, h'.inbound, h.inbound, List.append_assoc]

/-- Only what has been received matters of a link. -/
theorem Link.Gains.congr {link' after' : Link} (h : link.Gains bytes after) (hlink : link'.intake = link.intake)
    (hafter : after'.intake = after.intake) : link'.Gains bytes after' := by
  refine ⟨⟨?_, ?_⟩, ?_⟩ <;> rw [hlink, hafter]
  · exact h.buffer
  · exact h.closed
  · exact h.inbound

theorem gains_byte (link : Link) (intake : Intake) (byte : UInt8) :
    Link.Gains { link with intake } [byte] { link with intake := intake.receive byte } where
  buffer := by simp [receive_buffer, pushAll]
  closed := receive_closed intake byte
  inbound := receive_inbound intake byte

theorem gains_feed (link : Link) (data : Bytes) : link.Gains data (link.feed data) := by
  have hfeed (intake : Intake) : Link.Gains { link with intake } data { link with intake := intake.feed data } := by
    induction data generalizing intake with
    | nil => exact .refl _
    | cons byte rest ih => exact (gains_byte link intake byte).trans (ih (intake.receive byte))
  exact (hfeed link.intake).congr rfl rfl

theorem reply_rules (link : Link) (reply : Modem.Reply) : (link.reply reply).rules = link.rules := by
  unfold Link.reply
  split <;> rfl

/-- When a rule has been obeyed, its replies without delay have been received. -/
theorem gains_obey (link : Link) (rule : Modem.Rule) :
    link.Gains rule.rushed (link.obey rule).1 ∧ (link.obey rule).1.rules = link.rules := by
  unfold Link.obey Modem.Rule.rushed
  induction rule.replies generalizing link with
  | nil => exact ⟨.refl _, rfl⟩
  | cons reply replies ih =>
    obtain ⟨hgains, hrules⟩ := ih (link.reply reply)
    refine ⟨?_, hrules.trans (reply_rules link reply)⟩
    rw [List.foldl_cons]
    by_cases hdelay : reply.delay = 0
    · have hreply : link.reply reply = link.feed reply.data := by rw [Link.reply, if_pos hdelay]
      rw [hreply] at hgains ⊢
      rw [List.filter_cons_of_pos (by simpa using hdelay), List.flatMap_cons]
      exact (gains_feed link reply.data).trans hgains
    · have hreply : link.reply reply = link.schedule reply.delay reply.data := by rw [Link.reply, if_neg hdelay]
      rw [hreply] at hgains ⊢
      rw [List.filter_cons_of_neg (by simpa using hdelay)]
      exact hgains.congr rfl rfl

/-- While parts are written, what the modem sends at once is received. -/
theorem gains_transmit (link : Link) (parts : List Bytes) :
    link.Gains (Modem.rushed link.rules parts) (link.transmit parts).1 := by
  induction parts generalizing link with
  | nil => exact .refl _
  | cons part rest ih =>
    rw [Link.transmit, Modem.rushed]
    rcases Modem.decide? part link.rules with _ | ⟨rule, rules⟩
    · exact (ih { link with sent := link.sent ++ [part] }).congr rfl rfl
    · by_cases hdelay : rule.delay > 0
      · simp only [if_pos hdelay]
        exact gains_of_slot rfl
      · simp only [if_neg hdelay]
        obtain ⟨hobeyed, hrules⟩ := gains_obey { link with sent := link.sent ++ [part], rules } rule
        have hfault : (Link.obey { link with sent := link.sent ++ [part], rules } rule).2 = rule.fault := rfl
        rcases hobey : Link.obey { link with sent := link.sent ++ [part], rules } rule with ⟨after, fault⟩
        rw [hobey] at hobeyed hrules hfault
        obtain rfl : fault = rule.fault := hfault
        have hgains : link.Gains rule.rushed after := hobeyed.congr rfl rfl
        cases hfault : rule.fault with
        | some fault => simpa using hgains
        | none =>
          have hrest := ih after
          rw [hrules] at hrest
          simpa using hgains.trans hrest

/-! ### Requests -/

theorem gains_look (link : Link) (generation : UInt32) : link.Gains [] (link.look generation).1 := by
  unfold Link.look Link.orSetAlarm
  split <;> exact gains_of_slot rfl

theorem gains_lookAgain (link : Link) (generation : UInt32) : link.Gains [] (link.lookAgain generation).1 := by
  unfold Link.lookAgain Link.orSetAlarm
  split <;> exact gains_of_slot rfl

theorem gains_giveUp (link : Link) (expectation : Option Dialogue.Expectation) :
    link.Gains [] (Dialogue.giveUp link expectation) := by
  cases expectation <;> exact gains_of_slot rfl

theorem gains_cancel (link : Link) (hold : Dialogue.Hold) : link.Gains [] (Dialogue.cancel link hold) := by
  cases hold with
  | writing due rule rest expectation => exact gains_giveUp link expectation
  | listening generation deadline => exact gains_of_slot rfl
  | pausing due => exact .refl _

theorem gains_ask {expected : String} {asked : Link} {generation : UInt32} (h : link.ask expected = .ok (asked, generation)) :
    link.Gains [] asked ∧ asked.rules = link.rules := by
  unfold Link.ask at h
  split at h <;> cases h
  exact ⟨gains_of_slot rfl, rfl⟩

theorem gains_proceed {sent : Link × Link.Transmission} (expectation : Option Dialogue.Expectation)
    (h : link.Gains bytes sent.1) : link.Gains bytes (Dialogue.proceed expectation sent).1 := by
  have silent {after : Link} (hafter : sent.1.Gains [] after) : link.Gains bytes after := by
    simpa using h.trans hafter
  obtain ⟨sentLink, _ | fault | ⟨due, rule, rest⟩⟩ := sent
  · cases expectation with
    | none => exact h
    | some expectation =>
      refine silent ?_
      have hlook := gains_look sentLink expectation.generation
      simp only [Dialogue.proceed, Dialogue.listen]
      rcases heq : sentLink.look expectation.generation with ⟨after, _ | answer⟩ <;> rwa [heq] at hlook
  · exact silent (gains_giveUp sentLink expectation)
  · exact h

theorem gains_start {request : Dialogue.Request} (h : request ≠ .clear) (link : Link) :
    link.Gains (request.received link) (Dialogue.start link request).1 := by
  cases request with
  | clear => exact absurd rfl h
  | pause duration => exact .refl _
  | send parts => exact gains_proceed none (gains_transmit link parts)
  | ask parts expected timeout =>
    simp only [Dialogue.start, Dialogue.Request.received]
    rcases hask : link.ask expected with (_ | _) | ⟨asked, generation⟩
    · exact .refl _
    · exact .refl _
    · obtain ⟨hasked, hrules⟩ := gains_ask hask
      have hsent := hasked.trans (gains_transmit asked parts)
      rw [hrules] at hsent
      exact gains_proceed _ hsent

theorem gains_resume (link : Link) (hold : Dialogue.Hold) :
    link.Gains (hold.received link) (Dialogue.resume link hold).1 := by
  cases hold with
  | pausing due =>
    simp only [Dialogue.resume]
    split <;> exact .refl _
  | listening generation deadline =>
    have hlook := gains_lookAgain link generation
    simp only [Dialogue.resume]
    rcases heq : link.lookAgain generation with ⟨after, _ | answer⟩ <;> rw [heq] at hlook
    · simp only
      split
      · exact hlook.trans (gains_of_slot rfl)
      · exact hlook
    · exact hlook
  | writing due rule rest expectation =>
    simp only [Dialogue.resume, Dialogue.Hold.received]
    split
    · obtain ⟨hobeyed, hrules⟩ := gains_obey link rule
      have hfault : (link.obey rule).2 = rule.fault := rfl
      rw [Link.resumeTransmit]
      rcases hobey : link.obey rule with ⟨after, fault⟩
      rw [hobey] at hobeyed hrules hfault
      obtain rfl : fault = rule.fault := hfault
      cases hfault : rule.fault with
      | some fault => exact gains_proceed _ (by simpa using hobeyed)
      | none =>
        have hrest := gains_transmit after rest
        rw [hrules] at hrest
        exact gains_proceed _ (by simpa using hobeyed.trans hrest)
    · exact .refl _

end

/-! ### Tasks -/

/-- What the modem sends during a step of a task that has been visited. -/
def Node.received (node : Node) : Task → Bytes
  | .asking request _ => request.received node.link
  | .checking (.request hold _) => hold.received node.link
  | _ => []

/-- A step of the task leaves no report pending: it takes note of one, or forgets all that has been received. -/
def Task.settles : Task → Bool
  | .checking .closed | .asking .clear _ => true
  | _ => false

section
variable {node after : Node} {task : Task} {wait : Wait}

theorem gains_heed {link : Link} {bytes : Bytes} (stage : Stage) {led : Link × Dialogue.Progress}
    (h : link.Gains bytes led.1) : link.Gains bytes (node.heed stage led).1.link := by
  obtain ⟨led, hold | result⟩ := led
  · exact h
  · exact h.congr rfl (after_intake { node with link := led } stage result)

theorem receives_deliverNext? (h : node.deliverNext? = some after) : node.link.Receives [] after.link := by
  obtain ⟨line, rest, -, rfl⟩ := Node.exists_of_deliverNext? h
  rw [Node.deliver_link]
  exact receives_nil rfl rfl

theorem receives_publishNext? {goal : Goal} {next : Node × Task} (h : node.publishNext? goal = some next) :
    node.link.Receives [] next.1.link := by
  obtain ⟨posting, rest, -, rfl⟩ := Node.exists_of_publishNext? h
  exact receives_nil rfl rfl

theorem receives_check (h : wait ≠ .closed) (hwait : ∀ hold stage, wait ≠ .request hold stage) :
    node.link.Receives [] (node.check wait).1.link := by
  cases wait with
  | closed => exact absurd rfl h
  | request hold stage => exact absurd rfl (hwait hold stage)
  | modem | clock | rejoin | reopen | room =>
    simp only [Node.check]
    split <;> exact receives_nil rfl rfl
  | notice forever =>
    simp only [Node.check]
    split
    · rename_i hnext
      exact receives_deliverNext? hnext
    · exact receives_nil rfl rfl
  | work =>
    simp only [Node.check]
    split
    · rename_i hnext
      exact receives_deliverNext? hnext
    · rcases hpublish : (node.setAlarm .notice).publishNext? .serve with _ | next
      · exact receives_nil rfl rfl
      · obtain ⟨hbuffer, hclosed⟩ := receives_publishNext? hpublish
        exact ⟨hbuffer, hclosed⟩
  | posting | drain published =>
    simp only [Node.check]
    rcases hpublish : node.publishNext? _ with _ | next
    · exact receives_nil rfl rfl
    · exact receives_publishNext? hpublish

/-- A step receives what the modem sends during it. -/
theorem receives_step (h : task.awaken.settles = false) (node : Node) :
    node.link.Receives (node.received task.awaken) (node.step task.awaken).1.link := by
  cases task with
  | finished answer => exact .refl _
  | asking request stage =>
    refine (gains_heed stage (gains_start ?_ node.link)).toReceives
    rintro rfl
    cases h
  | parked wait | checking wait =>
    cases wait with
    | request hold stage => exact (gains_heed stage (gains_resume node.link hold)).toReceives
    | closed => cases h
    | _ => exact receives_check (by simp) (by simp)

theorem gains_drop (node : Node) (task : Task) : node.link.Gains [] (node.drop task).link := by
  unfold Node.drop
  split
  · exact (gains_cancel node.link _).congr rfl rfl
  · exact (gains_cancel node.link _).congr rfl rfl
  · exact gains_of_slot rfl
  · exact .refl _

theorem settled_noteClosed (node : Node) : node.noteClosed.1.link.intake.closed = false := by
  rw [Node.noteClosed_eq]
  rfl

theorem settled_step (h : task.awaken.settles) (node : Node) : (node.step task.awaken).1.link.intake.closed = false := by
  cases task with
  | finished answer => cases h
  | asking request stage =>
    cases request with
    | clear => exact congrArg Intake.closed (after_intake { node with link := node.link.clear } stage (.ok ""))
    | _ => cases h
  | parked wait | checking wait =>
    cases wait with
    | closed =>
      have hsettled := settled_noteClosed node
      simp only [Task.awaken, Node.step, Node.check]
      rcases hnoted : node.noteClosed with ⟨noted, _ | _⟩ <;> rw [hnoted] at hsettled <;> exact hsettled
    | _ => cases h

theorem receives_call (node : Node) (call : Call) (h : call ≠ .noteClosed) (h' : call ≠ .takeClosed) :
    node.link.Receives (match call with | .feed data => data | _ => []) (call.start node).1.link := by
  cases call with
  | noteClosed => exact absurd rfl h
  | takeClosed => exact absurd rfl h'
  | feed data => exact (gains_feed node.link data).toReceives
  | ask expected =>
    simp only [Call.start]
    rcases hask : node.link.ask expected with cause | ⟨asked, generation⟩
    · exact .refl _
    · exact (gains_ask hask).1.toReceives
  | subscribe scope pattern subscriber => exact subscribe_link node scope pattern subscriber ▸ .refl _
  | unsubscribe scope pattern subscriber => exact unsubscribe_link node scope pattern subscriber ▸ .refl _
  | deliver line =>
    have hlink : (node.deliver line).1.link = node.link := node.deliver_link line
    simp only [Call.start]
    rcases hdeliver : node.deliver line with ⟨after, n | cause⟩ <;> rw [hdeliver] at hlink <;> exact hlink ▸ .refl _
  | tryPost scope topic payload =>
    simp only [Call.start, Node.tryPost]
    split
    · exact .refl _
    · split <;> exact receives_nil rfl rfl
  | deliverPending =>
    show node.link.Receives [] node.deliverPending.1.link
    rw [deliverPending_link]
    exact receives_nil rfl rfl
  | _ => exact receives_nil rfl rfl

end

/-! ### Moves -/

namespace Crowd

/-- What the modem sends during a move. -/
def received (crowd : Crowd) : Move → Bytes
  | .start (.feed data) => data
  | .step i => (crowd.task? i).elim [] fun task => crowd.node.received task.awaken
  | .advance time => (crowd.node.link.arrivals.takeWhile fun arrival => arrival.due ≤ time).flatMap Arrival.data
  | .start _ | .drop _ => []

/-- The modem reports during a move that the link went down. -/
def reports (crowd : Crowd) (move : Move) : Bool :=
  decide (Intake.closedMark ∈ crowd.node.link.intake.buffer.completes (crowd.received move))

/-- Somebody takes note of reports, or forgets them. -/
def settles (crowd : Crowd) : Move → Bool
  | .start .noteClosed | .start .takeClosed => true
  | .step i => (crowd.task? i).any fun task => task.awaken.settles
  | _ => false

theorem gains_advance (link : Link) (time : Nat) : link.Gains
    ((link.arrivals.takeWhile fun arrival => arrival.due ≤ time).flatMap Arrival.data) (link.advance time) := by
  have hfold (arrivals : List Arrival) (link : Link) : link.Gains (arrivals.flatMap Arrival.data)
      (arrivals.foldl (fun link arrival => link.feed arrival.data) link) := by
    induction arrivals generalizing link with
    | nil => exact .refl _
    | cons arrival rest ih => exact (gains_feed link arrival.data).trans (ih _)
  exact (hfold _ { link with
    clock := max link.clock time
    arrivals := link.arrivals.dropWhile fun arrival => arrival.due ≤ time }).congr rfl rfl

variable {crowd : Crowd} {move : Move}

theorem receives_next (h : crowd.settles move = false) :
    crowd.node.link.Receives (crowd.received move) (crowd.next move).node.link := by
  cases move with
  | start call =>
    have hstart := receives_call crowd.node call (by rintro rfl; cases h) (by rintro rfl; cases h)
    cases call <;> exact hstart
  | step i =>
    cases htask : crowd.task? i with
    | none =>
      rw [next_step_none htask, received, htask]
      exact .refl _
    | some task =>
      rw [next_step htask, received, htask]
      exact receives_step (by simpa [settles, htask] using h) crowd.node
  | drop i =>
    cases htask : crowd.task? i with
    | none =>
      rw [next_drop_none htask]
      exact .refl _
    | some task =>
      rw [next_drop htask]
      exact (gains_drop crowd.node task).toReceives
  | advance time => exact (gains_advance crowd.node.link time).toReceives

/-- A report is pending after a move that settles none if one was or one has come. -/
theorem closed_next (crowd : Crowd) (move : Move) : (crowd.next move).node.link.intake.closed =
    if crowd.settles move then false else crowd.node.link.intake.closed || crowd.reports move := by
  cases h : crowd.settles move with
  | false => exact (receives_next h).closed
  | true =>
    rw [if_pos rfl]
    cases move with
    | start call =>
      cases call with
      | noteClosed => exact settled_noteClosed crowd.node
      | takeClosed => rfl
      | _ => cases h
    | step i =>
      cases htask : crowd.task? i with
      | none => simp [settles, htask] at h
      | some task =>
        rw [next_step htask]
        exact settled_step (by simpa [settles, htask] using h) crowd.node
    | drop i => cases h
    | advance time => cases h

end Crowd
end SensorLink
