import SensorLink.Proofs.BrokerSession
import SensorLink.Proofs.Fitting
import SensorLink.Proofs.Progress
import SensorLink.Proofs.Telling
import SensorLink.Proofs.Turns

/-! What the modem is told when calls about messages are made one at a time, each of which may be given up at any moment:
    its orders follow the table (`traffic_follows_table`). -/

namespace SensorLink
open Command

/-! ### Calls about messages -/

/-- A call that publishes, subscribes, unsubscribes or delivers. -/
def Call.isMessaging : Call → Bool
  | .publish .. | .subscribe .. | .unsubscribe .. | .deliver _ => true
  | _ => false

/-- When a call may give an order about a pattern, by what it finds when it is made: it subscribes to a pattern that
    nobody holds, or takes out the last pair of one. -/
def Call.Warrants (node : Node) (full : String) : Order → Call → Prop
  | .subscribe, .subscribe scope pattern _ =>
    node.identity.fullTopic scope pattern = .ok full ∧ node.table.holds full = false
  | .unsubscribe, .unsubscribe scope pattern subscriber =>
    node.identity.fullTopic scope pattern = .ok full ∧ (node.table.erase full subscriber).2 = .last
  | _, _ => False

/-- A stage sends the payload of a message, which is no command whatever it spells. -/
def Stage.isPayload : Stage → Bool
  | .publishBody _ => true
  | _ => false

/-- A stage of a call to publish. -/
inductive Stage.Publishes : Stage → Prop
  | inline : Publishes (.publishInline .report)
  | header (payload : Bytes) : Publishes (.publishHeader payload .report)
  | body : Publishes (.publishBody .report)

/-- Where the task of a call about messages stands that is alone under way: it owes the modem an order of its own about a
    pattern that nobody holds, or none. -/
inductive Stands (node : Node) : Call → Task → Prop
  | settled (call : Call) (answer : Answer) : Stands node call (.finished answer)
  | subscribes {scope : Scope} {pattern full : String} {subscriber : Subscriber} {command : Command} {retries : Nat}
      {task : Task} (full_eq : node.identity.fullTopic scope pattern = .ok full)
      (command_eq : subscribe? full node.messaging.qos = some command) (absent : node.table.holds full = false)
      (room : node.table.isFull = false) (aims : task.aim? = some (.subscribe full subscriber command retries))
      (owes : task.OwesOnly node.messaging.qos full .subscribe) : Stands node (.subscribe scope pattern subscriber) task
  | unsubscribes {scope : Scope} {pattern full : String} {subscriber : Subscriber} {task : Task}
      (full_eq : node.identity.fullTopic scope pattern = .ok full) (absent : node.table.holds full = false)
      (aims : task.aim? = some (.unsubscribe .done)) (owes : task.OwesOnly node.messaging.qos full .unsubscribe) :
      Stands node (.unsubscribe scope pattern subscriber) task
  | publishes {scope : Scope} {topic : String} {payload : Bytes} {stage : Stage} {task : Task}
      (aims : task.aim? = some stage) (part : stage.Publishes)
      (owes : stage.isPayload = false → task.OwesNothing node.messaging.qos) : Stands node (.publish scope topic payload) task

section
variable {node after : Node} {call : Call} {task : Task} {stage : Stage} {scope : Scope} {pattern full : String}
  {subscriber : Subscriber}

theorem Stands.frame (h : Stands node call task) (hidentity : after.identity = node.identity)
    (hmessaging : after.messaging = node.messaging) (htable : after.table = node.table) : Stands after call task := by
  cases h with
  | settled call answer => exact .settled call answer
  | subscribes hfull hcommand habsent hroom haims howes =>
    refine .subscribes (hidentity ▸ hfull) (hmessaging ▸ hcommand) ?_ ?_ haims (hmessaging ▸ howes)
    · rwa [htable]
    · rwa [htable]
  | unsubscribes hfull habsent haims howes =>
    refine .unsubscribes (hidentity ▸ hfull) ?_ haims (hmessaging ▸ howes)
    rwa [htable]
  | publishes haims hpart howes => exact .publishes haims hpart (hmessaging ▸ howes)

/-! ### First visits -/

/-- A pattern that somebody holds is no reason to ask the modem. -/
theorem subscribe_of_holds (hfull : node.identity.fullTopic scope pattern = .ok full) (hheld : node.table.holds full = true)
    (subscriber : Subscriber) : (node.subscribe scope pattern subscriber).2.isFinished := by
  unfold Node.subscribe
  split
  · rfl
  · rename_i full' hpattern
    obtain rfl : full' = full := Except.ok.inj ((fullTopic_of_fullPattern hpattern).symm.trans hfull)
    split
    · rfl
    · split
      · rfl
      · rcases enter_cases node full' subscriber false with ⟨table, henter, -⟩ | ⟨hnot, -⟩ | ⟨henter, -⟩
        · rw [henter]
          rfl
        · exact absurd (hnot.symm.trans hheld) (by simp)
        · rw [henter]
          rfl
    · rename_i hnovelty
      simp [Subscriptions.holds_eq_novelty subscriber, hnovelty] at hheld

theorem unsubscribe_of_ne_last (hfull : node.identity.fullTopic scope pattern = .ok full)
    (hnot : (node.table.erase full subscriber).2 ≠ .last) : (node.unsubscribe scope pattern subscriber).2.isFinished := by
  unfold Node.unsubscribe
  rw [hfull]
  simp only [if_neg hnot]
  rfl

theorem unsubscribe_of_last (hfull : node.identity.fullTopic scope pattern = .ok full)
    (hlast : (node.table.erase full subscriber).2 = .last) : ∃ command, unsubscribe? full = some command ∧
      node.unsubscribe scope pattern subscriber = ({ node with table := (node.table.erase full subscriber).1 },
        .talk (.command command.text acknowledged node.messaging.commandTimeout) (.unsubscribe .done)) := by
  obtain ⟨command, hcommand, hdrop⟩ := dropPattern_of_fits (size_fullTopic hfull)
    { node with table := (node.table.erase full subscriber).1 } .done
  refine ⟨command, hcommand, ?_⟩
  unfold Node.unsubscribe
  rw [hfull]
  simp only [if_pos hlast, hdrop]

theorem stands_of_isFinished (h : task.isFinished) (node : Node) (call : Call) : Stands node call task := by
  cases task with
  | finished answer => exact .settled call answer
  | _ => cases h

theorem stands_subscribe (node : Node) (scope : Scope) (pattern : String) (subscriber : Subscriber) :
    Stands (node.subscribe scope pattern subscriber).1 (.subscribe scope pattern subscriber)
      (node.subscribe scope pattern subscriber).2 := by
  cases hpattern : node.fullPattern scope pattern with
  | error cause =>
    unfold Node.subscribe
    rw [hpattern]
    exact .settled _ _
  | ok full =>
    have hfull := fullTopic_of_fullPattern hpattern
    cases hheld : node.table.holds full with
    | true => exact stands_of_isFinished (subscribe_of_holds hfull hheld subscriber) _ _
    | false =>
      have hnovelty : node.table.novelty full subscriber = .newPattern := by
        rw [Subscriptions.holds_eq_novelty subscriber] at hheld
        simpa using hheld
      simp only [Node.subscribe, hpattern, hnovelty]
      split
      · exact .settled _ _
      · rename_i hroom
        split
        · exact .settled _ _
        · rename_i command hcommand
          have horder : order? node.messaging.qos full .subscribe = some command := hcommand
          exact .subscribes hfull hcommand hheld (by simpa using hroom) rfl (Task.owesOnly_of_due rfl horder)

theorem stands_unsubscribe (node : Node) (scope : Scope) (pattern : String) (subscriber : Subscriber) :
    Stands (node.unsubscribe scope pattern subscriber).1 (.unsubscribe scope pattern subscriber)
      (node.unsubscribe scope pattern subscriber).2 := by
  cases hfull : node.identity.fullTopic scope pattern with
  | error cause =>
    unfold Node.unsubscribe
    rw [hfull]
    exact .settled _ _
  | ok full =>
    by_cases hlast : (node.table.erase full subscriber).2 = .last
    · obtain ⟨command, hcommand, hunsubscribe⟩ := unsubscribe_of_last hfull hlast
      have horder : order? node.messaging.qos full .unsubscribe = some command := hcommand
      have habsent : (node.table.erase full subscriber).1.holds full = false := by
        rw [Subscriptions.holds_erase, if_pos hlast]
      rw [hunsubscribe]
      exact .unsubscribes hfull habsent rfl (Task.owesOnly_of_due rfl horder)
    · exact stands_of_isFinished (unsubscribe_of_ne_last hfull hlast) _ _

theorem stands_publish (node : Node) (scope : Scope) (topic : String) (payload : Bytes) :
    Stands node (.publish scope topic payload) (node.publish scope topic payload .report) := by
  unfold Node.publish
  split
  · exact .settled _ _
  · rename_i command hform
    obtain ⟨full, -, hpublish⟩ := publish?_of_publishForm hform
    exact .publishes rfl .inline fun _ => Task.owesNothing_of_due rfl fun _ => orderOf?_publish? hpublish
  · rename_i header hform
    obtain ⟨full, -, hpublish⟩ := publish?_of_publishForm hform
    exact .publishes rfl (.header payload) fun _ => Task.owesNothing_of_due rfl fun _ => orderOf?_publish? hpublish

theorem stands_start (node : Node) (h : call.isOutside || call.isMessaging) :
    Stands (call.start node).1 call (call.start node).2 := by
  cases call <;> first | exact stands_of_isFinished rfl _ _ | cases h; done | skip
  · exact stands_publish node _ _ _
  · exact stands_subscribe node _ _ _
  · exact stands_unsubscribe node _ _ _
  · simp only [Call.start]
    split <;> exact .settled _ _

/-! ### Steps -/

/-- A step of the task that is alone under way. -/
theorem stands_step {written : List Bytes} {after : Node × Task} (h : Stands node call task)
    (haim : task.aim? = some stage) (hgoes : node.Goes task stage written after) : Stands after.1 call after.2 := by
  cases hgoes with
  | on link hkeeps haims hwrote =>
    have hdue : ∀ part ∈ after.2.due, part ∈ task.due := fun part hpart => hwrote ▸ List.mem_append_right _ hpart
    rw [hkeeps]
    cases h with
    | settled call answer => cases haim
    | subscribes hfull hcommand habsent hroom haims' howes =>
      exact .subscribes hfull hcommand habsent hroom (haims.trans (haim.symm.trans haims')) (howes.of_due hdue)
    | unsubscribes hfull habsent haims' howes =>
      exact .unsubscribes hfull habsent (haims.trans (haim.symm.trans haims')) (howes.of_due hdue)
    | publishes haims' hpart howes =>
      exact .publishes (haims.trans (haim.symm.trans haims')) hpart fun hcommand => (howes hcommand).of_due hdue
  | ended link result _ _ hfollows _ =>
    subst hfollows
    cases h with
    | settled call answer => cases haim
    | @subscribes scope pattern full subscriber command retries _ hfull hcommand habsent hroom haims howes =>
      obtain rfl := Option.some.inj (haim.symm.trans haims)
      cases result with
      | ok answer =>
        have hnew : ⟨full, subscriber⟩ ∉ ({ node with link } : Node).table.entries :=
          Subscriptions.notMem_of_not_holds habsent subscriber
        rw [after_acknowledged hnew (size_fullTopic hfull), if_neg (by simp [hroom])]
        exact .settled _ _
      | error cause =>
        cases retries with
        | zero => exact .settled _ _
        | succ retries =>
          have horder : order? node.messaging.qos full .subscribe = some command := hcommand
          exact .subscribes hfull hcommand habsent hroom rfl (Task.owesOnly_of_due rfl horder)
    | unsubscribes hfull habsent haims howes =>
      obtain rfl := Option.some.inj (haim.symm.trans haims)
      exact .settled _ _
    | publishes haims hpart howes =>
      obtain rfl := Option.some.inj (haim.symm.trans haims)
      cases hpart with
      | inline | body => cases result <;> exact .settled _ _
      | header payload =>
        cases result with
        | ok answer => exact .publishes rfl .body nofun
        | error cause => exact .settled _ _

end

namespace Crowd

/-- What a move tells the modem about a pattern, in commands. -/
def tells (crowd : Crowd) (full : String) (move : Move) : List Order :=
  if ((move.task?.bind crowd.task?).bind Task.aim?).any Stage.isPayload then [] else crowd.given full move

/-- Every task of the calls stands where it should while no other is under way. -/
def Standing (calls : List Call) (crowd : Crowd) : Prop :=
  ∀ i task, crowd.task? i = some task → ∃ call, calls[i]? = some call ∧ Stands crowd.node call task

section
variable {crowd : Crowd} {node : Node} {calls : List Call} {moves : List Move} {move : Move} {i : Nat} {task : Task}
  {call : Call} {full : String} {order : Order}

/-! ### Moves -/

theorem isFinished_of_outside (h : Stands node call task) (houtside : call.isOutside) : task.isFinished := by
  cases h with
  | settled call answer => rfl
  | _ => cases houtside

theorem standing_start (h : Standing calls crowd) (hlength : calls.length = crowd.tasks.length)
    (hcall : call.isOutside || call.isMessaging)
    (hidle : call.isOutside ∨ ∀ j other, crowd.task? j = some other → other.isFinished) :
    Standing (calls ++ [call]) (crowd.next (.start call)) := by
  intro j other hother
  rcases task?_next hother with hold | ⟨made, hmade, rfl, rfl⟩ | ⟨before, hstep, -⟩
  · obtain ⟨earlier, hearlier, hstands⟩ := h j other hold
    refine ⟨earlier, by rw [List.getElem?_append_left (hlength ▸ lt_of_task? hold), hearlier], ?_⟩
    rcases hidle with houtside | hidle
    · have hbegins := start_begins crowd.node call
      exact hstands.frame hbegins.identity hbegins.messaging (start_isOutside houtside crowd.node).1
    · exact stands_of_isFinished (hidle j other hold) _ _
  · cases hmade
    exact ⟨call, by rw [← hlength, List.getElem?_concat_length], stands_start crowd.node hcall⟩
  · cases hstep

theorem standing_step (h : Standing calls crowd) (hexclusive : crowd.Exclusive) (htask : crowd.task? i = some task)
    (hone : task.isFinished ∨ ∀ j other, j ≠ i → crowd.task? j = some other → other.isFinished) :
    Standing calls (crowd.next (.step i)) := by
  obtain ⟨call, hcall, hstands⟩ := h i task htask
  cases haim : task.aim? with
  | none =>
    -- It has come to its end, and nothing happens.
    have hfinished : task.isFinished := by
      cases hstands with
      | settled call answer => rfl
      | subscribes _ _ _ _ haims | unsubscribes _ _ haims | publishes haims => cases haims.symm.trans haim
    rwa [next_step htask, step_finished hfinished, set_self htask]
  | some stage =>
    obtain ⟨written, -, hgoes⟩ := step_goes hexclusive htask haim
    intro j other hother
    rw [task?_step htask] at hother
    split at hother
    · rename_i hij
      cases hother
      rw [next_step htask]
      exact ⟨call, hij ▸ hcall, stands_step hstands haim hgoes⟩
    · rename_i hij
      obtain ⟨call', hcall', -⟩ := h j other hother
      have hothers := hone.resolve_left (not_isFinished_of_aim haim)
      exact ⟨call', hcall', stands_of_isFinished (hothers j other (Ne.symm hij) hother) _ _⟩

theorem standing_drop (h : Standing calls crowd) (i : Nat) : Standing calls (crowd.next (.drop i)) := by
  intro j other hother
  rcases task?_next hother with hold | ⟨_, hmove, -⟩ | ⟨_, hmove, -⟩
  · obtain ⟨call, hcall, hstands⟩ := h j other hold
    refine ⟨call, hcall, ?_⟩
    cases htask : crowd.task? i with
    | none => rwa [next_drop_none htask]
    | some task =>
      have hframe := drop_frame crowd.node task
      rw [next_drop htask]
      exact hstands.frame hframe.identity hframe.messaging hframe.table
  · cases hmove
  · cases hmove

theorem standing_advance (h : Standing calls crowd) (time : Nat) : Standing calls (crowd.next (.advance time)) := by
  intro j other hother
  obtain ⟨call, hcall, hstands⟩ := h j other hother
  exact ⟨call, hcall, hstands.frame rfl rfl rfl⟩

/-! ### Runs -/

/-- A call that is under way is the only one. -/
theorem isFinished_of_serial (h : Standing (Crowd.calls moves) (Crowd.run { node } moves))
    (hserial : serial (fun call => !call.isOutside) [] { node } moves)
    (htask : (Crowd.run { node } moves).task? i = some task) (hunfinished : ¬task.isFinished) {j : Nat} {other : Task}
    (hne : j ≠ i) (hother : (Crowd.run { node } moves).task? j = some other) : other.isFinished := by
  have hunderWay {k : Nat} {task : Task} (htask : (Crowd.run { node } moves).task? k = some task)
      (hunfinished : ¬task.isFinished) :
      UnderWay (fun call => !call.isOutside) (Crowd.calls moves) (Crowd.run { node } moves) k := by
    obtain ⟨call, hcall, hstands⟩ := h k task htask
    refine ⟨call, task, hcall, ?_, htask, hunfinished⟩
    by_contra houtside
    exact hunfinished (isFinished_of_outside hstands (by simpa using houtside))
  by_contra hunfinished'
  exact hne (eq_of_serial hserial (hunderWay hother hunfinished') (hunderWay htask hunfinished))

theorem isOrderly_of_calls (hcalls : ∀ call ∈ Crowd.calls moves, call.isOutside || call.isMessaging) :
    ∀ move ∈ moves, move.IsOrderly := by
  intro move hmove
  cases move with
  | start call =>
    rintro expected rfl
    cases hcalls _ (List.mem_filterMap.mpr ⟨_, hmove, rfl⟩)
  | _ => trivial

theorem standing_run (hempty : node.link.intake.slot.question = none)
    (hcalls : ∀ call ∈ Crowd.calls moves, call.isOutside || call.isMessaging)
    (hserial : serial (fun call => !call.isOutside) [] { node } moves) :
    Standing (Crowd.calls moves) (Crowd.run { node } moves) := by
  induction moves using List.reverseRecOn with
  | nil => exact fun i task htask => by simp [run, task?] at htask
  | append_singleton moves move ih =>
    rw [serial_append, Bool.and_eq_true, List.nil_append] at hserial
    have hadmits : (Crowd.run { node } moves).admits (fun call => !call.isOutside) (Crowd.calls moves) move := by
      simpa [serial] using hserial.2
    have hbefore : ∀ call ∈ Crowd.calls moves, call.isOutside || call.isMessaging := fun call hcall =>
      hcalls call (by rw [calls_append]; exact List.mem_append_left _ hcall)
    have hstanding := ih hbefore hserial.1
    have hlength := length_calls node moves
    rw [run_append]
    change Standing _ ((Crowd.run { node } moves).next move)
    cases move with
    | start call =>
      rw [calls_append]
      refine standing_start hstanding hlength (hcalls call (by simp [Crowd.calls, Move.call?])) ?_
      by_cases houtside : call.isOutside
      · exact .inl houtside
      · refine .inr fun j other hother => ?_
        obtain ⟨earlier, hearlier, hstands⟩ := hstanding j other hother
        by_contra hunfinished
        refine not_underWay_of_admits hadmits (by simpa using houtside) ⟨earlier, other, hearlier, ?_, hother, hunfinished⟩
        by_contra houtside'
        exact hunfinished (isFinished_of_outside hstands (by simpa using houtside'))
    | step i =>
      rw [calls_concat_of_none moves rfl]
      cases htask : (Crowd.run { node } moves).task? i with
      | none => rwa [next_step_none htask]
      | some task =>
        have hexclusive : (Crowd.run { node } moves).Exclusive :=
          exclusive_run (exclusive_fresh hempty) (isOrderly_of_calls hbefore)
        refine standing_step hstanding hexclusive htask ?_
        by_cases hfinished : task.isFinished
        · exact .inl hfinished
        · exact .inr fun j other hne hother => isFinished_of_serial hstanding hserial.1 htask hfinished hne hother
    | drop i =>
      rw [calls_concat_of_none moves rfl]
      exact standing_drop hstanding i
    | advance time =>
      rw [calls_concat_of_none moves rfl]
      exact standing_advance hstanding time

/-! ### What is told, and by whom -/

/-- Who is finished on the first visit of its call is finished. -/
theorem isFinished_of_start {made later : List Move} (call : Call)
    (h : (call.start (Crowd.run { node } made).node).2.isFinished)
    (htask : (Crowd.run { node } (made ++ .start call :: later)).task? (Crowd.calls made).length = some task) :
    task.isFinished := by
  rw [run_append, run_cons, length_calls node made] at htask
  refine isFinished_run ?_ (fun first hfirst => ?_) htask
  · rw [length_next]
    exact Nat.lt_succ_self _
  · rw [task?_start, if_pos rfl] at hfirst
    exact Option.some.inj hfirst ▸ h

/-- An order is told by a call that had reason to when it was made, and about a pattern that nobody holds. -/
theorem warrants_of_tells (hempty : node.link.intake.slot.question = none)
    (hcalls : ∀ call ∈ Crowd.calls moves, call.isOutside || call.isMessaging)
    (hserial : serial (fun call => !call.isOutside) [] { node } moves) (hmove : move.IsOrderly)
    (htells : order ∈ (Crowd.run { node } moves).tells full move) :
    (Crowd.run { node } moves).node.table.holds full = false ∧ ∃ made call later,
      move = .step (Crowd.calls made).length ∧ moves = made ++ .start call :: later ∧
      call.Warrants (Crowd.run { node } made).node full order := by
  have hexclusive : (Crowd.run { node } moves).Exclusive :=
    exclusive_run (exclusive_fresh hempty) (isOrderly_of_calls hcalls)
  unfold tells at htells
  split at htells
  · cases htells
  · rename_i hcommand
    obtain ⟨i, task, rfl, htask, howes⟩ := owes_of_given hexclusive hmove htells
    obtain ⟨call, hcall, hstands⟩ := standing_run hempty hcalls hserial i task htask
    obtain ⟨made, later, rfl, rfl⟩ := exists_start hcall
    have hidentity (moves : List Move) : (Crowd.run { node } moves).node.identity = node.identity :=
      (settings_run _ moves).1
    cases hstands with
    | settled call answer => exact absurd howes (Task.owesNothing_finished answer _ _)
    | @subscribes scope pattern full' subscriber command retries _ hfull _ habsent _ haims howesOnly =>
      obtain ⟨rfl, rfl⟩ := howesOnly full order howes
      rw [hidentity, ← hidentity made] at hfull
      refine ⟨habsent, made, _, later, rfl, rfl, hfull, Bool.eq_false_iff.mpr fun hheld => ?_⟩
      exact not_isFinished_of_aim haims (isFinished_of_start (.subscribe _ _ _) (subscribe_of_holds hfull hheld subscriber) htask)
    | @unsubscribes scope pattern full' subscriber _ hfull habsent haims howesOnly =>
      obtain ⟨rfl, rfl⟩ := howesOnly full order howes
      rw [hidentity, ← hidentity made] at hfull
      refine ⟨habsent, made, _, later, rfl, rfl, hfull, Decidable.byContradiction fun hnot => ?_⟩
      exact not_isFinished_of_aim haims (isFinished_of_start (.unsubscribe _ _ _) (unsubscribe_of_ne_last hfull hnot) htask)
    | @publishes scope topic payload stage _ haims hpart hnothing =>
      have hnotPayload : stage.isPayload = false := by
        simpa [Move.task?, htask, haims] using hcommand
      exact absurd howes (hnothing hnotPayload full order)

/-- While a pattern is in the table, the modem has acknowledged it and has not been told to drop it since. -/
theorem acknowledged_since (hentries : node.table.entries = []) (hempty : node.link.intake.slot.question = none)
    (hcalls : ∀ call ∈ Crowd.calls moves, call.isOutside || call.isMessaging)
    (hserial : serial (fun call => !call.isOutside) [] { node } moves)
    (hheld : (Crowd.run { node } moves).node.table.holds full = true) : ∃ before event since,
      moves = before ++ event :: since ∧ Acknowledges (Crowd.run { node } before) full event ∧
      ∀ earlier move later, since = earlier ++ move :: later →
        .unsubscribe ∉ (Crowd.run { node } (before ++ event :: earlier)).tells full move := by
  have hnot : ¬({ node } : Crowd).node.table.holds full = true := by simp [Subscriptions.holds, hentries]
  obtain ⟨before, event, since, rfl, hends, hsince⟩ :=
    exists_last (P := fun crowd => crowd.node.table.holds full = true) holds_next hnot hheld
  have hprefix {first rest : List Move} (heq : before ++ event :: since = first ++ rest) :
      (∀ call ∈ Crowd.calls first, call.isOutside || call.isMessaging) ∧
        serial (fun call => !call.isOutside) [] { node } first := by
    rw [heq, calls_append] at hcalls
    rw [heq, serial_append, Bool.and_eq_true] at hserial
    exact ⟨fun call hcall => hcalls call (List.mem_append_left _ hcall), hserial.1⟩
  refine ⟨before, event, since, rfl, ?_, ?_⟩
  · obtain ⟨subscriber, command, retries, answer, hends⟩ := hends
    obtain ⟨hcalls', hserial'⟩ := hprefix rfl
    obtain ⟨i, task, -, htask, haim⟩ := task_of_concludes? hends
    obtain ⟨call, -, hstands⟩ := standing_run hempty hcalls' hserial' i task htask
    refine ⟨subscriber, command, retries, answer, hends, ?_⟩
    cases hstands with
    | settled call answer => cases haim
    | subscribes _ hcommand _ _ haims =>
      cases haims.symm.trans haim
      exact hcommand
    | unsubscribes _ _ haims => cases haims.symm.trans haim
    | publishes haims hpart =>
      cases haims.symm.trans haim
      cases hpart
  · rintro earlier move later rfl htells
    have hsplit : before ++ event :: (earlier ++ move :: later) = (before ++ event :: earlier) ++ move :: later := by simp
    obtain ⟨hcalls', hserial'⟩ := hprefix hsplit
    obtain ⟨hstill, -⟩ := hsince earlier (move :: later) rfl
    have hmove : move.IsOrderly := isOrderly_of_calls hcalls move (by simp)
    obtain ⟨habsent, -⟩ := warrants_of_tells hempty hcalls' hserial' hmove htells
    rw [habsent] at hstill
    cases hstill

end

/-! ### One attempt to drop a pattern -/

/-- How far a task has come that tells the modem to drop a pattern, when it has written `written`: its command once, and
    then the line end if the command went through. -/
inductive Drops (command : Command) : List Bytes → Task → Prop
  | waits {task : Task} (timeout : Nat)
      (awaken_eq : task.awaken = .checking (.modem (.command command.text acknowledged timeout) (.unsubscribe .done))) :
      Drops command [] task
  | asks (timeout : Nat) :
      Drops command [] (.asking (.command command.text acknowledged timeout) (.unsubscribe .done))
  | listens {task : Task} {hold : Dialogue.Hold} {written : List Bytes}
      (awaken_eq : task.awaken = .checking (.request hold (.unsubscribe .done))) (begun : written ≠ [])
      (wrote : written ++ hold.rest = Dialogue.line command.text) : Drops command written task
  | settled {written : List Bytes} (begun : written ≠ []) (wrote : written <+: Dialogue.line command.text) :
      Drops command written (.finished .done)

/-- What task `i` writes in a run. -/
def writesOf (i : Nat) (crowd : Crowd) (moves : List Move) : List Bytes :=
  (crowd.writes moves).filterMap fun (writer, part) => if writer = some i then some part else none

section
variable {crowd : Crowd} {node : Node} {moves : List Move} {move : Move} {i : Nat} {task : Task} {command : Command}
  {earlier written rest : List Bytes}

theorem drops_heed (node : Node) (link : Link) {progress : Dialogue.Progress} (hbegun : earlier ++ written ≠ [])
    (hrest : earlier ++ rest = Dialogue.line command.text) (hwrote : progress.Wrote rest written) :
    (node.heed (.unsubscribe .done) (link, progress)).1.link.sent = link.sent ∧
      Drops command (earlier ++ written) (node.heed (.unsubscribe .done) (link, progress)).2 := by
  cases progress with
  | waiting hold =>
    have hline : earlier ++ written ++ hold.rest = Dialogue.line command.text := by
      rw [List.append_assoc, show written ++ hold.rest = rest from hwrote, hrest]
    exact ⟨rfl, .listens rfl hbegun hline⟩
  | finished result => exact ⟨rfl, .settled hbegun (hrest ▸ (List.prefix_append_right_inj _).mpr hwrote.isPrefix)⟩

theorem drops_step (h : crowd.Exclusive) (htask : crowd.task? i = some task) (hdrops : Drops command earlier task) :
    ∃ written, (crowd.node.step task.awaken).1.link.sent = crowd.node.link.sent ++ written ∧
      Drops command (earlier ++ written) (crowd.node.step task.awaken).2 := by
  cases hdrops with
  | waits timeout hawaken =>
    refine ⟨[], ?_⟩
    rw [hawaken]
    simp only [Node.step, Node.check]
    split
    · exact ⟨(List.append_nil _).symm, .waits timeout rfl⟩
    · exact ⟨(List.append_nil _).symm, .asks timeout⟩
  | asks timeout =>
    obtain ⟨written, hsent, hhead, hwrote⟩ := Dialogue.start_ask_sent (h.empty_of_asking htask)
      (by decide : acknowledged.utf8ByteSize ≤ Limits.expected) (Dialogue.line command.text) timeout
    have hbegun : [] ++ written ≠ [] := by
      rintro rfl
      cases hhead
    obtain ⟨hsame, hdrops⟩ := drops_heed crowd.node
      (Dialogue.start crowd.node.link (.command command.text acknowledged timeout)).1 hbegun (List.nil_append _) hwrote
    exact ⟨written, hsame.trans hsent, hdrops⟩
  | listens hawaken hbegun hline =>
    rename_i hold
    have hstage : task.stage?.isSome ∧ task.generation? = hold.generation? := by
      cases task <;> cases hawaken <;> exact ⟨rfl, rfl⟩
    have howns : hold.Owns crowd.node.link := fun generation hpending =>
      hstage.2.symm.trans (h.owns htask hstage.1 generation hpending)
    obtain ⟨-, -, written, hsent, hwrote⟩ := Dialogue.led_resume howns
    obtain ⟨hsame, hdrops⟩ := drops_heed crowd.node (Dialogue.resume crowd.node.link hold).1
      (List.append_ne_nil_of_left_ne_nil hbegun written) hline hwrote
    rw [hawaken]
    exact ⟨written, hsame.trans hsent, hdrops⟩
  | settled hbegun hline => exact ⟨[], (List.append_nil _).symm, by rw [List.append_nil]; exact .settled hbegun hline⟩

theorem writesOf_cons (h : (crowd.next move).node.link.sent = crowd.node.link.sent ++ written) (i : Nat) :
    crowd.writesOf i (move :: moves) =
      (if move.task? = some i then written else []) ++ (crowd.next move).writesOf i moves := by
  rw [writesOf, writes_cons moves h, List.filterMap_append, List.filterMap_map]
  congr 1
  split
  · rename_i hby
    simp [hby]
  · rename_i hby
    simp [hby]

/-- A task that tells the modem to drop a pattern, and is not given up, makes one attempt. -/
theorem drops_run (h : crowd.Exclusive) (hmoves : ∀ move ∈ moves, move.IsOrderly ∧ move ≠ .drop i)
    (htask : crowd.task? i = some task) (hdrops : Drops command earlier task) : ∃ task,
      (crowd.run moves).task? i = some task ∧ Drops command (earlier ++ crowd.writesOf i moves) task := by
  induction moves generalizing crowd task earlier with
  | nil => exact ⟨task, htask, by rwa [writesOf, writes, List.filterMap_nil, List.append_nil]⟩
  | cons move rest ih =>
    obtain ⟨hmove, hkept⟩ := hmoves move List.mem_cons_self
    have hrest : ∀ move ∈ rest, move.IsOrderly ∧ move ≠ .drop i := fun move hmem =>
      hmoves move (List.mem_cons_of_mem _ hmem)
    have hexclusive := exclusive_next h hmove
    by_cases hby : move.task? = some i
    · obtain rfl : move = .step i := by
        cases move <;> cases hby
        · rfl
        · exact absurd rfl hkept
      obtain ⟨written, hsent, hdrops'⟩ := drops_step h htask hdrops
      have hself : (crowd.next (.step i)).task? i = some (crowd.node.step task.awaken).2 := by
        rw [task?_step htask, if_pos rfl]
      obtain ⟨last, hlast, hdropsLast⟩ := ih hexclusive hrest hself hdrops'
      refine ⟨last, hlast, ?_⟩
      rwa [writesOf_cons (by rw [next_step htask, hsent]), if_pos hby, ← List.append_assoc]
    · obtain ⟨written, hsent, -⟩ := sent_next h hmove
      obtain ⟨last, hlast, hdropsLast⟩ := ih hexclusive hrest (task?_elsewhere htask hby) hdrops
      refine ⟨last, hlast, ?_⟩
      rwa [writesOf_cons hsent, if_neg hby, List.nil_append]

theorem Drops.isPrefix (h : Drops command written task) : written <+: Dialogue.line command.text := by
  cases h with
  | waits timeout => exact List.nil_prefix
  | asks timeout => exact List.nil_prefix
  | listens _ _ hline => exact ⟨_, hline⟩
  | settled _ hline => exact hline

theorem Drops.of_finished {answer : Answer} (h : Drops command written (.finished answer)) :
    answer = .done ∧ Text.encode command.text ∈ written := by
  cases h with
  | waits _ hawaken => cases hawaken
  | listens hawaken => cases hawaken
  | settled hbegun hline =>
    refine ⟨rfl, ?_⟩
    cases written with
    | nil => exact absurd rfl hbegun
    | cons first more =>
      obtain ⟨rest, hrest⟩ := hline
      rw [(List.cons.inj hrest).1]
      exact List.mem_cons_self

theorem Drops.aim? (h : Drops command written task) (hunfinished : ¬task.isFinished) :
    task.aim? = some (.unsubscribe .done) := by
  cases h with
  | waits _ hawaken | listens hawaken => cases task <;> cases hawaken <;> rfl
  | asks timeout => rfl
  | settled _ _ => exact absurd rfl hunfinished

/-- A call takes out the last pair of a pattern, and is not given up: it makes one attempt to tell the modem, and comes to
    its end with success. -/
theorem drops_of_last {before after : List Move} {call : Call} {full : String}
    (hempty : node.link.intake.slot.question = none) (hfree : node.link.held = false)
    (hcalls : ∀ made ∈ Crowd.calls (before ++ .start call :: after), made.isOutside || made.isMessaging)
    (hserial : serial (fun made => !made.isOutside) [] { node } (before ++ .start call :: after))
    (hwarrants : call.Warrants (Crowd.run { node } before).node full .unsubscribe)
    (hkept : ∀ move ∈ after, move ≠ .drop (Crowd.calls before).length) :
    ∃ command, unsubscribe? full = some command ∧
      (Crowd.run { node } before).writesOf (Crowd.calls before).length (.start call :: after) <+:
        Dialogue.line command.text ∧
      (∀ answer, (Crowd.run { node } (before ++ .start call :: after)).task? (Crowd.calls before).length =
          some (.finished answer) →
        answer = .done ∧ Text.encode command.text ∈
          (Crowd.run { node } before).writesOf (Crowd.calls before).length (.start call :: after)) ∧
      ∃ more, (∀ move ∈ more, Move.IsVisit (Crowd.calls before).length move) ∧
        (Crowd.run { node } (before ++ .start call :: after ++ more)).task? (Crowd.calls before).length =
          some (.finished .done) := by
  cases call <;> first | exact hwarrants.elim | skip
  rename_i scope pattern subscriber
  obtain ⟨hfull, hlast⟩ := hwarrants
  obtain ⟨command, hcommand, hunsubscribe⟩ := unsubscribe_of_last hfull hlast
  have horderly := isOrderly_of_calls hcalls
  have hbefore : (Crowd.run { node } before).Exclusive :=
    exclusive_run (exclusive_fresh hempty) fun move hmove => horderly move (List.mem_append_left _ hmove)
  have hlength := length_calls node before
  have hstarted : ((Crowd.run { node } before).next (.start (.unsubscribe scope pattern subscriber))).task?
      (Crowd.calls before).length = some (.talk (.command command.text acknowledged
        (Crowd.run { node } before).node.messaging.commandTimeout) (.unsubscribe .done)) := by
    rw [task?_start, if_pos hlength]
    exact congrArg (fun after : Node × Task => some after.2) hunsubscribe
  have hstart : Move.IsOrderly (.start (.unsubscribe scope pattern subscriber)) := horderly _ (by simp)
  obtain ⟨written, hsent, -⟩ := sent_next hbefore hstart
  obtain ⟨task, htask, hdrops⟩ := drops_run (exclusive_next hbefore hstart)
    (fun move hmove => ⟨horderly move (by simp [hmove]), hkept move hmove⟩) hstarted (.waits _ rfl)
  have hwrites : (Crowd.run { node } before).writesOf (Crowd.calls before).length
      (.start (.unsubscribe scope pattern subscriber) :: after) =
      [] ++ ((Crowd.run { node } before).next (.start (.unsubscribe scope pattern subscriber))).writesOf
        (Crowd.calls before).length after := by
    rw [writesOf_cons hsent, if_neg (by simp [Move.task?])]
  rw [← run_cons, ← run_append] at htask
  rw [← hwrites] at hdrops
  refine ⟨command, hcommand, hdrops.isPrefix, fun answer hfinished => ?_, ?_⟩
  · obtain rfl : task = .finished answer := Option.some.inj (htask.symm.trans hfinished)
    exact hdrops.of_finished
  · by_cases hunfinished : task.isFinished
    · cases task <;> cases hunfinished
      obtain ⟨rfl, -⟩ := hdrops.of_finished
      exact ⟨[], nofun, by rwa [List.append_nil]⟩
    · -- Nobody else is under way who could hold the modem.
      have hstanding := standing_run hempty hcalls hserial
      have hmodem : task.stage? = none →
          (Crowd.run { node } (before ++ .start (.unsubscribe scope pattern subscriber) :: after)).node.link.held = false := by
        intro hnone
        by_contra hheld
        obtain ⟨j, other, hother, hsome⟩ := held_run hempty hfree horderly (by simpa using hheld)
        by_cases hj : j = (Crowd.calls before).length
        · obtain rfl : other = task := Option.some.inj ((hj ▸ hother).symm.trans htask)
          simp [hnone] at hsome
        · have hfinished := isFinished_of_serial hstanding hserial htask hunfinished hj hother
          cases other <;> cases hfinished
          cases hsome
      obtain ⟨more, link, result, hmore, hrun⟩ := aim_ends htask (hdrops.aim? hunfinished) hmodem
      refine ⟨more, hmore, ?_⟩
      rw [run_append, hrun]
      exact task?_went htask _

/-- When calls to subscribe, unsubscribe, publish and deliver are made one at a time, each of which may be given up at any
    moment, and whatever the modem does:

    the modem is told to subscribe to a pattern only by a call to subscribe that was made while nobody held the pattern,
    and to drop one only by a call to unsubscribe that took out its last pair, and both while nobody holds it;

    while the table holds a pattern, the modem has acknowledged it, and has not been told to drop it since;

    and a call that takes out the last pair of a pattern, and is not given up, writes the command that drops it once and
    nothing else, and comes to its end with success. -/
theorem traffic_follows_table (node : Node) (hentries : node.table.entries = [])
    (hempty : node.link.intake.slot.question = none) (hfree : node.link.held = false) (moves : List Move)
    (hcalls : ∀ call ∈ Crowd.calls moves, call.isOutside || call.isMessaging)
    (hserial : serial (fun call => !call.isOutside) [] { node } moves) :
    (∀ before move after full order, moves = before ++ move :: after →
      order ∈ (Crowd.run { node } before).tells full move →
      (Crowd.run { node } before).node.table.holds full = false ∧
        ∃ made call later, move = .step (Crowd.calls made).length ∧ before = made ++ .start call :: later ∧
          call.Warrants (Crowd.run { node } made).node full order) ∧
    (∀ full, (Crowd.run { node } moves).node.table.holds full = true → ∃ before event since,
      moves = before ++ event :: since ∧ Acknowledges (Crowd.run { node } before) full event ∧
        ∀ earlier move later, since = earlier ++ move :: later →
          .unsubscribe ∉ (Crowd.run { node } (before ++ event :: earlier)).tells full move) ∧
    (∀ before call after full, moves = before ++ .start call :: after →
      call.Warrants (Crowd.run { node } before).node full .unsubscribe →
      (∀ move ∈ after, move ≠ .drop (Crowd.calls before).length) →
      let i := (Crowd.calls before).length
      let written := (Crowd.run { node } before).writesOf i (.start call :: after)
      ∃ command, unsubscribe? full = some command ∧ written <+: Dialogue.line command.text ∧
        (∀ answer, (Crowd.run { node } moves).task? i = some (.finished answer) →
          answer = .done ∧ Text.encode command.text ∈ written) ∧
        ∃ more, (∀ move ∈ more, Move.IsVisit i move) ∧
          (Crowd.run { node } (moves ++ more)).task? i = some (.finished .done)) := by
  refine ⟨?_, fun full hheld => acknowledged_since hentries hempty hcalls hserial hheld, ?_⟩
  · rintro before move after full order rfl htells
    have hbefore : ∀ call ∈ Crowd.calls before, call.isOutside || call.isMessaging := fun call hcall =>
      hcalls call (by rw [calls_append]; exact List.mem_append_left _ hcall)
    rw [serial_append, Bool.and_eq_true] at hserial
    exact warrants_of_tells hempty hbefore hserial.1 (isOrderly_of_calls hcalls move (by simp)) htells
  · rintro before call after full rfl hwarrants hkept
    exact drops_of_last hempty hfree hcalls hserial hwarrants hkept

end

/-- The only subscriber of a pattern leaves it, and the modem does not answer any more. -/
theorem one_attempt_at_silent_modem :
    let node : Node := { table := { capacity := 4 }, depth := 1 }
    let before : List Move :=
      [.start (.subscribe .remote "p" 0), .step 0, .step 0, .start (.feed (Text.encode "OK\r\n")), .step 0]
    let unsubscribe : Move := .start (.unsubscribe .remote "p" 0)
    let after : List Move := [.step 2, .step 2, .advance 1000000, .step 2]
    (Crowd.run { node } (before ++ unsubscribe :: after)).task? 2 = some (.finished .done) ∧
      ∃ command, unsubscribe? "p" = some command ∧
        Text.encode command.text ∈ (Crowd.run { node } before).writesOf 2 (unsubscribe :: after) := by
  intro node before unsubscribe after
  have hcalls : ∀ call ∈ Crowd.calls (before ++ unsubscribe :: after), call.isOutside || call.isMessaging := by decide
  have hserial : serial (fun call => !call.isOutside) [] { node } (before ++ unsubscribe :: after) := by decide +kernel
  have hdone : (Crowd.run { node } (before ++ unsubscribe :: after)).task? 2 = some (.finished .done) := by decide +kernel
  have hfull : (Crowd.run { node } before).node.identity.fullTopic .remote "p" = .ok "p" := by
    rw [(settings_run { node } before).1]
    rfl
  have hlast : ((Crowd.run { node } before).node.table.erase "p" 0).2 = .last := by decide +kernel
  have hwarrants : (Call.unsubscribe .remote "p" 0).Warrants (Crowd.run { node } before).node "p" .unsubscribe :=
    ⟨hfull, hlast⟩
  obtain ⟨-, -, hdrops⟩ := traffic_follows_table node rfl rfl rfl _ hcalls hserial
  obtain ⟨command, hcommand, -, hfinished, -⟩ :=
    hdrops before (.unsubscribe .remote "p" 0) after "p" rfl hwarrants (by simp [after])
  exact ⟨hdone, command, hcommand, (hfinished .done hdone).2⟩

end Crowd
end SensorLink
