import SensorLink.Proofs.Requests

/-! Subscriptions and broker sessions. The table outlives a session, and a call to subscribe asks the modem only for a
    pattern that the table does not hold: what was subscribed in an earlier session is not asked for again. -/

namespace SensorLink
open Command

/-! ### The task of a call to subscribe -/

def Stage.seeks? : Stage → Option String
  | .subscribe full _ _ _ => some full
  | _ => none

/-- The pattern that a task asks the modem for, or will ask for. -/
def Task.seeks? (task : Task) : Option String := task.aim?.bind Stage.seeks?

/-- A stage of a call to subscribe: it asks for the pattern, or has found the table full and drops the pattern again. -/
def Stage.SubscribesTo (full : String) : Stage → Prop
  | .subscribe other _ _ _ => other = full
  | .unsubscribe answer => answer = .failed .tableFull
  | _ => False

def Task.SubscribesTo (full : String) (task : Task) : Prop :=
  match task.aim? with
  | some stage => stage.SubscribesTo full
  | none => task.isFinished

/-- Where a call to subscribe stands: refused for good, or on its way to its full pattern. -/
def Task.StandsFor (identity : Identity) (call : Call) (task : Task) : Prop :=
  ∀ scope pattern subscriber, call = .subscribe scope pattern subscriber →
    (∃ cause, task = .finished (.failed cause)) ∨
      ∃ full, identity.fullTopic scope pattern = .ok full ∧ task.SubscribesTo full

section
variable {node : Node} {task : Task} {stage : Stage} {full : String} {identity : Identity} {call : Call}

theorem seeks?_of_subscribesTo (h : task.SubscribesTo full) (hseeks : task.seeks? ≠ none) :
    task.seeks? = some full := by
  unfold Task.SubscribesTo at h
  unfold Task.seeks? at hseeks ⊢
  cases haim : task.aim? with
  | none => simp [haim] at hseeks
  | some stage =>
    rw [haim] at h hseeks
    cases stage with
    | subscribe other subscriber command retries => exact congrArg some h
    | _ => exact absurd rfl hseeks

/-- What a turn of a task that subscribes comes to: success means that the table holds the pattern, and who still asks
    for it has not touched the table. -/
structure Node.Subscribed (node : Node) (full : String) (after : Node × Task) : Prop where
  task : after.2.SubscribesTo full
  holds : after.2 = .finished .done → after.1.table.holds full = true
  table : after.2.seeks? ≠ none → after.1.table = node.table

theorem subscribed_of_ne_done {after : Node} (h : task.SubscribesTo full) (hdone : task ≠ .finished .done)
    (htable : after.table = node.table) : node.Subscribed full (after, task) :=
  ⟨h, fun hfinished => absurd hfinished hdone, fun _ => htable⟩

theorem subscribed_dropPattern (node : Node) (full : String) :
    node.Subscribed full (node, node.dropPattern full (.failed .tableFull)) ∧
      (node.dropPattern full (.failed .tableFull)).seeks? = none := by
  unfold Node.dropPattern
  split
  · exact ⟨subscribed_of_ne_done rfl (by simp) rfl, rfl⟩
  · exact ⟨subscribed_of_ne_done rfl (by simp [Task.talk]) rfl, rfl⟩

theorem subscribed_enter (node : Node) (full : String) (subscriber : Subscriber) (asked : Bool) :
    node.Subscribed full (node.enter full subscriber asked) ∧ (node.enter full subscriber asked).2.seeks? = none := by
  rcases enter_cases node full subscriber asked with ⟨table, henter, hholds, -⟩ | ⟨-, henter⟩ | ⟨henter, -⟩ <;>
    rw [henter]
  · exact ⟨⟨rfl, fun _ => by simp [hholds], fun hseeks => absurd rfl hseeks⟩, rfl⟩
  · exact subscribed_dropPattern node full
  · exact ⟨subscribed_of_ne_done rfl (by simp) rfl, rfl⟩

theorem subscribed_after (node : Node) (h : stage.SubscribesTo full) (result : Dialogue.Result) :
    node.Subscribed full (node.after stage result) ∧
      ((node.after stage result).2.seeks? ≠ none → stage.seeks? ≠ none) := by
  cases stage with
  | subscribe other subscriber command retries =>
    obtain rfl : other = full := h
    refine ⟨?_, fun _ => by simp [Stage.seeks?]⟩
    cases result with
    | ok answer =>
      obtain ⟨henter, -⟩ := subscribed_enter node other subscriber true
      exact ⟨henter.task, henter.holds, henter.table⟩
    | error cause =>
      cases retries with
      | zero => exact subscribed_of_ne_done rfl (by simp) rfl
      | succ retries => exact subscribed_of_ne_done rfl (by simp) rfl
  | unsubscribe answer =>
    obtain rfl : answer = .failed .tableFull := h
    exact ⟨subscribed_of_ne_done rfl (by simp) rfl, fun hseeks => absurd rfl hseeks⟩
  | _ => exact h.elim

theorem subscribed_step (node : Node) (h : task.SubscribesTo full) (hdone : ¬task.isFinished) :
    node.Subscribed full (node.step task.awaken) ∧ ((node.step task.awaken).2.seeks? ≠ none → task.seeks? ≠ none) := by
  cases hstage : task.stage? with
  | some stage =>
    have haim : task.aim? = some stage := aim?_of_stage? hstage
    rw [Task.SubscribesTo, haim] at h
    have hsought : task.seeks? = stage.seeks? := by rw [Task.seeks?, haim, Option.bind_some]
    rw [hsought]
    obtain ⟨link, ⟨-, hold, hstep⟩ | ⟨result, -, hstep⟩⟩ := step_concludes node hstage <;> rw [hstep]
    · exact ⟨subscribed_of_ne_done h (by simp) rfl, id⟩
    · obtain ⟨hafter, hseeks⟩ := subscribed_after { node with link } h result
      exact ⟨⟨hafter.task, hafter.holds, hafter.table⟩, hseeks⟩
  | none =>
    cases task with
    | asking request stage => cases hstage
    | finished answer => exact absurd rfl hdone
    | parked wait | checking wait =>
      cases wait with
      | modem request stage =>
        simp only [Task.awaken, Node.step, Node.check]
        split <;> exact ⟨subscribed_of_ne_done h (by simp) rfl, id⟩
      | request hold stage => cases hstage
      | _ => cases h

/-- A call to subscribe asks for a pattern that the table does not hold, or for none. -/
theorem subscribe_cases (node : Node) (scope : Scope) (pattern : String) (subscriber : Subscriber) :
    (∃ cause, (node.subscribe scope pattern subscriber).2 = .finished (.failed cause)) ∨
      ∃ full, node.identity.fullTopic scope pattern = .ok full ∧
        node.Subscribed full (node.subscribe scope pattern subscriber) ∧
        ((node.subscribe scope pattern subscriber).2.seeks? ≠ none → node.table.holds full = false) := by
  unfold Node.subscribe
  split
  · exact .inl ⟨_, rfl⟩
  · rename_i full hpattern
    have hfull := fullTopic_of_fullPattern hpattern
    split
    · rename_i hnovelty
      have hheld : node.table.holds full = true := by simp [Subscriptions.holds_eq_novelty subscriber, hnovelty]
      exact .inr ⟨full, hfull, ⟨rfl, fun _ => hheld, fun _ => rfl⟩, fun hseeks => absurd rfl hseeks⟩
    · split
      · exact .inl ⟨_, rfl⟩
      · obtain ⟨henter, hseeks⟩ := subscribed_enter node full subscriber false
        exact .inr ⟨full, hfull, henter, fun hsought => absurd hseeks hsought⟩
    · rename_i hnovelty
      have hnot : node.table.holds full = false := by simp [Subscriptions.holds_eq_novelty subscriber, hnovelty]
      split
      · exact .inl ⟨_, rfl⟩
      · split
        · exact .inl ⟨_, rfl⟩
        · exact .inr ⟨full, hfull, subscribed_of_ne_done rfl (by simp [Task.talk]) rfl, fun _ => hnot⟩

/-- Only the task of a call to subscribe asks the modem for a pattern, and for that of its call. -/
theorem call_of_subscribe {qos : UInt8} {calls : List Call} {subscriber : Subscriber} {command : Command}
    {retries : Nat} (h : task.Of identity qos calls call)
    (haim : task.aim? = some (.subscribe full subscriber command retries)) :
    ∃ scope pattern, call = .subscribe scope pattern subscriber ∧ identity.fullTopic scope pattern = .ok full ∧
      subscribe? full qos = some command := by
  cases task with
  | asking request stage =>
    cases haim
    exact h.1
  | finished answer => cases haim
  | parked wait | checking wait =>
    cases wait <;> cases haim
    · exact h.1
    · exact h

theorem call_of_seeks {qos : UInt8} {calls : List Call} (h : task.Of identity qos calls call)
    (hseeks : task.seeks? = some full) : ∃ scope pattern subscriber, call = .subscribe scope pattern subscriber ∧
      identity.fullTopic scope pattern = .ok full := by
  obtain ⟨stage, haim, hstage⟩ := Option.bind_eq_some_iff.mp hseeks
  cases stage with
  | subscribe other subscriber command retries =>
    cases hstage
    obtain ⟨scope, pattern, hcall, hfull, -⟩ := call_of_subscribe h haim
    exact ⟨scope, pattern, subscriber, hcall, hfull⟩
  | _ => cases hstage

theorem standsFor_step (node : Node) (h : task.StandsFor identity call) :
    (node.step task.awaken).2.StandsFor identity call := by
  intro scope pattern subscriber hcall
  by_cases hdone : task.isFinished
  · rw [step_finished hdone]
    exact h scope pattern subscriber hcall
  · rcases h scope pattern subscriber hcall with ⟨cause, rfl⟩ | ⟨full, hfull, hof⟩
    · exact absurd rfl hdone
    · exact .inr ⟨full, hfull, (subscribed_step node hof hdone).1.task⟩

/-- Every move leaves the tasks those of their calls, and the calls to subscribe on their way. -/
theorem maintains_standsFor (identity : Identity) (qos : UInt8) (calls : List Call) :
    Crowd.Maintains (Crowd.Owned identity qos calls)
      (fun call task => task.Of identity qos calls call ∧ task.StandsFor identity call) calls where
  start node h call hcall := by
    obtain ⟨howned, hof⟩ := (Crowd.maintains_of identity qos calls).start node h call hcall
    refine ⟨howned, hof, fun scope pattern subscriber heq => ?_⟩
    subst heq
    rcases subscribe_cases node scope pattern subscriber with hfailed | ⟨full, hfull, hsubscribed, -⟩
    · exact .inl hfailed
    · exact .inr ⟨full, h.owner ▸ hfull, hsubscribed.task⟩
  step node h call task hP := by
    obtain ⟨howned, hof⟩ := (Crowd.maintains_of identity qos calls).step node h call task hP.1
    exact ⟨howned, hof, standsFor_step node hP.2⟩
  drop := (Crowd.maintains_of identity qos calls).drop
  advance := (Crowd.maintains_of identity qos calls).advance

end

/-! ### Calls in turn -/

/-- What happens around the node and is no call of the application. -/
def Call.isOutside : Call → Bool
  | .feed _ | .schedule .. | .setRules _ => true
  | _ => false

namespace Crowd

def isIdle (crowd : Crowd) : Bool := crowd.tasks.all fun task => task.all Task.isFinished

/-- A call is made only when all calls before it are finished, and none is given up. -/
def allows (crowd : Crowd) : Move → Bool
  | .start call => call.isOutside || crowd.isIdle
  | .step _ | .advance _ => true
  | .drop _ => false

def inTurn (crowd : Crowd) : List Move → Bool
  | [] => true
  | move :: rest => crowd.allows move && (crowd.next move).inTurn rest

/-- At most one task is under way, and nobody holds the pattern that it asks for. -/
structure Alone (crowd : Crowd) : Prop where
  one : ∀ i j task other, i ≠ j → crowd.task? i = some task → crowd.task? j = some other →
    task.isFinished ∨ other.isFinished
  absent : ∀ i task full, crowd.task? i = some task → task.seeks? = some full → crowd.node.table.holds full = false

section
variable {crowd : Crowd} {moves first rest : List Move} {move : Move} {i : Nat} {task : Task} {full : String}
  {identity : Identity} {qos : UInt8} {calls : List Call}

theorem inTurn_append (crowd : Crowd) (first rest : List Move) :
    crowd.inTurn (first ++ rest) = (crowd.inTurn first && (crowd.run first).inTurn rest) := by
  induction first generalizing crowd with
  | nil => rfl
  | cons move first ih =>
    rw [List.cons_append, inTurn, ih, inTurn, Bool.and_assoc]
    rfl

theorem isFinished_of_isIdle (h : crowd.isIdle) (htask : crowd.task? i = some task) : task.isFinished := by
  have hmem : some task ∈ crowd.tasks := List.mem_of_getElem? (Option.join_eq_some_iff.mp htask)
  exact List.all_eq_true.mp h _ hmem

theorem seeks?_of_isFinished (h : task.isFinished) : task.seeks? = none := by
  cases task with
  | finished answer => rfl
  | _ => cases h

theorem start_isOutside {call : Call} (h : call.isOutside) (node : Node) :
    (call.start node).1.table = node.table ∧ (call.start node).2.isFinished := by
  cases call <;> first | exact ⟨rfl, rfl⟩ | cases h

/-- The first visit of a call: who asks for a pattern then has found that nobody holds it. -/
theorem start_absent (node : Node) (call : Call) (hseeks : (call.start node).2.seeks? = some full) :
    (call.start node).1.table.holds full = false := by
  have hof : (call.start node).2.Of node.identity node.messaging.qos [call] call :=
    of_start rfl rfl List.mem_cons_self
  obtain ⟨scope, pattern, subscriber, rfl, hfull⟩ := call_of_seeks hof hseeks
  have hsought : (node.subscribe scope pattern subscriber).2.seeks? = some full := hseeks
  rcases subscribe_cases node scope pattern subscriber with ⟨cause, hfailed⟩ | ⟨full', hfull', hsubscribed, habsent⟩
  · rw [hfailed] at hsought
    cases hsought
  · obtain rfl : full' = full := Except.ok.inj (hfull'.symm.trans hfull)
    have hne : (node.subscribe scope pattern subscriber).2.seeks? ≠ none := by simp [hsought]
    show (node.subscribe scope pattern subscriber).1.table.holds full' = false
    rw [hsubscribed.table hne]
    exact habsent hne

theorem alone_start (h : crowd.Alone) {call : Call} (hallows : crowd.allows (.start call)) :
    (crowd.next (.start call)).Alone := by
  have hlast {j : Nat} {other : Task} (hother : (crowd.next (.start call)).task? j = some other) :
      j = crowd.tasks.length ∧ other = (call.start crowd.node).2 ∨ crowd.task? j = some other := by
    rcases task?_next hother with hold | ⟨call, ⟨⟩, hj, hnew⟩ | ⟨before, hstep, -⟩
    · exact .inr hold
    · exact .inl ⟨hj, hnew.symm⟩
    · cases hstep
  rcases Bool.or_eq_true_iff.mp hallows with houtside | hidle
  · obtain ⟨htable, hfinished⟩ := start_isOutside houtside crowd.node
    refine ⟨fun j k task other hne htask hother => ?_, fun j task full htask hseeks => ?_⟩
    · rcases hlast htask with ⟨-, rfl⟩ | htask
      · exact .inl hfinished
      · rcases hlast hother with ⟨-, rfl⟩ | hother
        · exact .inr hfinished
        · exact h.one j k task other hne htask hother
    · show (call.start crowd.node).1.table.holds full = false
      rcases hlast htask with ⟨-, rfl⟩ | htask
      · simp [seeks?_of_isFinished hfinished] at hseeks
      · rw [htable]
        exact h.absent j task full htask hseeks
  · refine ⟨fun j k task other hne htask hother => ?_, fun j task full htask hseeks => ?_⟩
    · rcases hlast htask with ⟨rfl, -⟩ | htask
      · rcases hlast hother with ⟨rfl, -⟩ | hother
        · exact absurd rfl hne
        · exact .inr (isFinished_of_isIdle hidle hother)
      · exact .inl (isFinished_of_isIdle hidle htask)
    · rcases hlast htask with ⟨-, rfl⟩ | htask
      · exact start_absent crowd.node call hseeks
      · simp [seeks?_of_isFinished (isFinished_of_isIdle hidle htask)] at hseeks

/-- A step of the task that is under way. -/
theorem alone_step (h : crowd.Alone) (heach : crowd.Each (Owned identity qos calls)
    (fun call task => task.Of identity qos calls call ∧ task.StandsFor identity call) calls) (i : Nat) :
    (crowd.next (.step i)).Alone := by
  cases htask : crowd.task? i with
  | none => rwa [next_step_none htask]
  | some task =>
    by_cases hdone : task.isFinished
    · have hsame : crowd.next (.step i) = crowd := by
        rw [next_step htask, step_finished hdone, set_self htask]
      rwa [hsame]
    · have hothers {j : Nat} {other : Task} (hne : i ≠ j) (hother : crowd.task? j = some other) : other.isFinished :=
        (h.one i j task other hne htask hother).resolve_left hdone
      refine ⟨fun j k first second hne hfirst hsecond => ?_, fun j other full hother hseeks => ?_⟩
      · rw [task?_step htask] at hfirst hsecond
        split at hfirst
        · rename_i hij
          rw [if_neg (hij ▸ hne)] at hsecond
          exact .inr (hothers (hij ▸ hne) hsecond)
        · rename_i hij
          exact .inl (hothers hij hfirst)
      · rw [task?_step htask] at hother
        split at hother
        · cases hother
          have hmaintains := maintains_standsFor identity qos calls
          obtain ⟨call, hcall, hof⟩ := heach.tasks i task htask
          obtain ⟨scope, pattern, subscriber, rfl, hfull⟩ :=
            call_of_seeks (hmaintains.step crowd.node heach.node call task hof).2.1 hseeks
          rcases hof.2 scope pattern subscriber rfl with ⟨cause, rfl⟩ | ⟨full', hfull', hsubscribes⟩
          · exact absurd rfl hdone
          · obtain rfl : full' = full := Except.ok.inj (hfull'.symm.trans hfull)
            obtain ⟨hsubscribed, hsought⟩ := subscribed_step crowd.node hsubscribes hdone
            have hne : (crowd.node.step task.awaken).2.seeks? ≠ none := by simp [hseeks]
            rw [next_step htask]
            show (crowd.node.step task.awaken).1.table.holds full' = false
            rw [hsubscribed.table hne]
            exact h.absent i task full' htask (seeks?_of_subscribesTo hsubscribes (hsought hne))
        · rename_i hij
          simp [seeks?_of_isFinished (hothers hij hother)] at hseeks

/-- A run of calls in turn, from a node that nobody uses yet. -/
theorem alone_run {node : Node} (hqueue : node.queue = []) (h : inTurn { node } moves) :
    (Crowd.run { node } moves).Alone := by
  induction moves using List.reverseRecOn with
  | nil =>
    have hnone (i : Nat) : (Crowd.run { node } []).task? i = none := rfl
    exact ⟨fun i j task other _ htask => by simp [hnone] at htask, fun i task full htask => by simp [hnone] at htask⟩
  | append_singleton moves move ih =>
    rw [inTurn_append, Bool.and_eq_true] at h
    have halone := ih h.1
    have hallows : (Crowd.run { node } moves).allows move := by simpa [inTurn] using h.2
    rw [run_append]
    show ((Crowd.run { node } moves).next move).Alone
    cases move with
    | start call => exact alone_start halone hallows
    | step i => exact alone_step halone (each_fresh (owned_fresh hqueue _) (maintains_standsFor _ _ _)) i
    | drop i => cases hallows
    | advance time => exact ⟨halone.one, halone.absent⟩

/-! ### Sessions -/

/-- The modem reports that the broker session is open. -/
def Opens (crowd : Crowd) (move : Move) : Prop :=
  ∃ retry answer, crowd.concludes? move = some (.openSession retry, .ok answer)

/-- The modem acknowledges that it has been told to subscribe to a pattern. -/
def Acknowledges (crowd : Crowd) (full : String) (move : Move) : Prop :=
  ∃ subscriber command retries answer,
    crowd.concludes? move = some (.subscribe full subscriber command retries, .ok answer) ∧
      subscribe? full crowd.node.messaging.qos = some command

/-- A session is open only if it was so before, or the modem reports it. -/
theorem broker_next (crowd : Crowd) (move : Move) (h : (crowd.next move).node.status.broker = .connected) :
    crowd.node.status.broker = .connected ∨ crowd.Opens move := by
  cases move with
  | start call => exact .inl ((start_begins crowd.node call).broker h)
  | advance time => exact .inl h
  | step i =>
    cases htask : crowd.task? i with
    | none => exact .inl (by rwa [next_step_none htask] at h)
    | some task =>
      rw [next_step htask] at h
      rw [Opens, concludes?_step htask]
      exact (step_effect crowd.node task).broker h
  | drop i =>
    cases htask : crowd.task? i with
    | none => exact .inl (by rwa [next_drop_none htask] at h)
    | some task =>
      rw [next_drop htask] at h
      exact .inl ((drop_frame crowd.node task).status ▸ h)

/-- A pattern is in the table only if it was so before, or the modem acknowledges it. -/
theorem holds_next (crowd : Crowd) (move : Move) (h : (crowd.next move).node.table.holds full = true) :
    crowd.node.table.holds full = true ∨ ∃ subscriber command retries answer,
      crowd.concludes? move = some (.subscribe full subscriber command retries, .ok answer) := by
  cases move with
  | start call => exact .inl ((start_begins crowd.node call).table full h)
  | advance time => exact .inl h
  | step i =>
    cases htask : crowd.task? i with
    | none => exact .inl (by rwa [next_step_none htask] at h)
    | some task =>
      rw [next_step htask] at h
      rw [concludes?_step htask]
      rcases (step_effect crowd.node task).table with
        hsame | ⟨other, subscriber, command, retries, answer, hends, hholds⟩
      · exact .inl (hsame ▸ h)
      · refine (hholds full h).imp_right fun heq => ?_
        subst heq
        exact ⟨subscriber, command, retries, answer, hends⟩
  | drop i =>
    cases htask : crowd.task? i with
    | none => exact .inl (by rwa [next_drop_none htask] at h)
    | some task =>
      rw [next_drop htask] at h
      exact .inl ((drop_frame crowd.node task).table ▸ h)

/-- What the modem acknowledges is the command that subscribes to the pattern. -/
theorem acknowledges_of_concludes {node : Node} (hqueue : node.queue = []) {subscriber : Subscriber} {command : Command}
    {retries : Nat} {answer : String} (hends : (Crowd.run { node } moves).concludes? move =
      some (.subscribe full subscriber command retries, .ok answer)) :
    (Crowd.run { node } moves).Acknowledges full move := by
  have heach : (Crowd.run { node } moves).Each (Owned node.identity node.messaging.qos (Crowd.calls moves))
      (Task.Of node.identity node.messaging.qos (Crowd.calls moves)) (Crowd.calls moves) :=
    each_fresh (owned_fresh hqueue _) (maintains_of _ _ _)
  obtain ⟨i, task, -, htask, haim⟩ := task_of_concludes? hends
  obtain ⟨call, -, hof⟩ := heach.tasks i task htask
  obtain ⟨-, -, -, -, hcommand⟩ := call_of_subscribe hof haim
  exact ⟨subscriber, command, retries, answer, hends, heach.node.options ▸ hcommand⟩

/-- When a call to subscribe succeeds, the table holds its pattern. -/
theorem holds_of_done {node : Node} (hqueue : node.queue = []) (last : Move) {scope : Scope} {pattern : String}
    {subscriber : Subscriber} (hcall : (Crowd.calls (moves ++ [last]))[i]? = some (.subscribe scope pattern subscriber))
    (hbefore : (Crowd.run { node } moves).task? i ≠ some (.finished .done))
    (hdone : (Crowd.run { node } (moves ++ [last])).task? i = some (.finished .done)) :
    ∃ full, node.identity.fullTopic scope pattern = .ok full ∧
      (Crowd.run { node } (moves ++ [last])).node.table.holds full = true := by
  have heach : (Crowd.run { node } moves).Each (Owned node.identity node.messaging.qos (Crowd.calls moves))
      (fun call task => task.Of node.identity node.messaging.qos (Crowd.calls moves) call ∧
        task.StandsFor node.identity call) (Crowd.calls moves) :=
    each_fresh (owned_fresh hqueue _) (maintains_standsFor _ _ _)
  have hlast : Crowd.run { node } (moves ++ [last]) = (Crowd.run { node } moves).next last := run_append _ _ _
  rw [hlast] at hdone ⊢
  rw [calls_append] at hcall
  rcases task?_next hdone with hold | ⟨call, rfl, hi, htask⟩ | ⟨task, rfl, htask, hstep⟩
  · exact absurd hold hbefore
  · -- The call succeeds on its first visit.
    obtain rfl : call = .subscribe scope pattern subscriber := by
      rw [hi, length_run] at hcall
      simpa [Crowd.calls, Move.call?] using hcall
    rcases subscribe_cases (Crowd.run { node } moves).node scope pattern subscriber with
      ⟨cause, hfailed⟩ | ⟨full, hfull, hsubscribed, -⟩
    · have hother : Task.finished (.failed cause) = .finished .done := hfailed.symm.trans htask
      cases hother
    · exact ⟨full, heach.node.owner ▸ hfull, hsubscribed.holds htask⟩
  · obtain ⟨call, hsome, -, hstands⟩ := heach.tasks i task htask
    have hnone : Crowd.calls [.step i] = [] := rfl
    rw [hnone, List.append_nil, hsome] at hcall
    have hunfinished : ¬task.isFinished := fun hfinished => by
      rw [step_finished hfinished] at hstep
      exact hbefore (htask.trans (congrArg some hstep))
    rcases hstands scope pattern subscriber (Option.some.inj hcall) with ⟨cause, rfl⟩ | ⟨full, hfull, hsubscribes⟩
    · exact absurd rfl hunfinished
    · obtain ⟨hsubscribed, -⟩ := subscribed_step (Crowd.run { node } moves).node hsubscribes hunfinished
      rw [next_step htask]
      exact ⟨full, hfull, hsubscribed.holds hstep⟩

/-- A call to subscribe that succeeds while a broker session is open: the modem has acknowledged the pattern in this
    session exactly if there was a moment in the session at which the table did not hold it. -/
theorem acknowledged_in_session_iff (node : Node) (hstatus : node.status = {}) (hqueue : node.queue = [])
    (moves : List Move) (last : Move) (i : Nat) (scope : Scope) (pattern : String) (subscriber : Subscriber)
    (hturn : inTurn { node } (moves ++ [last]))
    (hcall : (Crowd.calls (moves ++ [last]))[i]? = some (.subscribe scope pattern subscriber))
    (hbefore : (Crowd.run { node } moves).task? i ≠ some (.finished .done))
    (hdone : (Crowd.run { node } (moves ++ [last])).task? i = some (.finished .done))
    (hopen : (Crowd.run { node } (moves ++ [last])).node.status.broker = .connected) :
    ∃ full before opening since, node.identity.fullTopic scope pattern = .ok full ∧
      moves ++ [last] = before ++ opening :: since ∧ Opens (Crowd.run { node } before) opening ∧
      (∀ earlier later, since = earlier ++ later →
        (Crowd.run { node } (before ++ opening :: earlier)).node.status.broker = .connected ∧
          ∀ move ∈ later.head?, ¬Opens (Crowd.run { node } (before ++ opening :: earlier)) move) ∧
      ((∃ earlier move later, since = earlier ++ move :: later ∧
          Acknowledges (Crowd.run { node } (before ++ opening :: earlier)) full move) ↔
        ∃ earlier later, since = earlier ++ later ∧
          (Crowd.run { node } (before ++ opening :: earlier)).node.table.holds full = false) := by
  obtain ⟨full, hfull, hholds⟩ := holds_of_done hqueue last hcall hbefore hdone
  have hclosed : ¬({ node } : Crowd).node.status.broker = .connected := by simp [hstatus]
  obtain ⟨before, opening, since, hsplit, hopens, hsession⟩ :=
    exists_last (P := fun crowd => crowd.node.status.broker = .connected) broker_next hclosed hopen
  refine ⟨full, before, opening, since, hfull, hsplit, hopens, hsession, ?_, ?_⟩
  · rintro ⟨earlier, move, later, rfl, subscriber', command, retries, answer, hends, -⟩
    refine ⟨earlier, move :: later, rfl, ?_⟩
    -- Who asked for the pattern was alone and had found that nobody held it.
    have hinTurn : inTurn { node } (before ++ opening :: earlier) := by
      have hsplit' : moves ++ [last] = (before ++ opening :: earlier) ++ move :: later := by simp [hsplit]
      rw [hsplit', inTurn_append, Bool.and_eq_true] at hturn
      exact hturn.1
    obtain ⟨j, task, -, htask, haim⟩ := task_of_concludes? hends
    exact (alone_run hqueue hinTurn).absent j task full htask (by rw [Task.seeks?, haim]; rfl)
  · rintro ⟨earlier, later, rfl, hnot⟩
    have hend : ((Crowd.run { node } (before ++ opening :: earlier)).run later).node.table.holds full = true := by
      rw [← run_append, List.append_assoc, List.cons_append, ← hsplit]
      exact hholds
    obtain ⟨between, move, rest, rfl, ⟨subscriber', command, retries, answer, hends⟩, -⟩ :=
      exists_last (P := fun crowd => crowd.node.table.holds full = true) holds_next (by simp [hnot]) hend
    rw [← run_append, List.append_assoc, List.cons_append] at hends
    exact ⟨earlier ++ between, move, rest, by simp, acknowledges_of_concludes hqueue hends⟩

end

/-- A modem that does everything it is told. -/
def obeying : List Modem.Rule :=
  [("AT+RST", ""), ("AT+CWJAP", "WIFI GOT IP\r\n"), ("AT+MQTTCONN", "+MQTTCONNECTED\r\n"), ("AT", "OK\r\n")].map
    fun (trigger, reply) => { trigger := Text.encode trigger, replies := [⟨0, Text.encode reply⟩] }

def turns (i n : Nat) : List Move := List.replicate n (.step i)

/-- From power-on to an open session. -/
def intoSession (broker : Broker) : List Move :=
  .start .powerUp :: turns 0 3 ++ .advance 500000 :: turns 0 5 ++ .start (.join ⟨"net", "pw"⟩) :: turns 1 2 ++
    .start (.openBroker broker) :: turns 2 3

/-- A pattern that is new to the table when the session opens. -/
theorem acknowledged_in_first_session :
    let node : Node := { link := { rules := obeying }, table := { capacity := 4 }, depth := 1 }
    let broker : Broker := { host := "h", tcpPort := 1883, clientId := "c" }
    let moves := intoSession broker ++ [.start (.subscribe .remote "p" 0), .step 3]
    (Crowd.run { node } (moves ++ [.step 3])).task? 3 = some (.finished .done) ∧
      ∃ before move since, moves ++ [.step 3] = before ++ move :: since ∧ Opens (Crowd.run { node } before) move ∧
        ∃ earlier event later, since = earlier ++ event :: later ∧
          Acknowledges (Crowd.run { node } (before ++ move :: earlier)) "p" event := by
  intro node broker moves
  have hdone : (Crowd.run { node } (moves ++ [.step 3])).task? 3 = some (.finished .done) := by decide +kernel
  obtain ⟨full, before, move, since, hfull, hsplit, hopens, -, hiff⟩ :=
    acknowledged_in_session_iff node rfl rfl moves (.step 3) 3 .remote "p" 0 (by decide +kernel) rfl (by decide +kernel)
      hdone (by decide +kernel)
  obtain rfl : full = "p" := by cases hfull; rfl
  refine ⟨hdone, before, move, since, hsplit, hopens, hiff.mpr ⟨[], since, rfl, ?_⟩⟩
  -- The table does not hold the pattern until the last move, which does not open the session.
  have habsent : ∀ n < moves.length + 1, (Crowd.run { node } (moves.take n)).node.table.holds "p" = false := by
    decide +kernel
  rcases List.eq_nil_or_concat since with rfl | ⟨rest, last, rfl⟩
  · obtain ⟨rfl, hmove⟩ := List.append_inj' hsplit rfl
    cases hmove
    obtain ⟨retry, answer, hends⟩ := hopens
    obtain ⟨i, task, hstep, htask, haim⟩ := task_of_concludes? hends
    cases hstep
    have hseeks : ((Crowd.run { node } moves).task? 3).bind Task.seeks? = some "p" := by decide +kernel
    rw [htask, Option.bind_some, Task.seeks?, haim] at hseeks
    cases hseeks
  · have hinit : moves ++ [.step 3] = (before ++ move :: rest) ++ [last] := by simp [hsplit]
    obtain ⟨hmoves, -⟩ := List.append_inj' hinit rfl
    have hbefore : before ++ [move] = moves.take (before.length + 1) := by simp [hmoves, List.take_append]
    rw [hbefore]
    exact habsent _ (by simp [hmoves])

/-- A pattern that the table still holds from the session before: the second call comes to an end at once, and nothing
    is written for it. -/
theorem silent_in_second_session :
    let node : Node := { link := { rules := obeying }, table := { capacity := 4 }, depth := 1 }
    let broker : Broker := { host := "h", tcpPort := 1883, clientId := "c" }
    let before := intoSession broker ++ .start (.subscribe .remote "p" 0) :: turns 3 2 ++
      .start .closeBroker :: turns 4 2 ++ .start (.openBroker broker) :: turns 5 2
    let opened := Crowd.run { node } (before ++ [.step 5])
    let last : Move := .start (.subscribe .remote "p" 1)
    inTurn { node } (before ++ [.step 5, last]) ∧ Opens (Crowd.run { node } before) (.step 5) ∧
      (opened.next last).node.status.broker = .connected ∧ (opened.next last).task? 6 = some (.finished .done) ∧
      ¬Acknowledges opened "p" last ∧ (opened.next last).node.link.sent = opened.node.link.sent := by
  intro node broker before opened last
  refine ⟨by decide +kernel, ⟨none, "", by decide +kernel⟩, by decide +kernel, by decide +kernel, ?_,
    by decide +kernel⟩
  rintro ⟨subscriber, command, retries, answer, hends, -⟩
  cases hends

end Crowd
end SensorLink
