import SensorLink.Proofs.Operations

/-! To join a network, or to open a session, as often as it takes. An attempt that fails leaves the status as it is, so that
    the next one is like the first: what can succeed at all goes on until it does, and what cannot writes nothing for ever
    (`Crowd.pursuit_trace`). -/

namespace SensorLink
open Dialogue

/-- What is tried until it succeeds. -/
inductive Pursuit where
  | network (credentials : Credentials)
  | session (broker : Broker)

namespace Pursuit

def operation : Pursuit → Operation
  | network credentials => .join credentials
  | session broker => .openBroker broker

def call (delay : Nat) : Pursuit → Call
  | network credentials => .joinUntil credentials delay
  | session broker => .openBrokerUntil broker delay

/-- There is nothing left to do. -/
def isUp (status : Status) : Pursuit → Bool
  | network _ => status.link = .connected
  | session _ => status.isOnline

/-- No attempt can be made in the status, or none with a command that fits. -/
def IsBlocked (status : Status) : Pursuit → Prop
  | network credentials =>
    status.chip = .notReady ∨ status.link = .disconnected ∧ Command.join? credentials = none
  | session broker =>
    status.chip = .notReady ∨ status.link = .disconnected ∨
      status.broker = .disconnected ∧ (Command.userConfig? broker = none ∨ Command.openSession? broker = none)

/-- The attempt that follows so many failures. -/
def attempt? (options : UplinkOptions) (delay failures : Nat) : Pursuit → Option Attempt
  | network credentials => Attempt.join? options credentials (some { target := credentials, delay, failures })
  | session broker => Attempt.openSession? options broker (some { target := broker, delay, failures })

/-- What the task does then. -/
def begin (node : Node) (delay failures : Nat) : Pursuit → Task
  | network credentials => node.join credentials (some { target := credentials, delay, failures })
  | session broker => node.openBroker broker (some { target := broker, delay, failures })

/-- The rest after the last of so many failures. -/
def rest (due delay failures : Nat) : Pursuit → Wait
  | network credentials => .rejoin due { target := credentials, delay, failures }
  | session broker => .reopen due { target := broker, delay, failures }

/-- What an attempt does that follows so many failures. -/
structure Tries (pursuit : Pursuit) (options : UplinkOptions) (status : Status) (delay failures : Nat) (attempt : Attempt) :
    Prop where
  sound : attempt.Sound options status (pursuit.operation.reached status)
  succeeds : ∀ now, attempt.succeeds now = .finished (.count failures)
  fails : ∀ now cause, attempt.fails now cause = .parked (pursuit.rest (now.link.clock + delay) delay (failures + 1))

section
variable {pursuit : Pursuit} {node : Node} {delay failures : Nat} {requests : List Request}

theorem start_call (pursuit : Pursuit) (node : Node) (delay : Nat) :
    (pursuit.call delay).start node = (node, pursuit.begin node delay 0) := by
  cases pursuit <;> rfl

/-- The task has nothing to do, or it rests, or it makes an attempt. -/
theorem begin_eq (pursuit : Pursuit) (node : Node) (delay failures : Nat) : pursuit.begin node delay failures =
    match pursuit.operation.refusal? node.status, pursuit.attempt? node.uplink delay failures with
    | some .alreadyConnected, _ => .finished (.count failures)
    | some _, _ | none, none => .parked (pursuit.rest (node.link.clock + delay) delay (failures + 1))
    | none, some attempt => attempt.begin := by
  cases pursuit with
  | network credentials =>
    refine (Operation.join_eq node credentials _).trans ?_
    simp only [operation, attempt?]
    rcases (Operation.join credentials).refusal? node.status with _ | cause
    · cases Attempt.join? node.uplink credentials _ <;> rfl
    · cases cause <;> rfl
  | session broker =>
    refine (Operation.openBroker_eq node broker _).trans ?_
    simp only [operation, attempt?]
    rcases (Operation.openBroker broker).refusal? node.status with _ | cause
    · cases Attempt.openSession? node.uplink broker _ <;> rfl
    · cases cause <;> rfl

/-- All attempts of a task make the requests of the operation. -/
theorem attempt?_requests (pursuit : Pursuit) (options : UplinkOptions) (delay failures : Nat) :
    (pursuit.attempt? options delay failures).map Attempt.requests =
      (pursuit.operation.attempt? options).map Attempt.requests := by
  cases pursuit with
  | network credentials =>
    simp only [attempt?, operation, Operation.attempt?, Attempt.join?]
    cases Command.join? credentials <;> rfl
  | session broker =>
    simp only [attempt?, operation, Operation.attempt?, Attempt.openSession?]
    cases Command.userConfig? broker with
    | none => rfl
    | some user => cases Command.openSession? broker <;> rfl

theorem tries_attempt? {options : UplinkOptions} {status : Status} {attempt : Attempt}
    (hrefusal : pursuit.operation.refusal? status = none) (h : pursuit.attempt? options delay failures = some attempt) :
    pursuit.Tries options status delay failures attempt := by
  cases pursuit with
  | network credentials =>
    obtain ⟨command, -, rfl⟩ := Option.map_eq_some_iff.mp h
    refine ⟨Attempt.join_sound options (Operation.link_of_refusal? hrefusal) command _, fun _ => rfl, fun _ cause => ?_⟩
    cases cause <;> rfl
  | session broker =>
    obtain ⟨user, -, h⟩ := Option.bind_eq_some_iff.mp h
    obtain ⟨session, -, h⟩ := Option.bind_eq_some_iff.mp h
    cases h
    refine ⟨Attempt.openSession_sound options status user session _, fun _ => rfl, fun _ cause => ?_⟩
    cases cause <;> rfl

theorem begin_up (h : pursuit.operation.refusal? node.status = some .alreadyConnected) :
    pursuit.begin node delay failures = .finished (.count failures) := by
  rw [begin_eq, h]

theorem begin_refused {cause : Failure Fault} (h : pursuit.operation.plan node = .error cause)
    (hne : cause ≠ .alreadyConnected) :
    pursuit.begin node delay failures = .parked (pursuit.rest (node.link.clock + delay) delay (failures + 1)) := by
  rw [begin_eq]
  have hrequests := attempt?_requests pursuit node.uplink delay failures
  unfold Operation.plan at h
  split at h
  · rename_i hrefusal
    cases h
    rw [hrefusal]
    cases cause <;> first | rfl | exact absurd rfl hne
  · rename_i hrefusal hattempt
    rw [hattempt, Option.map_none, Option.map_eq_none_iff] at hrequests
    rw [hrefusal, hrequests]
  · cases h

theorem begin_planned (h : pursuit.operation.plan node = .ok requests) (delay failures : Nat) :
    ∃ attempt, attempt.requests = requests ∧ pursuit.begin node delay failures = attempt.begin ∧
      pursuit.Tries node.uplink node.status delay failures attempt := by
  have hrequests := attempt?_requests pursuit node.uplink delay failures
  unfold Operation.plan at h
  split at h
  · cases h
  · cases h
  · rename_i single hrefusal hsingle
    cases h
    rw [hsingle] at hrequests
    obtain ⟨attempt, hattempt, hsame⟩ := Option.map_eq_some_iff.mp hrequests
    refine ⟨attempt, hsame, ?_, tries_attempt? hrefusal hattempt⟩
    rw [begin_eq, hrefusal, hattempt]

theorem refusal?_of_up (hordered : node.status.Ordered) (h : pursuit.isUp node.status) :
    pursuit.operation.refusal? node.status = some .alreadyConnected := by
  cases pursuit with
  | network credentials =>
    have hlink : node.status.link = .connected := by simpa [isUp] using h
    simp [operation, Operation.refusal?, hlink, hordered.link hlink]
  | session broker =>
    obtain ⟨hlink, hbroker⟩ : node.status.link = .connected ∧ node.status.broker = .connected := by
      simpa [isUp, Status.isOnline] using h
    simp [operation, Operation.refusal?, hlink, hbroker, hordered.link hlink]

theorem plan_of_refusal {cause : Failure Fault} (h : pursuit.operation.refusal? node.status = some cause) :
    pursuit.operation.plan node = .error cause := by
  rw [Operation.plan, h]

/-- If no command fits, only success or a refusal comes before. -/
theorem plan_of_unfit (h : pursuit.operation.attempt? node.uplink = none)
    (hdown : pursuit.operation.refusal? node.status ≠ some .alreadyConnected) :
    ∃ cause, pursuit.operation.plan node = .error cause ∧ cause ≠ .alreadyConnected := by
  rcases hrefusal : pursuit.operation.refusal? node.status with _ | cause
  · refine ⟨.commandTooLong, ?_, nofun⟩
    rw [Operation.plan, hrefusal, h]
  · exact ⟨cause, plan_of_refusal hrefusal, fun heq => hdown (hrefusal.trans (congrArg some heq))⟩

theorem openSession?_eq_none {options : UplinkOptions} {broker : Broker} {retry : Option (Retry Broker)}
    (h : Command.userConfig? broker = none ∨ Command.openSession? broker = none) :
    Attempt.openSession? options broker retry = none := by
  rw [Attempt.openSession?]
  rcases h with h | h
  · rw [h]
    rfl
  · rw [h]
    cases Command.userConfig? broker <;> rfl

theorem plan_of_notReady (h : node.status.chip = .notReady) : pursuit.operation.plan node = .error .chipNotReady := by
  cases pursuit <;> exact plan_of_refusal (by simp [operation, Operation.refusal?, h])

theorem plan_of_blocked (pursuit : Pursuit) (node : Node) (h : pursuit.IsBlocked node.status) :
    ∃ cause, pursuit.operation.plan node = .error cause ∧ cause ≠ .alreadyConnected := by
  rcases hchip : node.status.chip with _ | _
  · refine ⟨.chipNotReady, plan_of_notReady hchip, fun heq => ?_⟩
    cases heq
  have hready : node.status.chip ≠ .notReady := fun heq => by cases hchip.symm.trans heq
  cases pursuit with
  | network credentials =>
    obtain ⟨hlink, hcommand⟩ := h.resolve_left hready
    refine plan_of_unfit (by simp [operation, Operation.attempt?, Attempt.join?, hcommand]) fun hup => ?_
    simp [operation, Operation.refusal?, hlink, hchip] at hup
  | session broker =>
    obtain hlink | ⟨hbroker, hcommand⟩ := h.resolve_left hready
    · refine ⟨.notConnected, plan_of_refusal (by simp [operation, Operation.refusal?, hchip, hlink]), fun heq => ?_⟩
      cases heq
    · refine plan_of_unfit (openSession?_eq_none hcommand) fun hup => ?_
      rcases hlink : node.status.link with _ | _ <;>
        simp [operation, Operation.refusal?, hbroker, hlink, hchip] at hup

theorem plan_of_attempt (attempt : Attempt) (h : pursuit.operation.refusal? node.status = none)
    (hattempt : pursuit.operation.attempt? node.uplink = some attempt) :
    pursuit.operation.plan node = .ok attempt.requests := by
  rw [Operation.plan, h, hattempt]

/-- What is neither up nor blocked can be tried. -/
theorem plan_cases (pursuit : Pursuit) (node : Node) : pursuit.isUp node.status ∨ pursuit.IsBlocked node.status ∨
    ∃ requests, pursuit.operation.plan node = .ok requests := by
  rcases hchip : node.status.chip with _ | _
  · cases pursuit <;> exact .inr (.inl (.inl hchip))
  · cases pursuit with
    | network credentials =>
      rcases hlink : node.status.link with _ | _
      · rcases hcommand : Command.join? credentials with _ | command
        · exact .inr (.inl (.inr ⟨hlink, hcommand⟩))
        · refine .inr (.inr ⟨_, plan_of_attempt (Attempt.join node.uplink command none) ?_ ?_⟩)
          · simp [operation, Operation.refusal?, hchip, hlink]
          · simp [operation, Operation.attempt?, Attempt.join?, hcommand]
      · exact .inl (by simp [isUp, hlink])
    | session broker =>
      rcases hlink : node.status.link with _ | _
      · exact .inr (.inl (.inr (.inl hlink)))
      rcases hbroker : node.status.broker with _ | _
      · rcases huser : Command.userConfig? broker with _ | user
        · exact .inr (.inl (.inr (.inr ⟨hbroker, .inl huser⟩)))
        rcases hsession : Command.openSession? broker with _ | session
        · exact .inr (.inl (.inr (.inr ⟨hbroker, .inr hsession⟩)))
        refine .inr (.inr ⟨_, plan_of_attempt (Attempt.openSession node.uplink user session none) ?_ ?_⟩)
        · simp [operation, Operation.refusal?, hchip, hlink, hbroker]
        · simp [operation, Operation.attempt?, Attempt.openSession?, huser, hsession]
      · exact .inl (by simp [isUp, Status.isOnline, hlink, hbroker])

/-- What is tried and succeeds is up. -/
theorem isUp_reached (h : pursuit.operation.plan node = .ok requests) :
    pursuit.isUp (pursuit.operation.reached node.status) := by
  cases pursuit with
  | network credentials => rfl
  | session broker =>
    rcases hlink : node.status.link with _ | _
    · obtain ⟨cause, hplan, -⟩ := plan_of_blocked (session broker) node (.inr (.inl hlink))
      cases h.symm.trans hplan
    · simp [isUp, operation, Operation.reached, Status.isOnline, hlink]

end
end Pursuit

/-! ### The task -/

/-- An attempt that failed, and the rest after it. -/
structure Setback where
  rounds : List Round
  cause : Failure Fault
  ended : Nat
  resumed : Nat

/-- What has been said in it. -/
def Setback.passages (delay : Nat) (setback : Setback) : List Passage :=
  setback.rounds.map .round ++ [.rest (setback.ended + delay) setback.resumed]

/-- The attempt has failed, and the rest began when it had and lasted until its delay was over. -/
structure Setback.Sound (requests : List Request) (delay : Nat) (setback : Setback) : Prop where
  refused : Refused requests setback.cause setback.ended setback.rounds
  rested : setback.ended + delay ≤ setback.resumed

namespace Pursuit

/-- The task of what is tried until it succeeds, and began at `origin`. -/
inductive Runs (pursuit : Pursuit) (origin : Node) (delay : Nat) (requests : List Request) (node : Node)
    (said : Transcript) (task : Task) : Prop where
  | trying (setbacks : List Setback) (sound : ∀ setback ∈ setbacks, setback.Sound requests delay)
      (status : node.status = origin.status) (uplink : node.uplink = origin.uplink) (attempt : Attempt)
      (same : attempt.requests = requests) (tries : pursuit.Tries origin.uplink origin.status delay setbacks.length attempt)
      (underway : attempt.Underway (setbacks.flatMap (Setback.passages delay)) said task)
  | resting (setbacks : List Setback) (sound : ∀ setback ∈ setbacks, setback.Sound requests delay)
      (status : node.status = origin.status) (uplink : node.uplink = origin.uplink) (rounds : List Round)
      (cause : Failure Fault) (ended : Nat) (refused : Refused requests cause ended rounds)
      (past : said.past = setbacks.flatMap (Setback.passages delay) ++ rounds.map .round) (silent : said.current = none)
      (rests : task.awaken = .checking (pursuit.rest (ended + delay) delay (setbacks.length + 1)))
  | up (setbacks : List Setback) (sound : ∀ setback ∈ setbacks, setback.Sound requests delay)
      (status : node.status = pursuit.operation.reached origin.status) (rounds : List Round)
      (answered : Answered requests rounds)
      (past : said.past = setbacks.flatMap (Setback.passages delay) ++ rounds.map .round)
      (finished : task = .finished (.count setbacks.length))

section
variable {pursuit : Pursuit} {origin node : Node} {delay failures due : Nat} {requests : List Request} {said : Transcript}
  {task : Task}

theorem step_rest (pursuit : Pursuit) (node : Node) (due delay failures : Nat) :
    node.step (.checking (pursuit.rest due delay failures)) = if due ≤ node.link.clock
      then (node, pursuit.begin node delay failures) else (node, .parked (pursuit.rest due delay failures)) := by
  cases pursuit <;> rfl

theorem next_rest (pursuit : Pursuit) (node : Node) (due delay failures : Nat) (hsilent : said.current = none) :
    said.next node (.checking (pursuit.rest due delay failures)) =
      { past := said.past ++ if due ≤ node.link.clock then [.rest due node.link.clock] else [] } := by
  have hrested : (node.rested? (.checking (pursuit.rest due delay failures))).toList =
      if due ≤ node.link.clock then [.rest due node.link.clock] else [] := by
    cases pursuit <;> simp only [rest, Node.rested?] <;> split <;> rfl
  have hconcludes : node.concludes? (.checking (pursuit.rest due delay failures)) = none := by
    cases pursuit <;> rfl
  have hcurrent (written : List Bytes) : said.goOn written (.checking (pursuit.rest due delay failures)) = none := by
    show said.current.map _ = none
    rw [hsilent]
    rfl
  simp only [Transcript.next, hconcludes, hcurrent, hrested]

theorem plan_congr (operation : Operation) (hstatus : node.status = origin.status) (huplink : node.uplink = origin.uplink) :
    operation.plan node = operation.plan origin := by
  rw [Operation.plan, Operation.plan, hstatus, huplink]

theorem runs_step (hplan : pursuit.operation.plan origin = .ok requests)
    (h : pursuit.Runs origin delay requests node said task) :
    pursuit.Runs origin delay requests (node.step task.awaken).1 (said.next node task.awaken) (node.step task.awaken).2 := by
  cases h with
  | trying setbacks hsound hstatus huplink attempt hsame htries hunderway =>
    subst hsame
    cases Attempt.goes_step htries.sound hstatus huplink hunderway with
    | on link hkeeps hunderway' =>
      refine .trying setbacks hsound ?_ ?_ attempt rfl htries hunderway' <;> rw [hkeeps]
      · exact hstatus
      · exact huplink
    | succeeded link rounds hkeeps hleaves hpast hanswered =>
      obtain ⟨now, hleaves⟩ := hleaves
      refine .up setbacks hsound ?_ rounds hanswered hpast (hleaves.trans (htries.succeeds now))
      rw [hkeeps]
    | failed link rounds cause time hkeeps hleaves hpast hrefused hsilent =>
      obtain ⟨now, hnow, hleaves⟩ := hleaves
      have hrests : (node.step task.awaken).2 = .parked (pursuit.rest (time + delay) delay (setbacks.length + 1)) := by
        rw [hleaves, htries.fails, hnow]
      refine .resting setbacks hsound ?_ ?_ rounds cause time hrefused hpast hsilent (by rw [hrests]; rfl) <;> rw [hkeeps]
      · exact hstatus
      · exact huplink
  | resting setbacks hsound hstatus huplink rounds cause ended hrefused hpast hsilent hrests =>
    rw [hrests, step_rest, next_rest _ _ _ _ _ hsilent]
    by_cases hdue : ended + delay ≤ node.link.clock
    · -- The rest is over, and the next attempt is like the first.
      let setback : Setback := { rounds, cause, ended, resumed := node.link.clock }
      rw [if_pos hdue, if_pos hdue]
      obtain ⟨attempt, hsame, hbegin, htries⟩ := begin_planned
        ((plan_congr pursuit.operation hstatus huplink).trans hplan) delay (setbacks ++ [setback]).length
      rw [hstatus, huplink] at htries
      have hlength : (setbacks ++ [setback]).length = setbacks.length + 1 := List.length_append
      rw [← hlength, hbegin]
      have hlast : setback.Sound requests delay := ⟨hrefused, hdue⟩
      have hsetbacks : ∀ earlier ∈ setbacks ++ [setback], earlier.Sound requests delay :=
        List.forall_mem_append.mpr ⟨hsound, List.forall_mem_singleton.mpr hlast⟩
      have hflat : said.past ++ [.rest (ended + delay) node.link.clock] =
          (setbacks ++ [setback]).flatMap (Setback.passages delay) := by
        rw [hpast, List.flatMap_append, List.append_assoc, List.flatMap_singleton]
        rfl
      have hunderway :=
        Attempt.underway_begin attempt { past := said.past ++ [.rest (ended + delay) node.link.clock] } rfl
      exact .trying (setbacks ++ [setback]) hsetbacks hstatus huplink attempt hsame htries (hflat ▸ hunderway)
    · rw [if_neg hdue, if_neg hdue, List.append_nil]
      exact .resting setbacks hsound hstatus huplink rounds cause ended hrefused hpast rfl (by cases pursuit <;> rfl)
  | up setbacks hsound hstatus rounds hanswered hpast hfinished =>
    subst hfinished
    exact .up setbacks hsound hstatus rounds hanswered ((past_finished said rfl node).trans hpast) rfl

namespace Runs

theorem of_same {later : Node} (h : pursuit.Runs origin delay requests node said task) (hsame : node.SameUplink later) :
    pursuit.Runs origin delay requests later said task := by
  cases h with
  | trying setbacks hsound hstatus huplink attempt hrequests htries hunderway =>
    exact .trying setbacks hsound (hsame.status.trans hstatus) (hsame.uplink.trans huplink) attempt hrequests htries
      hunderway
  | resting setbacks hsound hstatus huplink rounds cause ended hrefused hpast hsilent hrests =>
    exact .resting setbacks hsound (hsame.status.trans hstatus) (hsame.uplink.trans huplink) rounds cause ended hrefused
      hpast hsilent hrests
  | up setbacks hsound hstatus rounds hanswered hpast hfinished =>
    exact .up setbacks hsound (hsame.status.trans hstatus) rounds hanswered hpast hfinished

theorem unfinished (h : pursuit.Runs origin delay requests node said task) (hunfinished : ¬task.isFinished) :
    node.status = origin.status := by
  cases h with
  | trying setbacks hsound hstatus huplink attempt hrequests htries hunderway => exact hstatus
  | resting setbacks hsound hstatus huplink rounds cause ended hrefused hpast hsilent hrests => exact hstatus
  | up setbacks hsound hstatus rounds hanswered hpast hfinished => exact absurd (hfinished ▸ rfl) hunfinished

/-- At its end it has had as many setbacks as it reports, and then one attempt that succeeded. -/
theorem finished {answer : Answer} (h : pursuit.Runs origin delay requests node said task)
    (hanswer : task = .finished answer) : ∃ (setbacks : List Setback) (rounds : List Round),
      answer = .count setbacks.length ∧ said.past = setbacks.flatMap (Setback.passages delay) ++ rounds.map .round ∧
        (∀ setback ∈ setbacks, setback.Sound requests delay) ∧ Answered requests rounds ∧
        node.status = pursuit.operation.reached origin.status := by
  cases h with
  | trying setbacks hsound hstatus huplink attempt hrequests htries hunderway =>
    exact absurd (hanswer ▸ rfl) hunderway.not_isFinished
  | resting setbacks hsound hstatus huplink rounds cause ended hrefused hpast hsilent hrests =>
    subst hanswer
    cases hrests
  | up setbacks hsound hstatus rounds hanswered hpast hfinished =>
    cases hfinished.symm.trans hanswer
    exact ⟨setbacks, rounds, rfl, hpast, hsound, hanswered, hstatus⟩

end Runs

/-- A task that is blocked rests over and over, and nothing comes of it. -/
structure Stuck (pursuit : Pursuit) (origin : Node) (delay : Nat) (node : Node) (said : Transcript) (task : Task) :
    Prop where
  status : node.status = origin.status
  uplink : node.uplink = origin.uplink
  rests : ∃ due failures, task.awaken = .checking (pursuit.rest due delay failures)
  rounds : said.rounds = []
  silent : said.current = none

theorem awaken_rest (pursuit : Pursuit) (due delay failures : Nat) :
    (Task.parked (pursuit.rest due delay failures)).awaken = .checking (pursuit.rest due delay failures) := rfl

theorem stuck_step (hblocked : pursuit.IsBlocked origin.status) (h : pursuit.Stuck origin delay node said task) :
    pursuit.Stuck origin delay (node.step task.awaken).1 (said.next node task.awaken) (node.step task.awaken).2 := by
  obtain ⟨hstatus, huplink, ⟨due, failures, hrests⟩, hrounds, hsilent⟩ := h
  obtain ⟨cause, hplan, hne⟩ := plan_of_blocked pursuit node (hstatus ▸ hblocked)
  rw [hrests, step_rest, next_rest _ _ _ _ _ hsilent]
  by_cases hdue : due ≤ node.link.clock
  · rw [if_pos hdue, if_pos hdue, begin_refused hplan hne]
    refine ⟨hstatus, huplink, ⟨_, _, awaken_rest _ _ _ _⟩, ?_, rfl⟩
    show (said.past ++ [_]).filterMap Passage.round? = []
    rw [List.filterMap_append]
    exact List.append_eq_nil_iff.mpr ⟨hrounds, rfl⟩
  · rw [if_neg hdue, if_neg hdue, List.append_nil]
    exact ⟨hstatus, huplink, ⟨due, failures, awaken_rest _ _ _ _⟩, hrounds, rfl⟩

theorem Stuck.idle (h : pursuit.Stuck origin delay node said task) :
    ¬task.isFinished ∧ said.requests = [] ∧ (node.step task.awaken).1 = node := by
  obtain ⟨-, -, ⟨due, failures, hrests⟩, hrounds, hsilent⟩ := h
  refine ⟨fun hfinished => ?_, ?_, ?_⟩
  · cases task with
    | finished answer => cases hrests
    | _ => cases hfinished
  · rw [Transcript.requests, hrounds, hsilent]
    rfl
  · rw [hrests, step_rest]
    split <;> rfl

end
end Pursuit

/-! ### Runs -/

namespace Crowd

/-- While nobody else works on the connection, and whatever the modem does, to join a network or to open a session until it
    succeeds goes as follows. If it is up already, this is found at once, and nothing is done. If no attempt can be made, the
    task never comes to an end and never does anything to the node. Else the status is what it was until an attempt
    succeeds, also when the task is given up; and when it has come to its end, the answer is the number of the attempts
    before, each of which failed and was followed by one rest of the delay. -/
theorem pursuit_trace (crowd : Crowd) (hothers : ∀ j task, crowd.task? j = some task → task.connects = false)
    (hordered : crowd.node.status.Ordered) (pursuit : Pursuit) (delay : Nat) (during : List Move)
    (hcalls : ∀ call ∈ Crowd.calls during, call.connects = false) :
    let node := crowd.node
    let i := crowd.tasks.length
    let moves := .start (pursuit.call delay) :: during
    let last := crowd.run moves
    let said := crowd.transcript i {} moves
    (pursuit.isUp node.status → (pursuit.call delay).start node = (node, .finished (.count 0))) ∧
    (pursuit.IsBlocked node.status → ∀ task, last.task? i = some task → ¬task.isFinished ∧ said.requests = [] ∧
      (last.node.step task.awaken).1 = last.node ∧ last.node.status = node.status) ∧
    (¬pursuit.isUp node.status → ¬pursuit.IsBlocked node.status → ∃ requests,
      pursuit.operation.plan node = .ok requests ∧ ∀ task, last.task? i = some task →
        (¬task.isFinished → last.node.status = node.status ∧ (last.next (.drop i)).node.status = node.status) ∧
        ∀ answer, task = .finished answer → ∃ (setbacks : List Setback) (rounds : List Round),
          answer = .count setbacks.length ∧
          said.past = setbacks.flatMap (Setback.passages delay) ++ rounds.map .round ∧
          (∀ setback ∈ setbacks, setback.Sound requests delay) ∧ Answered requests rounds ∧
          last.node.status = pursuit.operation.reached node.status ∧ pursuit.isUp last.node.status) := by
  intro node i moves last said
  refine ⟨fun hup => ?_, fun hblocked task htask => ?_, fun hdown hfree => ?_⟩
  · rw [Pursuit.start_call, Pursuit.begin_up (Pursuit.refusal?_of_up hordered hup)]
  · have hbegin : pursuit.Stuck node delay ((pursuit.call delay).start node).1 {} ((pursuit.call delay).start node).2 := by
      obtain ⟨cause, hplan, hne⟩ := Pursuit.plan_of_blocked pursuit node hblocked
      rw [Pursuit.start_call, Pursuit.begin_refused hplan hne]
      exact ⟨rfl, rfl, ⟨_, _, rfl⟩, rfl, rfl⟩
    have hstuck : pursuit.Stuck node delay last.node said task :=
      follow_call bystands_connecting Node.SameUplink.refl
        (fun hsame h => { h with status := hsame.status.trans h.status, uplink := hsame.uplink.trans h.uplink })
        (Pursuit.stuck_step hblocked) hothers hcalls hbegin htask
    obtain ⟨hunfinished, hrequests, hstep⟩ := hstuck.idle
    exact ⟨hunfinished, hrequests, hstep, hstuck.status⟩
  · obtain ⟨requests, hplan⟩ := ((Pursuit.plan_cases pursuit node).resolve_left hdown).resolve_left hfree
    refine ⟨requests, hplan, fun task htask => ?_⟩
    have hbegin : pursuit.Runs node delay requests ((pursuit.call delay).start node).1 {}
        ((pursuit.call delay).start node).2 := by
      obtain ⟨attempt, hsame, hbegin, htries⟩ := Pursuit.begin_planned hplan delay 0
      rw [Pursuit.start_call, hbegin]
      exact .trying [] nofun rfl rfl attempt hsame htries (Attempt.underway_begin attempt {} rfl)
    have h : pursuit.Runs node delay requests last.node said task :=
      follow_call bystands_connecting Node.SameUplink.refl (fun hsame h => h.of_same hsame) (Pursuit.runs_step hplan)
        hothers hcalls hbegin htask
    refine ⟨fun hunfinished => ?_, fun answer hanswer => ?_⟩
    · have hstatus := h.unfinished hunfinished
      exact ⟨hstatus, (frame_next_drop last i).status.trans hstatus⟩
    · obtain ⟨setbacks, rounds, hcount, hpast, hsound, hanswered, hstatus⟩ := h.finished hanswer
      exact ⟨setbacks, rounds, hcount, hpast, hsound, hanswered, hstatus, hstatus ▸ Pursuit.isUp_reached hplan⟩

/-- The modem does not answer the first command to join. -/
theorem pursuit_trace_of_second_attempt :
    let deaf : Modem.Rule := { trigger := Text.encode "AT+CWJAP", uses := some 1 }
    let node : Node := { link := { rules := deaf :: obeying }, status := { chip := .ready }
                         table := { capacity := 4 }, depth := 1 }
    let pursuit := Pursuit.network ⟨"net", "pw"⟩
    let during : List Move := turns 0 2 ++ .advance 10000000 :: turns 0 1 ++ .advance 11000000 :: turns 0 3
    let said := Crowd.transcript 0 { node } {} (.start (pursuit.call retryDelay) :: during)
    (Crowd.run { node } (.start (pursuit.call retryDelay) :: during)).task? 0 = some (.finished (.count 1)) ∧
      pursuit.isUp (Crowd.run { node } (.start (pursuit.call retryDelay) :: during)).node.status ∧
      ∃ requests, ∃ setback : Setback, ∃ rounds : List Round, setback.Sound requests retryDelay ∧ Answered requests rounds ∧
        said.past = setback.passages retryDelay ++ rounds.map .round := by
  intro deaf node pursuit during said
  have hend : (Crowd.run { node } (.start (pursuit.call retryDelay) :: during)).task? 0 = some (.finished (.count 1)) := by
    decide +kernel
  obtain ⟨-, -, htried⟩ := pursuit_trace { node } (all_fresh _ node) ⟨nofun, nofun⟩ pursuit retryDelay during (by decide)
  have hfree : ¬pursuit.IsBlocked node.status := by
    rintro (hchip | ⟨-, hcommand⟩)
    · cases hchip
    · revert hcommand
      decide
  obtain ⟨requests, -, htask⟩ := htried (by decide) hfree
  obtain ⟨-, hfinished⟩ := htask _ hend
  obtain ⟨setbacks, rounds, hcount, hpast, hsound, hanswered, -, hup⟩ := hfinished _ rfl
  obtain ⟨setback, rfl⟩ := List.length_eq_one_iff.mp (Answer.count.inj hcount).symm
  rw [List.flatMap_singleton] at hpast
  exact ⟨hend, hup, requests, setback, rounds, hsound setback List.mem_cons_self, hanswered, hpast⟩

end Crowd
end SensorLink
