import SensorLink.Proofs.Answering
import SensorLink.Proofs.Attempts
import SensorLink.Proofs.Fitting

/-! The operations on the connection: joining and leaving a network, opening and closing a session. One whose
    precondition is not met, or whose command does not fit, is refused at once (`Operation.start_refused`). Any other is an
    attempt (`Operation.exists_attempt`), and changes the status when it succeeds and only then. -/

namespace SensorLink
open Dialogue

/-- A request that asks for an answer whose start fits the slot. -/
def Dialogue.Request.IsQuestion (request : Request) : Prop :=
  ∃ parts expected timeout, request = .ask parts expected timeout ∧ expected.utf8ByteSize ≤ Limits.expected

inductive Operation where
  | join (credentials : Credentials)
  | leave
  | openBroker (broker : Broker)
  | closeBroker

namespace Operation

def call : Operation → Call
  | join credentials => .join credentials
  | leave => .leave
  | openBroker broker => .openBroker broker
  | closeBroker => .closeBroker

/-- Why an operation is not possible in a status. -/
def refusal? (status : Status) : Operation → Option (Failure Fault)
  | join _ =>
    if status.chip ≠ .ready then some .chipNotReady
    else if status.link = .connected then some .alreadyConnected else none
  | leave =>
    if status.chip ≠ .ready then some .chipNotReady
    else if status.link = .disconnected then some .notConnected else none
  | openBroker _ =>
    if status.chip ≠ .ready then some .chipNotReady
    else if status.link ≠ .connected then some .notConnected
    else if status.broker = .connected then some .alreadyConnected else none
  | closeBroker => if status.broker = .disconnected then some .notConnected else none

/-- The attempt that an operation makes once, if its commands fit. -/
def attempt? (options : UplinkOptions) : Operation → Option Attempt
  | join credentials => Attempt.join? options credentials none
  | leave => some (Attempt.leave options)
  | openBroker broker => Attempt.openSession? options broker none
  | closeBroker => Command.closeSession?.map (Attempt.closeSession options)

/-- The requests that an operation makes of a node, or why it makes none. -/
def plan (node : Node) (operation : Operation) : Except (Failure Fault) (List Request) :=
  match operation.refusal? node.status, operation.attempt? node.uplink with
  | some cause, _ => .error cause
  | none, none => .error .commandTooLong
  | none, some attempt => .ok attempt.requests

/-- The status that an operation leads to when it succeeds. -/
def reached (status : Status) : Operation → Status
  | join _ => { status with link := .connected }
  | leave => { status with link := .disconnected, broker := .disconnected }
  | openBroker _ => { status with broker := .connected }
  | closeBroker => { status with broker := .disconnected }

/-- How it reports a request that failed. -/
def report (cause : Failure Fault) : Operation → Failure Fault
  | join _ => Node.refusal .joinFailed cause
  | leave => Node.refusal .leaveFailed cause
  | openBroker _ => Node.refusal .brokerRefused cause
  | closeBroker => cause

section
variable {node : Node} {operation : Operation} {cause : Failure Fault} {requests : List Request}

/-- To join a network is refused, or it is an attempt, once or as one of several tries. -/
theorem join_eq (node : Node) (credentials : Credentials) (retry : Option (Retry Credentials)) :
    node.join credentials retry =
      match (join credentials).refusal? node.status, Attempt.join? node.uplink credentials retry with
      | some cause, _ => node.conclude retry .rejoin (.error cause)
      | none, none => node.conclude retry .rejoin (.error .commandTooLong)
      | none, some attempt => attempt.begin := by
  unfold Node.join Node.joinCommand refusal?
  by_cases hready : node.status.chip ≠ .ready
  · simp only [if_pos hready]
  · by_cases hlink : node.status.link = .connected
    · simp only [if_neg hready, if_pos hlink]
    · simp only [if_neg hready, if_neg hlink, Attempt.join?]
      cases Command.join? credentials <;> rfl

theorem openBroker_eq (node : Node) (broker : Broker) (retry : Option (Retry Broker)) :
    node.openBroker broker retry =
      match (openBroker broker).refusal? node.status, Attempt.openSession? node.uplink broker retry with
      | some cause, _ => node.conclude retry .reopen (.error cause)
      | none, none => node.conclude retry .reopen (.error .commandTooLong)
      | none, some attempt => attempt.begin := by
  unfold Node.openBroker Node.sessionCommands refusal?
  by_cases hready : node.status.chip ≠ .ready
  · simp only [if_pos hready]
  · by_cases hlink : node.status.link ≠ .connected
    · simp only [if_neg hready, if_pos hlink]
    · by_cases hbroker : node.status.broker = .connected
      · simp only [if_neg hready, if_neg hlink, if_pos hbroker]
      · simp only [if_neg hready, if_neg hlink, if_neg hbroker, Attempt.openSession?]
        cases Command.userConfig? broker with
        | none => rfl
        | some user => cases Command.openSession? broker <;> rfl

/-- A call does nothing to the node at once. It is refused, or it is to make the first request of its attempt. -/
theorem start_eq (node : Node) (operation : Operation) : operation.call.start node = (node,
    match operation.refusal? node.status, operation.attempt? node.uplink with
    | some cause, _ => .finished (.failed cause)
    | none, none => .finished (.failed .commandTooLong)
    | none, some attempt => attempt.begin) := by
  cases operation with
  | join credentials => exact congrArg (node, ·) (join_eq node credentials none)
  | openBroker broker => exact congrArg (node, ·) (openBroker_eq node broker none)
  | leave =>
    simp only [call, Call.start, Node.leave, refusal?, attempt?]
    split
    · rfl
    · split <;> rfl
  | closeBroker =>
    simp only [call, Call.start, Node.closeBroker, refusal?, attempt?]
    split
    · rfl
    · cases Command.closeSession? <;> rfl

theorem start_refused (h : operation.plan node = .error cause) :
    operation.call.start node = (node, .finished (.failed cause)) := by
  rw [start_eq]
  unfold plan at h
  split at h <;> cases h <;> rfl

theorem cause_of_refusal? {status : Status} (h : operation.refusal? status = some cause) :
    cause ∈ ([.chipNotReady, .alreadyConnected, .notConnected] : List (Failure Fault)) := by
  unfold refusal? at h
  split at h <;> (repeat' split at h) <;> cases h <;> simp

/-- Why an operation is refused: the modem is not ready, what it asks for is so already or cannot be so, or a command does
    not fit. -/
theorem cause_of_refused (h : operation.plan node = .error cause) :
    cause ∈ ([.chipNotReady, .alreadyConnected, .notConnected, .commandTooLong] : List (Failure Fault)) := by
  unfold plan at h
  split at h
  · rename_i hrefused
    cases h
    exact List.mem_append_left [.commandTooLong] (cause_of_refusal? hrefused)
  · cases h
    simp
  · cases h

/-- A command of the operation does not fit. -/
def TooLong : Operation → Prop
  | join credentials => Limits.command <
      String.utf8Len (Command.quote credentials.ssid.toList) + String.utf8Len (Command.quote credentials.password.toList) + 10
  | openBroker broker =>
    Limits.command < String.utf8Len (Command.quote broker.clientId.toList) +
      String.utf8Len (Command.quote broker.username.toList) + String.utf8Len (Command.quote broker.password.toList) + 28 ∨
    Limits.command <
      String.utf8Len (Command.quote broker.host.toList) + (Nat.toDigits 10 broker.tcpPort.toNat).length + 17
  | leave | closeBroker => False

theorem attempt?_eq_none_iff {options : UplinkOptions} : operation.attempt? options = none ↔ operation.TooLong := by
  cases operation with
  | join credentials =>
    rw [attempt?, Attempt.join?, Option.map_eq_none_iff, ← Option.not_isSome_iff_eq_none, Command.join?_isSome_iff,
      Nat.not_le, TooLong]
  | leave => exact iff_of_false nofun id
  | openBroker broker =>
    rw [TooLong, ← Nat.not_le, ← Nat.not_le, ← Command.userConfig?_isSome_iff, ← Command.openSession?_isSome_iff]
    rw [attempt?, Attempt.openSession?]
    cases Command.userConfig? broker with
    | none => simp
    | some user => cases Command.openSession? broker <;> simp
  | closeBroker =>
    refine iff_of_false (fun hnone => ?_) id
    have hsome := Command.closeSession?_isSome
    rw [attempt?, Option.map_eq_none_iff] at hnone
    rw [hnone] at hsome
    cases hsome

/-- An operation that is possible is refused only if one of its commands, with all that is escaped, is too long. -/
theorem plan_eq_too_long_iff :
    operation.plan node = .error .commandTooLong ↔ operation.refusal? node.status = none ∧ operation.TooLong := by
  have hattempt : operation.attempt? node.uplink = none ↔ operation.TooLong := attempt?_eq_none_iff
  rw [← hattempt]
  constructor
  · intro h
    unfold plan at h
    split at h
    · rename_i hrefused
      cases h
      simpa using cause_of_refusal? hrefused
    · rename_i hpossible hnone
      exact ⟨hpossible, hnone⟩
    · cases h
  · rintro ⟨hpossible, hnone⟩
    rw [plan, hpossible, hnone]

/-- What an attempt does that is an operation: its requests are at most two questions that lead to the status of the
    operation, and it reports what came of them. -/
structure Tries (operation : Operation) (options : UplinkOptions) (status : Status) (attempt : Attempt) : Prop where
  sound : attempt.Sound options status (operation.reached status)
  succeeds : ∀ now, attempt.succeeds now = .finished .done
  fails : ∀ now cause, attempt.fails now cause = .finished (.failed (operation.report cause))
  questions : ∀ request ∈ attempt.requests, request.IsQuestion
  few : attempt.later.length ≤ 1

theorem link_of_refusal? {status : Status} {credentials : Credentials} (h : (join credentials).refusal? status = none) :
    status.link = .disconnected := by
  cases hlink : status.link with
  | disconnected => rfl
  | connected =>
    simp only [refusal?, hlink, if_true] at h
    split at h <;> cases h

theorem tries_attempt? {options : UplinkOptions} {status : Status} {attempt : Attempt}
    (hrefusal : operation.refusal? status = none) (h : operation.attempt? options = some attempt) :
    operation.Tries options status attempt := by
  have hcommand {expected : String} (hshort : expected.utf8ByteSize ≤ Limits.expected) (text : String) (timeout : Nat) :
      (Request.command text expected timeout).IsQuestion := ⟨line text, expected, timeout, rfl, hshort⟩
  cases operation with
  | join credentials =>
    obtain ⟨command, -, rfl⟩ := Option.map_eq_some_iff.mp h
    exact ⟨Attempt.join_sound options (link_of_refusal? hrefusal) command none, fun _ => rfl, fun _ _ => rfl,
      List.forall_mem_singleton.mpr (hcommand (by decide) _ _), Nat.zero_le _⟩
  | leave =>
    cases h
    exact ⟨Attempt.leave_sound options status, fun _ => rfl, fun _ _ => rfl,
      List.forall_mem_singleton.mpr (hcommand (by decide) _ _), Nat.zero_le _⟩
  | openBroker broker =>
    obtain ⟨user, -, h⟩ := Option.bind_eq_some_iff.mp h
    obtain ⟨session, -, h⟩ := Option.bind_eq_some_iff.mp h
    cases h
    exact ⟨Attempt.openSession_sound options status user session none, fun _ => rfl, fun _ _ => rfl,
      List.forall_mem_cons.mpr ⟨hcommand (by decide) _ _, List.forall_mem_singleton.mpr (hcommand (by decide) _ _)⟩,
      Nat.le_refl _⟩
  | closeBroker =>
    have hmap : Command.closeSession?.map (Attempt.closeSession options) = some attempt := h
    obtain ⟨command, -, rfl⟩ := Option.map_eq_some_iff.mp hmap
    exact ⟨Attempt.closeSession_sound options status command, fun _ => rfl, fun _ _ => rfl,
      List.forall_mem_singleton.mpr (hcommand (by decide) _ _), Nat.zero_le _⟩

/-- An operation that is not refused is to make the first request of its attempt. -/
theorem exists_attempt (h : operation.plan node = .ok requests) : ∃ attempt, attempt.requests = requests ∧
    operation.call.start node = (node, attempt.begin) ∧ operation.Tries node.uplink node.status attempt := by
  have hstart := start_eq node operation
  unfold plan at h
  split at h
  · cases h
  · cases h
  · rename_i attempt hrefusal hattempt
    cases h
    simp only [hrefusal, hattempt] at hstart
    exact ⟨attempt, rfl, hstart, tries_attempt? hrefusal hattempt⟩

end

/-! ### The task of an operation -/

/-- The task of an operation that began at `origin`, and the node beside it. -/
inductive Runs (operation : Operation) (origin : Node) (attempt : Attempt) (node : Node) (said : Transcript) (task : Task) :
    Prop where
  | on (status : node.status = origin.status) (uplink : node.uplink = origin.uplink)
      (underway : attempt.Underway [] said task)
  | done (status : node.status = operation.reached origin.status) (finished : task = .finished .done)
      (rounds : List Round) (past : said.past = rounds.map .round) (answered : Answered attempt.requests rounds)
  | failed (status : node.status = origin.status) (cause : Failure Fault) (time : Nat)
      (finished : task = .finished (.failed (operation.report cause)))
      (rounds : List Round) (past : said.past = rounds.map .round) (refused : Refused attempt.requests cause time rounds)

section
variable {operation : Operation} {origin node : Node} {attempt : Attempt} {said : Transcript} {task : Task}

theorem runs_step (htries : operation.Tries origin.uplink origin.status attempt)
    (h : operation.Runs origin attempt node said task) :
    operation.Runs origin attempt (node.step task.awaken).1 (said.next node task.awaken) (node.step task.awaken).2 := by
  cases h with
  | on hstatus huplink hunderway =>
    cases Attempt.goes_step htries.sound hstatus huplink hunderway with
    | on link hkeeps hunderway' =>
      refine .on ?_ ?_ hunderway' <;> rw [hkeeps]
      · exact hstatus
      · exact huplink
    | succeeded link rounds hkeeps hleaves hpast hanswered =>
      obtain ⟨now, hleaves⟩ := hleaves
      refine .done ?_ (hleaves.trans (htries.succeeds now)) rounds hpast hanswered
      rw [hkeeps]
    | failed link rounds cause time hkeeps hleaves hpast hrefused =>
      obtain ⟨now, -, hleaves⟩ := hleaves
      refine .failed ?_ cause time (hleaves.trans (htries.fails now cause)) rounds hpast hrefused
      rw [hkeeps]
      exact hstatus
  | done hstatus hfinished rounds hpast hanswered =>
    subst hfinished
    exact .done hstatus rfl rounds ((past_finished said rfl node).trans hpast) hanswered
  | failed hstatus cause time hfinished rounds hpast hrefused =>
    subst hfinished
    exact .failed hstatus cause time rfl rounds ((past_finished said rfl node).trans hpast) hrefused

namespace Runs

theorem of_same {later : Node} (h : operation.Runs origin attempt node said task) (hsame : node.SameUplink later) :
    operation.Runs origin attempt later said task := by
  cases h with
  | on hstatus huplink hunderway => exact .on (hsame.status.trans hstatus) (hsame.uplink.trans huplink) hunderway
  | done hstatus hfinished rounds hpast hanswered =>
    exact .done (hsame.status.trans hstatus) hfinished rounds hpast hanswered
  | failed hstatus cause time hfinished rounds hpast hrefused =>
    exact .failed (hsame.status.trans hstatus) cause time hfinished rounds hpast hrefused

/-- Until it has come to its end, nothing has been refused, and the status is what it was. -/
theorem unfinished (h : operation.Runs origin attempt node said task) (hunfinished : ¬task.isFinished) :
    node.status = origin.status ∧ (∀ round ∈ said.rounds, round.result.isOk) ∧ said.requests <+: attempt.requests := by
  cases h with
  | on hstatus huplink hunderway => exact ⟨hstatus, hunderway.answered⟩
  | done hstatus hfinished rounds hpast hanswered => exact absurd (hfinished ▸ rfl) hunfinished
  | failed hstatus cause time hfinished rounds hpast hrefused => exact absurd (hfinished ▸ rfl) hunfinished

theorem finished {answer : Answer} (h : operation.Runs origin attempt node said task) (hanswer : task = .finished answer) :
    (answer = .done ↔ Answered attempt.requests said.rounds) ∧
      (answer = .done → node.status = operation.reached origin.status) ∧
      (answer ≠ .done → node.status = origin.status ∧ ∃ cause time,
        answer = .failed (operation.report cause) ∧ Refused attempt.requests cause time said.rounds) := by
  cases h with
  | on hstatus huplink hunderway => exact absurd (hanswer ▸ rfl) hunderway.not_isFinished
  | done hstatus hfinished rounds hpast hanswered =>
    cases hfinished.symm.trans hanswer
    rw [rounds_of_past hpast]
    exact ⟨iff_of_true rfl hanswered, fun _ => hstatus, fun hne => absurd rfl hne⟩
  | failed hstatus cause time hfinished rounds hpast hrefused =>
    cases hfinished.symm.trans hanswer
    rw [rounds_of_past hpast]
    exact ⟨iff_of_false nofun hrefused.not_answered, nofun, fun _ => ⟨hstatus, cause, time, rfl, hrefused⟩⟩

theorem ends {crowd : Crowd} {i : Nat} (h : operation.Runs origin attempt crowd.node said task)
    (htries : operation.Tries origin.uplink origin.status attempt) (htask : crowd.task? i = some task)
    (hfree : task.stage? = none → crowd.node.link.held = false) : ∃ visits, (∀ move ∈ visits, Crowd.Move.IsVisit i move) ∧
      ∃ answer, (crowd.run visits).task? i = some (.finished answer) := by
  cases h with
  | on hstatus huplink hunderway =>
    obtain ⟨before, request, stage, ahead, rounds, hscript, hspeaks, -⟩ := hunderway
    obtain ⟨visits, hvisits, now, hend | ⟨cause, hend⟩⟩ :=
      Attempt.ends_attempt htries.sound hstatus huplink hscript htask hspeaks.aim? hfree
    · exact ⟨visits, hvisits, _, hend.trans (congrArg some (htries.succeeds now))⟩
    · exact ⟨visits, hvisits, _, hend.trans (congrArg some (htries.fails now cause))⟩
  | done hstatus hfinished rounds hpast hanswered => exact ⟨[], nofun, .done, hfinished ▸ htask⟩
  | failed hstatus cause time hfinished rounds hpast hrefused => exact ⟨[], nofun, _, hfinished ▸ htask⟩

end Runs

end
end Operation

/-! ### The exchanges of an operation -/

/-- The exchanges of questions that follow one another: each begins where the one before it has closed, if that one was
    answered. -/
def Modem.exchanges (rules : List Rule) (clock : Nat) (buffer : LineBuffer) (coming : List Arrival) :
    List Request → List Exchange
  | .ask parts expected timeout :: rest =>
    let first := exchange rules clock buffer coming parts expected timeout
    match first.close.result with
    | .ok _ => first :: exchanges first.course.rules first.close.time first.close.buffer first.close.coming rest
    | .error _ => [first]
  | _ => []

/-- The request is a question, and this exchange has answered it. -/
def Dialogue.Request.AnsweredIn : Request → Modem.Exchange → Prop
  | .ask _ expected _, exchange => exchange.Answered expected
  | .send _, _ | .pause _, _ | .clear, _ => False

section
variable {rules : List Modem.Rule} {clock : Nat} {buffer : LineBuffer} {coming : List Arrival} {parts : List Bytes}
  {expected : String} {timeout : Nat} {rest : List Request}

/-- Each of them is an exchange of one of the questions. -/
theorem exchanges_sound (hbuffer : buffer.held.length ≤ Limits.line) (requests : List Request) :
    ∀ exchange ∈ Modem.exchanges rules clock buffer coming requests, ∃ clock parts expected timeout,
      .ask parts expected timeout ∈ requests ∧ exchange.Sound clock parts expected timeout := by
  induction requests generalizing rules clock buffer coming with
  | nil => exact nofun
  | cons request rest ih =>
    cases request with
    | ask parts expected timeout =>
      have hfirst := Modem.exchange_sound hbuffer rules clock coming parts expected timeout
      intro exchange hmem
      rw [Modem.exchanges] at hmem
      split at hmem
      · rcases List.mem_cons.mp hmem with rfl | hmem
        · exact ⟨clock, parts, expected, timeout, List.mem_cons_self, hfirst⟩
        · obtain ⟨clock', parts', expected', timeout', hrest, hsound⟩ :=
            ih (Modem.Course.close_fits hbuffer _ _ _) exchange hmem
          exact ⟨clock', parts', expected', timeout', List.mem_cons_of_mem _ hrest, hsound⟩
      · obtain rfl := List.mem_singleton.mp hmem
        exact ⟨clock, parts, expected, timeout, List.mem_cons_self, hfirst⟩
    | _ => exact nofun

end

def Link.exchanges (link : Link) (requests : List Request) : List Modem.Exchange :=
  Modem.exchanges link.rules link.clock link.intake.buffer link.arrivals requests

def Link.exchange (link : Link) (parts : List Bytes) (expected : String) (timeout : Nat) : Modem.Exchange :=
  Modem.exchange link.rules link.clock link.intake.buffer link.arrivals parts expected timeout

section
variable {link after : Link} {parts : List Bytes} {expected : String} {timeout : Nat} {rest : List Request}

theorem exchanges_of_error {cause : Failure Fault} (h : (link.exchange parts expected timeout).close.result = .error cause) :
    link.exchanges (.ask parts expected timeout :: rest) = [link.exchange parts expected timeout] := by
  unfold Link.exchange at h
  rw [Link.exchanges, Modem.exchanges]
  simp only [h]
  rfl

theorem exchanges_of_ok {answer : String} (h : (link.exchange parts expected timeout).close.result = .ok answer)
    (hleft : ((link.exchange parts expected timeout).course.apply link).Left
      (link.exchange parts expected timeout).close after) :
    link.exchanges (.ask parts expected timeout :: rest) = link.exchange parts expected timeout :: after.exchanges rest := by
  unfold Link.exchange at h
  rw [Link.exchanges, Modem.exchanges]
  simp only [h]
  rw [Link.exchanges, hleft.rules, hleft.clock, hleft.buffer, hleft.arrivals]
  rfl

section
variable (hbuffer : link.intake.buffer.held.length ≤ Limits.line)
include hbuffer

theorem answered_iff_ok : (link.exchange parts expected timeout).Answered expected ↔
    ∃ answer, (link.exchange parts expected timeout).close.result = .ok answer :=
  (Modem.exchange_sound hbuffer link.rules link.clock link.arrivals parts expected timeout).closes.ok_iff.symm

theorem not_answered_of_error (rest : List Request) {cause : Failure Fault}
    (h : (link.exchange parts expected timeout).close.result = .error cause) :
    ¬List.Forall₂ Request.AnsweredIn (.ask parts expected timeout :: rest)
      (link.exchanges (.ask parts expected timeout :: rest)) := by
  rw [exchanges_of_error h, List.forall₂_cons]
  rintro ⟨hanswered, -⟩
  obtain ⟨answer, hanswer⟩ := (answered_iff_ok hbuffer).mp hanswered
  cases h.symm.trans hanswer

theorem all_answered_of_ok (rest : List Request) {answer : String}
    (h : (link.exchange parts expected timeout).close.result = .ok answer)
    (hleft : ((link.exchange parts expected timeout).course.apply link).Left
      (link.exchange parts expected timeout).close after) :
    List.Forall₂ Request.AnsweredIn (.ask parts expected timeout :: rest)
        (link.exchanges (.ask parts expected timeout :: rest)) ↔
      List.Forall₂ Request.AnsweredIn rest (after.exchanges rest) := by
  rw [exchanges_of_ok h hleft, List.forall₂_cons]
  exact and_iff_right ((answered_iff_ok hbuffer).mpr ⟨answer, h⟩)

end
end

namespace Operation

/-- How an operation ends whose requests take these exchanges. -/
structure Ends (operation : Operation) (node : Node) (requests : List Request) (exchanges : List Modem.Exchange)
    (last : Node × Option Outcome) : Prop where
  sent : last.1.link.sent = node.link.sent ++ exchanges.flatMap fun exchange => exchange.course.written
  answered : List.Forall₂ Request.AnsweredIn requests exchanges →
    last.2 = some (.answer .done) ∧ last.1.status = operation.reached node.status
  unanswered : ¬List.Forall₂ Request.AnsweredIn requests exchanges →
    (∃ cause, last.2 = some (.answer (.failed (operation.report cause)))) ∧ last.1.status = node.status

section
variable {operation : Operation} {options : UplinkOptions} {status : Status} {attempt : Attempt} {node : Node}
  {before ahead : List (Request × Stage)} {stage : Stage}

theorem ensues_failed {request : Request} {parts : List Bytes} {expected : String} {timeout : Nat} {rest : List Request}
    {after : Link} {cause : Failure Fault} {slack : Nat} (htries : operation.Tries options status attempt)
    (hstatus : node.status = status) (huplink : node.uplink = options) (hmem : (request, stage) ∈ attempt.script)
    (hbuffer : node.link.intake.buffer.held.length ≤ Limits.line)
    (h : (node.link.exchange parts expected timeout).close.result = .error cause)
    (hsent : after.sent = node.link.sent ++ (node.link.exchange parts expected timeout).course.written) :
    let requests := .ask parts expected timeout :: rest
    Thread.Ensues slack (({ node with link := after } : Node).after stage (.error cause))
      (operation.Ends node requests (node.link.exchanges requests)) := by
  rw [after_of_leave (htries.sound.fails { node with link := after } hstatus huplink hmem cause), htries.fails]
  have hnot := not_answered_of_error hbuffer rest h
  refine Thread.ensues_finished ⟨?_, fun hall => absurd hall hnot, fun _ => ⟨⟨cause, rfl⟩, rfl⟩⟩
  rw [exchanges_of_error h]
  exact hsent.trans (congrArg (node.link.sent ++ ·) (List.append_nil _).symm)

/-- The requests of an attempt, from any of them on, take their exchanges. -/
theorem ensues_operation {request : Request} (htries : operation.Tries options status attempt) (node : Node)
    (hstatus : node.status = status) (huplink : node.uplink = options)
    (hscript : attempt.script = before ++ (request, stage) :: ahead) (hslot : node.link.intake.slot.isWaiting = false)
    (halarm : node.link.alarm.unset .answer = {}) (hbuffer : node.link.intake.buffer.held.length ≤ Limits.line)
    (hslack : ahead.length < 16) :
    let requests := request :: ahead.map Prod.fst
    Thread.Ensues (ahead.length + 1) (node, .asking request stage)
      (operation.Ends node requests (node.link.exchanges requests)) := by
  induction ahead generalizing node before request stage with
  | nil =>
    have hmem : (request, stage) ∈ attempt.script := by simp [hscript]
    obtain ⟨parts, expected, timeout, rfl, hfits⟩ := htries.questions request (List.mem_map_of_mem hmem)
    refine Thread.ensues_exchange node hslot hfits halarm hslack fun after hleft => ?_
    let first := node.link.exchange parts expected timeout
    have hleft : (first.course.apply node.link).Left first.close after := hleft
    show Thread.Ensues 0 (({ node with link := after } : Node).after stage first.close.result) _
    rcases hresult : first.close.result with cause | answer
    · exact ensues_failed htries hstatus huplink hmem hbuffer hresult hleft.sent
    · rw [after_of_leave (htries.sound.succeeds { node with link := after } hstatus huplink hscript answer),
        htries.succeeds]
      have hall := (all_answered_of_ok hbuffer [] hresult hleft).mpr .nil
      refine Thread.ensues_finished ⟨?_, fun _ => ⟨rfl, ?_⟩, fun hnot => absurd hall hnot⟩
      · rw [List.map_nil, exchanges_of_ok hresult hleft]
        exact hleft.sent.trans (congrArg (node.link.sent ++ ·) (List.append_nil _).symm)
      · show operation.reached status = _
        rw [hstatus]
  | cons next ahead ih =>
    have hmem : (request, stage) ∈ attempt.script := by simp [hscript]
    obtain ⟨parts, expected, timeout, rfl, hfits⟩ := htries.questions request (List.mem_map_of_mem hmem)
    refine Thread.ensues_exchange node hslot hfits halarm hslack fun after hleft => ?_
    let first := node.link.exchange parts expected timeout
    have hleft : (first.course.apply node.link).Left first.close after := hleft
    show Thread.Ensues (ahead.length + 1) (({ node with link := after } : Node).after stage first.close.result) _
    rcases hresult : first.close.result with cause | answer
    · exact ensues_failed htries hstatus huplink hmem hbuffer hresult hleft.sent
    · rw [after_of_again (htries.sound.again { node with link := after } hstatus huplink hscript answer)]
      have hrest : attempt.script = (before ++ [(.ask parts expected timeout, stage)]) ++ next :: ahead := by simp [hscript]
      have hheld : after.intake.buffer.held.length ≤ Limits.line := by
        rw [hleft.buffer]
        exact Modem.Course.close_fits hbuffer _ _ _
      refine (ih { node with link := after } hstatus huplink hrest hleft.slot hleft.alarm hheld (by
        rw [List.length_cons] at hslack
        omega)).mono fun last hlast => ?_
      have hiff := all_answered_of_ok hbuffer ((next :: ahead).map Prod.fst) hresult hleft
      refine ⟨?_, fun hall => hlast.answered (hiff.mp hall), fun hnot => hlast.unanswered fun hall => hnot (hiff.mpr hall)⟩
      rw [exchanges_of_ok hresult hleft, List.flatMap_cons, ← List.append_assoc]
      exact hlast.sent.trans (congrArg (· ++ _) hleft.sent)

theorem ends_session {requests : List Request} (h : operation.plan node = .ok requests) (hfree : node.link.held = false)
    (hslot : node.link.intake.slot.isWaiting = false) (hbuffer : node.link.intake.buffer.held.length ≤ Limits.line) :
    ∃ visits, ∀ more,
      let record := Session.record (visits + more) node (.start operation.call)
      operation.Ends node requests (node.link.exchanges requests) (record.node, record.outcome) := by
  have hplan : operation.plan node.resetAlarm = .ok requests := h
  obtain ⟨attempt, hrequests, hstart, htries⟩ := exists_attempt hplan
  have hfew := htries.few
  have hends : Thread.Ends (Thread.visit node.resetAlarm (.start operation.call))
      (operation.Ends node requests (node.link.exchanges requests)) := by
    refine Thread.ends_start hstart (show attempt.later.length + 2 ≤ 16 by omega) (Thread.ensues_talk hfree ?_)
    have hensues := ensues_operation htries node.resetAlarm.acquire rfl rfl (List.nil_append _).symm hslot rfl hbuffer
      (show attempt.later.length < 16 by omega)
    have hrequests' : attempt.first.1 :: attempt.later.map Prod.fst = requests := hrequests
    dsimp only at hensues
    rw [hrequests'] at hensues
    refine hensues.mono fun last hlast => ?_
    exact ⟨hlast.sent, hlast.answered, hlast.unanswered⟩
  obtain ⟨visits, hvisits⟩ := Thread.finish_of_ends rfl hends
  exact ⟨visits, hvisits⟩

end
end Operation

/-! ### Runs -/

namespace Crowd

/-- While nobody else works on the connection, and whatever the modem does, an operation goes as follows. If its precondition
    is not met, or a command does not fit (`Operation.plan_eq_too_long_iff`), it is refused at once, whoever holds the
    modem, and nothing is done. Else it makes its requests in their order, each when the one before it has been answered, and
    until it has succeeded the status stays what it was, also when it is given up. It succeeds exactly if all its requests
    are answered, and reports the first that is not. Only success changes the status, to the one that the operation is for.

    It comes to its end if the modem is free at least once when it waits for the modem. If the modem and its slot are free
    from the start, the requests take one exchange each, and to be answered is to get the expected answer in time. -/
theorem operation_atomic (crowd : Crowd) (hothers : ∀ j task, crowd.task? j = some task → task.connects = false)
    (operation : Operation) (during : List Move) (hcalls : ∀ call ∈ Crowd.calls during, call.connects = false) :
    let node := crowd.node
    let i := crowd.tasks.length
    let moves := .start operation.call :: during
    let last := crowd.run moves
    let said := crowd.transcript i {} moves
    (∀ cause, operation.plan node = .error cause →
      cause ∈ ([.chipNotReady, .alreadyConnected, .notConnected, .commandTooLong] : List (Failure Fault)) ∧
        operation.call.start node = (node, .finished (.failed cause))) ∧
    ∀ requests, operation.plan node = .ok requests →
      (∀ task, last.task? i = some task →
        (¬task.isFinished → last.node.status = node.status ∧ (last.next (.drop i)).node.status = node.status ∧
          (∀ round ∈ said.rounds, round.result.isOk) ∧ said.requests <+: requests) ∧
        (∀ answer, task = .finished answer →
          (answer = .done ↔ Answered requests said.rounds) ∧
          (answer = .done → last.node.status = operation.reached node.status) ∧
          (answer ≠ .done → last.node.status = node.status ∧ ∃ cause time,
            answer = .failed (operation.report cause) ∧ Refused requests cause time said.rounds)) ∧
        ((task.stage? = none → last.node.link.held = false) → ∃ visits, (∀ move ∈ visits, Move.IsVisit i move) ∧
          ∃ answer, (last.run visits).task? i = some (.finished answer))) ∧
      (node.link.held = false → node.link.intake.slot.isWaiting = false →
        node.link.intake.buffer.held.length ≤ Limits.line →
          let exchanges := node.link.exchanges requests
          (∀ exchange ∈ exchanges, ∃ clock parts expected timeout, .ask parts expected timeout ∈ requests ∧
            exchange.Sound clock parts expected timeout) ∧
          ∃ visits, ∀ more,
            let record := Session.record (visits + more) node (.start operation.call)
            operation.Ends node requests exchanges (record.node, record.outcome)) := by
  intro node i moves last said
  refine ⟨fun cause hplan => ⟨Operation.cause_of_refused hplan, Operation.start_refused hplan⟩, fun requests hplan =>
    ⟨fun task htask => ?_, fun hfree hslot hbuffer =>
      ⟨exchanges_sound hbuffer requests, Operation.ends_session hplan hfree hslot hbuffer⟩⟩⟩
  obtain ⟨attempt, rfl, hstart, htries⟩ := Operation.exists_attempt hplan
  have hbegin : operation.Runs node attempt (operation.call.start node).1 {} (operation.call.start node).2 := by
    rw [hstart]
    exact .on rfl rfl (Attempt.underway_begin attempt {} rfl)
  have h : operation.Runs node attempt last.node said task :=
    follow_call bystands_connecting Node.SameUplink.refl (fun hsame h => h.of_same hsame) (Operation.runs_step htries)
      hothers hcalls hbegin htask
  refine ⟨fun hunfinished => ?_, fun answer hanswer => h.finished hanswer, h.ends htries htask⟩
  obtain ⟨hstatus, hanswered, hrequests⟩ := h.unfinished hunfinished
  exact ⟨hstatus, (frame_next_drop last i).status.trans hstatus, hanswered, hrequests⟩

/-- The modem takes the name of the user, but does not open a session. -/
theorem operation_atomic_of_unopened_session :
    let userOnly : Modem.Rule := { trigger := Text.encode "AT+MQTTUSERCFG", replies := [⟨0, Text.encode "OK\r\n"⟩] }
    let node : Node := { link := { rules := [userOnly] }, status := { chip := .ready, link := .connected }
                         table := { capacity := 4 }, depth := 1 }
    let operation := Operation.openBroker { host := "h", tcpPort := 1883, clientId := "c" }
    let during : List Move := turns 0 3 ++ .advance 5000000 :: turns 0 1
    let said := Crowd.transcript 0 { node } {} (.start operation.call :: during)
    (Crowd.run { node } (.start operation.call :: during)).task? 0 = some (.finished (.failed .brokerRefused)) ∧
      (Crowd.run { node } (.start operation.call :: during)).node.status = node.status ∧
      ∃ requests, operation.plan node = .ok requests ∧ requests.length = 2 ∧
        ∃ cause time, Refused requests cause time said.rounds := by
  intro userOnly node operation during said
  have hend : (Crowd.run { node } (.start operation.call :: during)).task? 0 =
      some (.finished (.failed .brokerRefused)) := by
    decide +kernel
  obtain ⟨requests, hplan, hlength⟩ : ∃ requests, operation.plan node = .ok requests ∧ requests.length = 2 := by
    refine ⟨_, rfl, ?_⟩
    decide +kernel
  obtain ⟨-, hattempt⟩ := operation_atomic { node } (all_fresh _ node) operation during (by decide)
  obtain ⟨htask, -⟩ := hattempt requests hplan
  obtain ⟨-, hfinished, -⟩ := htask _ hend
  obtain ⟨-, -, hfailed⟩ := hfinished _ rfl
  obtain ⟨hstatus, cause, time, -, hrefused⟩ := hfailed nofun
  exact ⟨hend, hstatus, requests, hplan, hlength, cause, time, hrefused⟩

end Crowd
end SensorLink
