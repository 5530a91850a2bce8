import SensorLink.Proofs.Bystanders

/-! An attempt to bring the connection into another status: requests one after the other, of which each follows when the
    one before it has been answered. Whatever the modem does, a step leaves the status as it is, or the last request has
    been answered, or one has failed and the status is what it was (`Attempt.goes_step`). -/

namespace SensorLink
open Dialogue

namespace Dialogue

/-- All requests have been made, and all of them have been answered. -/
def Answered (requests : List Request) (rounds : List Round) : Prop :=
  rounds.map Round.request = requests ∧ ∀ round ∈ rounds, round.result.isOk

/-- Requests have been made up to one that failed, for this cause and at this time. -/
def Refused (requests : List Request) (cause : Failure Fault) (time : Nat) (rounds : List Round) : Prop :=
  rounds.map Round.request <+: requests ∧ ∃ answered last, rounds = answered ++ [last] ∧
    (∀ round ∈ answered, round.result.isOk) ∧ last.result = .error cause ∧ last.ended = time

theorem Refused.not_answered {requests : List Request} {cause : Failure Fault} {time : Nat} {rounds : List Round}
    (h : Refused requests cause time rounds) : ¬Answered requests rounds := by
  rintro ⟨-, hall⟩
  obtain ⟨-, answered, last, rfl, -, hresult, -⟩ := h
  have hok := hall last (by simp)
  rw [hresult] at hok
  cases hok

end Dialogue

structure Attempt where
  /-- The first request, with the stage of its answer. -/
  first : Request × Stage
  /-- The requests that follow. -/
  later : List (Request × Stage) := []
  /-- What the task does when all have been answered. -/
  succeeds : Node → Task
  /-- What it does when one has failed. -/
  fails : Node → Failure Fault → Task

namespace Attempt

def script (attempt : Attempt) : List (Request × Stage) := attempt.first :: attempt.later

def requests (attempt : Attempt) : List Request := attempt.script.map Prod.fst

/-- The task that is to make the first request. -/
def begin (attempt : Attempt) : Task := .talk attempt.first.1 attempt.first.2

/-- With these options and in this status, the stages do what the attempt says: an answer leads to the next request, the
    last one to the status `reached`, and a failure to nothing. -/
structure Sound (attempt : Attempt) (options : UplinkOptions) (status reached : Status) : Prop where
  again : ∀ (node : Node) {before request stage next ahead}, node.status = status → node.uplink = options →
    attempt.script = before ++ (request, stage) :: next :: ahead → ∀ answer,
      stage.next node (.ok answer) = (node, .again next.1 next.2)
  succeeds : ∀ (node : Node) {before request stage}, node.status = status → node.uplink = options →
    attempt.script = before ++ [(request, stage)] → ∀ answer,
      stage.next node (.ok answer) =
        ({ node with status := reached }, .leave (attempt.succeeds { node with status := reached }))
  fails : ∀ (node : Node) {request stage}, node.status = status → node.uplink = options →
    (request, stage) ∈ attempt.script → ∀ cause,
      stage.next node (.error cause) = (node, .leave (attempt.fails node cause))

/-- The task is about one of the requests, and those before it have been answered. -/
def Underway (attempt : Attempt) (earlier : List Passage) (said : Transcript) (task : Task) : Prop :=
  ∃ before request stage ahead rounds, attempt.script = before ++ (request, stage) :: ahead ∧
    task.Speaks request stage said ∧ said.past = earlier ++ rounds.map .round ∧ Answered (before.map Prod.fst) rounds

/-- How a task goes on that is about a request of the attempt. -/
inductive Goes (attempt : Attempt) (node : Node) (reached : Status) (earlier : List Passage) (after : Node × Task)
    (later : Transcript) : Prop where
  | on (link : Link) (keeps : after.1 = { node with link }) (underway : attempt.Underway earlier later after.2)
  | succeeded (link : Link) (rounds : List Round) (keeps : after.1 = { node with link, status := reached })
      (leaves : ∃ now : Node, after.2 = attempt.succeeds now)
      (past : later.past = earlier ++ rounds.map .round) (answered : Answered attempt.requests rounds)
  | failed (link : Link) (rounds : List Round) (cause : Failure Fault) (time : Nat) (keeps : after.1 = { node with link })
      (leaves : ∃ now : Node, now.link.clock = time ∧ after.2 = attempt.fails now cause)
      (past : later.past = earlier ++ rounds.map .round) (refused : Refused attempt.requests cause time rounds)
      (silent : later.current = none)

section
variable {attempt : Attempt} {node : Node} {options : UplinkOptions} {status reached : Status} {earlier : List Passage}
  {said : Transcript} {task : Task}

theorem Underway.not_isFinished (h : attempt.Underway earlier said task) : ¬task.isFinished := by
  obtain ⟨before, request, stage, ahead, rounds, hscript, hspeaks, -⟩ := h
  exact hspeaks.not_isFinished

theorem underway_begin (attempt : Attempt) (said : Transcript) (hsilent : said.current = none) :
    attempt.Underway said.past said attempt.begin :=
  ⟨[], attempt.first.1, attempt.first.2, attempt.later, [], rfl, .waits rfl hsilent, (List.append_nil _).symm, rfl, nofun⟩

/-- Of an attempt that is under way, all requests have been answered but for the one that has been put last. -/
theorem Underway.answered (h : attempt.Underway [] said task) :
    (∀ round ∈ said.rounds, round.result.isOk) ∧ said.requests <+: attempt.requests := by
  obtain ⟨before, request, stage, ahead, rounds, hscript, hspeaks, hpast, hrequests, hall⟩ := h
  have hrounds : said.rounds = rounds := rounds_of_past hpast
  have hcurrent : (said.current.map Prod.fst).toList <+: [request] := by
    cases hspeaks with
    | waits hawaken hsilent | asks hasks hsilent =>
      rw [hsilent]
      exact List.nil_prefix
    | listens hold hawaken written hcurrent =>
      rw [hcurrent]
      exact List.prefix_refl _
  refine ⟨hrounds ▸ hall, ?_⟩
  rw [Transcript.requests, hrounds, hrequests, requests, hscript, List.map_append]
  refine (List.prefix_append_right_inj _).mpr (hcurrent.trans ?_)
  exact ⟨ahead.map Prod.fst, rfl⟩

theorem goes_step (hsound : attempt.Sound options status reached) (hstatus : node.status = status)
    (huplink : node.uplink = options) (h : attempt.Underway earlier said task) :
    attempt.Goes node reached earlier (node.step task.awaken) (said.next node task.awaken) := by
  obtain ⟨before, request, stage, ahead, rounds, hscript, hspeaks, hpast, hrequests, hanswered⟩ := h
  cases speaks_step node hspeaks with
  | on link hkeeps hspeaks' hpast' =>
    exact .on link hkeeps
      ⟨before, request, stage, ahead, rounds, hscript, hspeaks', hpast'.trans hpast, hrequests, hanswered⟩
  | ended link result written hfollows hpast' hsilent =>
    let last : Round := { request, written, result, ended := link.clock }
    have hstatus' : ({ node with link } : Node).status = status := hstatus
    have huplink' : ({ node with link } : Node).uplink = options := huplink
    have hlater : (said.next node task.awaken).past = earlier ++ (rounds ++ [last]).map .round := by
      rw [hpast', hpast, List.map_append, List.append_assoc]
      rfl
    have hmade : (rounds ++ [last]).map Round.request = (before ++ [(request, stage)]).map Prod.fst := by
      rw [List.map_append, List.map_append, hrequests]
      rfl
    rw [hfollows]
    cases result with
    | error cause =>
      have hmem : (request, stage) ∈ attempt.script := by simp [hscript]
      rw [after_of_leave (hsound.fails { node with link } hstatus' huplink' hmem cause)]
      refine .failed _ (rounds ++ [last]) cause link.clock rfl ⟨_, rfl, rfl⟩ hlater
        ⟨?_, rounds, last, rfl, hanswered, rfl, rfl⟩ hsilent
      have hprefix : before ++ [(request, stage)] <+: before ++ (request, stage) :: ahead := ⟨ahead, by simp⟩
      rw [hmade, requests, hscript]
      exact hprefix.map Prod.fst
    | ok answer =>
      have hall : ∀ round ∈ rounds ++ [last], round.result.isOk := by
        intro round hround
        rcases List.mem_append.mp hround with hround | hround
        · exact hanswered round hround
        · rw [List.mem_singleton.mp hround]
          rfl
      cases ahead with
      | nil =>
        rw [after_of_leave (hsound.succeeds { node with link } hstatus' huplink' hscript answer)]
        refine .succeeded _ (rounds ++ [last]) rfl ⟨_, rfl⟩ hlater ⟨?_, hall⟩
        rw [hmade, requests, hscript]
      | cons next ahead =>
        rw [after_of_again (hsound.again { node with link } hstatus' huplink' hscript answer)]
        refine .on _ rfl ⟨before ++ [(request, stage)], next.1, next.2, ahead, rounds ++ [last], ?_, .asks rfl hsilent,
          hlater, hmade, hall⟩
        rw [hscript, List.append_assoc]
        rfl

/-- From any of its requests on, a task that holds the modem or finds it free brings the attempt to its end. -/
theorem ends_attempt {crowd : Crowd} {i : Nat} {before ahead : List (Request × Stage)} {request : Request} {stage : Stage}
    (hsound : attempt.Sound options status reached) (hstatus : crowd.node.status = status)
    (huplink : crowd.node.uplink = options) (hscript : attempt.script = before ++ (request, stage) :: ahead)
    (htask : crowd.task? i = some task) (haim : task.aim? = some stage)
    (hfree : task.stage? = none → crowd.node.link.held = false) :
    ∃ visits, (∀ move ∈ visits, Crowd.Move.IsVisit i move) ∧ ∃ now,
      (crowd.run visits).task? i = some (attempt.succeeds now) ∨
        ∃ cause, (crowd.run visits).task? i = some (attempt.fails now cause) := by
  induction ahead generalizing crowd before request stage task with
  | nil =>
    obtain ⟨visits, link, result, hvisits, hrun⟩ := Crowd.aim_ends htask haim hfree
    refine ⟨visits, hvisits, ?_⟩
    have hafter := Crowd.task?_went htask (({ crowd.node with link } : Node).after stage result)
    rw [← hrun] at hafter
    cases result with
    | ok answer =>
      rw [after_of_leave (hsound.succeeds { crowd.node with link } hstatus huplink hscript answer)] at hafter
      exact ⟨_, .inl hafter⟩
    | error cause =>
      have hmem : (request, stage) ∈ attempt.script := by simp [hscript]
      rw [after_of_leave (hsound.fails { crowd.node with link } hstatus huplink hmem cause)] at hafter
      exact ⟨_, .inr ⟨cause, hafter⟩⟩
  | cons next ahead ih =>
    obtain ⟨visits, link, result, hvisits, hrun⟩ := Crowd.aim_ends htask haim hfree
    have hafter := Crowd.task?_went htask (({ crowd.node with link } : Node).after stage result)
    cases result with
    | ok answer =>
      rw [after_of_again (hsound.again { crowd.node with link } hstatus huplink hscript answer)] at hrun hafter
      have hrest : attempt.script = (before ++ [(request, stage)]) ++ next :: ahead := by simp [hscript]
      have hstatus' : (crowd.went i ({ crowd.node with link }, .asking next.1 next.2)).node.status = status := hstatus
      obtain ⟨more, hmore, hend⟩ := ih hstatus' huplink hrest hafter rfl nofun
      refine ⟨visits ++ more, List.forall_mem_append.mpr ⟨hvisits, hmore⟩, ?_⟩
      rw [Crowd.run_append, hrun]
      exact hend
    | error cause =>
      have hmem : (request, stage) ∈ attempt.script := by simp [hscript]
      rw [← hrun, after_of_leave (hsound.fails { crowd.node with link } hstatus huplink hmem cause)] at hafter
      exact ⟨visits, hvisits, _, .inr ⟨cause, hafter⟩⟩

/-! ### The attempts -/

theorem sound_of_one (hone : attempt.later = [])
    (hok : ∀ {node : Node}, node.status = status → ∀ answer, attempt.first.2.next node (.ok answer) =
      ({ node with status := reached }, .leave (attempt.succeeds { node with status := reached })))
    (herror : ∀ {node : Node}, node.status = status → ∀ cause,
      attempt.first.2.next node (.error cause) = (node, .leave (attempt.fails node cause))) :
    attempt.Sound options status reached where
  again _ _ _ _ _ _ _ _ h := by
    have hlength := congrArg List.length h
    simp [script, hone] at hlength
    omega
  succeeds node {before request stage} hstatus _ h answer := by
    have hlast := congrArg List.getLast? h
    rw [script, hone, List.getLast?_concat] at hlast
    have hfirst : attempt.first = (request, stage) := Option.some.inj hlast
    have hnext := hok hstatus answer
    rwa [hfirst] at hnext
  fails node {request stage} hstatus _ h cause := by
    rw [script, hone, List.mem_singleton] at h
    have hnext := herror hstatus cause
    rwa [← h] at hnext

end

/-- To join a network, once or as one of several tries. -/
def join (options : UplinkOptions) (command : Command) (retry : Option (Retry Credentials)) : Attempt where
  first := (.command command.text Command.gotAddress options.joinTimeout, .join retry)
  succeeds node := node.conclude retry .rejoin (.ok ())
  fails node cause := node.conclude retry .rejoin (.error (Node.refusal .joinFailed cause))

def join? (options : UplinkOptions) (credentials : Credentials) (retry : Option (Retry Credentials)) : Option Attempt :=
  (Command.join? credentials).map (join options · retry)

/-- To leave the network. -/
def leave (options : UplinkOptions) : Attempt where
  first := (.command Command.leave Command.acknowledged options.leaveTimeout, .leave)
  succeeds _ := .finished .done
  fails _ cause := .finished (.failed (Node.refusal .leaveFailed cause))

/-- To name the user and open a session, once or as one of several tries. -/
def openSession (options : UplinkOptions) (user session : Command) (retry : Option (Retry Broker)) : Attempt where
  first := (.command user.text Command.acknowledged options.brokerTimeout, .configure session retry)
  later := [(.command session.text Command.sessionOpen options.brokerTimeout, .openSession retry)]
  succeeds node := node.conclude retry .reopen (.ok ())
  fails node cause := node.conclude retry .reopen (.error (Node.refusal .brokerRefused cause))

def openSession? (options : UplinkOptions) (broker : Broker) (retry : Option (Retry Broker)) : Option Attempt := do
  let user ← Command.userConfig? broker
  let session ← Command.openSession? broker
  some (openSession options user session retry)

/-- To close the session. -/
def closeSession (options : UplinkOptions) (command : Command) : Attempt where
  first := (.command command.text Command.acknowledged options.brokerTimeout, .closeSession)
  succeeds _ := .finished .done
  fails _ cause := .finished (.failed cause)

section
variable (options : UplinkOptions) {status : Status}

/-- A network that was not joined is noted as not joined. -/
theorem join_sound (h : status.link = .disconnected) (command : Command) (retry : Option (Retry Credentials)) :
    (join options command retry).Sound options status { status with link := .connected } := by
  refine sound_of_one rfl (fun hstatus answer => ?_) fun {node} hstatus cause => ?_
  · subst hstatus
    rfl
  · have hsame : { node with status := { node.status with link := .disconnected } } = node := by
      rw [← h, ← hstatus]
    show (({ node with status := { node.status with link := .disconnected } } : Node), Next.leave
      (({ node with status := { node.status with link := .disconnected } } : Node).conclude retry .rejoin _)) = _
    rw [hsame]
    rfl

theorem leave_sound (status : Status) : (leave options).Sound options status status.linkLost := by
  refine sound_of_one rfl (fun hstatus answer => ?_) fun _ cause => rfl
  subst hstatus
  rfl

theorem openSession_sound (status : Status) (user session : Command) (retry : Option (Retry Broker)) :
    (openSession options user session retry).Sound options status { status with broker := .connected } where
  again node {before request stage next ahead} _ huplink h answer := by
    rcases before with _ | ⟨first, _ | ⟨second, rest⟩⟩
    · cases h
      rw [← huplink]
      rfl
    · cases h
    · have hlength := congrArg List.length h
      simp [script, openSession] at hlength
  succeeds node {before request stage} hstatus _ h answer := by
    have hlast := congrArg List.getLast? h
    rw [List.getLast?_concat] at hlast
    cases hlast
    subst hstatus
    rfl
  fails _ _ _ _ _ h cause := by
    rcases List.mem_cons.mp h with h | h
    · cases h
      rfl
    · cases List.mem_singleton.mp h
      rfl

theorem closeSession_sound (status : Status) (command : Command) :
    (closeSession options command).Sound options status { status with broker := .disconnected } := by
  refine sound_of_one rfl (fun hstatus answer => ?_) fun _ cause => rfl
  subst hstatus
  rfl

end
end Attempt
end SensorLink
