import SensorLink.Proofs.Bystanders

/-! The bring-up of the modem. It is reset and probed until it answers, however often that takes; then its echo is
    switched off, and single connections are asked for a few times. At each stage the commands that have been tried are
    of one shape (`PoweringUp`), and the status says that the modem is not ready until all is over. -/

namespace SensorLink
open Dialogue

/-- A request with what came of it, if something is to be written for it. -/
def Dialogue.tried (request : Request) (result : Result) : List (Request × Result) :=
  if request.parts = [] then [] else [(request, result)]

def Passage.commands : Passage → List (Request × Result)
  | .round made => tried made.request made.result
  | .rest .. => []

/-- The commands of a task that have come to an end, each with what came of it. -/
def Transcript.commands (said : Transcript) : List (Request × Result) := said.past.flatMap Passage.commands

namespace Node

/-- The modem was reset, whatever came of it, and did not answer to a probe, so many times. -/
def silence (node : Node) (trials : List (Result × Failure Fault)) : List (Request × Result) :=
  trials.flatMap fun (reset, cause) => [(resetRequest, reset), (node.probeRequest, .error cause)]

/-- After so many trials it was reset and answered. -/
def awoken (node : Node) (trials : List (Result × Failure Fault)) (reset : Result) (answer : String) :
    List (Request × Result) :=
  node.silence trials ++ [(resetRequest, reset), (node.probeRequest, .ok answer)]

/-- All commands of a bring-up that has come to its end, as they are written: the reset and a probe over and over, where
    only the last probe is answered, then the echo, and then single connections until the modem agrees or the tries are
    used up. -/
def PoweredUp (node : Node) (commands : List (Request × Result)) : Prop :=
  let reset : Request := .send [Text.encode "AT+RST", Text.encode "\r\n"]
  let probe : Request := .ask [Text.encode "AT", Text.encode "\r\n"] "OK" node.uplink.probeTimeout
  let echo : Request := .ask [Text.encode "ATE0", Text.encode "\r\n"] "OK" node.uplink.configTimeout
  let single : Request := .ask [Text.encode "AT+CIPMUX=0", Text.encode "\r\n"] "OK" node.uplink.configTimeout
  ∃ (trials : List (Result × Failure Fault)) (last : Result) (answer : String) (echoed : Result) (singles : List Result),
    commands = (trials.flatMap fun (written, cause) => [(reset, written), (probe, .error cause)]) ++
      [(reset, last), (probe, .ok answer)] ++ (echo, echoed) :: singles.map (single, ·) ∧
      Tried node.uplink.configRetries.toNat singles

theorem poweredUp_of_tried (node : Node) (trials : List (Result × Failure Fault)) (reset : Result) (answer : String)
    (echo : Result) {singles : List Result} (h : Tried node.uplink.configRetries.toNat singles) :
    node.PoweredUp (node.awoken trials reset answer ++ (node.echoRequest, echo) :: singles.map (node.singleRequest, ·)) := by
  refine ⟨trials, reset, answer, echo, singles, ?_, h⟩
  rw [awoken, silence, resetRequest_eq, probeRequest_eq, echoRequest_eq, singleRequest_eq]

/-- The request of each stage of the bring-up, and the commands that have been tried before it. -/
inductive PoweringUp (node : Node) : Request → Stage → List (Request × Result) → Prop where
  | reset (trials : List (Result × Failure Fault)) : PoweringUp node resetRequest .reset (node.silence trials)
  | settle (trials : List (Result × Failure Fault)) (reset : Result) :
      PoweringUp node (.pause node.uplink.resetSettle) .settle (node.silence trials ++ [(resetRequest, reset)])
  | flush (trials : List (Result × Failure Fault)) (reset : Result) :
      PoweringUp node .clear .flush (node.silence trials ++ [(resetRequest, reset)])
  | probe (trials : List (Result × Failure Fault)) (reset : Result) :
      PoweringUp node node.probeRequest .probe (node.silence trials ++ [(resetRequest, reset)])
  | backoff (trials : List (Result × Failure Fault)) :
      PoweringUp node (.pause node.uplink.probeRetryDelay) .backoff (node.silence trials)
  | echo (trials : List (Result × Failure Fault)) (reset : Result) (answer : String) :
      PoweringUp node node.echoRequest .echo (node.awoken trials reset answer)
  | single (trials : List (Result × Failure Fault)) (reset : Result) (answer : String) (echo : Result)
      (refusals : List (Failure Fault)) (retries : Nat)
      (tries : refusals.length + retries = node.uplink.configRetries.toNat) :
      PoweringUp node node.singleRequest (.single retries) (node.awoken trials reset answer ++
        (node.echoRequest, echo) :: refusals.map fun cause => (node.singleRequest, .error cause))

section
variable {origin node : Node} {request : Request} {stage : Stage} {commands : List (Request × Result)}

theorem silence_concat (node : Node) (trials : List (Result × Failure Fault)) (reset : Result) (cause : Failure Fault) :
    node.silence trials ++ [(resetRequest, reset)] ++ [(node.probeRequest, .error cause)] =
      node.silence (trials ++ [(reset, cause)]) := by
  simp [silence]

theorem awoken_eq (node : Node) (trials : List (Result × Failure Fault)) (reset : Result) (answer : String) :
    node.silence trials ++ [(resetRequest, reset)] ++ [(node.probeRequest, .ok answer)] =
      node.awoken trials reset answer := by
  simp [awoken]

theorem probeRequest_congr (h : node.uplink = origin.uplink) : node.probeRequest = origin.probeRequest :=
  congrArg (fun options : UplinkOptions => Request.command Command.probe Command.acknowledged options.probeTimeout) h

theorem echoRequest_congr (h : node.uplink = origin.uplink) : node.echoRequest = origin.echoRequest :=
  congrArg (fun options : UplinkOptions => Request.command Command.echoOff Command.acknowledged options.configTimeout) h

theorem singleRequest_congr (h : node.uplink = origin.uplink) : node.singleRequest = origin.singleRequest :=
  congrArg (fun options : UplinkOptions =>
    Request.command Command.singleConnection Command.acknowledged options.configTimeout) h

/-- What follows a request of the bring-up: the next one, or the end. -/
theorem PoweringUp.next (h : origin.PoweringUp request stage commands) (huplink : node.uplink = origin.uplink)
    (result : Result) :
    (∃ request' stage', stage.next node result = (node, .again request' stage') ∧
      origin.PoweringUp request' stage' (commands ++ tried request result)) ∨
      (stage.next node result = node.chipReady ∧ origin.PoweredUp (commands ++ tried request result)) := by
  cases h with
  | reset trials => exact .inl ⟨_, _, by rw [Stage.next, huplink], .settle trials result⟩
  | settle trials reset =>
    refine .inl ⟨_, _, rfl, ?_⟩
    rw [show tried (.pause origin.uplink.resetSettle) result = [] from rfl, List.append_nil]
    exact .flush trials reset
  | flush trials reset =>
    refine .inl ⟨_, _, by rw [Stage.next, probeRequest_congr huplink], ?_⟩
    rw [show tried .clear result = [] from rfl, List.append_nil]
    exact .probe trials reset
  | probe trials reset =>
    cases result with
    | error cause =>
      refine .inl ⟨_, _, by rw [Stage.next, probed, huplink], ?_⟩
      rw [show tried origin.probeRequest _ = [_] from rfl, silence_concat]
      exact .backoff _
    | ok answer =>
      refine .inl ⟨_, _, by rw [Stage.next, probed, echoRequest_congr huplink], ?_⟩
      rw [show tried origin.probeRequest _ = [_] from rfl, awoken_eq]
      exact .echo trials reset answer
  | backoff trials =>
    refine .inl ⟨_, _, rfl, ?_⟩
    rw [show tried (.pause origin.uplink.probeRetryDelay) result = [] from rfl, List.append_nil]
    exact .reset trials
  | echo trials reset answer =>
    exact .inl ⟨_, _, by rw [Stage.next, singleRequest_congr huplink, huplink],
      .single trials reset answer result [] _ (Nat.zero_add _)⟩
  | single trials reset answer echo refusals retries htries =>
    have hcommands (last : Result) : (origin.awoken trials reset answer ++
        (origin.echoRequest, echo) :: refusals.map fun cause => (origin.singleRequest, Except.error cause)) ++
          tried origin.singleRequest last = origin.awoken trials reset answer ++
        (origin.echoRequest, echo) :: (refusals.map Except.error ++ [last]).map (origin.singleRequest, ·) := by
      rw [show tried origin.singleRequest last = [(origin.singleRequest, last)] from rfl]
      simp [Function.comp_def]
    have hle : refusals.length ≤ origin.uplink.configRetries.toNat := htries ▸ Nat.le_add_right _ _
    rw [hcommands]
    cases result with
    | ok answer' =>
      exact .inr ⟨rfl, poweredUp_of_tried origin trials reset answer echo ⟨refusals, .ok answer', rfl, hle, .inl rfl⟩⟩
    | error cause =>
      cases retries with
      | zero =>
        exact .inr ⟨rfl, poweredUp_of_tried origin trials reset answer echo ⟨refusals, .error cause, rfl, hle, .inr htries⟩⟩
      | succ retries =>
        refine .inl ⟨_, _, by rw [Stage.next, singled, singleRequest_congr huplink], ?_⟩
        have htries' : (refusals ++ [cause]).length + retries = origin.uplink.configRetries.toNat := by
          rw [List.length_append, List.length_singleton]
          omega
        have hnext : origin.PoweringUp origin.singleRequest (.single retries) _ :=
          .single trials reset answer echo (refusals ++ [cause]) retries htries'
        simpa [Function.comp_def] using hnext

end
end Node

/-! ### The task -/

inductive Node.PowersUp (origin node : Node) (said : Transcript) (task : Task) : Prop where
  | on (request : Request) (stage : Stage) (status : node.status = {}) (uplink : node.uplink = origin.uplink)
      (speaks : task.Speaks request stage said) (reached : origin.PoweringUp request stage said.commands)
      (holds : task.stage? = none → stage = .reset)
  | ready (status : node.status = { chip := .ready }) (finished : task = .finished .done)
      (complete : origin.PoweredUp said.commands)

/-- Nothing has been received: no part of a line, no notification, and no report of a lost link. -/
structure Intake.IsFresh (intake : Intake) : Prop where
  buffer : intake.buffer = {}
  inbound : intake.inbound = []
  closed : intake.closed = false

section
variable {origin node after : Node} {said : Transcript} {task : Task}

theorem commands_of_past {later : Transcript} {made : Round} (h : later.past = said.past ++ [.round made]) :
    later.commands = said.commands ++ tried made.request made.result := by
  simp [Transcript.commands, h, Passage.commands]

theorem Node.PowersUp.awaken (h : origin.PowersUp node said task) : origin.PowersUp node said task.awaken := by
  cases h with
  | on request stage hstatus huplink hspeaks hreached hholds =>
    refine .on request stage hstatus huplink hspeaks.awaken hreached fun hnone => hholds ?_
    cases task with
    | parked wait => cases wait <;> first | rfl | cases hnone
    | _ => exact hnone
  | ready hstatus hfinished hcomplete =>
    subst hfinished
    exact .ready hstatus rfl hcomplete

theorem powersUp_start (node : Node) : node.PowersUp node.powerUp.1 {} node.powerUp.2 :=
  .on Node.resetRequest .reset rfl rfl (.waits rfl rfl) (.reset []) fun _ => rfl

theorem powersUp_step (h : origin.PowersUp node said task) :
    origin.PowersUp (node.step task.awaken).1 (said.next node task.awaken) (node.step task.awaken).2 := by
  cases h with
  | on request stage hstatus huplink hspeaks hreached hholds =>
    cases speaks_step node hspeaks with
    | on link hkeeps hspeaks' hpast hwaits =>
      refine .on request stage ?_ ?_ hspeaks' ?_ fun hnone => ?_
      · rw [hkeeps]
        exact hstatus
      · rw [hkeeps]
        exact huplink
      · rwa [Transcript.commands, hpast]
      · rcases hwaits with houtside | ⟨hold, hparked⟩
        · exact hholds houtside
        · rw [hparked] at hnone
          cases hnone
    | ended link result written hfollows hpast hsilent =>
      have hcommands := commands_of_past hpast
      have huplink' : ({ node with link } : Node).uplink = origin.uplink := huplink
      rw [hfollows]
      rcases hreached.next huplink' result with ⟨request', stage', hnext, hreached'⟩ | ⟨hnext, hcomplete⟩
      · rw [after_of_again hnext]
        exact .on request' stage' hstatus huplink (.asks rfl hsilent) (hcommands ▸ hreached') nofun
      · rw [after_of_leave hnext]
        refine .ready ?_ rfl (hcommands ▸ hcomplete)
        show { node.status with chip := .ready } = _
        rw [hstatus]
  | ready hstatus hfinished hcomplete =>
    subst hfinished
    exact .ready hstatus rfl (by rwa [Transcript.commands, past_finished said rfl])

/-- Only what has been received is forgotten before a probe. -/
theorem Node.PoweringUp.of_probe {request next : Request} {stage : Stage} {commands : List (Request × Result)}
    (h : origin.PoweringUp request stage commands) {result : Result}
    (hprobe : (node.after stage result).2 = .asking next .probe) : request = .clear ∧ stage = .flush := by
  rw [after_task] at hprobe
  cases h with
  | flush trials reset => exact ⟨rfl, rfl⟩
  | probe trials reset => cases result <;> cases hprobe
  | single trials reset answer echo refusals retries htries =>
    cases result with
    | ok answer' => cases hprobe
    | error cause => cases retries <;> cases hprobe
  | _ => cases hprobe

/-- A task of the bring-up that comes to its probe has just forgotten all that was received. -/
theorem fresh_probe (h : origin.PowersUp node said task) {next : Request}
    (hprobe : (node.step task.awaken).2 = .asking next .probe) :
    next = origin.probeRequest ∧ (node.step task.awaken).1.link.intake.IsFresh := by
  cases h with
  | ready hstatus hfinished hcomplete =>
    subst hfinished
    cases hprobe
  | on request stage hstatus huplink hspeaks hreached hholds =>
    cases speaks_step node hspeaks with
    | on link hkeeps hspeaks' hpast hwaits =>
      have haim := hspeaks'.aim?
      rw [hprobe] at haim
      cases haim
      rcases hwaits with houtside | ⟨hold, hparked⟩
      · cases hholds houtside
      · rw [hparked] at hprobe
        cases hprobe
    | ended link result written hfollows hpast hsilent =>
      rw [hfollows] at hprobe
      obtain ⟨rfl, rfl⟩ := hreached.of_probe hprobe
      cases hspeaks with
      | waits hawaken =>
        have hnone : task.stage? = none := by cases task <;> cases hawaken <;> rfl
        cases hholds hnone
      | listens hold hawaken written hcurrent hclear => exact absurd rfl hclear
      | asks hasks =>
        subst hasks
        cases hprobe
        have huplink' : ({ node with link } : Node).uplink = origin.uplink := huplink
        exact ⟨Node.probeRequest_congr huplink', rfl, rfl, rfl⟩

/-- Wherever a visit of the task comes to its probe, nothing has been received since all was forgotten. -/
theorem fresh_steps (h : origin.PowersUp node said task) (hnot : ∀ request, task ≠ .asking request .probe) (n : Nat)
    {next : Request} (hprobe : (node.steps n task.awaken).2 = .asking next .probe) :
    next = origin.probeRequest ∧ (node.steps n task.awaken).1.link.intake.IsFresh := by
  suffices hall : ∀ n (node : Node) said task, origin.PowersUp node said task →
      (∀ next, task = .asking next .probe → next = origin.probeRequest ∧ node.link.intake.IsFresh) →
      ∀ next, (node.steps n task).2 = .asking next .probe →
        next = origin.probeRequest ∧ (node.steps n task).1.link.intake.IsFresh from
    hall n node said task.awaken h.awaken
      (fun next heq => absurd (by cases task <;> first | exact heq | cases heq) (hnot next)) next hprobe
  intro n
  induction n with
  | zero =>
    intro node said task _ hfresh next hprobe
    cases task <;> exact hfresh next hprobe
  | succ n ih =>
    intro node said task h hfresh next hprobe
    cases task with
    | parked wait => exact hfresh next hprobe
    | finished answer => exact hfresh next hprobe
    | checking wait => exact ih _ _ _ (powersUp_step h) (fun _ heq => fresh_probe h heq) next hprobe
    | asking request stage => exact ih _ _ _ (powersUp_step h) (fun _ heq => fresh_probe h heq) next hprobe

end

/-! ### Runs -/

namespace Crowd

/-- While nobody else works on the connection, whatever the modem does and whatever status the node was in: a power-up that
    is not at its end has the status of a modem that is not ready, and leaves it if it is given up. One that has come to its
    end has succeeded, and then the modem was reset and probed over and over, without an answer but for the last time; its
    echo was switched off once; and single connections were asked for until the modem agreed or the tries were used up.
    Each probe is made when nothing is left of what was received before. -/
theorem power_up_trace (crowd : Crowd) (hothers : ∀ j task, crowd.task? j = some task → task.connects = false)
    (during : List Move) (hcalls : ∀ call ∈ Crowd.calls during, call.connects = false) :
    let i := crowd.tasks.length
    let moves := .start .powerUp :: during
    let last := crowd.run moves
    ∀ task, last.task? i = some task →
      (¬task.isFinished → last.node.status = {} ∧ (last.next (.drop i)).node.status = {}) ∧
      (∀ answer, task = .finished answer → answer = .done ∧ last.node.status = { chip := .ready } ∧
        crowd.node.PoweredUp (crowd.transcript i {} moves).commands) ∧
      ((∀ request, task ≠ .asking request .probe) → ∀ n request,
        (last.node.steps n task.awaken).2 = .asking request .probe →
          request = .ask [Text.encode "AT", Text.encode "\r\n"] "OK" crowd.node.uplink.probeTimeout ∧
            (last.node.steps n task.awaken).1.link.intake.IsFresh) := by
  intro i moves last task htask
  have hpowers : crowd.node.PowersUp last.node (crowd.transcript i {} moves) task := by
    refine follow_call bystands_connecting Node.SameUplink.refl (fun hsame h => ?_) powersUp_step hothers hcalls
      (powersUp_start crowd.node) htask
    cases h with
    | on request stage hstatus huplink hspeaks hreached hholds =>
      exact .on request stage (hsame.status.trans hstatus) (hsame.uplink.trans huplink) hspeaks hreached hholds
    | ready hstatus hfinished hcomplete => exact .ready (hsame.status.trans hstatus) hfinished hcomplete
  refine ⟨fun hunfinished => ?_, fun answer hanswer => ?_, fun hnot n request hprobe => ?_⟩
  · cases hpowers with
    | on request stage hstatus => exact ⟨hstatus, (frame_next_drop last i).status.trans hstatus⟩
    | ready hstatus hfinished => exact absurd (hfinished ▸ rfl) hunfinished
  · cases hpowers with
    | on request stage hstatus huplink hspeaks => exact absurd (hanswer ▸ rfl) hspeaks.not_isFinished
    | ready hstatus hfinished hcomplete =>
      cases hfinished.symm.trans hanswer
      exact ⟨rfl, hstatus, hcomplete⟩
  · obtain ⟨rfl, hfresh⟩ := fresh_steps hpowers hnot n hprobe
    exact ⟨crowd.node.probeRequest_eq, hfresh⟩

/-- The modem stays silent at the first probe, and is reset once more: `AT+RST` and `AT` are written twice. -/
theorem power_up_trace_of_silent_modem :
    let deaf : Modem.Rule := { trigger := Text.encode "AT", entire := true, uses := some 1 }
    let node : Node := { link := { rules := deaf :: obeying }, table := { capacity := 4 }, depth := 1 }
    let during : List Move := turns 0 3 ++ .advance 500000 :: turns 0 3 ++ .advance 600000 :: turns 0 2 ++
      .advance 1600000 :: turns 0 3 ++ .advance 2100000 :: turns 0 5
    let commands := (Crowd.transcript 0 { node } {} (.start .powerUp :: during)).commands
    (Crowd.run { node } (.start .powerUp :: during)).task? 0 = some (.finished .done) ∧
      (Crowd.run { node } (.start .powerUp :: during)).node.link.sent =
        ["AT+RST", "\r\n", "AT", "\r\n", "AT+RST", "\r\n", "AT", "\r\n", "ATE0", "\r\n", "AT+CIPMUX=0", "\r\n"].map
          Text.encode ∧
      (Crowd.run { node } (.start .powerUp :: during)).node.status = { chip := .ready } ∧ node.PoweredUp commands := by
  intro deaf node during commands
  have hdone : (Crowd.run { node } (.start .powerUp :: during)).task? 0 = some (.finished .done) := by decide +kernel
  have hsent : (Crowd.run { node } (.start .powerUp :: during)).node.link.sent =
      ["AT+RST", "\r\n", "AT", "\r\n", "AT+RST", "\r\n", "AT", "\r\n", "ATE0", "\r\n", "AT+CIPMUX=0", "\r\n"].map
        Text.encode := by
    decide +kernel
  obtain ⟨-, hfinished, -⟩ := power_up_trace { node } (all_fresh _ node) during (by decide) _ hdone
  obtain ⟨-, hstatus, hcommands⟩ := hfinished .done rfl
  exact ⟨hdone, hsent, hstatus, hcommands⟩

end Crowd
end SensorLink
