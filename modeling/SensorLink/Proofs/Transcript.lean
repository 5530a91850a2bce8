import SensorLink.Proofs.Connecting
import SensorLink.Proofs.Traffic

/-! What one task says to the modem in a run: a transcript of its requests with what came of them, and of its rests
    between attempts, written down beside the crowd. A task that is about a request stays so or brings it to its end
    (`speaks_step`), and what its own steps and those of the others keep holds at the end of every run (`follow_run`). -/

namespace SensorLink

/-- A request that has come to its end. -/
structure Dialogue.Round where
  request : Request
  written : List Bytes
  result : Result
  ended : Nat

inductive Passage where
  | round (round : Dialogue.Round)
  /-- A while without the modem: until when it was to last, and when it was over. -/
  | rest (due resumed : Nat)

/-- What a task has said to the modem. -/
structure Transcript where
  past : List Passage := []
  /-- The request that is under way, with what has been written of it. -/
  current : Option (Dialogue.Request × List Bytes) := none

/-- The rest that is over when a task looks whether it is. -/
def Node.rested? (node : Node) : Task → Option Passage
  | .checking (.rejoin due _) | .checking (.reopen due _) =>
    if due ≤ node.link.clock then some (.rest due node.link.clock) else none
  | _ => none

def Passage.round? : Passage → Option Dialogue.Round
  | .round made => some made
  | .rest .. => none

namespace Transcript

def rounds (said : Transcript) : List Dialogue.Round := said.past.filterMap Passage.round?

/-- All requests that have been put to the modem, the one under way included. -/
def requests (said : Transcript) : List Dialogue.Request :=
  said.rounds.map Dialogue.Round.request ++ (said.current.map Prod.fst).toList

def written (said : Transcript) : List Bytes :=
  said.rounds.flatMap Dialogue.Round.written ++ said.current.elim [] Prod.snd

/-- The request under way when a step has written `written`. -/
def goOn (said : Transcript) (written : List Bytes) : Task → Option (Dialogue.Request × List Bytes)
  | .asking request _ => some (request, written)
  | _ => said.current.map fun (request, earlier) => (request, earlier ++ written)

/-- What has been said when the task has made a step. -/
def next (said : Transcript) (node : Node) (task : Task) : Transcript :=
  let after := (node.step task).1.link
  let current := said.goOn (after.sent.drop node.link.sent.length) task
  match node.concludes? task, current with
  | some (_, result), some (request, written) =>
    { past := said.past ++ [.round { request, written, result, ended := after.clock }] }
  | some _, none => said
  | none, current => { past := said.past ++ (node.rested? task).toList, current }

end Transcript

/-- The results of tries one after the other: all have failed but the last, which has succeeded or was the last that is
    allowed. -/
def Dialogue.Tried (retries : Nat) (results : List Dialogue.Result) : Prop :=
  ∃ (failures : List (Failure Fault)) (last : Dialogue.Result), results = failures.map Except.error ++ [last] ∧
    failures.length ≤ retries ∧ (last.isOk ∨ failures.length = retries)

/-! ### A task and its request -/

/-- The task is about a request of a stage: it waits for the modem to make it, is about to make it, or has made it. -/
inductive Task.Speaks (request : Dialogue.Request) (stage : Stage) (said : Transcript) (task : Task) : Prop where
  | waits (awaken_eq : task.awaken = .checking (.modem request stage)) (silent : said.current = none)
  | asks (asks : task = .asking request stage) (silent : said.current = none)
  | listens (hold : Dialogue.Hold) (awaken_eq : task.awaken = .checking (.request hold stage)) (written : List Bytes)
      (current : said.current = some (request, written)) (waits : request ≠ .clear)

/-- How a task goes on that is about a request: it stays with it, or the request has come to its end. -/
inductive Node.Speaks (node : Node) (task : Task) (request : Dialogue.Request) (stage : Stage) (said : Transcript)
    (after : Node × Task) (later : Transcript) : Prop where
  | on (link : Link) (keeps : after.1 = { node with link }) (speaks : after.2.Speaks request stage later)
      (past : later.past = said.past) (waits : task.stage? = none ∨ ∃ hold, after.2 = .parked (.request hold stage))
  | ended (link : Link) (result : Dialogue.Result) (written : List Bytes)
      (follows : after = ({ node with link } : Node).after stage result)
      (past : later.past = said.past ++ [.round { request, written, result, ended := link.clock }])
      (silent : later.current = none)

section
variable {node : Node} {task : Task} {request : Dialogue.Request} {stage : Stage} {said : Transcript}

theorem after_of_again {after : Node} {next : Stage} {result : Dialogue.Result}
    (h : stage.next node result = (after, .again request next)) : node.after stage result = (after, .asking request next) := by
  simp only [Node.after, h]

theorem after_of_leave {after : Node} {result : Dialogue.Result} (h : stage.next node result = (after, .leave task)) :
    node.after stage result = (after.release, task) := by
  simp only [Node.after, h]

theorem past_finished (said : Transcript) (h : task.isFinished) (node : Node) :
    (said.next node task.awaken).past = said.past := by
  cases task with
  | finished answer => exact List.append_nil _
  | _ => cases h

theorem next_finished (h : task.isFinished) (hsilent : said.current = none) (node : Node) :
    said.next node task.awaken = said := by
  cases task with
  | finished answer =>
    obtain ⟨past, current⟩ := said
    subst hsilent
    exact congrArg (Transcript.mk · none) (List.append_nil past)
  | _ => cases h

theorem rounds_of_past {rounds : List Dialogue.Round} (h : said.past = rounds.map .round) : said.rounds = rounds := by
  rw [Transcript.rounds, h, List.filterMap_map]
  exact List.filterMap_some

theorem Task.Speaks.aim? (h : task.Speaks request stage said) : task.aim? = some stage := by
  cases h with
  | waits hawaken | listens _ hawaken => cases task <;> cases hawaken <;> rfl
  | asks hasks => rw [hasks]; rfl

theorem Task.Speaks.not_isFinished (h : task.Speaks request stage said) : ¬task.isFinished :=
  not_isFinished_of_aim h.aim?

theorem Task.Speaks.awaken (h : task.Speaks request stage said) : task.awaken.Speaks request stage said := by
  cases task with
  | parked wait =>
    cases h with
    | waits hawaken hsilent => exact .waits hawaken hsilent
    | asks hasks => cases hasks
    | listens hold hawaken written hcurrent hclear => exact .listens hold hawaken written hcurrent hclear
  | _ => exact h

/-- The request has been put, and the modem is still to answer. -/
theorem speaks_heed (node : Node) {led : Link × Dialogue.Progress} {awake : Task} {written : List Bytes}
    (hstep : node.step awake = node.heed stage led) (hconcludes : node.concludes? awake = led.2.result?.map (stage, ·))
    (hcurrent : said.goOn ((node.heed stage led).1.link.sent.drop node.link.sent.length) awake = some (request, written))
    (hrest : node.rested? awake = none) (hclear : ∀ hold, led.2 = .waiting hold → request ≠ .clear) :
    node.Speaks task request stage said (node.step awake) (said.next node awake) := by
  obtain ⟨link, hold | result⟩ := led
  · have hnext : said.next node awake = { past := said.past, current := some (request, written) } := by
      rw [← hstep] at hcurrent
      simp [Transcript.next, hconcludes, hcurrent, hrest, Dialogue.Progress.result?]
    rw [hstep, hnext]
    exact .on link rfl (.listens hold rfl written rfl (hclear hold rfl)) rfl (.inr ⟨hold, rfl⟩)
  · have hclock : (node.step awake).1.link.clock = link.clock := by
      rw [hstep]
      exact after_clock { node with link } stage result
    have hnext : said.next node awake =
        { past := said.past ++ [.round { request, written, result, ended := link.clock }] } := by
      rw [← hstep] at hcurrent
      simp [Transcript.next, hconcludes, hcurrent, hclock, Dialogue.Progress.result?]
    rw [hnext]
    exact .ended link result written hstep rfl rfl

theorem speaks_step (node : Node) (h : task.Speaks request stage said) :
    node.Speaks task request stage said (node.step task.awaken) (said.next node task.awaken) := by
  cases h with
  | waits hawaken hsilent =>
    have hnone : task.stage? = none := by cases task <;> cases hawaken <;> rfl
    rw [hawaken]
    have hpast : (said.next node (.checking (.modem request stage))).past = said.past := List.append_nil _
    have hcurrent : (said.next node (.checking (.modem request stage))).current = none := by
      show said.current.map _ = none
      rw [hsilent]
      rfl
    simp only [Node.step, Node.check]
    split
    · exact .on _ rfl (.waits rfl hcurrent) hpast (.inl hnone)
    · exact .on _ rfl (.asks rfl hcurrent) hpast (.inl hnone)
  | asks hasks hsilent =>
    subst hasks
    refine speaks_heed node rfl rfl rfl rfl ?_
    rintro hold hwaiting rfl
    cases hwaiting
  | listens hold hawaken written hcurrent hclear =>
    rw [hawaken]
    have hgoes (more : List Bytes) :
        said.goOn more (.checking (.request hold stage)) = some (request, written ++ more) := by
      show said.current.map _ = _
      rw [hcurrent]
      rfl
    exact speaks_heed node rfl rfl (hgoes _) rfl fun _ _ => hclear

end

/-! ### A task in a run -/

namespace Crowd

/-- What task `i` has said after a move. -/
def noted (crowd : Crowd) (i : Nat) (said : Transcript) : Move → Transcript
  | .step j => if j = i then (crowd.task? i).elim said fun task => said.next crowd.node task.awaken else said
  | .start _ | .drop _ | .advance _ => said

/-- What task `i` says in a run, and has said before. -/
def transcript (i : Nat) (crowd : Crowd) (said : Transcript) : List Move → Transcript
  | [] => said
  | move :: moves => transcript i (crowd.next move) (crowd.noted i said move) moves

/-- All tasks but one are of a kind. -/
def Others (kind : Task → Prop) (crowd : Crowd) (i : Nat) : Prop :=
  ∀ j ≠ i, ∀ task, crowd.task? j = some task → kind task

/-- Tasks of a kind stay of this kind and leave the node as it was, up to `R`; and so do calls, which leave such tasks. -/
structure Bystands (R : Node → Node → Prop) (kind : Task → Prop) (calls : Call → Prop) : Prop where
  start : ∀ node call, calls call → R node (call.start node).1 ∧ kind (call.start node).2
  step : ∀ node task, kind task → R node (node.step task.awaken).1 ∧ kind (node.step task.awaken).2
  drop : ∀ node task, kind task → R node (node.drop task)
  advance : ∀ node time, R node (node.advance time)

section
variable {crowd : Crowd} {i : Nat} {task last : Task} {said : Transcript} {move : Move} {moves during : List Move}
  {R : Node → Node → Prop} {kind : Task → Prop} {calls : Call → Prop}

theorem task?_run_none (hlt : i < crowd.tasks.length) (hnone : crowd.task? i = none) (moves : List Move) :
    (crowd.run moves).task? i = none := by
  induction moves generalizing crowd with
  | nil => exact hnone
  | cons move rest ih =>
    refine ih ?_ (Option.eq_none_iff_forall_ne_some.mpr fun task htask => ?_)
    · rw [length_next]
      exact Nat.lt_add_right _ hlt
    · rcases task?_next htask with hold | ⟨call, -, rfl, -⟩ | ⟨before, -, hbefore, -⟩
      · cases hnone.symm.trans hold
      · exact absurd hlt (Nat.lt_irrefl _)
      · cases hnone.symm.trans hbefore

theorem all_fresh (kind : Task → Prop) (node : Node) (j : Nat) (task : Task)
    (htask : Crowd.task? { node } j = some task) : kind task := by
  rw [task?, List.getElem?_nil] at htask
  cases htask

theorem Others.set (h : crowd.Others kind i) (htask : crowd.task? i = some task) (node : Node) (put : Option Task) :
    Others kind ⟨node, crowd.tasks.set i put⟩ i := by
  intro j hne other hother
  rw [task?_set htask, if_neg (Ne.symm hne)] at hother
  exact h j hne other hother

theorem bystands_next (hbystands : Bystands R kind calls) (hrefl : ∀ node, R node node) (hothers : crowd.Others kind i)
    (hcall : ∀ call ∈ move.call?, calls call) (hmove : move.task? ≠ some i) :
    R crowd.node (crowd.next move).node ∧ (crowd.next move).Others kind i := by
  cases move with
  | start call =>
    obtain ⟨hkept, hkind⟩ := hbystands.start crowd.node call (hcall call rfl)
    refine ⟨hkept, fun j hne other hother => ?_⟩
    rw [task?_start] at hother
    split at hother
    · cases hother
      exact hkind
    · exact hothers j hne other hother
  | advance time => exact ⟨hbystands.advance crowd.node time, hothers⟩
  | step j =>
    have hne : j ≠ i := fun heq => hmove (congrArg some heq)
    cases hstepped : crowd.task? j with
    | none =>
      rw [next_step_none hstepped]
      exact ⟨hrefl _, hothers⟩
    | some stepped =>
      obtain ⟨hkept, hkind⟩ := hbystands.step crowd.node stepped (hothers j hne stepped hstepped)
      rw [next_step hstepped]
      refine ⟨hkept, fun k hk other hother => ?_⟩
      rw [task?_set hstepped] at hother
      split at hother
      · cases hother
        exact hkind
      · exact hothers k hk other hother
  | drop j =>
    have hne : j ≠ i := fun heq => hmove (congrArg some heq)
    cases hdropped : crowd.task? j with
    | none =>
      rw [next_drop_none hdropped]
      exact ⟨hrefl _, hothers⟩
    | some dropped =>
      rw [next_drop hdropped]
      refine ⟨hbystands.drop crowd.node dropped (hothers j hne dropped hdropped), fun k hk other hother => ?_⟩
      rw [task?_set hdropped] at hother
      split at hother
      · cases hother
      · exact hothers k hk other hother

theorem noted_elsewhere (hmove : move.task? ≠ some i) : crowd.noted i said move = said := by
  cases move with
  | step j => exact if_neg fun heq => hmove (congrArg some heq)
  | start call | drop j | advance time => rfl

/-- A property of a node, of task `i` and of what it has said, which the steps of the task keep and which survives what the
    others do, holds at the end of a run, if the task has not been given up. -/
theorem follow_run {P : Node → Transcript → Task → Prop} (hbystands : Bystands R kind calls) (hrefl : ∀ node, R node node)
    (hkept : ∀ {node after said task}, R node after → P node said task → P after said task)
    (hown : ∀ {node said task}, P node said task →
      P (node.step task.awaken).1 (said.next node task.awaken) (node.step task.awaken).2)
    (hothers : crowd.Others kind i) (hcalls : ∀ call ∈ Crowd.calls moves, calls call)
    (htask : crowd.task? i = some task) (h : P crowd.node said task) (hlast : (crowd.run moves).task? i = some last) :
    P (crowd.run moves).node (crowd.transcript i said moves) last := by
  induction moves generalizing crowd said task with
  | nil =>
    obtain rfl : task = last := Option.some.inj (htask.symm.trans hlast)
    exact h
  | cons move rest ih =>
    rw [calls_cons] at hcalls
    obtain ⟨hcall, hrest⟩ : (∀ call ∈ move.call?, calls call) ∧ ∀ call ∈ Crowd.calls rest, calls call :=
      ⟨fun call hmem => hcalls call (List.mem_append_left _ (Option.mem_toList.mpr hmem)),
        fun call hmem => hcalls call (List.mem_append_right _ hmem)⟩
    by_cases hmove : move.task? = some i
    · cases move <;> cases hmove
      · -- A step of the task itself.
        have hafter : (crowd.next (.step i)).task? i = some (crowd.node.step task.awaken).2 := by
          rw [task?_step htask, if_pos rfl]
        have hnoted : crowd.noted i said (.step i) = said.next crowd.node task.awaken := by simp [noted, htask]
        rw [transcript, hnoted]
        refine ih ?_ hrest hafter ?_ hlast
        · rw [next_step htask]
          exact hothers.set htask _ _
        · rw [next_step htask]
          exact hown h
      · have hnone : (crowd.next (.drop i)).task? i = none := by rw [task?_drop htask, if_pos rfl]
        have hlt : i < (crowd.next (.drop i)).tasks.length := by
          rw [length_next]
          exact Nat.lt_add_right _ (lt_of_task? htask)
        cases (task?_run_none hlt hnone rest).symm.trans hlast
    · obtain ⟨hnode, hothers'⟩ := bystands_next hbystands hrefl hothers hcall hmove
      rw [transcript, noted_elsewhere hmove]
      exact ih hothers' hrest (task?_elsewhere htask hmove) (hkept hnode h) hlast

/-- The same of the task of a call that is made while all tasks are of the kind. -/
theorem follow_call {P : Node → Transcript → Task → Prop} {call : Call} (hbystands : Bystands R kind calls)
    (hrefl : ∀ node, R node node) (hkept : ∀ {node after said task}, R node after → P node said task → P after said task)
    (hown : ∀ {node said task}, P node said task →
      P (node.step task.awaken).1 (said.next node task.awaken) (node.step task.awaken).2)
    (hothers : ∀ j task, crowd.task? j = some task → kind task) (hcalls : ∀ call ∈ Crowd.calls during, calls call)
    (h : P (call.start crowd.node).1 {} (call.start crowd.node).2)
    (hlast : (crowd.run (.start call :: during)).task? crowd.tasks.length = some last) :
    P (crowd.run (.start call :: during)).node
      (crowd.transcript crowd.tasks.length {} (.start call :: during)) last := by
  have hstarted : (crowd.next (.start call)).Others kind crowd.tasks.length := by
    intro j hne other hother
    rw [task?_start, if_neg hne] at hother
    exact hothers j other hother
  have hend : P ((crowd.next (.start call)).run during).node
      ((crowd.next (.start call)).transcript crowd.tasks.length {} during) last :=
    follow_run hbystands hrefl hkept hown hstarted hcalls ((task?_start call).trans (if_pos rfl)) h hlast
  exact hend

end
end Crowd
end SensorLink
