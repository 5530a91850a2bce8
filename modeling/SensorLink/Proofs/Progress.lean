import SensorLink.Proofs.Effects
import SensorLink.Proofs.Exclusive

/-! How a task goes on. A request that is visited at its deadlines comes to its end, whatever the modem does
    (`request_ends`), and a modem that is held is held by a task (`held_run`), so that no task waits for ever. -/

namespace SensorLink

/-! ### Deadlines -/

namespace Dialogue

/-- How many deadlines are still before a request that waits, at most. -/
def Hold.deadlines : Hold → Nat
  | .writing _ _ rest _ => rest.length + 2
  | .listening .. | .pausing _ => 1

theorem length_of_stalled {link : Link} {parts : List Bytes} {due : Nat} {rule : Modem.Rule} {rest : List Bytes}
    (h : (link.transmit parts).2 = .stalled due rule rest) : rest.length < parts.length := by
  induction parts generalizing link with
  | nil => cases h
  | cons part parts ih =>
    unfold Link.transmit at h
    simp only at h
    split at h
    · exact Nat.lt_succ_of_lt (ih h)
    · split at h
      · cases h
        exact Nat.lt_succ_self _
      · split at h
        · cases h
        · exact Nat.lt_succ_of_lt (ih h)

theorem proceed_deadlines {expectation : Option Expectation} {link : Link} {parts : List Bytes} {hold : Hold}
    (h : (proceed expectation (link.transmit parts)).2 = .waiting hold) : hold.deadlines < parts.length + 2 := by
  rcases hsent : link.transmit parts with ⟨after, _ | fault | ⟨due, rule, rest⟩⟩ <;> rw [hsent] at h
  · cases expectation with
    | none => cases h
    | some expectation =>
      simp only [proceed, listen] at h
      split at h <;> cases h
      simp [Hold.deadlines]
  · cases h
  · cases h
    have hrest : rest.length < parts.length := length_of_stalled (by rw [hsent])
    simpa [Hold.deadlines] using hrest

theorem lookAgain_clock (link : Link) (generation : UInt32) : (link.lookAgain generation).1.clock = link.clock := by
  unfold Link.lookAgain Link.orSetAlarm
  split <;> rfl

/-- A request that is visited at its deadline has one deadline less before it. -/
theorem resume_deadlines {link : Link} {hold next : Hold} (hdue : hold.deadline ≤ link.clock)
    (h : (resume link hold).2 = .waiting next) : next.deadlines < hold.deadlines := by
  cases hold with
  | writing due rule rest expectation =>
    simp only [resume, if_pos (show due ≤ link.clock from hdue), Link.resumeTransmit] at h
    rcases hobey : link.obey rule with ⟨after, _ | fault⟩ <;> rw [hobey] at h
    · exact proceed_deadlines h
    · cases h
  | listening generation deadline =>
    have hclock := lookAgain_clock link generation
    simp only [resume] at h
    rcases hlook : link.lookAgain generation with ⟨after, _ | answer⟩ <;> rw [hlook] at h hclock
    · simp only [if_pos (hclock.symm ▸ hdue : deadline ≤ after.clock)] at h
      cases h
    · cases h
  | pausing due =>
    simp only [resume, if_pos (show due ≤ link.clock from hdue)] at h
    cases h

end Dialogue

theorem advance_clock (link : Link) (time : Nat) : (link.advance time).clock = max link.clock time := by
  have hfold (arrivals : List Arrival) (link : Link) :
      (arrivals.foldl (fun link arrival => link.feed arrival.data) link).clock = link.clock := by
    induction arrivals generalizing link with
    | nil => rfl
    | cons arrival rest ih => exact ih _
  exact hfold _ _

namespace Crowd

/-! ### Visits of one task -/

/-- Task `i` is visited, or time passes. -/
def Move.IsVisit (i : Nat) : Move → Prop
  | .step j => j = i
  | .advance _ => True
  | .start _ | .drop _ => False

section
variable {crowd : Crowd} {i : Nat} {task : Task} {stage : Stage} {moves : List Move} {move : Move}

theorem Move.IsVisit.isOrderly (h : move.IsVisit i) : move.IsOrderly := by
  cases move with
  | start call => exact h.elim
  | _ => trivial

/-- Task `i` has gone on to `after`. -/
def went (crowd : Crowd) (i : Nat) (after : Node × Task) : Crowd := ⟨after.1, crowd.tasks.set i (some after.2)⟩

theorem task?_went (htask : crowd.task? i = some task) (after : Node × Task) :
    (crowd.went i after).task? i = some after.2 := by
  rw [went, task?_set htask, if_pos rfl]

theorem went_went (crowd : Crowd) (i : Nat) (first second : Node × Task) :
    (crowd.went i first).went i second = crowd.went i second := by
  simp [went]

theorem hold_ends {hold : Dialogue.Hold} (htask : crowd.task? i = some task)
    (hawaken : task.awaken = .checking (.request hold stage)) : ∃ moves link result, (∀ move ∈ moves, Move.IsVisit i move) ∧
      crowd.run moves = crowd.went i (({ crowd.node with link } : Node).after stage result) := by
  induction hn : hold.deadlines using Nat.strongRecOn generalizing crowd task hold with
  | ind n ih =>
    have hadvanced : (crowd.next (.advance hold.deadline)).task? i = some task := htask
    have hvisited : (crowd.run [.advance hold.deadline, .step i]) = crowd.went i
        (crowd.node.heed stage (Dialogue.resume (crowd.node.link.advance hold.deadline) hold)) := by
      rw [run_cons, run_cons, next_step hadvanced, hawaken]
      rfl
    have hclock : hold.deadline ≤ (crowd.node.link.advance hold.deadline).clock := by
      rw [advance_clock]
      exact Nat.le_max_right _ _
    have hvisits : ∀ move ∈ [Move.advance hold.deadline, .step i], move.IsVisit i := by simp [Move.IsVisit]
    rcases hresume : Dialogue.resume (crowd.node.link.advance hold.deadline) hold with ⟨link, next | result⟩ <;>
      rw [hresume] at hvisited
    · -- One deadline has passed, and the request still waits.
      have hlt : next.deadlines < n := hn ▸ Dialogue.resume_deadlines hclock (congrArg Prod.snd hresume)
      obtain ⟨moves, link', result, hmoves, hrun⟩ := ih next.deadlines hlt (task?_went htask
        ({ crowd.node with link }, .parked (.request next stage))) rfl rfl
      refine ⟨[.advance hold.deadline, .step i] ++ moves, link', result,
        List.forall_mem_append.mpr ⟨hvisits, hmoves⟩, ?_⟩
      rw [run_append, hvisited]
      exact hrun.trans (went_went _ _ _ _)
    · exact ⟨_, link, result, hvisits, hvisited⟩

/-- The request of a task that holds the modem comes to its end. -/
theorem request_ends (htask : crowd.task? i = some task) (hstage : task.stage? = some stage) :
    ∃ moves link result, (∀ move ∈ moves, Move.IsVisit i move) ∧
      crowd.run moves = crowd.went i (({ crowd.node with link } : Node).after stage result) := by
  cases task with
  | finished answer => cases hstage
  | parked wait | checking wait =>
    cases wait <;> cases hstage
    exact hold_ends htask rfl
  | asking request stage' =>
    cases hstage
    have hvisited : crowd.run [.step i] = crowd.went i (crowd.node.heed stage (Dialogue.start crowd.node.link request)) :=
      next_step htask
    have hvisits : ∀ move ∈ [Move.step i], move.IsVisit i := by simp [Move.IsVisit]
    rcases hstart : Dialogue.start crowd.node.link request with ⟨link, hold | result⟩ <;> rw [hstart] at hvisited
    · have hwaits : (Task.parked (.request hold stage)).awaken = .checking (.request hold stage) := rfl
      obtain ⟨moves, link', result, hmoves, hrun⟩ :=
        hold_ends (task?_went htask ({ crowd.node with link }, .parked (.request hold stage))) hwaits
      refine ⟨[.step i] ++ moves, link', result, List.forall_mem_append.mpr ⟨hvisits, hmoves⟩, ?_⟩
      rw [run_append, hvisited]
      exact hrun.trans (went_went _ _ _ _)
    · exact ⟨_, link, result, hvisits, hvisited⟩

/-- A task that holds the modem, or finds it free, brings its request to the end. -/
theorem aim_ends (htask : crowd.task? i = some task) (haim : task.aim? = some stage)
    (hfree : task.stage? = none → crowd.node.link.held = false) : ∃ moves link result,
      (∀ move ∈ moves, Move.IsVisit i move) ∧
        crowd.run moves = crowd.went i (({ crowd.node with link } : Node).after stage result) := by
  cases hstage : task.stage? with
  | some stage' =>
    obtain rfl : stage' = stage := Option.some.inj ((aim?_of_stage? hstage).symm.trans haim)
    exact request_ends htask hstage
  | none =>
    -- The task takes the modem with its first step.
    obtain ⟨request, hstep⟩ : ∃ request, crowd.node.step task.awaken = (crowd.node.acquire, .asking request stage) := by
      have hheld := hfree hstage
      cases task with
      | finished answer => cases haim
      | asking request stage' => cases hstage
      | parked wait | checking wait =>
        cases wait with
        | modem request stage' =>
          cases haim
          exact ⟨request, by simp [Task.awaken, Node.step, Node.check, hheld]⟩
        | request hold stage' => cases hstage
        | _ => cases haim
    have htaken : crowd.next (.step i) = crowd.went i (crowd.node.acquire, .asking request stage) := by
      rw [next_step htask, hstep]
      rfl
    obtain ⟨moves, link, result, hmoves, hrun⟩ := request_ends (task?_went htask (crowd.node.acquire, .asking request stage)) rfl
    refine ⟨.step i :: moves, link, result, List.forall_mem_cons.mpr ⟨rfl, hmoves⟩, ?_⟩
    rw [run_cons, htaken, hrun, went_went]
    rfl

/-! ### Who holds the modem -/

/-- If the modem is held, some task holds it. -/
def HeldByTask (crowd : Crowd) : Prop :=
  crowd.node.link.held = true → ∃ i task, crowd.task? i = some task ∧ task.stage?.isSome

theorem held_set {node : Node} {put : Option Task} (h : crowd.HeldByTask) (htask : crowd.task? i = some task)
    (hstage : task.stage? = none) (hheld : node.link.held = crowd.node.link.held) :
    HeldByTask ⟨node, crowd.tasks.set i put⟩ := by
  intro hnow
  obtain ⟨j, other, hother, hsome⟩ := h (hheld.symm.trans hnow)
  refine ⟨j, other, ?_, hsome⟩
  rw [task?_set htask, if_neg, hother]
  rintro rfl
  obtain rfl : task = other := Option.some.inj (htask.symm.trans hother)
  simp [hstage] at hsome

theorem held_next (hexclusive : crowd.Exclusive) (h : crowd.HeldByTask) (hmove : move.IsOrderly) :
    (crowd.next move).HeldByTask := by
  cases move with
  | start call =>
    intro hheld
    obtain ⟨j, other, hother, hsome⟩ := h ((start_outside crowd.node hmove).1.held.symm.trans hheld)
    exact ⟨j, other, by rw [task?_start, if_neg (Nat.ne_of_lt (lt_of_task? hother)), hother], hsome⟩
  | advance time => exact fun hheld => h ((crowd.node.link.same_advance time).held.symm.trans hheld)
  | step i =>
    rcases htask : crowd.task? i with _ | task
    · rwa [next_step_none htask]
    rw [next_step htask]
    have hself : task? ⟨(crowd.node.step task.awaken).1, crowd.tasks.set i (some (crowd.node.step task.awaken).2)⟩ i =
        some (crowd.node.step task.awaken).2 := by rw [task?_set htask, if_pos rfl]
    rcases hstage : task.stage? with _ | stage
    · rcases step_outside crowd.node hstage with ⟨hlink, -⟩ | ⟨request, stage, -, hafter⟩
      · exact held_set h htask hstage hlink.held
      · exact fun _ => ⟨i, _, hself, by rw [hafter]; rfl⟩
    · have hsome : task.stage?.isSome := by simp [hstage]
      obtain ⟨written, -, hheld⟩ := step_held hstage (hexclusive.held htask hsome) (hexclusive.owns htask hsome)
      intro hnow
      cases hheld with
      | waits _ _ hstays _ => exact ⟨i, _, hself, by simp [hstays]⟩
      | again _ _ _ _ _ hasks => exact ⟨i, _, hself, by rw [hasks]; rfl⟩
      | left hfree =>
        rw [hfree] at hnow
        cases hnow
  | drop i =>
    rcases htask : crowd.task? i with _ | task
    · rwa [next_drop_none htask]
    rw [next_drop htask]
    rcases hstage : task.stage? with _ | stage
    · exact held_set h htask hstage (by rw [drop_outside hstage])
    · intro hnow
      have hfree := (drop_held hstage (hexclusive.owns htask (by simp [hstage]))).1
      exact absurd (hfree.symm.trans hnow) (by simp)

theorem held_run {node : Node} (hempty : node.link.intake.slot.question = none) (hfree : node.link.held = false)
    (hmoves : ∀ move ∈ moves, move.IsOrderly) : (Crowd.run { node } moves).HeldByTask := by
  induction moves using List.reverseRecOn with
  | nil => exact fun hheld => absurd (hfree.symm.trans hheld) (by simp)
  | append_singleton moves move ih =>
    have hbefore : ∀ move ∈ moves, move.IsOrderly := fun move hmove => hmoves move (List.mem_append_left _ hmove)
    rw [run_append]
    exact held_next (exclusive_run (exclusive_fresh hempty) hbefore) (ih hbefore) (hmoves move (by simp))

end
end Crowd
end SensorLink
