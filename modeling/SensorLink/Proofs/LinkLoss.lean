import SensorLink.Proofs.Connecting
import SensorLink.Proofs.Receiving

/-! Reports that the link went down, and the links they are about. A report stays pending until somebody takes note of it
    or the modem is reset, and neither leaving nor joining does: the next link is taken down by what was reported before
    it was there (`link_lost_iff`). -/

namespace SensorLink

/-! ### Who forgets what has been received -/

def Wait.clears? : Wait → Option Stage
  | .modem .clear stage => some stage
  | _ => none

/-- The stage in which a task forgets, or will forget, all that has been received. -/
def Task.clears? : Task → Option Stage
  | .parked wait | .checking wait => wait.clears?
  | .asking .clear stage => some stage
  | _ => none

section
variable {node : Node} {task : Task} {stage : Stage} {call : Call}

theorem Task.Left.clears?_eq (h : task.Left) : task.clears? = none := by cases h <;> rfl

/-- Only a modem that has been reset is followed by forgetting. -/
theorem clears?_next (node : Node) (stage : Stage) (result : Dialogue.Result) :
    (stage.next node result).2.task.clears? = none ∨ (stage.next node result).2.task.clears? = some .flush := by
  cases stage with
  | settle => exact .inr rfl
  | publishInline goal | publishBody goal => cases result <;> exact .inl (left_goal _ _).clears?_eq
  | publishHeader payload goal =>
    cases result with
    | ok answer => exact .inl rfl
    | error cause => exact .inl (left_goal _ _).clears?_eq
  | subscribe full subscriber command retries =>
    cases result with
    | ok answer => exact .inl (left_enter full subscriber true).clears?_eq
    | error cause => cases retries <;> exact .inl rfl
  | probe | leave | closeSession => cases result <;> exact .inl rfl
  | single retries =>
    cases result with
    | ok answer => exact .inl rfl
    | error cause => cases retries <;> exact .inl rfl
  | join retry => cases result <;> exact .inl (left_conclude _ _ _ .rejoins _).clears?_eq
  | openSession retry => cases result <;> exact .inl (left_conclude _ _ _ .reopens _).clears?_eq
  | configure session retry =>
    cases result with
    | ok answer => exact .inl rfl
    | error cause => exact .inl (left_conclude _ _ _ .reopens _).clears?_eq
  | _ => exact .inl rfl

theorem clears?_check {wait : Wait} (hwait : ∀ hold stage, wait ≠ .request hold stage)
    (h : (node.check wait).2.clears? = some stage) : wait.clears? = some stage := by
  rcases check_leaves node hwait with hstays | ⟨request, stage', rfl, hasks⟩ | hleft
  · rw [hstays] at h
    exact h
  · rw [hasks] at h
    cases request <;> exact h
  · simp [hleft.clears?_eq] at h

/-- A task that has come to forgetting had it before it, or has reset the modem. -/
theorem clears?_step (h : (node.step task.awaken).2.clears? = some stage) : task.clears? = some stage ∨ stage = .flush := by
  cases hstage : task.stage? with
  | some current =>
    obtain ⟨link, ⟨-, hold, hstep⟩ | ⟨result, -, hstep⟩⟩ := step_concludes node hstage <;> rw [hstep] at h
    · cases h
    · rw [after_task] at h
      rcases clears?_next { node with link } current result with hnone | hflush
      · simp [hnone] at h
      · exact .inr (Option.some.inj (h.symm.trans hflush))
  | none =>
    cases task with
    | asking request stage' => cases hstage
    | finished answer => exact .inl h
    | parked wait | checking wait =>
      refine .inl (clears?_check (fun hold stage' hwait => ?_) h)
      subst hwait
      cases hstage

theorem clears?_start (h : call ≠ .clear) : (call.start node).2.clears? = none := by
  cases call with
  | clear => exact absurd rfl h
  | ask expected =>
    simp only [Call.start]
    split <;> rfl
  | publish scope topic payload => exact (left_publish _ _ _ _).clears?_eq
  | subscribe scope pattern subscriber => exact (left_subscribe _ _ _).clears?_eq
  | unsubscribe scope pattern subscriber => exact (left_unsubscribe _ _ _).clears?_eq
  | deliver line =>
    simp only [Call.start]
    split <;> rfl
  | tryPost scope topic payload =>
    simp only [Call.start, Node.tryPost]
    split
    · rfl
    · split <;> rfl
  | post scope topic payload =>
    simp only [Call.start, Node.post]
    split <;> rfl
  | join credentials | joinUntil credentials delay => exact (left_join _ _).clears?_eq
  | openBroker broker | openBrokerUntil broker delay => exact (left_openBroker _ _).clears?_eq
  | leave => exact (left_leave _).clears?_eq
  | closeBroker => exact (left_closeBroker _).clears?_eq
  | _ => rfl

end

/-! ### Attempts to join -/

def Stage.joins : Stage → Bool
  | .join _ => true
  | _ => false

namespace Crowd

/-- A task joins the network, or will as soon as the modem is free. -/
def Joining (crowd : Crowd) : Prop :=
  ∃ i task retry, crowd.task? i = some task ∧ task.aim? = some (.join retry)

instance (crowd : Crowd) : Decidable crowd.Joining :=
  decidable_of_iff (∃ task ∈ crowd.tasks, (task.bind Task.aim?).any Stage.joins) (by
    constructor
    · rintro ⟨_ | task, hmem, hjoins⟩
      · cases hjoins
      · obtain ⟨i, hget⟩ := List.getElem?_of_mem hmem
        rw [Option.bind_some] at hjoins
        cases haim : task.aim? with
        | none => simp [haim] at hjoins
        | some stage =>
          rw [haim] at hjoins
          cases stage with
          | join retry => exact ⟨i, task, retry, Option.join_eq_some_iff.mpr hget, haim⟩
          | _ => cases hjoins
    · rintro ⟨i, task, retry, htask, haim⟩
      exact ⟨some task, List.mem_of_getElem? (Option.join_eq_some_iff.mp htask), by simp [haim, Stage.joins]⟩)

def IsUp (crowd : Crowd) : Prop := crowd.node.status.link = .connected

instance (crowd : Crowd) : Decidable crowd.IsUp := inferInstanceAs (Decidable (_ = _))

def Begins (crowd : Crowd) (move : Move) : Prop := ¬crowd.Joining ∧ (crowd.next move).Joining

/-- The attempt that begins with `joining` has brought the link up, and the link has been up since. -/
structure Joined (crowd : Crowd) (joining : Move) (since : List Move) : Prop where
  begins : crowd.Begins joining
  succeeds : ∃ earlier success later retry answer, since = earlier ++ success :: later ∧
    (∀ first rest, earlier = first ++ rest → (crowd.run (joining :: first)).Joining) ∧
    (crowd.run (joining :: earlier)).concludes? success = some (.join retry, .ok answer) ∧
    ∀ first rest, later = first ++ rest → (crowd.run (joining :: earlier ++ success :: first)).IsUp

/-- Notes a report that the link went down, if one is pending. -/
def notes (crowd : Crowd) : Move → Bool
  | .start .noteClosed => true
  | .step i => (crowd.task? i).any fun task => task.awaken = .checking .closed
  | _ => false

/-- In the course of the moves the modem reports that the link went down. -/
def reportsIn (crowd : Crowd) : List Move → Bool
  | [] => false
  | move :: rest => crowd.reports move || (crowd.next move).reportsIn rest

section
variable {node : Node} {crowd : Crowd} {moves : List Move} {move joining : Move} {since : List Move}

theorem after_isUp {status : Status} {result : Dialogue.Result} {stage : Stage}
    (h : (status.after result stage).link = .connected) :
    status.link = .connected ∨ ∃ retry answer, stage = .join retry ∧ result = .ok answer := by
  cases stage with
  | join retry =>
    cases result with
    | ok answer => exact .inr ⟨retry, answer, rfl, rfl⟩
    | error cause => cases h
  | single | leave | openSession | closeSession =>
    simp only [Status.after] at h
    split at h <;> first | exact .inl h | cases h
  | _ => exact .inl h

theorem start_isUp {call : Call} (h : (call.start node).1.status.link = .connected) : node.status.link = .connected := by
  rw [start_status] at h
  cases call with
  | powerUp => cases h
  | noteClosed =>
    simp only [noteClosed_status] at h
    split at h
    · cases h
    · exact h
  | _ => exact h

/-- Only an attempt to join that succeeds brings the link up. -/
theorem isUp_next (h : (crowd.next move).IsUp) :
    crowd.IsUp ∨ ∃ retry answer, crowd.concludes? move = some (.join retry, .ok answer) := by
  cases move with
  | start call => exact .inl (start_isUp h)
  | step i =>
    cases htask : crowd.task? i with
    | none =>
      rw [next_step_none htask] at h
      exact .inl h
    | some task =>
      rw [IsUp, next_step htask] at h
      simp only [step_status] at h
      rw [concludes?_step htask]
      split at h
      · rename_i stage result hconcludes
        rcases after_isUp h with hbefore | ⟨retry, answer, rfl, rfl⟩
        · exact .inl hbefore
        · exact .inr ⟨retry, answer, hconcludes⟩
      · split at h
        · cases h
        · exact .inl h
  | drop i =>
    cases htask : crowd.task? i with
    | none =>
      rw [next_drop_none htask] at h
      exact .inl h
    | some task =>
      rw [IsUp, next_drop htask] at h
      simp only [(drop_frame crowd.node task).status] at h
      exact .inl h
  | advance time => exact .inl h

theorem exists_joined (hstatus : node.status = {}) (h : (Crowd.run { node } moves).IsUp) :
    ∃ before joining since, moves = before ++ joining :: since ∧ (Crowd.run { node } before).Joined joining since := by
  have hdown : ¬({ node } : Crowd).IsUp := by simp [IsUp, hstatus]
  obtain ⟨trying, success, later, rfl, ⟨retry, answer, hsuccess⟩, hup⟩ :=
    exists_last (P := IsUp) (fun _ _ => isUp_next) hdown h
  obtain ⟨i, task, -, htask, haim⟩ := task_of_concludes? hsuccess
  have hnone : ¬({ node } : Crowd).Joining := by
    rintro ⟨j, other, _, hother, -⟩
    cases hother
  have hbegins (crowd : Crowd) (move : Move) (hnext : (crowd.next move).Joining) : crowd.Joining ∨ crowd.Begins move := by
    by_cases hbefore : crowd.Joining
    · exact .inl hbefore
    · exact .inr ⟨hbefore, hnext⟩
  obtain ⟨before, joining, earlier, rfl, hbegan, hjoining⟩ :=
    exists_last (P := Joining) hbegins hnone ⟨i, task, retry, htask, haim⟩
  refine ⟨before, joining, earlier ++ success :: later, by simp, hbegan, earlier, success, later, retry, answer, rfl,
    fun first rest hsplit => ?_, ?_, fun first rest hsplit => ?_⟩
  · rw [← run_append]
    exact (hjoining first rest hsplit).1
  · rwa [← run_append]
  · have hlater := (hup first rest hsplit).1
    rwa [List.append_assoc, run_append] at hlater

/-! ### What stays pending -/

theorem reports_of_settles (h : crowd.settles move) : crowd.reports move = false := by
  have hnothing : crowd.received move = [] := by
    cases move with
    | start call =>
      cases call with
      | noteClosed | takeClosed => rfl
      | _ => cases h
    | step i =>
      cases htask : crowd.task? i with
      | none => simp [settles, htask] at h
      | some task =>
        simp only [settles, htask, Option.any_some] at h
        simp only [received, htask, Option.elim_some]
        unfold Task.settles at h
        split at h <;> first | (rename_i heq; rw [heq]; rfl) | cases h
    | drop i | advance time => cases h
  simp [reports, hnothing, LineBuffer.completes, LineBuffer.pushAll]

/-- If nobody has taken note of a report, one is pending exactly if one was at the beginning or has come since. -/
theorem closed_run (h : ∀ first move rest, moves = first ++ move :: rest → (crowd.run first).settles move →
      (crowd.run first).node.link.intake.closed = false) :
    (crowd.run moves).node.link.intake.closed = (crowd.node.link.intake.closed || crowd.reportsIn moves) := by
  induction moves generalizing crowd with
  | nil => simp [reportsIn, run]
  | cons move rest ih =>
    have hnext := closed_next crowd move
    have hrest : ((crowd.next move).run rest).node.link.intake.closed = _ :=
      ih fun first other later hsplit => h (move :: first) other later (by rw [hsplit]; rfl)
    rw [run_cons, hrest, hnext, reportsIn]
    cases hsettles : crowd.settles move with
    | false => simp [Bool.or_assoc]
    | true =>
      have hclosed : crowd.node.link.intake.closed = false := h [] move rest rfl hsettles
      simp [hclosed, reports_of_settles hsettles]

theorem maintains_clears (calls : List Call) : Maintains (fun _ => True)
    (fun call task => ∀ stage, task.clears? = some stage → stage = .flush ∨ call = .clear) calls where
  start node _ call _ := by
    refine ⟨trivial, fun stage hstage => ?_⟩
    by_cases hcall : call = .clear
    · exact .inr hcall
    · simp [clears?_start hcall] at hstage
  step node _ call task hP := by
    refine ⟨trivial, fun stage hstage => ?_⟩
    rcases clears?_step hstage with hbefore | hflush
    · exact hP stage hbefore
    · exact .inl hflush
  drop _ _ _ := trivial
  advance _ _ _ := trivial

/-- Without a call to forget, only the bring-up forgets what has been received. -/
theorem flush_of_clear (hown : Call.clear ∉ Crowd.calls moves)
    (htask : (Crowd.run { node } moves).task? i = some (.asking .clear stage)) : stage = .flush := by
  have heach : (Crowd.run { node } moves).Each (fun _ => True)
      (fun call task => ∀ stage, task.clears? = some stage → stage = .flush ∨ call = .clear) (Crowd.calls moves) :=
    each_fresh trivial (maintains_clears _)
  obtain ⟨call, hcall, hclears⟩ := heach.tasks i _ htask
  refine (hclears stage rfl).resolve_right ?_
  rintro rfl
  exact hown (List.mem_of_getElem? hcall)

/-- While a task works on the connection nobody else joins. -/
theorem aim?_of_joining (hserial : serial Call.connects [] { node } moves)
    (htask : (Crowd.run { node } moves).task? i = some task) (hconnects : task.connects)
    (h : ((Crowd.run { node } moves).next (.step i)).Joining) :
    ∃ retry, ((Crowd.run { node } moves).node.step task.awaken).2.aim? = some (.join retry) := by
  obtain ⟨j, other, retry, hother, haim⟩ := h
  rw [task?_step htask] at hother
  split at hother
  · cases hother
    exact ⟨retry, haim⟩
  · rename_i hne
    exact absurd (eq_of_serial hserial (underWay_of_connects htask hconnects)
      (underWay_of_connects hother (connects_of_aim? haim))) hne

/-- Whoever takes note of a report takes the link down, and only when the modem is reset is a report forgotten. -/
theorem closed_of_settles (hstatus : node.status = {}) (hserial : serial Call.connects [] { node } (moves ++ [move]))
    (hown : ∀ call ∈ Crowd.calls (moves ++ [move]), call ≠ .takeClosed ∧ call ≠ .clear)
    (hsettles : (Crowd.run { node } moves).settles move)
    (h : (Crowd.run { node } (moves ++ [move])).Joining ∨ (Crowd.run { node } (moves ++ [move])).IsUp) :
    (Crowd.run { node } moves).node.link.intake.closed = false := by
  rw [serial_append, Bool.and_eq_true, List.nil_append] at hserial
  have hrun : Crowd.run { node } (moves ++ [move]) = (Crowd.run { node } moves).next move := run_append _ _ _
  rw [hrun] at h
  by_contra hpending
  rw [Bool.not_eq_false] at hpending
  cases move with
  | drop i | advance time => cases hsettles
  | start call =>
    cases call with
    | takeClosed => exact (hown .takeClosed (by simp [Crowd.calls, Move.call?])).1 rfl
    | noteClosed =>
      rcases h with ⟨i, task, retry, htask, haim⟩ | hup
      · rcases task?_next htask with hold | ⟨_, ⟨⟩, -, rfl⟩ | ⟨_, hstep, -⟩
        · have hadmits : (Crowd.run { node } moves).admits Call.connects (Crowd.calls moves) (.start .noteClosed) := by
            simpa [serial] using hserial.2
          exact not_underWay_of_admits hadmits rfl (underWay_of_connects hold (connects_of_aim? haim))
        · cases haim
        · cases hstep
      · have hdown : ((Crowd.run { node } moves).next (.start .noteClosed)).node.status =
            (Crowd.run { node } moves).node.status.linkLost :=
          (noteClosed_status _).trans (if_pos hpending)
        rw [IsUp, hdown] at hup
        cases hup
    | _ => cases hsettles
  | step i =>
    cases htask : (Crowd.run { node } moves).task? i with
    | none => simp [settles, htask] at hsettles
    | some task =>
      have hnext := next_step htask
      simp only [settles, htask, Option.any_some] at hsettles
      cases hawaken : task.awaken with
      | parked wait | finished answer =>
        rw [hawaken] at hsettles
        cases hsettles
      | checking wait =>
        obtain rfl : wait = .closed := by
          rw [hawaken] at hsettles
          cases wait <;> first | rfl | cases hsettles
        have hconnects : task.connects := by rw [← connects_awaken, hawaken]; rfl
        have hnoted : (Crowd.run { node } moves).node.step task.awaken =
            ((Crowd.run { node } moves).node.noteClosed.1, .finished .done) := by
          rw [hawaken]
          simp [Node.step, Node.check, Node.noteClosed, Intake.noteClosed, hpending]
        rcases h with hjoining | hup
        · obtain ⟨retry, haim⟩ := aim?_of_joining hserial.1 htask hconnects hjoining
          rw [hnoted] at haim
          cases haim
        · rw [IsUp, hnext, hnoted] at hup
          simp only [noteClosed_status, if_pos hpending] at hup
          cases hup
      | asking request stage =>
        obtain rfl : task = .asking request stage := by cases task <;> cases hawaken; rfl
        obtain rfl : request = .clear := by cases request <;> first | rfl | cases hsettles
        have hforgotten : Call.clear ∉ Crowd.calls moves := fun hmem =>
          (hown .clear (by simpa [Crowd.calls, Move.call?] using hmem)).2 rfl
        obtain rfl : stage = .flush := flush_of_clear hforgotten htask
        have hreset : (Crowd.run { node } moves).node.status = {} := (steady_run hstatus hserial.1).fits i _ htask _ rfl
        rcases h with hjoining | hup
        · obtain ⟨retry, haim⟩ := aim?_of_joining hserial.1 htask rfl hjoining
          cases haim
        · rw [IsUp, hnext] at hup
          change (Crowd.run { node } moves).node.status.link = .connected at hup
          rw [hreset] at hup
          cases hup

/-- From the beginning of the attempt on, it is under way or the link is up. -/
theorem Joined.attached (h : crowd.Joined joining since) (first rest : List Move)
    (hsplit : joining :: since = first ++ rest) (hne : first ≠ []) :
    (crowd.run first).Joining ∨ (crowd.run first).IsUp := by
  obtain ⟨earlier, success, later, retry, answer, rfl, hjoining, -, hup⟩ := h.succeeds
  obtain ⟨made, first, rfl⟩ := List.exists_cons_of_ne_nil hne
  rw [List.cons_append, List.cons.injEq] at hsplit
  obtain ⟨rfl, hsplit⟩ := hsplit
  rcases List.append_eq_append_iff.mp hsplit with ⟨more, rfl, hmore⟩ | ⟨more, hearlier, -⟩
  · cases more with
    | nil => exact .inl (hjoining _ [] (by simp))
    | cons move more =>
      obtain ⟨rfl, hlater⟩ := List.cons.inj hmore
      exact .inr (hup more rest hlater)
  · exact .inl (hjoining first more hearlier)

theorem notes_status (h : crowd.notes move) : (crowd.next move).node.status =
    if crowd.node.link.intake.closed then crowd.node.status.linkLost else crowd.node.status := by
  cases move with
  | start call =>
    cases call with
    | noteClosed => exact noteClosed_status crowd.node
    | _ => cases h
  | step i =>
    cases htask : crowd.task? i with
    | none => simp [notes, htask] at h
    | some task =>
      have hawaken : task.awaken = .checking .closed := by simpa [notes, htask] using h
      rw [next_step htask, hawaken]
      exact (check_status (by simp)).trans (by simp)
  | drop i | advance time => cases h

/-- Whether a link that is up is found to be down, when somebody looks for a report: exactly if a report had come before
    the attempt to join began and was still pending, or one has come since. -/
theorem link_lost_iff (node : Node) (hstatus : node.status = {}) (moves : List Move) (last : Move)
    (hserial : serial Call.connects [] { node } (moves ++ [last]))
    (hown : ∀ call ∈ Crowd.calls (moves ++ [last]), call ≠ .takeClosed ∧ call ≠ .clear)
    (hnotes : (Crowd.run { node } moves).notes last) (hup : (Crowd.run { node } moves).IsUp) :
    ∃ before joining since, moves = before ++ joining :: since ∧
      (Crowd.run { node } before).Joined joining since ∧
      (¬(Crowd.run { node } (moves ++ [last])).IsUp ↔
        (Crowd.run { node } before).node.link.intake.closed ∨ (Crowd.run { node } before).reportsIn (joining :: since)) := by
  obtain ⟨before, joining, since, hsplit, hjoined⟩ := exists_joined hstatus hup
  refine ⟨before, joining, since, hsplit, hjoined, ?_⟩
  have hpending : (Crowd.run { node } moves).node.link.intake.closed =
      ((Crowd.run { node } before).node.link.intake.closed ||
        (Crowd.run { node } before).reportsIn (joining :: since)) := by
    rw [hsplit, run_append]
    refine closed_run fun first move rest hfirst hsettles => ?_
    have hmoves : moves ++ [last] = before ++ first ++ [move] ++ (rest ++ [last]) := by simp [hsplit, hfirst]
    have hattached := hjoined.attached (first ++ [move]) rest (by simp [hfirst]) (by simp)
    rw [← run_append] at hattached hsettles ⊢
    rw [← List.append_assoc] at hattached
    refine closed_of_settles hstatus ?_ (fun call hcall => hown call ?_) hsettles hattached
    · rw [hmoves, serial_append, Bool.and_eq_true] at hserial
      exact hserial.1
    · rw [hmoves, calls_append]
      exact List.mem_append_left _ hcall
  have hlast : Crowd.run { node } (moves ++ [last]) = (Crowd.run { node } moves).next last := run_append _ _ _
  rw [hlast, IsUp, notes_status hnotes, ← Bool.or_eq_true, ← hpending]
  cases (Crowd.run { node } moves).node.link.intake.closed with
  | false => exact iff_of_false (not_not_intro hup) nofun
  | true => simp [Status.linkLost]

end

/-- From power-on to a first link. -/
def toFirstLink : List Move :=
  .start .powerUp :: turns 0 3 ++ .advance 500000 :: turns 0 5 ++ .start (.join ⟨"net", "pw"⟩) :: turns 1 2

/-- A report about the link that is up. -/
theorem link_lost_to_new_report :
    let node : Node := { link := { rules := obeying }, table := { capacity := 4 }, depth := 1 }
    let moves := toFirstLink ++ [.start (.feed (Text.encode "CLOSED\r\n"))]
    ¬(Crowd.run { node } (moves ++ [.start .noteClosed])).IsUp ∧
      ∃ before joining since, moves = before ++ joining :: since ∧
        (Crowd.run { node } before).Joined joining since ∧
        ((Crowd.run { node } before).node.link.intake.closed ∨ (Crowd.run { node } before).reportsIn (joining :: since)) := by
  intro node moves
  have hlost : ¬(Crowd.run { node } (moves ++ [.start .noteClosed])).IsUp := by decide +kernel
  obtain ⟨before, joining, since, hsplit, hjoined, hiff⟩ :=
    link_lost_iff node rfl moves (.start .noteClosed) (by decide +kernel)
      (by simp [moves, toFirstLink, turns, Crowd.calls, Move.call?]; rintro _ (rfl | rfl | rfl) <;> simp) rfl (by decide +kernel)
  exact ⟨hlost, before, joining, since, hsplit, hjoined, hiff.mp hlost⟩

/-- A report about the first link, which has been left since, takes the second one down. -/
theorem link_lost_to_old_report :
    let node : Node := { link := { rules := obeying }, table := { capacity := 4 }, depth := 1 }
    let before := toFirstLink ++ .start (.feed (Text.encode "CLOSED\r\n")) :: .start .leave :: turns 3 2
    let joining : Move := .start (.join ⟨"net", "pw"⟩)
    let since := turns 4 2
    let joined := Crowd.run { node } (before ++ joining :: since)
    serial Call.connects [] { node } (before ++ joining :: since ++ [.start .noteClosed]) ∧
      (Crowd.run { node } before).Joined joining since ∧
      joined.IsUp ∧ ¬(joined.next (.start .noteClosed)).IsUp ∧
      (Crowd.run { node } before).reportsIn (joining :: since) = false := by
  intro node before joining since joined
  have hjoined : (Crowd.run { node } before).Joined joining since := by
    refine ⟨⟨by decide +kernel, by decide +kernel⟩, [.step 4], .step 4, [], none, "", rfl, fun first rest hsplit => ?_,
      by decide +kernel, fun first rest hsplit => ?_⟩
    · have hfirst : first = [] ∨ first = [.step 4] := by
        rcases first with _ | ⟨move, _ | ⟨other, more⟩⟩ <;> simp_all
      rcases hfirst with rfl | rfl <;> decide +kernel
    · obtain ⟨rfl, -⟩ := List.append_eq_nil_iff.mp hsplit.symm
      decide +kernel
  exact ⟨by decide +kernel, hjoined, by decide +kernel, by decide +kernel, by decide +kernel⟩

end Crowd
end SensorLink
