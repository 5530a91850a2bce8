import Mathlib.Data.List.Induction
import Mathlib.Tactic.Common
import SensorLink.Call

/-! Calls side by side on one node, in any order. Each goes on step by step, and between any two steps another may
    go on, be given up or be called, bytes may come and time may pass. A visit is a run of such steps
    (`run_visit`), so every schedule of visits is among the orders. -/

namespace SensorLink

/-- A task that is visited looks whether it can go on. -/
def Task.awaken : Task → Task
  | .parked wait => .checking wait
  | task => task

structure Crowd where
  node : Node
  /-- In the order of their calls. Nothing stands where a task was given up. -/
  tasks : List (Option Task) := []

namespace Crowd

inductive Move where
  /-- A call is visited for the first time. What happens around the node is called as well. -/
  | start (call : Call)
  | step (i : Nat)
  | drop (i : Nat)
  | advance (time : Nat)

def task? (crowd : Crowd) (i : Nat) : Option Task := crowd.tasks[i]?.join

def next (crowd : Crowd) : Move → Crowd
  | .start call =>
    let (node, task) := call.start crowd.node
    { node, tasks := crowd.tasks ++ [some task] }
  | .step i =>
    match crowd.task? i with
    | none => crowd
    | some task =>
      let (node, task) := crowd.node.step task.awaken
      { node, tasks := crowd.tasks.set i (some task) }
  | .drop i =>
    match crowd.task? i with
    | none => crowd
    | some task => { node := crowd.node.drop task, tasks := crowd.tasks.set i none }
  | .advance time => { crowd with node := crowd.node.advance time }

def run (crowd : Crowd) (moves : List Move) : Crowd := moves.foldl next crowd

/-! ### What a move does to the tasks -/

section
variable {crowd : Crowd} {i j : Nat} {task : Task}

theorem run_cons (move : Move) (moves : List Move) : crowd.run (move :: moves) = (crowd.next move).run moves := rfl

theorem run_append (crowd : Crowd) (first rest : List Move) : crowd.run (first ++ rest) = (crowd.run first).run rest :=
  List.foldl_append

theorem lt_of_task? (h : crowd.task? i = some task) : i < crowd.tasks.length := by
  by_contra hi
  rw [task?, List.getElem?_eq_none (Nat.le_of_not_lt hi)] at h
  cases h

theorem task?_start (call : Call) : (crowd.next (.start call)).task? i =
    if i = crowd.tasks.length then some (call.start crowd.node).2 else crowd.task? i := by
  show (crowd.tasks ++ [some (call.start crowd.node).2])[i]?.join = _
  rcases Nat.lt_trichotomy i crowd.tasks.length with hi | rfl | hi
  · rw [List.getElem?_append_left hi, if_neg (Nat.ne_of_lt hi)]
    rfl
  · simp
  · rw [List.getElem?_eq_none (by simp; omega), if_neg (Nat.ne_of_gt hi), task?,
      List.getElem?_eq_none (Nat.le_of_lt hi)]

theorem task?_set (h : crowd.task? i = some task) (node : Node) (put : Option Task) :
    (⟨node, crowd.tasks.set i put⟩ : Crowd).task? j = if i = j then put else crowd.task? j := by
  show (crowd.tasks.set i put)[j]?.join = _
  split
  · rename_i heq
    subst heq
    rw [List.getElem?_set_self (lt_of_task? h)]
    rfl
  · rename_i hne
    rw [List.getElem?_set_ne hne]
    rfl

theorem next_step (h : crowd.task? i = some task) : crowd.next (.step i) =
    ⟨(crowd.node.step task.awaken).1, crowd.tasks.set i (some (crowd.node.step task.awaken).2)⟩ := by
  simp only [next, h]

theorem next_drop (h : crowd.task? i = some task) :
    crowd.next (.drop i) = ⟨crowd.node.drop task, crowd.tasks.set i none⟩ := by
  simp only [next, h]

theorem task?_step (h : crowd.task? i = some task) : (crowd.next (.step i)).task? j =
    if i = j then some (crowd.node.step task.awaken).2 else crowd.task? j := by
  rw [next_step h, task?_set h]

theorem task?_drop (h : crowd.task? i = some task) :
    (crowd.next (.drop i)).task? j = if i = j then none else crowd.task? j := by
  rw [next_drop h, task?_set h]

theorem next_step_none (h : crowd.task? i = none) : crowd.next (.step i) = crowd := by simp only [next, h]

theorem next_drop_none (h : crowd.task? i = none) : crowd.next (.drop i) = crowd := by simp only [next, h]

/-- Where a task comes from after a move: it has been there, its call has just been made, or it has made a step. -/
theorem task?_next {move : Move} (h : (crowd.next move).task? i = some task) :
    crowd.task? i = some task ∨
      (∃ call, move = .start call ∧ i = crowd.tasks.length ∧ (call.start crowd.node).2 = task) ∨
      ∃ before, move = .step i ∧ crowd.task? i = some before ∧ (crowd.node.step before.awaken).2 = task := by
  cases move with
  | start call =>
    rw [task?_start] at h
    split at h
    · rename_i hi
      exact .inr (.inl ⟨call, rfl, hi, Option.some.inj h⟩)
    · exact .inl h
  | step j =>
    cases hbefore : crowd.task? j with
    | none => exact .inl (by rwa [next_step_none hbefore] at h)
    | some before =>
      rw [task?_step hbefore] at h
      split at h
      · rename_i hij
        exact .inr (.inr ⟨before, hij ▸ rfl, hij ▸ hbefore, Option.some.inj h⟩)
      · exact .inl h
  | drop j =>
    cases hbefore : crowd.task? j with
    | none => exact .inl (by rwa [next_drop_none hbefore] at h)
    | some before =>
      rw [task?_drop hbefore] at h
      split at h
      · cases h
      · exact .inl h
  | advance time => exact .inl h

/-- What holds at the end of a run and did not at its beginning has held since the last move that brought it about. -/
theorem exists_last {moves : List Move} {P : Crowd → Prop} {E : Crowd → Move → Prop}
    (hnext : ∀ crowd move, P (crowd.next move) → P crowd ∨ E crowd move) (hnot : ¬P crowd) (h : P (crowd.run moves)) :
    ∃ before event since, moves = before ++ event :: since ∧ E (crowd.run before) event ∧
      ∀ earlier later, since = earlier ++ later → P (crowd.run (before ++ event :: earlier)) ∧
        ∀ move ∈ later.head?, ¬E (crowd.run (before ++ event :: earlier)) move := by
  induction moves using List.reverseRecOn with
  | nil => exact absurd h hnot
  | append_singleton moves move ih =>
    by_cases hevent : E (crowd.run moves) move
    · refine ⟨moves, move, [], rfl, hevent, fun earlier later hsplit => ?_⟩
      obtain ⟨rfl, rfl⟩ := List.append_eq_nil_iff.mp hsplit.symm
      exact ⟨h, nofun⟩
    · have hbefore : P (crowd.run moves) := (hnext _ _ (by rwa [run_append] at h)).resolve_right hevent
      obtain ⟨before, event, since, rfl, hE, hsince⟩ := ih hbefore
      refine ⟨before, event, since ++ [move], by simp, hE, fun earlier later hsplit => ?_⟩
      rcases List.eq_nil_or_concat later with rfl | ⟨later, last, rfl⟩
      · rw [List.append_nil] at hsplit
        subst hsplit
        exact ⟨by simpa using h, nofun⟩
      · rw [List.concat_eq_append, ← List.append_assoc] at hsplit
        obtain ⟨rfl, hlast⟩ := List.append_inj' hsplit rfl
        obtain ⟨hP, hhead⟩ := hsince earlier later rfl
        refine ⟨hP, fun other hother => ?_⟩
        cases later with
        | nil =>
          cases hlast
          cases hother
          simpa using hevent
        | cons first later => exact hhead other hother

/-! ### Visits -/

theorem set_self (h : crowd.task? i = some task) : ⟨crowd.node, crowd.tasks.set i (some task)⟩ = crowd := by
  obtain ⟨node, tasks⟩ := crowd
  have hget : tasks[i]?.join = some task := h
  rw [List.getElem?_eq_getElem (lt_of_task? h), Option.join_some] at hget
  rw [← hget, List.set_getElem_self]

theorem run_steps (h : crowd.task? i = some task) (n : Nat) : ∃ moves : List Move,
    crowd.run moves = ⟨(crowd.node.steps n task).1, crowd.tasks.set i (some (crowd.node.steps n task).2)⟩ := by
  induction n generalizing crowd task with
  | zero => exact ⟨[], by cases task <;> exact (set_self h).symm⟩
  | succ n ih =>
    cases task with
    | parked wait | finished answer => exact ⟨[], (set_self h).symm⟩
    | checking wait | asking request stage =>
      have hnext := next_step h
      obtain ⟨moves, hmoves⟩ := ih ((task?_step h).trans (if_pos rfl))
      refine ⟨.step i :: moves, ?_⟩
      rw [run_cons, hmoves, hnext]
      simp [Node.steps, Task.awaken]

/-- A visit is a run of moves. -/
theorem run_visit (h : crowd.task? i = some task) : ∃ moves : List Move,
    crowd.run moves = ⟨(crowd.node.visit task).1, crowd.tasks.set i (some (crowd.node.visit task).2)⟩ := by
  cases task with
  | checking wait | asking request stage | finished answer => exact run_steps h _
  | parked wait =>
    -- The first step of the visit is the one that awakens the task.
    obtain ⟨n, hn⟩ : ∃ n, crowd.node.patience = n + 1 := Nat.exists_eq_succ_of_ne_zero (by
      unfold Node.patience
      omega)
    have hnext := next_step h
    obtain ⟨moves, hmoves⟩ := run_steps ((task?_step h).trans (if_pos rfl)) n
    refine ⟨.step i :: moves, ?_⟩
    rw [run_cons, hmoves, hnext]
    simp [Node.visit, Node.run, hn, Node.steps, Task.awaken]

/-! ### Calls and their tasks -/

def Move.call? : Move → Option Call
  | .start call => some call
  | _ => none

/-- The calls of a run, in the order of their tasks. -/
def calls (moves : List Move) : List Call := moves.filterMap Move.call?

/-- The node has a property, and each task one that depends on its call. -/
structure Each (I : Node → Prop) (P : Call → Task → Prop) (calls : List Call) (crowd : Crowd) : Prop where
  node : I crowd.node
  tasks : ∀ i task, crowd.task? i = some task → ∃ call, calls[i]? = some call ∧ P call task

/-- Every move keeps what `Each` says, if the calls of a run are among `calls`. -/
structure Maintains (I : Node → Prop) (P : Call → Task → Prop) (calls : List Call) : Prop where
  start : ∀ node, I node → ∀ call ∈ calls, I (call.start node).1 ∧ P call (call.start node).2
  step : ∀ node, I node → ∀ call task, P call task → I (node.step task.awaken).1 ∧ P call (node.step task.awaken).2
  drop : ∀ node, I node → ∀ task, I (node.drop task)
  advance : ∀ node, I node → ∀ time, I (node.advance time)

variable {I : Node → Prop} {P : Call → Task → Prop} {calls : List Call}

theorem length_next (crowd : Crowd) (move : Move) :
    (crowd.next move).tasks.length = crowd.tasks.length + move.call?.toList.length := by
  cases move with
  | start call => simp [next, Move.call?]
  | step i | drop i =>
    simp only [next]
    split <;> simp [Move.call?]
  | advance time => rfl

theorem calls_append (first rest : List Move) : Crowd.calls (first ++ rest) = Crowd.calls first ++ Crowd.calls rest :=
  List.filterMap_append

theorem calls_cons (move : Move) (moves : List Move) :
    Crowd.calls (move :: moves) = move.call?.toList ++ Crowd.calls moves := by
  cases hcall : move.call? <;> simp [Crowd.calls, hcall]

theorem length_run (crowd : Crowd) (moves : List Move) :
    (crowd.run moves).tasks.length = crowd.tasks.length + (Crowd.calls moves).length := by
  induction moves generalizing crowd with
  | nil => rfl
  | cons move rest ih =>
    rw [run_cons, ih, length_next, calls_cons, List.length_append, Nat.add_assoc]

/-- A task with its call after a move: as before, or just made, or gone on by a step. -/
theorem called_next {move : Move} {call : Call} (hlength : calls.length = crowd.tasks.length)
    (hget : (calls ++ move.call?.toList)[i]? = some call) (htask : (crowd.next move).task? i = some task) :
    (calls[i]? = some call ∧ crowd.task? i = some task ∧ move ≠ .step i) ∨
      (move = .start call ∧ i = crowd.tasks.length ∧ (call.start crowd.node).2 = task) ∨
      ∃ before, move = .step i ∧ calls[i]? = some call ∧ crowd.task? i = some before ∧
        (crowd.node.step before.awaken).2 = task := by
  have earlier {before : Task} (hbefore : crowd.task? i = some before) : calls[i]? = some call := by
    rwa [List.getElem?_append_left (hlength ▸ lt_of_task? hbefore)] at hget
  have went {before : Task} (hbefore : crowd.task? i = some before) (hmove : move = .step i) :
      (crowd.node.step before.awaken).2 = task := by
    subst hmove
    exact Option.some.inj (((task?_step hbefore).trans (if_pos rfl)).symm.trans htask)
  rcases task?_next htask with hold | ⟨made, rfl, rfl, hmade⟩ | ⟨before, hmove, hbefore, -⟩
  · by_cases hmove : move = .step i
    · exact .inr (.inr ⟨task, hmove, earlier hold, hold, went hold hmove⟩)
    · exact .inl ⟨earlier hold, hold, hmove⟩
  · obtain rfl : made = call := by simpa [← hlength, Move.call?] using hget
    exact .inr (.inl ⟨rfl, rfl, hmade⟩)
  · exact .inr (.inr ⟨before, hmove, earlier hbefore, hbefore, went hbefore hmove⟩)

/-- The calls of a run, of which those of the moves are still to come: the first move makes the next of them, if it makes
    one. -/
theorem calls_next {move : Move} {moves : List Move} (h : calls.drop crowd.tasks.length = Crowd.calls (move :: moves)) :
    (∀ call ∈ move.call?, calls[crowd.tasks.length]? = some call) ∧
      calls.drop (crowd.next move).tasks.length = Crowd.calls moves := by
  rw [calls_cons] at h
  constructor
  · intro call hcall
    rw [← Nat.add_zero crowd.tasks.length, ← List.getElem?_drop, h, Option.mem_def.mp hcall]
    rfl
  · rw [length_next, ← List.drop_drop, h, List.drop_left]

theorem each_next (hmaintains : Maintains I P calls) (h : crowd.Each I P calls) {move : Move}
    (hcall : ∀ call ∈ move.call?, calls[crowd.tasks.length]? = some call) : (crowd.next move).Each I P calls where
  node := by
    cases move with
    | start call => exact (hmaintains.start crowd.node h.node call (List.mem_of_getElem? (hcall call rfl))).1
    | step i =>
      cases htask : crowd.task? i with
      | none => exact (next_step_none htask).symm ▸ h.node
      | some task =>
        obtain ⟨call, -, hP⟩ := h.tasks i task htask
        rw [next_step htask]
        exact (hmaintains.step crowd.node h.node call task hP).1
    | drop i =>
      cases htask : crowd.task? i with
      | none => exact (next_drop_none htask).symm ▸ h.node
      | some task =>
        rw [next_drop htask]
        exact hmaintains.drop crowd.node h.node task
    | advance time => exact hmaintains.advance crowd.node h.node time
  tasks i task htask := by
    rcases task?_next htask with hold | ⟨call, rfl, rfl, rfl⟩ | ⟨before, rfl, hbefore, rfl⟩
    · exact h.tasks i task hold
    · have hget : calls[crowd.tasks.length]? = some call := hcall call rfl
      exact ⟨call, hget, (hmaintains.start crowd.node h.node call (List.mem_of_getElem? hget)).2⟩
    · obtain ⟨call, hget, hP⟩ := h.tasks i before hbefore
      exact ⟨call, hget, (hmaintains.step crowd.node h.node call before hP).2⟩

theorem each_run {moves : List Move} (hmaintains : Maintains I P calls) (h : crowd.Each I P calls)
    (hcalls : calls.drop crowd.tasks.length = Crowd.calls moves) : (crowd.run moves).Each I P calls := by
  induction moves generalizing crowd with
  | nil => exact h
  | cons move rest ih =>
    obtain ⟨hcall, hrest⟩ := calls_next hcalls
    exact ih (each_next hmaintains h hcall) hrest

/-- Every task of a run is one of its call. -/
theorem each_fresh {node : Node} (hnode : I node) {moves : List Move} (hmaintains : Maintains I P (Crowd.calls moves)) :
    (Crowd.run { node } moves).Each I P (Crowd.calls moves) := by
  refine each_run hmaintains ⟨hnode, fun i task htask => ?_⟩ rfl
  rw [task?, List.getElem?_nil] at htask
  cases htask

end
end Crowd
end SensorLink
