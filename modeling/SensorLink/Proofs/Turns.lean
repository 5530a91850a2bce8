import SensorLink.Proofs.Steps

/-! Calls of one kind, one at a time: such a call is made only when those before it are finished or given up, while all
    other calls go on beside it. Then at most one of them is under way (`eq_of_serial`). -/

namespace SensorLink
namespace Crowd

/-- A call of the kind waits until those of `calls` are finished or given up. -/
def admits (kind : Call → Bool) (calls : List Call) (crowd : Crowd) : Move → Bool
  | .start call =>
    !kind call || (calls.zip crowd.tasks).all fun (earlier, task) => !kind earlier || task.all Task.isFinished
  | .step _ | .drop _ | .advance _ => true

/-- The calls of the kind come one after the other in a run, in which `calls` have been made before. -/
def serial (kind : Call → Bool) (calls : List Call) (crowd : Crowd) : List Move → Bool
  | [] => true
  | move :: rest => crowd.admits kind calls move && (crowd.next move).serial kind (calls ++ move.call?.toList) rest

/-- The call that a task belongs to is of the kind, and has not come to its end. -/
def UnderWay (kind : Call → Bool) (calls : List Call) (crowd : Crowd) (i : Nat) : Prop :=
  ∃ call task, calls[i]? = some call ∧ kind call ∧ crowd.task? i = some task ∧ ¬task.isFinished

section
variable {kind : Call → Bool} {calls : List Call} {crowd : Crowd} {node : Node} {moves first rest : List Move}
  {move : Move} {i j : Nat} {task : Task} {call : Call}

theorem calls_concat_of_none (moves : List Move) (h : move.call? = none) :
    Crowd.calls (moves ++ [move]) = Crowd.calls moves := by
  rw [calls_append, calls_cons, h]
  exact List.append_nil _

theorem serial_append (kind : Call → Bool) (calls : List Call) (crowd : Crowd) (first rest : List Move) :
    crowd.serial kind calls (first ++ rest) =
      (crowd.serial kind calls first && (crowd.run first).serial kind (calls ++ Crowd.calls first) rest) := by
  induction first generalizing crowd calls with
  | nil => simp [serial, Crowd.calls, run]
  | cons move first ih =>
    rw [List.cons_append, serial, ih, serial, Bool.and_assoc, calls_cons, List.append_assoc]
    rfl

theorem length_calls (node : Node) (moves : List Move) :
    (Crowd.calls moves).length = (Crowd.run { node } moves).tasks.length := by
  rw [length_run, List.length_nil, Nat.zero_add]

theorem exists_start (h : (Crowd.calls moves)[i]? = some call) :
    ∃ before after, moves = before ++ .start call :: after ∧ (Crowd.calls before).length = i := by
  induction moves generalizing i with
  | nil => simp [Crowd.calls] at h
  | cons move rest ih =>
    rw [calls_cons] at h
    cases hcall : move.call? with
    | none =>
      rw [hcall] at h
      obtain ⟨before, after, rfl, hlength⟩ := ih h
      exact ⟨move :: before, after, rfl, by simpa [calls_cons, hcall] using hlength⟩
    | some made =>
      have hmove : move = .start made := by
        cases move <;> cases hcall
        rfl
      rw [hcall] at h
      cases i with
      | zero => exact ⟨[], rest, by cases h; rw [hmove]; rfl, rfl⟩
      | succ i =>
        obtain ⟨before, after, rfl, hlength⟩ := ih (by simpa using h)
        exact ⟨move :: before, after, rfl, by simp [calls_cons, hcall, hlength]⟩

/-- Who has come to the end stays there, or has been given up before. -/
theorem isFinished_run (hlt : i < crowd.tasks.length) (h : ∀ task, crowd.task? i = some task → task.isFinished)
    (htask : (crowd.run moves).task? i = some task) : task.isFinished := by
  induction moves generalizing crowd with
  | nil => exact h task htask
  | cons move rest ih =>
    refine ih ?_ (fun after hafter => ?_) htask
    · rw [length_next]
      exact Nat.lt_add_right _ hlt
    · rcases task?_next hafter with hold | ⟨call, -, rfl, -⟩ | ⟨before, -, hbefore, rfl⟩
      · exact h after hold
      · exact absurd hlt (Nat.lt_irrefl _)
      · rw [step_finished (h before hbefore)]
        exact h before hbefore

/-! ### One call at a time -/

theorem underWay_next (hlength : calls.length = crowd.tasks.length)
    (h : UnderWay kind (calls ++ move.call?.toList) (crowd.next move) i) :
    UnderWay kind calls crowd i ∨ ∃ call, move = .start call ∧ kind call ∧ i = crowd.tasks.length := by
  obtain ⟨call, task, hget, hkind, htask, hunfinished⟩ := h
  rcases called_next hlength hget htask with ⟨hcall, hold, -⟩ | ⟨rfl, rfl, -⟩ | ⟨earlier, -, hcall, hearlier, rfl⟩
  · exact .inl ⟨call, task, hcall, hkind, hold, hunfinished⟩
  · exact .inr ⟨call, rfl, hkind, rfl⟩
  · refine .inl ⟨call, earlier, hcall, hkind, hearlier, fun hfinished => ?_⟩
    rw [step_finished hfinished] at hunfinished
    exact hunfinished hfinished

theorem not_underWay_of_admits (h : crowd.admits kind calls (.start call)) (hkind : kind call) :
    ¬UnderWay kind calls crowd i := by
  rintro ⟨earlier, task, hearlier, hearlierKind, htask, hunfinished⟩
  have hmem : (earlier, some task) ∈ calls.zip crowd.tasks := by
    refine List.mem_of_getElem? (i := i) ?_
    rw [List.getElem?_zip_eq_some]
    exact ⟨hearlier, Option.join_eq_some_iff.mp htask⟩
  simp only [admits, hkind, Bool.not_true, Bool.false_or, List.all_eq_true] at h
  have hfinished := h _ hmem
  simp [hearlierKind] at hfinished
  exact hunfinished hfinished

/-- At most one call of the kind is under way. -/
theorem eq_of_serial (h : serial kind [] { node } moves) (hi : UnderWay kind (Crowd.calls moves) (Crowd.run { node } moves) i)
    (hj : UnderWay kind (Crowd.calls moves) (Crowd.run { node } moves) j) : i = j := by
  induction moves using List.reverseRecOn with
  | nil =>
    obtain ⟨call, -, hcall, -⟩ := hi
    cases hcall
  | append_singleton moves move ih =>
    rw [serial_append, Bool.and_eq_true, List.nil_append] at h
    have hadmits : (Crowd.run { node } moves).admits kind (Crowd.calls moves) move := by simpa [serial] using h.2
    have hlength := length_calls node moves
    have hcalls : Crowd.calls (moves ++ [move]) = Crowd.calls moves ++ move.call?.toList := by
      rw [calls_append, calls_cons]
      exact congrArg _ (List.append_nil _)
    rw [hcalls, run_append] at hi hj
    change UnderWay kind _ ((Crowd.run { node } moves).next move) _ at hi hj
    rcases underWay_next hlength hi with hbefore | ⟨call, rfl, hkind, rfl⟩
    · rcases underWay_next hlength hj with hother | ⟨call, rfl, hkind, -⟩
      · exact ih h.1 hbefore hother
      · exact absurd hbefore (not_underWay_of_admits hadmits hkind)
    · rcases underWay_next hlength hj with hother | ⟨-, -, -, rfl⟩
      · exact absurd hother (not_underWay_of_admits hadmits hkind)
      · rfl

end
end Crowd
end SensorLink
