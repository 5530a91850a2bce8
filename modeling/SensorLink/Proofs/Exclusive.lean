import SensorLink.Proofs.Steps

/-! Exclusive use of the modem, in every order of steps: at most one task holds the modem, a question in the slot is
    that task's, and nobody else writes until it has written what belongs together. -/

namespace SensorLink
namespace Crowd

/-- Whoever holds the modem is the only one, and a question in the slot is its own. -/
structure Exclusive (crowd : Crowd) : Prop where
  held : ∀ {i task}, crowd.task? i = some task → task.stage?.isSome → crowd.node.link.held = true
  unique : ∀ {i j a b}, crowd.task? i = some a → crowd.task? j = some b → a.stage?.isSome → b.stage?.isSome → i = j
  owned : ∀ {generation}, crowd.node.link.pending? = some generation →
    ∃ i task, crowd.task? i = some task ∧ task.generation? = some generation

section
variable {crowd : Crowd} {i : Nat} {task : Task}

theorem Exclusive.owns (h : crowd.Exclusive) (htask : crowd.task? i = some task) (hstage : task.stage?.isSome) :
    task.Owns crowd.node.link := by
  intro generation hpending
  obtain ⟨j, other, hother, hgeneration⟩ := h.owned hpending
  obtain rfl : i = j := h.unique htask hother hstage (Task.stage?_of_generation? hgeneration)
  obtain rfl : task = other := Option.some.inj (htask.symm.trans hother)
  exact hgeneration

/-- While nobody holds the modem, there is no question in the slot. -/
theorem Exclusive.empty_of_free (h : crowd.Exclusive) (hfree : crowd.node.link.held = false) :
    crowd.node.link.pending? = none := by
  refine Option.eq_none_iff_forall_ne_some.mpr fun generation hpending => ?_
  obtain ⟨j, other, hother, hgeneration⟩ := h.owned hpending
  exact absurd (h.held hother (Task.stage?_of_generation? hgeneration)) (by simp [hfree])

theorem Exclusive.empty_of_asking {request : Dialogue.Request} {stage : Stage} (h : crowd.Exclusive)
    (htask : crowd.task? i = some (.asking request stage)) : crowd.node.link.pending? = none :=
  Link.pending?_eq_none (h.owns htask rfl) rfl

/-- All but one task are without the modem. -/
def AllOutside (crowd : Crowd) (i : Nat) : Prop := ∀ j ≠ i, ∀ task, crowd.task? j = some task → task.stage? = none

theorem Exclusive.allOutside (h : crowd.Exclusive) (htask : crowd.task? i = some task) (hstage : task.stage?.isSome) :
    crowd.AllOutside i := by
  intro j hne other hother
  by_contra hsome
  exact hne (h.unique hother htask (Option.isSome_iff_ne_none.mpr hsome) hstage)

theorem Exclusive.allOutside_of_free (h : crowd.Exclusive) (hfree : crowd.node.link.held = false) (i : Nat) :
    crowd.AllOutside i := by
  intro j _ other hother
  by_contra hsome
  exact absurd (h.held hother (Option.isSome_iff_ne_none.mpr hsome)) (by simp [hfree])

/-- With all others outside, it is enough to look at one task. -/
theorem AllOutside.exclusive (h : crowd.AllOutside i)
    (hheld : ∀ {task}, crowd.task? i = some task → task.stage?.isSome → crowd.node.link.held = true)
    (howned : ∀ {generation}, crowd.node.link.pending? = some generation →
      ∃ task, crowd.task? i = some task ∧ task.generation? = some generation) : crowd.Exclusive where
  held {j other} hother hstage := by
    by_cases hj : j = i
    · subst hj
      exact hheld hother hstage
    · simp [h j hj other hother] at hstage
  unique {j k a b} ha hb hsa hsb := by
    have only {j other} (hother : crowd.task? j = some other) (hstage : other.stage?.isSome) : j = i := by
      by_contra hj
      simp [h j hj other hother] at hstage
    exact (only ha hsa).trans (only hb hsb).symm
  owned hpending := by
    obtain ⟨other, hother, hgeneration⟩ := howned hpending
    exact ⟨i, other, hother, hgeneration⟩

theorem AllOutside.set (h : crowd.AllOutside i) (htask : crowd.task? i = some task) (node : Node)
    (put : Option Task) : AllOutside ⟨node, crowd.tasks.set i put⟩ i := by
  intro j hne other hother
  rw [task?_set htask, if_neg (Ne.symm hne)] at hother
  exact h j hne other hother

/-- What has become of a task that was outside and stays there does not matter. -/
theorem Exclusive.set {node : Node} {put : Option Task} (h : crowd.Exclusive) (htask : crowd.task? i = some task)
    (hstage : task.stage? = none) (hlink : Link.Kept crowd.node.link node.link)
    (hput : ∀ {task}, put = some task → task.stage? = none) : Exclusive ⟨node, crowd.tasks.set i put⟩ := by
  have same {j other} (hother : task? ⟨node, crowd.tasks.set i put⟩ j = some other) (hstage : other.stage?.isSome) :
      crowd.task? j = some other := by
    rw [task?_set htask] at hother
    split at hother
    · simp [hput hother] at hstage
    · exact hother
  refine ⟨fun hother hs => hlink.held.trans (h.held (same hother hs) hs),
    fun ha hb hsa hsb => h.unique (same ha hsa) (same hb hsb) hsa hsb, fun hpending => ?_⟩
  obtain ⟨j, other, hother, hgeneration⟩ := h.owned (hlink.pending _ hpending)
  refine ⟨j, other, ?_, hgeneration⟩
  rw [task?_set htask, if_neg, hother]
  rintro rfl
  obtain rfl : task = other := Option.some.inj (htask.symm.trans hother)
  simpa [hstage] using Task.stage?_of_generation? hgeneration

/-! ### One move -/

theorem exclusive_start {call : Call} (h : crowd.Exclusive) (hcall : ∀ expected, call ≠ .ask expected) :
    (crowd.next (.start call)).Exclusive := by
  obtain ⟨hlink, hstage⟩ := start_outside crowd.node hcall
  have same {j other} (hother : (crowd.next (.start call)).task? j = some other) (hs : other.stage?.isSome) :
      crowd.task? j = some other := by
    rw [task?_start] at hother
    split at hother
    · cases hother
      simp [hstage] at hs
    · exact hother
  refine ⟨fun hother hs => hlink.held.trans (h.held (same hother hs) hs),
    fun ha hb hsa hsb => h.unique (same ha hsa) (same hb hsb) hsa hsb, fun hpending => ?_⟩
  obtain ⟨j, other, hother, hgeneration⟩ := h.owned (hlink.pending _ hpending)
  exact ⟨j, other, by rw [task?_start, if_neg (Nat.ne_of_lt (lt_of_task? hother)), hother], hgeneration⟩

theorem exclusive_advance (time : Nat) (h : crowd.Exclusive) : (crowd.next (.advance time)).Exclusive := by
  have hlink : Link.Same crowd.node.link (crowd.next (.advance time)).node.link := crowd.node.link.same_advance time
  exact ⟨fun hother hs => hlink.held.trans (h.held hother hs), h.unique, fun hpending => h.owned (hlink.pending ▸ hpending)⟩

theorem exclusive_step (h : crowd.Exclusive) (i : Nat) : (crowd.next (.step i)).Exclusive := by
  rcases htask : crowd.task? i with _ | task
  · rwa [next_step_none htask]
  rw [next_step htask]
  rcases hstage : task.stage? with _ | stage
  · rcases step_outside crowd.node hstage with ⟨hlink, hafter⟩ | ⟨request, stage, hfree, hafter⟩
    · exact h.set htask hstage hlink.kept (by rintro _ ⟨⟩; exact hafter)
    · -- The task takes the modem, which nobody held.
      rw [hafter]
      have hempty : crowd.node.acquire.link.pending? = none := h.empty_of_free hfree
      refine ((h.allOutside_of_free hfree i).set htask _ _).exclusive (fun _ _ => rfl) fun hpending => ?_
      simp [hempty] at hpending
  · have hsome : task.stage?.isSome := by simp [hstage]
    have houtside := (h.allOutside htask hsome).set htask (crowd.node.step task.awaken).1
      (some (crowd.node.step task.awaken).2)
    obtain ⟨written, -, hheld⟩ := step_held hstage (h.held htask hsome) (h.owns htask hsome)
    have hself : task? ⟨(crowd.node.step task.awaken).1, crowd.tasks.set i (some (crowd.node.step task.awaken).2)⟩ i =
        some (crowd.node.step task.awaken).2 := by rw [task?_set htask, if_pos rfl]
    cases hheld with
    | waits hheld howns _ _ => exact houtside.exclusive (fun _ _ => hheld) fun hpending =>
        ⟨_, hself, howns _ hpending⟩
    | again _ _ _ hheld hempty =>
      exact houtside.exclusive (fun _ _ => hheld) fun hpending => by simp [hempty] at hpending
    | left hfree hempty hleaves _ =>
      refine houtside.exclusive (fun hother hs => ?_) fun hpending => by simp [hempty] at hpending
      rw [hself] at hother
      cases hother
      simp [hleaves] at hs

theorem exclusive_drop (h : crowd.Exclusive) (i : Nat) : (crowd.next (.drop i)).Exclusive := by
  rcases htask : crowd.task? i with _ | task
  · rwa [next_drop_none htask]
  rw [next_drop htask]
  rcases hstage : task.stage? with _ | stage
  · rw [drop_outside hstage]
    exact h.set htask hstage (Link.Same.refl _).kept (by rintro _ ⟨⟩)
  · have hsome : task.stage?.isSome := by simp [hstage]
    obtain ⟨-, -, hempty⟩ := drop_held hstage (h.owns htask hsome)
    refine ((h.allOutside htask hsome).set htask _ _).exclusive (fun hother _ => ?_) fun hpending => ?_
    · rw [task?_set htask, if_pos rfl] at hother
      cases hother
    · simp [hempty] at hpending

/-- Nobody puts a question without holding the modem. -/
def Move.IsOrderly : Move → Prop
  | .start call => ∀ expected, call ≠ .ask expected
  | .step _ | .drop _ | .advance _ => True

theorem exclusive_next {move : Move} (h : crowd.Exclusive) (hmove : move.IsOrderly) : (crowd.next move).Exclusive := by
  cases move with
  | start call => exact exclusive_start h hmove
  | step i => exact exclusive_step h i
  | drop i => exact exclusive_drop h i
  | advance time => exact exclusive_advance time h

theorem exclusive_run {moves : List Move} (h : crowd.Exclusive) (hmoves : ∀ move ∈ moves, move.IsOrderly) :
    (crowd.run moves).Exclusive := by
  induction moves generalizing crowd with
  | nil => exact h
  | cons move rest ih =>
    exact ih (exclusive_next h (hmoves move List.mem_cons_self)) fun m hm => hmoves m (List.mem_cons_of_mem _ hm)

/-! ### What is written -/

def Move.task? : Move → Option Nat
  | .step i | .drop i => some i
  | .start _ | .advance _ => none

/-- What a run writes, and the task that each write is a step of. -/
def writes : Crowd → List Move → List (Option Nat × Bytes)
  | _, [] => []
  | crowd, move :: moves =>
    ((crowd.next move).node.link.sent.drop crowd.node.link.sent.length).map (move.task?, ·) ++
      (crowd.next move).writes moves

theorem writes_cons {move : Move} {written : List Bytes} (moves : List Move)
    (h : (crowd.next move).node.link.sent = crowd.node.link.sent ++ written) :
    crowd.writes (move :: moves) = written.map (move.task?, ·) ++ (crowd.next move).writes moves := by
  rw [writes, h, List.drop_left]

/-- A move writes only what the task that makes a step has still to write. -/
theorem sent_next {move : Move} (h : crowd.Exclusive) (hmove : move.IsOrderly) :
    ∃ written, (crowd.next move).node.link.sent = crowd.node.link.sent ++ written ∧
      ∀ part ∈ written, ∃ i task, move = .step i ∧ crowd.task? i = some task ∧ task.stage?.isSome ∧ part ∈ task.rest := by
  have nothing (hsent : (crowd.next move).node.link.sent = crowd.node.link.sent) :
      ∃ written, (crowd.next move).node.link.sent = crowd.node.link.sent ++ written ∧
        ∀ part ∈ written, ∃ i task, move = .step i ∧ crowd.task? i = some task ∧ task.stage?.isSome ∧ part ∈ task.rest :=
    ⟨[], hsent.trans (List.append_nil _).symm, nofun⟩
  cases move with
  | start call => exact nothing (start_outside crowd.node hmove).1.sent
  | advance time => exact nothing (crowd.node.link.same_advance time).sent
  | step i =>
    rcases htask : crowd.task? i with _ | task
    · exact nothing (by rw [next_step_none htask])
    rcases hstage : task.stage? with _ | stage
    · rcases step_outside crowd.node hstage with ⟨hlink, -⟩ | ⟨request, stage, -, hafter⟩
      · exact nothing (by rw [next_step htask, hlink.sent])
      · exact nothing (by rw [next_step htask, hafter]; rfl)
    · have hsome : task.stage?.isSome := by simp [hstage]
      obtain ⟨written, hsent, hheld⟩ := step_held hstage (h.held htask hsome) (h.owns htask hsome)
      exact ⟨written, by rw [next_step htask, hsent],
        fun part hpart => ⟨i, task, rfl, htask, hsome, hheld.isPrefix.subset hpart⟩⟩
  | drop i =>
    rcases htask : crowd.task? i with _ | task
    · exact nothing (by rw [next_drop_none htask])
    rcases hstage : task.stage? with _ | stage
    · exact nothing (by rw [next_drop htask, drop_outside hstage])
    · have howns : task.Owns crowd.node.link := h.owns htask (by simp [hstage])
      exact nothing (by rw [next_drop htask, (drop_held hstage howns).2.1])

theorem sent_run {moves : List Move} (h : crowd.Exclusive) (hmoves : ∀ move ∈ moves, move.IsOrderly) :
    (crowd.run moves).node.link.sent = crowd.node.link.sent ++ (crowd.writes moves).map Prod.snd := by
  induction moves generalizing crowd with
  | nil => simp [run, writes]
  | cons move rest ih =>
    have hmove := hmoves move List.mem_cons_self
    obtain ⟨written, hsent, -⟩ := sent_next h hmove
    rw [run_cons, ih (exclusive_next h hmove) fun m hm => hmoves m (List.mem_cons_of_mem _ hm), hsent,
      writes_cons rest hsent]
    simp [Function.comp_def]

/-- The moves of others do not touch a task. -/
theorem task?_elsewhere {move : Move} (htask : crowd.task? i = some task) (hne : move.task? ≠ some i) :
    (crowd.next move).task? i = some task := by
  cases move with
  | start call => rw [task?_start, if_neg (Nat.ne_of_lt (lt_of_task? htask)), htask]
  | advance time => exact htask
  | step j =>
    have hj : j ≠ i := fun hj => hne (congrArg some hj)
    rcases hother : crowd.task? j with _ | other
    · rwa [next_step_none hother]
    · rw [task?_step hother, if_neg hj, htask]
  | drop j =>
    have hj : j ≠ i := fun hj => hne (congrArg some hj)
    rcases hother : crowd.task? j with _ | other
    · rwa [next_drop_none hother]
    · rw [task?_drop hother, if_neg hj, htask]

/-- While a task holds the modem, the moves of all others neither write nor touch that task. -/
theorem next_elsewhere {move : Move} (h : crowd.Exclusive) (hmove : move.IsOrderly)
    (htask : crowd.task? i = some task) (hstage : task.stage?.isSome) (hne : move.task? ≠ some i) :
    (crowd.next move).node.link.sent = crowd.node.link.sent ∧ (crowd.next move).task? i = some task := by
  refine ⟨?_, task?_elsewhere htask hne⟩
  obtain ⟨written, hsent, hwriter⟩ := sent_next h hmove
  suffices hnothing : written = [] by rw [hsent, hnothing, List.append_nil]
  refine List.eq_nil_iff_forall_not_mem.mpr fun part hpart => ?_
  obtain ⟨j, other, rfl, hother, hsome, -⟩ := hwriter part hpart
  exact hne (congrArg some (h.unique hother htask hsome hstage))

/-- Before each of the moves, task `i` is inside. -/
def Keeps (inside : Task → Prop) (i : Nat) : Crowd → List Move → Prop
  | _, [] => True
  | crowd, move :: moves => (∃ task, crowd.task? i = some task ∧ inside task) ∧ Keeps inside i (crowd.next move) moves

/-- Steps of a task that belong together: while the task is inside, it holds the modem, and what it writes is the
    beginning of what was left to write. -/
structure Piece (inside : Task → Prop) (left : Task → List Bytes) : Prop where
  holds : ∀ {task}, inside task → task.stage?.isSome
  wrote : ∀ {task stage written after}, inside task → task.stage? = some stage →
    Node.Held task stage written after → written <+: left task ∧ (inside after.2 → written ++ left after.2 = left task)

/-- Nothing else is written between the writes of a piece. -/
theorem writes_piece {inside : Task → Prop} {left : Task → List Bytes} {moves : List Move} (hpiece : Piece inside left)
    (h : crowd.Exclusive) (hmoves : ∀ move ∈ moves, move.IsOrderly) (htask : crowd.task? i = some task)
    (hkeeps : Keeps inside i crowd moves) : crowd.writes moves <+: (left task).map (some i, ·) := by
  induction moves generalizing crowd task with
  | nil => exact List.nil_prefix
  | cons move rest ih =>
    have hmove := hmoves move List.mem_cons_self
    have hrest : ∀ m ∈ rest, m.IsOrderly := fun m hm => hmoves m (List.mem_cons_of_mem _ hm)
    obtain ⟨⟨task', htask', hin⟩, hkeeps'⟩ := hkeeps
    obtain rfl : task = task' := Option.some.inj (htask.symm.trans htask')
    have hsome := hpiece.holds hin
    by_cases hby : move.task? = some i
    · cases move with
      | start call => cases hby
      | advance time => cases hby
      | step j =>
        obtain rfl : j = i := Option.some.inj hby
        obtain ⟨stage, hstage⟩ := Option.isSome_iff_exists.mp hsome
        obtain ⟨written, hsent, hheld⟩ := step_held hstage (h.held htask hsome) (h.owns htask hsome)
        obtain ⟨hwritten, hwrote⟩ := hpiece.wrote hin hstage hheld
        have hafter : (crowd.next (.step j)).task? j = some (crowd.node.step task.awaken).2 := by
          rw [task?_step htask, if_pos rfl]
        rw [writes_cons rest (by rw [next_step htask]; exact hsent)]
        cases rest with
        | nil =>
          rw [writes, List.append_nil]
          exact hwritten.map _
        | cons next rest =>
          -- There is another move, so the task is still inside.
          have hin' : inside (crowd.node.step task.awaken).2 := by
            obtain ⟨⟨task', htask', hin'⟩, -⟩ := hkeeps'
            exact Option.some.inj (hafter.symm.trans htask') ▸ hin'
          rw [← hwrote hin', List.map_append]
          exact (List.prefix_append_right_inj _).mpr (ih (exclusive_step h j) hrest hafter hkeeps')
      | drop j =>
        obtain rfl : j = i := Option.some.inj hby
        obtain ⟨stage, hstage⟩ := Option.isSome_iff_exists.mp hsome
        have hsent : (crowd.next (.drop j)).node.link.sent = crowd.node.link.sent ++ [] := by
          rw [next_drop htask, List.append_nil]
          exact (drop_held hstage (h.owns htask hsome)).2.1
        rw [writes_cons rest hsent]
        cases rest with
        | nil => exact List.nil_prefix
        | cons next rest =>
          obtain ⟨⟨task', htask', -⟩, -⟩ := hkeeps'
          simp [task?_drop htask] at htask'
    · obtain ⟨hsent, hafter⟩ := next_elsewhere h hmove htask hsome hby
      rw [writes_cons rest (by rw [hsent, List.append_nil])]
      exact ih (exclusive_next h hmove) hrest hafter hkeeps'

theorem piece_request (stage : Stage) : Piece (fun task => task.stage? = some stage) Task.rest where
  holds h := by simp [h]
  wrote {task stage' written after} hin hstage hheld := by
    obtain rfl : stage = stage' := Option.some.inj (hin.symm.trans hstage)
    cases hheld with
    | waits _ _ _ hwrote => exact ⟨⟨_, hwrote⟩, fun _ => hwrote⟩
    | again result request next _ _ hasks hleads hwrote =>
      refine ⟨hwrote.isPrefix, fun hin' => ?_⟩
      rw [hasks] at hin'
      exact absurd (Option.some.inj hin') hleads.ne
    | left _ _ hleaves hwrote => exact ⟨hwrote, fun hin' => by simp [hleaves] at hin'⟩

/-- A task that publishes a payload on its own, from the header to the payload. -/
def Announces (payload : Bytes) (goal : Goal) (task : Task) : Prop :=
  task.stage? = some (.publishHeader payload goal) ∨ task.stage? = some (.publishBody goal)

def announced (task : Task) : List Bytes :=
  task.rest ++ match task.stage? with
    | some (.publishHeader payload _) => [payload]
    | _ => []

theorem piece_publish (payload : Bytes) (goal : Goal) : Piece (Announces payload goal) announced where
  holds h := by rcases h with h | h <;> simp [h]
  wrote {task stage written after} hin hstage hheld := by
    cases hheld with
    | waits _ _ hstays hwrote =>
      have hsame : written ++ announced after.2 = announced task := by
        simp only [announced, hstays, hstage, ← List.append_assoc, hwrote]
      exact ⟨⟨_, hsame⟩, fun _ => hsame⟩
    | again result request next _ _ hasks hleads hwrote =>
      rcases hin with hin | hin
      · -- The header is written, and the payload follows.
        obtain rfl : stage = .publishHeader payload goal := Option.some.inj (hstage.symm.trans hin)
        obtain ⟨hok, hparts, rfl⟩ := hleads.header payload goal rfl
        have hsame : written ++ announced after.2 = announced task := by
          cases result with
          | error cause => cases hok
          | ok answer =>
            rw [hasks, show written = task.rest from hwrote]
            simp only [announced, hstage]
            show task.rest ++ (request.parts ++ []) = task.rest ++ [payload]
            rw [hparts, List.append_nil]
        exact ⟨⟨_, hsame⟩, fun _ => hsame⟩
      · exact absurd (Option.some.inj (hstage.symm.trans hin)) (hleads.body goal)
    | left _ _ hleaves hwrote =>
      refine ⟨hwrote.trans (List.prefix_append _ _), fun hin' => ?_⟩
      simp [Announces, hleaves] at hin'

end

/-! ### Runs of a fresh node -/

theorem exclusive_fresh {node : Node} (hempty : node.link.intake.slot.question = none) : Exclusive { node } where
  held h := by simp [task?] at h
  unique h := by simp [task?] at h
  owned h := by simp [Link.pending?, hempty] at h

/-- However calls are interleaved, given up and answered, the modem has one user at a time: no question finds the slot
    busy, the slot is empty whenever nobody holds the modem, and nothing else is written between the writes of one
    request, or between a header and its payload. -/
theorem one_user (node : Node) (hempty : node.link.intake.slot.question = none) (before during : List Move)
    (hbefore : ∀ move ∈ before, move.IsOrderly) (hduring : ∀ move ∈ during, move.IsOrderly) :
    let crowd := Crowd.run { node } before
    (∀ i parts expected timeout stage, crowd.task? i = some (.asking (.ask parts expected timeout) stage) →
      crowd.node.link.ask expected ≠ .error .busy) ∧
    (crowd.node.link.held = false → crowd.node.link.intake.slot.question = none) ∧
    (crowd.run during).node.link.sent = crowd.node.link.sent ++ (crowd.writes during).map Prod.snd ∧
    (∀ i request stage, crowd.task? i = some (.asking request stage) →
      Keeps (fun task => task.stage? = some stage) i crowd during →
      crowd.writes during <+: request.parts.map (some i, ·)) ∧
    (∀ i request payload goal, crowd.task? i = some (.asking request (.publishHeader payload goal)) →
      Keeps (Announces payload goal) i crowd during →
      crowd.writes during <+: (request.parts ++ [payload]).map (some i, ·)) := by
  intro crowd
  have h : crowd.Exclusive := exclusive_run (exclusive_fresh hempty) hbefore
  refine ⟨fun i parts expected timeout stage htask => Dialogue.ask_ne_busy (h.empty_of_asking htask) expected,
    fun hfree => Option.map_eq_none_iff.mp (h.empty_of_free hfree), sent_run h hduring, ?_, ?_⟩
  · intro i request stage htask hkeeps
    exact writes_piece (piece_request stage) h hduring htask hkeeps
  · intro i request payload goal htask hkeeps
    exact writes_piece (piece_publish payload goal) h hduring htask hkeeps

/-- Two commands, each write of which the modem holds back for a while: the second waits, and the first is given up
    before it has its answer. -/
theorem one_user_of_two_commands :
    let node : Node := { table := { capacity := 1 }, depth := 1, link := { rules := [{ trigger := [], delay := 5 }] } }
    let crowd := Crowd.run { node } [.start (.sendCommand "AT" "OK" 100), .start (.sendCommand "ATE0" "OK" 100), .step 0]
    crowd.writes [.step 0, .step 1, .advance 5, .step 0, .step 1, .drop 0] <+: (Dialogue.line "AT").map (some 0, ·) := by
  refine (one_user { table := { capacity := 1 }, depth := 1, link := { rules := [{ trigger := [], delay := 5 }] } } rfl
    [.start (.sendCommand "AT" "OK" 100), .start (.sendCommand "ATE0" "OK" 100), .step 0]
    [.step 0, .step 1, .advance 5, .step 0, .step 1, .drop 0] (by simp [Move.IsOrderly]) (by simp [Move.IsOrderly])
    ).2.2.2.1 0 (.command "AT" "OK" 100) .text rfl ?_
  exact ⟨⟨_, rfl, rfl⟩, ⟨_, rfl, rfl⟩, ⟨_, rfl, rfl⟩, ⟨_, rfl, rfl⟩, ⟨_, rfl, rfl⟩, ⟨_, rfl, rfl⟩, trivial⟩

end Crowd
end SensorLink
