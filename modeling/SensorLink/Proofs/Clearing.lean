import SensorLink.Proofs.Exclusive
import SensorLink.Proofs.Hearing
import SensorLink.Proofs.Receiving

/-! What a question leaves behind. One that is refused changes nothing; one that is put is the next by number, and
    however its request ends, answered, failed, out of time or given up at any point, the slot is empty then
    (`leaves_clear`). -/

namespace SensorLink

/-! ### What is received meanwhile -/

section
variable {P : Slot → Prop} (hhear : ∀ slot line, P slot → P (slot.hear line).1) {link : Link}
include hhear

theorem slot_reply (h : P link.intake.slot) (reply : Modem.Reply) : P (link.reply reply).intake.slot := by
  unfold Link.reply
  split
  · exact Intake.feed_slot hhear h _
  · exact h

theorem slot_obey (h : P link.intake.slot) (rule : Modem.Rule) : P (link.obey rule).1.intake.slot := by
  show P (rule.replies.foldl Link.reply link).intake.slot
  induction rule.replies generalizing link with
  | nil => exact h
  | cons reply rest ih => exact ih (slot_reply hhear h reply)

theorem slot_transmit (h : P link.intake.slot) (parts : List Bytes) : P (link.transmit parts).1.intake.slot := by
  induction parts generalizing link with
  | nil => exact h
  | cons part rest ih =>
    unfold Link.transmit
    simp only
    split
    · exact ih h
    · rename_i rule rules _
      split
      · exact h
      · have hwritten : P ({ link with sent := link.sent ++ [part], rules } : Link).intake.slot := h
        have hobeyed := slot_obey hhear hwritten rule
        rcases hobey : Link.obey { link with sent := link.sent ++ [part], rules } rule with ⟨after, _ | fault⟩ <;>
          rw [hobey] at hobeyed
        · exact ih hobeyed
        · exact hobeyed

theorem slot_advance (h : P link.intake.slot) (time : Nat) : P (link.advance time).intake.slot := by
  have hfold (arrivals : List Arrival) {link : Link} (h : P link.intake.slot) :
      P (arrivals.foldl (fun link arrival => link.feed arrival.data) link).intake.slot := by
    induction arrivals generalizing link with
    | nil => exact h
    | cons arrival rest ih => exact ih (Intake.feed_slot hhear h _)
  exact hfold _ h

end

/-! ### What a request leaves alone -/

namespace Dialogue

/-- Looking for an answer, giving a question up and writing leave a part of the link alone. -/
structure Steady {α : Type} (part : Link → α) : Prop where
  look : ∀ link number, part (link.look number).1 = part link
  lookAgain : ∀ link number, part (link.lookAgain number).1 = part link
  forget : ∀ link number, part (link.forget number) = part link
  obey : ∀ link rule, part (link.obey rule).1 = part link
  transmit : ∀ link parts, part (link.transmit parts).1 = part link

section
variable {α : Type} {part : Link → α} (h : Steady part)
include h

theorem Steady.giveUp (link : Link) (expectation : Option Expectation) : part (giveUp link expectation) = part link := by
  cases expectation with
  | none => rfl
  | some expectation => exact h.forget link expectation.generation

theorem Steady.proceed (expectation : Option Expectation) (after : Link × Link.Transmission) :
    part (proceed expectation after).1 = part after.1 := by
  obtain ⟨link, _ | fault | ⟨due, rule, rest⟩⟩ := after
  · cases expectation with
    | none => rfl
    | some expectation =>
      have hlooked := h.look link expectation.generation
      simp only [Dialogue.proceed, listen]
      rcases hlook : link.look expectation.generation with ⟨after, _ | answer⟩ <;> rw [hlook] at hlooked <;> exact hlooked
  · exact h.giveUp link expectation
  · rfl

theorem Steady.resume (link : Link) (hold : Hold) : part (resume link hold).1 = part link := by
  cases hold with
  | pausing due =>
    simp only [Dialogue.resume]
    split <;> rfl
  | writing due rule rest expectation =>
    simp only [Dialogue.resume]
    split
    · have hobeyed := h.obey link rule
      rw [h.proceed, Link.resumeTransmit]
      rcases hobey : link.obey rule with ⟨after, _ | fault⟩ <;> rw [hobey] at hobeyed
      · exact (h.transmit after rest).trans hobeyed
      · exact hobeyed
    · rfl
  | listening generation deadline =>
    have hlooked := h.lookAgain link generation
    simp only [Dialogue.resume]
    rcases hlook : link.lookAgain generation with ⟨after, _ | answer⟩ <;> rw [hlook] at hlooked
    · simp only
      split
      · exact (h.forget after generation).trans hlooked
      · exact hlooked
    · exact hlooked

theorem Steady.cancel (link : Link) (hold : Hold) : part (cancel link hold) = part link := by
  cases hold with
  | writing due rule rest expectation => exact h.giveUp link expectation
  | listening generation deadline => exact h.forget link generation
  | pausing due => rfl

end
end Dialogue

/-! ### The number of questions -/

/-- The generation of the latest question: how many have been put, in 32 bits. -/
def Link.asked (link : Link) : UInt32 := link.intake.slot.generation

theorem hear_asked (n : UInt32) (slot : Slot) (line : String) (h : slot.generation = n) :
    (slot.hear line).1.generation = n :=
  (slot.hear_number line).trans h

theorem steady_asked : Dialogue.Steady Link.asked where
  look link number := (Dialogue.found_look link number).count
  lookAgain link number := (Dialogue.found_lookAgain link number).count
  forget := Dialogue.forget_count
  obey link rule := slot_obey (hear_asked link.asked) rfl rule
  transmit link parts := slot_transmit (hear_asked link.asked) rfl parts

section
variable {node : Node} {task : Task} {stage : Stage}

theorem asked_drop (node : Node) (task : Task) : (node.drop task).link.asked = node.link.asked := by
  unfold Node.drop
  split
  · exact steady_asked.cancel node.link _
  · exact steady_asked.cancel node.link _
  · rfl
  · rfl

theorem slot_deliverNext? {after : Node} (h : node.deliverNext? = some after) :
    after.link.intake.slot = node.link.intake.slot := by
  obtain ⟨line, rest, -, rfl⟩ := Node.exists_of_deliverNext? h
  rw [Node.deliver_link]
  rfl

theorem slot_publishNext? {goal : Goal} {after : Node × Task} (h : node.publishNext? goal = some after) :
    after.1.link.intake.slot = node.link.intake.slot := by
  obtain ⟨posting, rest, -, rfl⟩ := Node.exists_of_publishNext? h
  rfl

theorem slot_noteClosed (node : Node) : node.noteClosed.1.link.intake.slot = node.link.intake.slot := by
  rw [Node.noteClosed_eq]
  rfl

/-- A task that does not hold the modem leaves the slot alone. -/
theorem slot_outside (node : Node) (h : task.stage? = none) :
    (node.step task.awaken).1.link.intake.slot = node.link.intake.slot := by
  cases task with
  | asking request stage => cases h
  | finished answer => rfl
  | parked wait | checking wait =>
    simp only [Task.awaken, Node.step]
    cases wait with
    | request hold stage => cases h
    | modem | clock | rejoin | reopen | room =>
      simp only [Node.check]
      split <;> rfl
    | notice forever =>
      simp only [Node.check]
      split
      · rename_i hnext
        exact slot_deliverNext? hnext
      · rfl
    | work =>
      simp only [Node.check]
      split
      · rename_i hnext
        exact slot_deliverNext? hnext
      · rcases hpublish : (node.setAlarm .notice).publishNext? .serve with _ | after
        · rfl
        · have hslot := slot_publishNext? hpublish
          exact hslot
    | posting | drain published =>
      simp only [Node.check]
      rcases hpublish : node.publishNext? _ with _ | after
      · rfl
      · exact slot_publishNext? hpublish
    | closed =>
      have hslot := slot_noteClosed node
      simp only [Node.check]
      rcases hclosed : node.noteClosed with ⟨after, _ | _⟩ <;> rw [hclosed] at hslot <;> exact hslot

/-- No call puts a question on its first visit but the one that is made for that. -/
theorem asked_call (node : Node) {call : Call} (h : ∀ expected, call ≠ .ask expected) :
    (call.start node).1.link.asked = node.link.asked := by
  cases call with
  | ask expected => exact absurd rfl (h expected)
  | feed data => exact Intake.feed_number node.link.intake data
  | forget generation => exact Dialogue.forget_count node.link generation
  | collect generation => exact Dialogue.collect_number node.link.intake.slot generation
  | subscribe scope pattern subscriber => rw [Call.start, subscribe_link]
  | unsubscribe scope pattern subscriber => rw [Call.start, unsubscribe_link]
  | deliver line =>
    have hlink : (node.deliver line).1.link = node.link := node.deliver_link line
    simp only [Call.start]
    rcases hdeliver : node.deliver line with ⟨after, n | cause⟩ <;> rw [hdeliver] at hlink <;> rw [← hlink]
  | deliverPending =>
    show node.deliverPending.1.link.asked = node.link.asked
    rw [deliverPending_link]
    rfl
  | tryPost scope topic payload =>
    simp only [Call.start, Node.tryPost]
    split
    · rfl
    · split <;> rfl
  | noteClosed => exact congrArg Slot.generation (slot_noteClosed node)
  | _ => rfl

end

/-! ### Whoever holds the modem -/

theorem steady_held : Dialogue.Steady Link.held where
  look link number := (Dialogue.looked_look link number).held
  lookAgain link number := (Dialogue.looked_lookAgain link number).held
  forget _ _ := rfl
  obey link rule := (link.same_obey rule).held
  transmit link parts := (link.transmit_transmitted parts).held

theorem held_start (link : Link) (request : Dialogue.Request) : (Dialogue.start link request).1.held = link.held := by
  cases request with
  | ask parts expected timeout =>
    simp only [Dialogue.start]
    rcases hask : link.ask expected with (_ | _) | ⟨asked, generation⟩
    · rfl
    · rfl
    · exact (steady_held.proceed _ _).trans ((steady_held.transmit asked parts).trans (Dialogue.ask_eq hask).1)
  | send parts => exact (steady_held.proceed _ _).trans (steady_held.transmit link parts)
  | pause duration | clear => rfl

/-- The task's request has been made and is not over. -/
def Task.IsEngaged (task : Task) : Prop := ∃ hold stage, task = .parked (.request hold stage)

theorem Task.IsEngaged.stage? {task : Task} (h : task.IsEngaged) : task.stage?.isSome := by
  obtain ⟨hold, stage, rfl⟩ := h
  rfl

namespace Crowd

/-- At most one task holds the modem, whoever has put a question. -/
structure Solo (crowd : Crowd) : Prop where
  held : ∀ {i task}, crowd.task? i = some task → task.stage?.isSome → crowd.node.link.held = true
  unique : ∀ {i j a b}, crowd.task? i = some a → crowd.task? j = some b → a.stage?.isSome → b.stage?.isSome → i = j

section
variable {crowd : Crowd} {i : Nat} {task : Task} {stage : Stage}

theorem Solo.allOutside (h : crowd.Solo) (htask : crowd.task? i = some task) (hstage : task.stage?.isSome) :
    crowd.AllOutside i := by
  intro j hne other hother
  by_contra hsome
  exact hne (h.unique hother htask (Option.isSome_iff_ne_none.mpr hsome) hstage)

theorem Solo.allOutside_of_free (h : crowd.Solo) (hfree : crowd.node.link.held = false) (i : Nat) :
    crowd.AllOutside i := by
  intro j _ other hother
  by_contra hsome
  exact absurd (h.held hother (Option.isSome_iff_ne_none.mpr hsome)) (by simp [hfree])

/-- With all others outside, it is enough that the one task holds the modem if it is not. -/
theorem AllOutside.solo (h : crowd.AllOutside i)
    (hheld : ∀ {task}, crowd.task? i = some task → task.stage?.isSome → crowd.node.link.held = true) : crowd.Solo where
  held {j other} hother hstage := by
    by_cases hj : j = i
    · subst hj
      exact hheld hother hstage
    · simp [h j hj other hother] at hstage
  unique {j k a b} ha hb hsa hsb := by
    have only {j other} (hother : crowd.task? j = some other) (hstage : other.stage?.isSome) : j = i := by
      by_contra hj
      simp [h j hj other hother] at hstage
    exact (only ha hsa).trans (only hb hsb).symm

/-- What has become of a task that was outside and stays there does not matter. -/
theorem Solo.frame {next : Crowd} (h : crowd.Solo) (hheld : next.node.link.held = crowd.node.link.held)
    (htasks : ∀ {j other}, next.task? j = some other → other.stage?.isSome → crowd.task? j = some other) : next.Solo where
  held hother hstage := hheld.trans (h.held (htasks hother hstage) hstage)
  unique ha hb hsa hsb := h.unique (htasks ha hsa) (htasks hb hsb) hsa hsb

/-- A step of the task that holds the modem: it keeps it, or gives it back. -/
theorem held_step (htask : task.stage? = some stage) (node : Node) (hheld : node.link.held = true)
    (hstage : (node.step task.awaken).2.stage?.isSome) : (node.step task.awaken).1.link.held = true := by
  have hheed (led : Link × Dialogue.Progress) (hled : led.1.held = true)
      (hstage : (node.heed stage led).2.stage?.isSome) : (node.heed stage led).1.link.held = true := by
    obtain ⟨link, hold | result⟩ := led
    · exact hled
    · obtain ⟨hlink, hfollows⟩ := stage_follows stage { node with link } result
      simp only [Node.heed, Node.after] at hstage ⊢
      rcases hnext : stage.next { node with link } result with ⟨next, ⟨request, stage'⟩ | task'⟩ <;>
        simp only [hnext] at hlink hfollows hstage ⊢
      · rw [hlink]
        exact hled
      · simp [hfollows.stage?_eq] at hstage
  cases task with
  | finished answer => cases htask
  | asking request stage' =>
    cases htask
    exact hheed _ ((held_start _ _).trans hheld) hstage
  | parked wait | checking wait =>
    cases wait <;> cases htask
    exact hheed _ ((steady_held.resume _ _).trans hheld) hstage

theorem solo_next (h : crowd.Solo) (move : Move) : (crowd.next move).Solo := by
  cases move with
  | advance time => exact h.frame (crowd.node.link.same_advance time).held fun hother _ => hother
  | start call =>
    have hcall : (call.start crowd.node).1.link.held = crowd.node.link.held ∧
        (call.start crowd.node).2.stage? = none := by
      by_cases hask : ∀ expected, call ≠ .ask expected
      · obtain ⟨hlink, hstage⟩ := start_outside crowd.node hask
        exact ⟨hlink.held, hstage⟩
      · obtain ⟨expected, rfl⟩ := not_forall_not.mp hask
        simp only [Call.start]
        rcases hput : crowd.node.link.ask expected with cause | ⟨asked, generation⟩
        · exact ⟨rfl, rfl⟩
        · exact ⟨(Dialogue.ask_eq hput).1, rfl⟩
    refine h.frame hcall.1 fun {j other} hother hstage => ?_
    rw [task?_start] at hother
    split at hother
    · cases hother
      simp [hcall.2] at hstage
    · exact hother
  | step i =>
    rcases htask : crowd.task? i with _ | task
    · rwa [next_step_none htask]
    rcases hstage : task.stage? with _ | stage
    · rcases step_outside crowd.node hstage with ⟨hlink, hout⟩ | ⟨request, stage, hfree, hafter⟩
      · rw [next_step htask]
        refine h.frame hlink.held fun {j other} hother hsome => ?_
        rw [task?_set htask] at hother
        split at hother
        · cases hother
          simp [hout] at hsome
        · exact hother
      · -- The modem was free, and now the task holds it.
        rw [next_step htask, hafter]
        exact ((h.allOutside_of_free hfree i).set htask _ _).solo fun _ _ => rfl
    · have hsome : task.stage?.isSome := by simp [hstage]
      rw [next_step htask]
      refine ((h.allOutside htask hsome).set htask _ _).solo fun hother hs => ?_
      rw [task?_set htask, if_pos rfl] at hother
      cases hother
      exact held_step hstage crowd.node (h.held htask hsome) hs
  | drop i =>
    rcases htask : crowd.task? i with _ | task
    · rwa [next_drop_none htask]
    rw [next_drop htask]
    rcases hstage : task.stage? with _ | stage
    · rw [drop_outside hstage]
      refine h.frame rfl fun {j other} hother _ => ?_
      rw [task?_set htask] at hother
      split at hother
      · cases hother
      · exact hother
    · refine ((h.allOutside htask (by simp [hstage])).set htask _ _).solo fun hother _ => ?_
      rw [task?_set htask, if_pos rfl] at hother
      cases hother

theorem solo_run (h : crowd.Solo) (moves : List Move) : (crowd.run moves).Solo := by
  induction moves generalizing crowd with
  | nil => exact h
  | cons move rest ih => exact ih (solo_next h move)

theorem solo_fresh (node : Node) : Solo { node } where
  held h := by simp [task?] at h
  unique h := by simp [task?] at h

/-! ### From the question to the end of its request -/

theorem asked_heed (node : Node) (stage : Stage) (led : Link × Dialogue.Progress) :
    (node.heed stage led).1.link.asked = led.1.asked := by
  obtain ⟨link, hold | result⟩ := led
  · rfl
  · exact congrArg (·.slot.generation) (after_intake { node with link } stage result)

/-- A question that is left in the slot is that of the task, whose request is not over. -/
theorem owned_heed {led : Link × Dialogue.Progress} (howns : led.2.Owns led.1) (node : Node) (stage : Stage) {generation : UInt32}
    (hpending : (node.heed stage led).1.link.pending? = some generation) :
    (node.heed stage led).2.generation? = some generation ∧ (node.heed stage led).2.IsEngaged := by
  obtain ⟨link, hold | result⟩ := led
  · exact ⟨howns generation hpending, hold, stage, rfl⟩
  · have hnone : link.pending? = none := howns
    have hafter : ({ node with link } : Node).after stage result |>.1.link.pending? = link.pending? :=
      congrArg (·.slot.question.map (·.generation)) (after_intake { node with link } stage result)
    cases (hafter.symm.trans hpending).symm.trans hnone

/-- Task `i` waits with question number `n`, or is done with it and the slot is empty. -/
structure Clearing (i : Nat) (n : UInt32) (crowd : Crowd) : Prop where
  exclusive : crowd.Exclusive
  asked : crowd.node.link.asked = n
  clear : (∃ task, crowd.task? i = some task ∧ task.IsEngaged) ∨ crowd.node.link.pending? = none

theorem clear_heed {led : Link × Dialogue.Progress} (howns : led.2.Owns led.1) (node : Node) (stage : Stage) :
    (node.heed stage led).2.IsEngaged ∨ (node.heed stage led).1.link.pending? = none := by
  rcases hpending : (node.heed stage led).1.link.pending? with _ | generation
  · exact .inr rfl
  · exact .inl (owned_heed howns node stage hpending).2

/-- A question that fits and does not find another one waiting is put, and the task owns it, whatever was in the slot. -/
theorem clearing_first {parts : List Bytes} {expected : String} {timeout : Nat} (h : crowd.Solo)
    (htask : crowd.task? i = some (.asking (.ask parts expected timeout) stage))
    (hfits : expected.utf8ByteSize ≤ Limits.expected) (hwaiting : crowd.node.link.intake.slot.isWaiting = false) :
    (crowd.next (.step i)).Clearing i (crowd.node.link.asked + 1) := by
  obtain ⟨asked, number, hask⟩ : ∃ asked number, crowd.node.link.ask expected = .ok (asked, number) := by
    simp [Link.ask, Slot.ask, hwaiting, Nat.not_lt.mpr hfits]
  obtain ⟨rfl, hcount, -⟩ := Dialogue.ask_question hask
  obtain ⟨hheld, -, hpending⟩ := Dialogue.ask_eq hask
  let led := Dialogue.proceed (some ⟨crowd.node.link.asked + 1, timeout⟩) (asked.transmit parts)
  have hstart : Dialogue.start crowd.node.link (.ask parts expected timeout) = led := by
    simp only [Dialogue.start, hask]
    rfl
  have howns : led.2.Owns led.1 :=
    Dialogue.Led.owns (Dialogue.led_proceed (fun g hg => hpending.symm.trans hg) (asked.transmit_transmitted parts))
  have hstep : crowd.node.step (Task.awaken (.asking (.ask parts expected timeout) stage)) = crowd.node.heed stage led :=
    congrArg (crowd.node.heed stage) hstart
  have hnext : crowd.next (.step i) =
      ⟨(crowd.node.heed stage led).1, crowd.tasks.set i (some (crowd.node.heed stage led).2)⟩ := by
    rw [next_step htask, hstep]
  have hself : (crowd.next (.step i)).task? i = some (crowd.node.heed stage led).2 := by
    rw [hnext, task?_set htask, if_pos rfl]
  refine ⟨?_, ?_, ?_⟩
  · rw [hnext]
    refine ((h.allOutside htask rfl).set htask _ _).exclusive (fun hother hs => ?_) fun {generation} hg => ?_
    · exact (solo_next h (.step i)).held (hnext ▸ hother) hs |> (hnext ▸ ·)
    · exact ⟨_, hnext ▸ hself, (owned_heed howns crowd.node stage hg).1⟩
  · rw [hnext]
    refine (asked_heed crowd.node stage led).trans ((steady_asked.proceed _ _).trans ?_)
    exact slot_transmit (hear_asked (crowd.node.link.asked + 1)) hcount parts
  · rw [hself, hnext]
    exact (clear_heed howns crowd.node stage).imp (fun hengaged => ⟨_, rfl, hengaged⟩) id

/-- While the request of a task is not over, nobody else puts a question. -/
theorem asked_next {move : Move} (h : crowd.Exclusive) (hmove : move.IsOrderly) (htask : crowd.task? i = some task)
    (hengaged : task.IsEngaged) : (crowd.next move).node.link.asked = crowd.node.link.asked := by
  cases move with
  | start call => exact asked_call crowd.node hmove
  | advance time => exact slot_advance (hear_asked crowd.node.link.asked) rfl time
  | drop j =>
    rcases hother : crowd.task? j with _ | other
    · rw [next_drop_none hother]
    · rw [next_drop hother]
      exact asked_drop crowd.node other
  | step j =>
    rcases hother : crowd.task? j with _ | other
    · rw [next_step_none hother]
    rw [next_step hother]
    by_cases hj : j = i
    · obtain ⟨hold, stage, rfl⟩ := hengaged
      subst hj
      obtain rfl : _ = other := Option.some.inj (htask.symm.trans hother)
      exact (asked_heed crowd.node stage _).trans (steady_asked.resume crowd.node.link hold)
    · have hout := h.allOutside htask hengaged.stage? j hj other hother
      exact congrArg Slot.generation (slot_outside crowd.node hout)

/-- Every move leaves the task waiting, or the slot empty. -/
theorem clear_next {move : Move} (h : crowd.Exclusive) (htask : crowd.task? i = some task) (hengaged : task.IsEngaged) :
    (∃ task, (crowd.next move).task? i = some task ∧ task.IsEngaged) ∨ (crowd.next move).node.link.pending? = none := by
  by_cases hby : move.task? = some i
  · obtain ⟨hold, stage, rfl⟩ := hengaged
    have howns := h.owns htask rfl
    cases move with
    | start call => cases hby
    | advance time => cases hby
    | drop j =>
      obtain rfl : j = i := Option.some.inj hby
      rw [next_drop htask]
      exact .inr (drop_held rfl howns).2.2
    | step j =>
      obtain rfl : j = i := Option.some.inj hby
      rw [task?_step htask, if_pos rfl, next_step htask]
      have hled := (Dialogue.led_resume howns).owns
      exact (clear_heed hled crowd.node stage).imp (fun hengaged => ⟨_, rfl, hengaged⟩) id
  · exact .inl ⟨task, task?_elsewhere htask hby, hengaged⟩

theorem clearing_run {moves : List Move} {n : UInt32} (h : crowd.Clearing i n) (hmoves : ∀ move ∈ moves, move.IsOrderly)
    (hkeeps : Keeps Task.IsEngaged i crowd moves) : (crowd.run moves).Clearing i n := by
  induction moves generalizing crowd with
  | nil => exact h
  | cons move rest ih =>
    obtain ⟨⟨task, htask, hengaged⟩, hkeeps⟩ := hkeeps
    have hmove := hmoves move List.mem_cons_self
    have hnext : (crowd.next move).Clearing i n :=
      ⟨exclusive_next h.exclusive hmove, (asked_next h.exclusive hmove htask hengaged).trans h.asked,
        clear_next h.exclusive htask hengaged⟩
    exact ih hnext (fun m hm => hmoves m (List.mem_cons_of_mem _ hm)) hkeeps

end

/-- The question that task `i` is about to put is refused: the task goes on with that, and nothing else has happened. -/
structure Refuses (crowd : Crowd) (i : Nat) (stage : Stage) (cause : Failure Fault) : Prop where
  result : (crowd.next (.step i)).task? i = some (crowd.node.after stage (.error cause)).2
  slot : (crowd.next (.step i)).node.link.intake.slot = crowd.node.link.intake.slot
  sent : (crowd.next (.step i)).node.link.sent = crowd.node.link.sent

theorem refuses_of_start {crowd : Crowd} {i : Nat} {request : Dialogue.Request} {stage : Stage} {cause : Failure Fault}
    (htask : crowd.task? i = some (.asking request stage))
    (hstart : Dialogue.start crowd.node.link request = (crowd.node.link, .finished (.error cause))) :
    crowd.Refuses i stage cause := by
  have hstep : crowd.node.step (Task.awaken (.asking request stage)) = crowd.node.after stage (.error cause) :=
    congrArg (crowd.node.heed stage) hstart
  have hnext := next_step htask
  rw [hstep] at hnext
  refine ⟨?_, ?_, ?_⟩
  · rw [hnext, task?_set htask, if_pos rfl]
  · rw [hnext]
    exact congrArg Intake.slot (after_intake crowd.node stage _)
  · rw [hnext]
    exact after_sent crowd.node stage _

/-- An empty slot hears nothing, and takes the next question that fits. -/
theorem empty_slot {link : Link} (h : link.intake.slot.question = none) (bytes : Bytes) :
    (link.feed bytes).intake.slot = link.intake.slot ∧
      ∀ expected : String, expected.utf8ByteSize ≤ Limits.expected →
        ∃ asked, (link.feed bytes).ask expected = .ok (asked, link.asked + 1) := by
  have hslot : (link.feed bytes).intake.slot = link.intake.slot := by
    refine Intake.feed_slot (P := (· = link.intake.slot)) (fun slot line hslot => ?_) rfl bytes
    subst hslot
    simp [Slot.hear, h]
  refine ⟨hslot, fun expected hfits => ?_⟩
  simp [Link.ask, Slot.ask, Slot.isWaiting, hslot, h, Nat.not_lt.mpr hfits, Link.asked]

/-- Whatever has happened before, in whatever state the slot is: a question that is too long is refused, and one that finds
    another waiting is, and then nothing is written and the slot is as it was. Any other gets the next generation, which
    wraps. Until its request is over, and nobody else puts a question, no other is put; and when it is over, with an answer,
    with a fault, without an answer in time or because it is given up, wherever it was, the slot is empty: whatever is
    received answers nothing, and the next question that fits is taken. -/
theorem leaves_clear (node : Node) (before : List Move) (i : Nat) (parts : List Bytes) (expected : String) (timeout : Nat)
    (stage : Stage)
    (htask : (Crowd.run { node } before).task? i = some (.asking (.ask parts expected timeout) stage)) :
    let crowd := Crowd.run { node } before
    (Limits.expected < expected.utf8ByteSize → crowd.Refuses i stage .commandTooLong) ∧
    (expected.utf8ByteSize ≤ Limits.expected → crowd.node.link.intake.slot.isWaiting = true →
      crowd.Refuses i stage .busy) ∧
    (expected.utf8ByteSize ≤ Limits.expected → crowd.node.link.intake.slot.isWaiting = false →
      ∀ during : List Move, (∀ move ∈ during, move.IsOrderly) →
        Keeps Task.IsEngaged i (crowd.next (.step i)) during →
        let after := ((crowd.next (.step i)).run during)
        after.node.link.asked = crowd.node.link.asked + 1 ∧
        ((¬∃ task, after.task? i = some task ∧ task.IsEngaged) → after.node.link.intake.slot.question = none ∧
          ∀ bytes, (after.node.link.feed bytes).intake.slot = after.node.link.intake.slot ∧
            ∀ other : String, other.utf8ByteSize ≤ Limits.expected →
              ∃ asked, (after.node.link.feed bytes).ask other = .ok (asked, crowd.node.link.asked + 1 + 1))) := by
  intro crowd
  have hsolo : crowd.Solo := solo_run (solo_fresh node) before
  refine ⟨fun hlong => refuses_of_start htask ?_, fun hfits hwaiting => refuses_of_start htask ?_,
    fun hfits hwaiting during hduring hkeeps => ?_⟩
  · have hask : crowd.node.link.ask expected = .error .prefixTooLong := by simp [Link.ask, Slot.ask, hlong]
    simp only [Dialogue.start, hask]
  · have hask : crowd.node.link.ask expected = .error .busy := by
      simp [Link.ask, Slot.ask, hwaiting, Nat.not_lt.mpr hfits]
    simp only [Dialogue.start, hask]
  · obtain ⟨-, hasked, hclear⟩ := clearing_run (clearing_first hsolo htask hfits hwaiting) hduring hkeeps
    refine ⟨hasked, fun hover => ?_⟩
    have hempty := Option.map_eq_none_iff.mp (hclear.resolve_left hover)
    refine ⟨hempty, fun bytes => ?_⟩
    have hnext := empty_slot hempty bytes
    rwa [hasked] at hnext

/-- One command finds somebody else's question waiting. Another one, which comes after the last generation, has its answer
    while its line end is held back, and is given up before that is written. -/
theorem leaves_clear_of_two_commands :
    let node : Node := { table := { capacity := 1 }, depth := 1, link := { rules := [
      { trigger := [], delay := 5, replies := [⟨0, Text.encode "OK\r\n"⟩] }] } }
    let late : Node := node.withSlot { generation := 4294967295 }
    let other := Crowd.run { node } [.start (.ask "x"), .start (.sendCommand "AT" "OK" 100), .step 1]
    let crowd := Crowd.run { node := late } [.start (.sendCommand "AT" "OK" 100), .step 0]
    let after := (crowd.next (.step 0)).run [.advance 5, .step 0, .drop 0]
    ((other.next (.step 1)).task? 1 = some (.finished (.failed .busy)) ∧
      (other.next (.step 1)).node.link.intake.slot.question = some ⟨1, "x", none⟩) ∧
    (crowd.node.link.asked = 4294967295 ∧ after.node.link.asked = 0) ∧ after.node.link.sent = Dialogue.line "AT" ∧
      after.node.link.intake.slot.question = none := by
  intro node late other crowd after
  obtain ⟨-, hbusy, -⟩ := leaves_clear node [.start (.ask "x"), .start (.sendCommand "AT" "OK" 100), .step 1] 1
    (Dialogue.line "AT") "OK" 100 .text rfl
  obtain ⟨-, -, hclear⟩ := leaves_clear late [.start (.sendCommand "AT" "OK" 100), .step 0] 0
    (Dialogue.line "AT") "OK" 100 .text rfl
  obtain ⟨hresult, -⟩ := hbusy (by decide) rfl
  obtain ⟨hasked, hempty⟩ := hclear (by decide) rfl [.advance 5, .step 0, .drop 0] (by simp [Move.IsOrderly])
    ⟨⟨_, rfl, _, _, rfl⟩, ⟨_, rfl, _, _, rfl⟩, ⟨_, rfl, _, _, rfl⟩, trivial⟩
  have hquestion : (other.next (.step 1)).node.link.intake.slot.question = some ⟨1, "x", none⟩ := by decide +kernel
  have hfirst : crowd.node.link.asked = 4294967295 := by decide +kernel
  have hsent : after.node.link.sent = Dialogue.line "AT" := by decide +kernel
  have hgone : after.task? 0 = none := by decide +kernel
  refine ⟨⟨hresult, hquestion⟩, ⟨hfirst, hasked.trans (congrArg (· + 1) hfirst)⟩, hsent, (hempty ?_).1⟩
  rintro ⟨task, htask, -⟩
  cases hgone.symm.trans htask

end Crowd
end SensorLink
