import SensorLink.Proofs.Transcript

/-! What a transcript says of the writes: while the modem has one user at a time, a task writes exactly what its transcript
    has of it (`Crowd.written_run`), and of each request the parts in their order, all of them if it was answered. -/

namespace SensorLink
open Dialogue

/-- What has been written for a request that has come to its end: all its parts if it succeeded, and else no more than the
    first of them. -/
def Dialogue.Round.Wrote (round : Round) : Prop := (Progress.finished round.result).Wrote round.request.parts round.written

namespace Transcript

/-- Where the task stands with the request that is under way. -/
inductive Stands (said : Transcript) (task : Task) : Prop where
  | quiet (apart : ∀ hold stage, task.awaken ≠ .checking (.request hold stage)) (silent : said.current = none)
  | listens (hold : Hold) (stage : Stage) (awaken_eq : task.awaken = .checking (.request hold stage)) (request : Request)
      (written : List Bytes) (current : said.current = some (request, written)) (wrote : written ++ hold.rest = request.parts)

/-- The transcript agrees with where the task stands. -/
structure Sound (said : Transcript) (task : Task) : Prop where
  rounds : ∀ round ∈ said.rounds, round.Wrote
  stands : said.Stands task

/-- From `said` on, a step of the task has written `more`, and the transcript has it. -/
structure Grows (said : Transcript) (node : Node) (after : Node × Task) (later : Transcript) : Prop where
  written : ∃ more, after.1.link.sent = node.link.sent ++ more ∧ later.written = said.written ++ more
  sound : later.Sound after.2

section
variable {said : Transcript} {node : Node} {task : Task} {stage : Stage} {request : Request} {earlier rest : List Bytes}

theorem apart_of_stage?_none (h : task.stage? = none) (hold : Hold) (stage : Stage) :
    task.awaken ≠ .checking (.request hold stage) := by
  intro hawaken
  cases task <;> cases hawaken <;> cases h

theorem apart_after (node : Node) (stage : Stage) (result : Result) (hold : Hold) (stage' : Stage) :
    (node.after stage result).2.awaken ≠ .checking (.request hold stage') := by
  obtain ⟨-, hfollows⟩ := stage_follows stage node result
  rw [after_task]
  rcases hnext : (stage.next node result).2 with ⟨request, next⟩ | task <;> rw [hnext] at hfollows
  · exact nofun
  · exact apart_of_stage?_none hfollows.stage?_eq hold stage'

/-- The task is about to make its request, or has made it. -/
theorem grows_heed {led : Link × Progress} {awake : Task} (hrounds : ∀ round ∈ said.rounds, round.Wrote)
    (hstep : node.step awake = node.heed stage led) (hconcludes : node.concludes? awake = led.2.result?.map (stage, ·))
    (hled : Led node.link rest led) (hrested : node.rested? awake = none)
    (hgoes : ∀ more, said.goOn more awake = some (request, earlier ++ more))
    (hwritten : said.current.elim [] Prod.snd = earlier) (hparts : earlier ++ rest = request.parts) :
    said.Grows node (node.step awake) (said.next node awake) := by
  obtain ⟨-, -, more, hsent, hwrote⟩ := hled
  obtain ⟨link, hold | result⟩ := led
  · have hdrop : (node.step awake).1.link.sent.drop node.link.sent.length = more := by
      rw [hstep]
      exact (congrArg (List.drop _) hsent).trans List.drop_left
    have hnext : said.next node awake = { past := said.past, current := some (request, earlier ++ more) } := by
      simp [Transcript.next, hconcludes, hdrop, hgoes, hrested, Progress.result?]
    rw [hnext, hstep]
    refine ⟨⟨more, hsent, ?_⟩, hrounds, .listens hold stage rfl request (earlier ++ more) rfl ?_⟩
    · rw [written, written, hwritten, List.append_assoc]
      rfl
    · have hrest : more ++ hold.rest = rest := hwrote
      rw [List.append_assoc, hrest, hparts]
  · have hafter : (node.step awake).1.link.sent = node.link.sent ++ more := by
      rw [hstep]
      exact (after_sent { node with link } stage result).trans hsent
    have hdrop : (node.step awake).1.link.sent.drop node.link.sent.length = more := by
      rw [hafter, List.drop_left]
    let round : Round := { request, written := earlier ++ more, result, ended := (node.step awake).1.link.clock }
    have hnext : said.next node awake = { past := said.past ++ [.round round] } := by
      simp [Transcript.next, hconcludes, hdrop, hgoes, Progress.result?, round]
    have hlater : (said.next node awake).rounds = said.rounds ++ [round] := by
      rw [hnext, Transcript.rounds, List.filterMap_append]
      rfl
    refine ⟨⟨more, hafter, ?_⟩, ?_, .quiet ?_ (by rw [hnext])⟩
    · rw [written, written, hlater, hwritten, hnext, List.flatMap_append, List.flatMap_singleton]
      simp [round]
    · rw [hlater]
      refine List.forall_mem_append.mpr ⟨hrounds, List.forall_mem_singleton.mpr ?_⟩
      show (Progress.finished result).Wrote request.parts (earlier ++ more)
      rw [← hparts]
      cases result with
      | ok answer => exact congrArg (earlier ++ ·) hwrote
      | error cause => exact (List.prefix_append_right_inj earlier).mpr hwrote
    · rw [hstep]
      exact apart_after _ _ _

theorem grows_outside (hrounds : ∀ round ∈ said.rounds, round.Wrote) (hsilent : said.current = none)
    (hstage : task.stage? = none) : said.Grows node (node.step task.awaken) (said.next node task.awaken) := by
  have happart := apart_of_stage?_none hstage
  have hgoes (more : List Bytes) : said.goOn more task.awaken = none := by
    unfold goOn
    split
    · rename_i request stage hasks
      cases task <;> cases hasks
      cases hstage
    · rw [hsilent]
      rfl
  have hconcludes : node.concludes? task.awaken = none := by
    unfold Node.concludes?
    split
    · rename_i request stage hasks
      cases task <;> cases hasks
      cases hstage
    · rename_i hold stage hwaits
      exact absurd hwaits (happart hold stage)
    · rfl
  have hnext : said.next node task.awaken = { past := said.past ++ (node.rested? task.awaken).toList } := by
    simp [Transcript.next, hconcludes, hgoes]
  have hsame : (said.next node task.awaken).rounds = said.rounds := by
    rw [hnext, Transcript.rounds, List.filterMap_append]
    refine (congrArg (said.rounds ++ ·) ?_).trans (List.append_nil _)
    unfold Node.rested?
    split
    · split <;> rfl
    · split <;> rfl
    · rfl
  have hsent : (node.step task.awaken).1.link.sent = node.link.sent ++ [] ∧
      ∀ hold stage, (node.step task.awaken).2.awaken ≠ .checking (.request hold stage) := by
    rcases step_outside node hstage with ⟨hlink, hnone⟩ | ⟨request, stage, -, hafter⟩
    · exact ⟨hlink.sent.trans (List.append_nil _).symm, apart_of_stage?_none hnone⟩
    · refine ⟨?_, fun hold stage' hwaits => ?_⟩
      · rw [hafter]
        exact (List.append_nil _).symm
      · rw [hafter] at hwaits
        cases hwaits
  refine ⟨⟨[], hsent.1, ?_⟩, hsame ▸ hrounds, .quiet hsent.2 (by rw [hnext])⟩
  rw [written, written, hsame, hsilent, hnext]
  exact (List.append_nil _).symm

theorem grows_step (node : Node) (hsound : said.Sound task) (howns : task.stage?.isSome → task.Owns node.link) :
    said.Grows node (node.step task.awaken) (said.next node task.awaken) := by
  obtain ⟨hrounds, hstands⟩ := hsound
  cases hstands with
  | quiet happart hsilent =>
    cases task with
    | asking request stage =>
      have hempty : node.link.pending? = none := Link.pending?_eq_none (howns rfl) rfl
      exact grows_heed hrounds rfl rfl (led_start hempty request) rfl (fun _ => rfl) (by rw [hsilent]; rfl)
        (List.nil_append _)
    | finished answer => exact grows_outside hrounds hsilent rfl
    | parked wait | checking wait =>
      refine grows_outside hrounds hsilent ?_
      cases wait with
      | request hold stage => exact absurd rfl (happart hold stage)
      | _ => rfl
  | listens hold stage hawaken request written hcurrent hwrote =>
    have howned : hold.Owns node.link := by
      cases task <;> cases hawaken <;> exact howns rfl
    rw [hawaken]
    refine grows_heed hrounds rfl rfl (led_resume howned) rfl (fun more => ?_) (by rw [hcurrent]; rfl) hwrote
    show said.current.map _ = _
    rw [hcurrent]
    rfl

theorem Sound.pieces (hsound : said.Sound task) : ∃ pieces : List (List Bytes), said.written = pieces.flatten ∧
    pieces.length = said.requests.length ∧ ∀ piece ∈ pieces, ∃ request ∈ said.requests, piece <+: request.parts := by
  obtain ⟨hrounds, hstands⟩ := hsound
  have hpast : ∀ piece ∈ said.rounds.map Round.written, ∃ request ∈ said.requests, piece <+: request.parts := by
    intro piece hpiece
    obtain ⟨round, hround, rfl⟩ := List.mem_map.mp hpiece
    exact ⟨round.request, List.mem_append_left _ (List.mem_map_of_mem hround), (hrounds round hround).isPrefix⟩
  cases hstands with
  | quiet happart hsilent =>
    refine ⟨said.rounds.map Round.written, ?_, ?_, hpast⟩
    · rw [written, hsilent, List.flatMap_def]
      exact List.append_nil _
    · rw [requests, hsilent]
      simp
  | listens hold stage hawaken request written hcurrent hwrote =>
    refine ⟨said.rounds.map Round.written ++ [written], ?_, ?_, List.forall_mem_append.mpr ⟨hpast, ?_⟩⟩
    · rw [Transcript.written, hcurrent, List.flatMap_def, List.flatten_append, List.flatten_singleton]
      rfl
    · rw [requests, hcurrent]
      simp
    · refine List.forall_mem_singleton.mpr ⟨request, List.mem_append_right _ ?_, hold.rest, hwrote⟩
      rw [hcurrent]
      exact List.mem_singleton_self _

end
end Transcript

/-! ### Runs -/

namespace Crowd

section
variable {crowd : Crowd} {i : Nat} {task last : Task} {said : Transcript} {moves during : List Move}

/-- What a task writes in a run is what its transcript has of it. -/
theorem written_run (h : crowd.Exclusive) (hmoves : ∀ move ∈ moves, move.IsOrderly) (htask : crowd.task? i = some task)
    (hsound : said.Sound task) (hlast : (crowd.run moves).task? i = some last) :
    (crowd.transcript i said moves).written = said.written ++ crowd.writesOf i moves ∧
      (crowd.transcript i said moves).Sound last := by
  induction moves generalizing crowd said task with
  | nil =>
    obtain rfl : task = last := Option.some.inj (htask.symm.trans hlast)
    exact ⟨(List.append_nil _).symm, hsound⟩
  | cons move rest ih =>
    obtain ⟨hmove, hrest⟩ := List.forall_mem_cons.mp hmoves
    have hexclusive := exclusive_next h hmove
    by_cases hown : move.task? = some i
    · cases move <;> cases hown
      · obtain ⟨⟨more, hsent, hmore⟩, hlater⟩ := Transcript.grows_step crowd.node hsound fun hstage => h.owns htask hstage
        have hafter : (crowd.next (.step i)).task? i = some (crowd.node.step task.awaken).2 := by
          rw [task?_step htask, if_pos rfl]
        have hnoted : crowd.noted i said (.step i) = said.next crowd.node task.awaken := by simp [noted, htask]
        rw [transcript, hnoted, writesOf_cons (by rw [next_step htask, hsent]),
          if_pos (show (Move.step i).task? = some i from rfl), ← List.append_assoc, ← hmore]
        exact ih hexclusive hrest hafter hlater hlast
      · have hnone : (crowd.next (.drop i)).task? i = none := by rw [task?_drop htask, if_pos rfl]
        have hlt : i < (crowd.next (.drop i)).tasks.length := by
          rw [length_next]
          exact Nat.lt_add_right _ (lt_of_task? htask)
        cases (task?_run_none hlt hnone rest).symm.trans hlast
    · obtain ⟨more, hsent, -⟩ := sent_next h hmove
      rw [transcript, noted_elsewhere hown, writesOf_cons hsent, if_neg hown, List.nil_append]
      exact ih hexclusive hrest (task?_elsewhere htask hown) hsound hlast

theorem written_call {call : Call} (h : crowd.Exclusive) (hmoves : ∀ move ∈ .start call :: during, move.IsOrderly)
    (hlast : (crowd.run (.start call :: during)).task? crowd.tasks.length = some last) :
    (crowd.transcript crowd.tasks.length {} (.start call :: during)).written =
        crowd.writesOf crowd.tasks.length (.start call :: during) ∧
      (crowd.transcript crowd.tasks.length {} (.start call :: during)).Sound last := by
  obtain ⟨hstart, hduring⟩ := List.forall_mem_cons.mp hmoves
  have hstarted : (crowd.next (.start call)).task? crowd.tasks.length = some (call.start crowd.node).2 :=
    (task?_start call).trans (if_pos rfl)
  have hsound : Transcript.Sound {} (call.start crowd.node).2 :=
    ⟨nofun, .quiet (Transcript.apart_of_stage?_none (start_outside crowd.node hstart).2) rfl⟩
  obtain ⟨hwritten, hlater⟩ := written_run (exclusive_next h hstart) hduring hstarted hsound hlast
  obtain ⟨more, hsent, -⟩ := sent_next h hstart
  rw [writesOf_cons hsent, if_neg nofun]
  exact ⟨hwritten, hlater⟩

/-- A call that makes no request but one writes a piece of it each time. -/
theorem pieces_call {call : Call} {request : Request} (h : crowd.Exclusive)
    (hmoves : ∀ move ∈ .start call :: during, move.IsOrderly)
    (hlast : (crowd.run (.start call :: during)).task? crowd.tasks.length = some last)
    (hall : ∀ made ∈ (crowd.transcript crowd.tasks.length {} (.start call :: during)).requests, made = request) :
    ∃ pieces : List (List Bytes), crowd.writesOf crowd.tasks.length (.start call :: during) = pieces.flatten ∧
      pieces.length = (crowd.transcript crowd.tasks.length {} (.start call :: during)).requests.length ∧
      ∀ piece ∈ pieces, piece <+: request.parts := by
  obtain ⟨hwritten, hsound⟩ := written_call h hmoves hlast
  obtain ⟨pieces, hflat, hlength, hpieces⟩ := hsound.pieces
  refine ⟨pieces, hwritten.symm.trans hflat, hlength, fun piece hpiece => ?_⟩
  obtain ⟨made, hmade, hprefix⟩ := hpieces piece hpiece
  exact hall made hmade ▸ hprefix

end
end Crowd
end SensorLink
