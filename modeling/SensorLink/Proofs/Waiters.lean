import Mathlib.Data.List.Induction
import Mathlib.Tactic.Common
import SensorLink.Slot

/-! Several who wait at one slot, each for a generation of its own, polled in any order between questions, lines and
    collections by others. There is one wake-up for all of them: whoever looks next uses it up, so one that has waited
    since before the answer came may look in vain while the answer is there. -/

namespace SensorLink.Slot

/-- A slot with those who have begun to wait at it, in the order in which they began. -/
structure Lobby where
  slot : Slot := {}
  waiters : List Waiter := []

namespace Lobby

inductive Act where
  | ask (expected : String)
  | hear (line : String)
  | collect (generation : UInt32)
  | forget (generation : UInt32)
  /-- Someone begins to wait, without a look yet. -/
  | wait (generation : UInt32)
  | poll (i : Nat)

def poll (lobby : Lobby) (i : Nat) : Lobby × Option String :=
  match lobby.waiters[i]? with
  | none => (lobby, none)
  | some waiter =>
    let (slot, waiter, answer) := lobby.slot.serve waiter
    ({ slot, waiters := lobby.waiters.set i waiter }, answer)

def next (lobby : Lobby) : Act → Lobby
  | .ask expected =>
    match lobby.slot.ask expected with
    | .ok (slot, _) => { lobby with slot }
    | .error _ => lobby
  | .hear line => { lobby with slot := (lobby.slot.hear line).1 }
  | .collect generation => { lobby with slot := (lobby.slot.collect generation).1 }
  | .forget generation => { lobby with slot := lobby.slot.forget generation }
  | .wait generation => { lobby with waiters := lobby.waiters ++ [.fresh generation] }
  | .poll i => (lobby.poll i).1

def run (lobby : Lobby) (acts : List Act) : Lobby := acts.foldl next lobby

theorem run_concat (lobby : Lobby) (acts : List Act) (act : Act) :
    lobby.run (acts ++ [act]) = (lobby.run acts).next act := by simp [run]

theorem run_hear (lobby : Lobby) (before since : List Act) (line : String) :
    lobby.run (before ++ .hear line :: since) = (lobby.run (before ++ [.hear line])).run since := by
  simp [run]

/-- Someone looks who still waits. -/
def Looks (lobby : Lobby) : Act → Prop
  | .poll i => ∃ waiter ∈ lobby.waiters[i]?, waiter ≠ .served
  | _ => False

/-- In none of the acts does someone look who still waits. -/
def Unseen : Lobby → List Act → Prop
  | _, [] => True
  | lobby, act :: acts => ¬lobby.Looks act ∧ Unseen (lobby.next act) acts

theorem unseen_concat (lobby : Lobby) (acts : List Act) (act : Act) :
    lobby.Unseen (acts ++ [act]) ↔ lobby.Unseen acts ∧ ¬(lobby.run acts).Looks act := by
  induction acts generalizing lobby with
  | nil => simp [Unseen, run]
  | cons first rest ih => simp only [List.cons_append, Unseen, ih, and_assoc]; rfl

/-! ### One act -/

section
variable {slot : Slot} {generation number : UInt32} {expected answer : String}

/-- A collection that leaves an answer in the slot has changed nothing. -/
theorem eq_of_collect (h : (slot.collect generation).1.question = some ⟨number, expected, some answer⟩) :
    slot.collect generation = (slot, none) := by
  refine collect_eq_self fun e a hquestion => ?_
  rw [collect_own hquestion] at h
  cases h

/-- A look that leaves an answer in the slot has used up the wake-up, and whoever looked sleeps on. -/
theorem serve_in_vain {waiter : Waiter} (hwaiter : waiter ≠ .served)
    (h : (slot.serve waiter).1.question = some ⟨number, expected, some answer⟩) :
    (slot.serve waiter).1 = { slot with wakeUp := none } := by
  cases waiter with
  | served => exact absurd rfl hwaiter
  | fresh generation =>
    have hlook : (slot.serve (.fresh generation)).1 = (slot.look generation).1 := by
      simp only [serve]
      split <;> simp [*]
    rw [hlook] at h ⊢
    have hafter : (slot.collect generation).1.question = some ⟨number, expected, some answer⟩ := by
      unfold look at h
      rcases hcollect : slot.collect generation with ⟨after, _ | found⟩ <;> rwa [hcollect] at h
    have hcollect := eq_of_collect hafter
    simp [look, hcollect]
  | asleep generation =>
    have hlook : (slot.serve (.asleep generation)).1 = (slot.lookAgain generation).1 := by
      simp only [serve]
      split <;> simp [*]
    rw [hlook] at h ⊢
    unfold lookAgain at h ⊢
    split
    · rename_i hwake
      rw [hwake] at h
      rw [eq_of_collect h]
    · rename_i hwake
      rw [← hwake]

/-- How an act of `lobby` leaves an answer in the slot. -/
inductive Answered (lobby : Lobby) (act : Act) (number : UInt32) (expected answer : String) : Prop
  | heard (line : String) (hears : act = .hear line) (waits : lobby.slot.question = some ⟨number, expected, none⟩)
      (fits : answerOf? expected line = some answer) (wakes : (lobby.next act).slot.wakeUp = some number)
  | kept (there : lobby.slot.question = some ⟨number, expected, some answer⟩) (unseen : ¬lobby.Looks act)
      (same : (lobby.next act).slot = lobby.slot)
  | inVain (there : lobby.slot.question = some ⟨number, expected, some answer⟩) (looks : lobby.Looks act)
      (uses : (lobby.next act).slot = { lobby.slot with wakeUp := none })

theorem answered_next {lobby : Lobby} {act : Act}
    (h : (lobby.next act).slot.question = some ⟨number, expected, some answer⟩) :
    Answered lobby act number expected answer := by
  have kept (hlooks : ¬lobby.Looks act) (hslot : (lobby.next act).slot = lobby.slot) :
      Answered lobby act number expected answer := .kept (hslot ▸ h) hlooks hslot
  cases act with
  | wait generation => exact kept id rfl
  | collect generation => exact kept id (congrArg Prod.fst (eq_of_collect h))
  | forget generation =>
    refine kept id ?_
    simp only [next, forget] at h ⊢
    rcases hquestion : lobby.slot.question with _ | question <;> simp only [hquestion] at h ⊢
    split
    · rename_i hnumber
      simp [hnumber] at h
    · rfl
  | ask put =>
    refine kept id ?_
    simp only [next] at h ⊢
    rcases hask : lobby.slot.ask put with cause | ⟨slot, generation⟩
    · rfl
    · -- A question that has just been put is not answered yet.
      unfold ask at hask
      split at hask
      · cases hask
      · split at hask <;> cases hask
        simp [ask, *] at h
  | hear line =>
    rcases hquestion : lobby.slot.question with _ | ⟨generation, put, _ | found⟩
    · exact kept id (by simp [next, hear, hquestion])
    · rcases hfound : answerOf? put line with _ | found <;> simp only [next, hear, hquestion, hfound] at h
      · cases h
      · cases h
        exact .heard line rfl hquestion hfound (by simp [next, hear, hquestion, hfound])
    · exact kept id (by simp [next, hear, hquestion])
  | poll i =>
    rcases hwaiter : lobby.waiters[i]? with _ | waiter
    · exact kept (by simp [Looks, hwaiter]) (by simp [next, poll, hwaiter])
    · have hslot : (lobby.next (.poll i)).slot = (lobby.slot.serve waiter).1 := by simp [next, poll, hwaiter]
      by_cases hserved : waiter = .served
      · subst hserved
        exact kept (by simp [Looks, hwaiter]) hslot
      · have hvain := serve_in_vain hserved (hslot ▸ h)
        exact .inVain (by rwa [hslot, hvain] at h) ⟨waiter, hwaiter, hserved⟩ (hslot.trans hvain)

end

/-! ### Runs -/

/-- An answer in the slot was heard while its question waited, and its wake-up is still there if nobody has looked
    since. -/
theorem answered_run {acts : List Act} {number : UInt32} {expected answer : String}
    (h : (run {} acts).slot.question = some ⟨number, expected, some answer⟩) : ∃ before line since,
      acts = before ++ .hear line :: since ∧ (run {} before).slot.question = some ⟨number, expected, none⟩ ∧
        answerOf? expected line = some answer ∧
        ((run {} (before ++ [.hear line])).Unseen since ∧ (run {} acts).slot.wakeUp = some number ∨
          ¬(run {} (before ++ [.hear line])).Unseen since ∧ (run {} acts).slot.wakeUp = none) := by
  induction acts using List.reverseRecOn with
  | nil => cases h
  | append_singleton acts act ih =>
    rw [run_concat] at h ⊢
    cases answered_next h with
    | heard line hears waits fits wakes =>
      subst hears
      exact ⟨acts, line, [], rfl, waits, fits, .inl ⟨trivial, wakes⟩⟩
    | kept there unseen same =>
      obtain ⟨before, line, since, rfl, hwaiting, hanswer, hseen⟩ := ih there
      refine ⟨before, line, since ++ [act], by simp, hwaiting, hanswer, ?_⟩
      rw [unseen_concat, ← run_hear, same]
      exact hseen.imp (And.imp_left (⟨·, unseen⟩)) (And.imp_left (mt And.left))
    | inVain there looks uses =>
      obtain ⟨before, line, since, rfl, hwaiting, hanswer, -⟩ := ih there
      refine ⟨before, line, since ++ [act], by simp, hwaiting, hanswer, .inr ⟨?_, by rw [uses]⟩⟩
      rw [unseen_concat, ← run_hear]
      exact fun hunseen => hunseen.2 looks

/-- Whatever was asked, heard, collected and given up, and whoever was polled in whatever order: once the question is
    answered, a waiter for it gets the answer at its first look; one that sleeps gets it exactly if nobody who still
    waits, for whichever generation, has looked since the answer was heard, and else gets nothing. -/
theorem poll_answered (acts : List Act) {number : UInt32} {expected answer : String} {i : Nat} {waiter : Waiter}
    (hquestion : (run {} acts).slot.question = some ⟨number, expected, some answer⟩)
    (hwaiter : (run {} acts).waiters[i]? = some waiter) (hnumber : waiter = .fresh number ∨ waiter = .asleep number) :
    ∃ before line since, acts = before ++ .hear line :: since ∧
      (run {} before).slot.question = some ⟨number, expected, none⟩ ∧ answerOf? expected line = some answer ∧
      (((run {} acts).poll i).2 = some answer ↔
        waiter = .fresh number ∨ (run {} (before ++ [.hear line])).Unseen since) ∧
      (((run {} acts).poll i).2 = none ↔
        waiter = .asleep number ∧ ¬(run {} (before ++ [.hear line])).Unseen since) := by
  obtain ⟨before, line, since, hacts, hwaiting, hanswer, hseen⟩ := answered_run hquestion
  refine ⟨before, line, since, hacts, hwaiting, hanswer, ?_⟩
  have hpoll : ((run {} acts).poll i).2 = ((run {} acts).slot.serve waiter).2.2 := by simp [poll, hwaiter]
  rw [hpoll]
  rcases hnumber with rfl | rfl
  · simp [serve, look, collect_own hquestion]
  · rcases hseen with ⟨hunseen, hwake⟩ | ⟨hseen, hwake⟩
    · have hcollect : ({ (run {} acts).slot with wakeUp := none } : Slot).collect number = _ := collect_own hquestion
      simp [serve, lookAgain, hwake, hcollect, hunseen]
    · simp [serve, lookAgain, hwake, hseen]

/-- An earlier waiter that nobody has polled since it fell asleep does not stand in the way: whoever waits for the
    question that is answered looks first. -/
theorem poll_answered_before_others :
    let acts : List Act := [.ask "OK", .wait 1, .poll 0, .forget 1, .ask "OK", .wait 2, .poll 1, .hear "OK"]
    ((run {} acts).slot.question = some ⟨2, "OK", some ""⟩ ∧ (run {} acts).waiters[1]? = some (.asleep 2)) ∧
      ∃ before line since, acts = before ++ .hear line :: since ∧
        (run {} before).slot.question = some ⟨2, "OK", none⟩ ∧ answerOf? "OK" line = some "" ∧
        (((run {} acts).poll 1).2 = some "" ↔
          Waiter.asleep 2 = .fresh 2 ∨ (run {} (before ++ [.hear line])).Unseen since) ∧
        (((run {} acts).poll 1).2 = none ↔
          Waiter.asleep 2 = .asleep 2 ∧ ¬(run {} (before ++ [.hear line])).Unseen since) := by
  have h : (run {} [.ask "OK", .wait 1, .poll 0, .forget 1, .ask "OK", .wait 2, .poll 1, .hear "OK"]).slot.question =
      some ⟨2, "OK", some ""⟩ := by decide +kernel
  exact ⟨⟨h, by decide +kernel⟩, poll_answered _ h (by decide +kernel) (.inr rfl)⟩

/-- One that waits for a question long given up is polled first, and the one that waits for the answer in the slot sleeps
    on. -/
theorem wake_up_lost :
    let lobby := run {} [.ask "OK", .wait 1, .poll 0, .forget 1, .ask "OK", .wait 2, .poll 1, .hear "OK", .poll 0]
    lobby.slot.question = some ⟨2, "OK", some ""⟩ ∧ lobby.waiters[1]? = some (.asleep 2) ∧ (lobby.poll 1).2 = none := by
  decide +kernel

end Lobby
end SensorLink.Slot
