import Mathlib.Tactic.Common
import SensorLink.Dialogue

/-! What one request does to the link: it never changes who holds the modem, it writes its parts in order, and it
    leaves no question behind. Whatever is received meanwhile neither puts a question nor writes. -/

namespace SensorLink

/-! ### What is received -/

/-- The generation of the question in the slot, answered or not. -/
def Link.pending? (link : Link) : Option UInt32 := link.intake.slot.question.map (·.generation)

/-- A question that could only be that of someone who has none is not there. -/
theorem Link.pending?_eq_none {link : Link} {own : Option UInt32} (h : ∀ g, link.pending? = some g → own = some g)
    (hown : own = none) : link.pending? = none := by
  refine Option.eq_none_iff_forall_ne_some.mpr fun g hg => ?_
  cases hown.symm.trans (h g hg)

/-- The modem's holder, the question in the slot and all that was written stay as they are. -/
structure Link.Same (link after : Link) : Prop where
  held : after.held = link.held
  pending : after.pending? = link.pending?
  sent : after.sent = link.sent

theorem Link.Same.refl (link : Link) : Link.Same link link := ⟨rfl, rfl, rfl⟩

theorem Link.Same.trans {a b c : Link} (h₁ : Link.Same a b) (h₂ : Link.Same b c) : Link.Same a c :=
  ⟨h₂.held.trans h₁.held, h₂.pending.trans h₁.pending, h₂.sent.trans h₁.sent⟩

/-- Receiving does nothing to the slot but let it hear lines. -/
theorem Intake.route_slot {P : Slot → Prop} (hhear : ∀ slot line, P slot → P (slot.hear line).1) {intake : Intake}
    (h : P intake.slot) (line : Bytes) : P (intake.route line).1.slot := by
  unfold Intake.route
  split
  · split <;> exact h
  · split
    · exact h
    · split
      · exact h
      · rename_i text _
        have hheard := hhear intake.slot text h
        split
        · rename_i heq
          rwa [heq] at hheard
        · exact h

theorem Intake.feed_slot {P : Slot → Prop} (hhear : ∀ slot line, P slot → P (slot.hear line).1) {intake : Intake}
    (h : P intake.slot) (bytes : Bytes) : P (intake.feed bytes).slot := by
  induction bytes generalizing intake with
  | nil => exact h
  | cons byte rest ih =>
    show P ((intake.receive byte).feed rest).slot
    apply ih
    unfold Intake.receive
    split
    · refine Intake.route_slot hhear ?_ _
      exact h
    · exact h

theorem Slot.hear_generation (slot : Slot) (line : String) :
    (slot.hear line).1.question.map (·.generation) = slot.question.map (·.generation) := by
  unfold Slot.hear
  split
  · rename_i heq
    split <;> simp [heq]
  · rfl

namespace Link
variable (link : Link)

theorem same_announce (events : List Alarm.Event) : Same link (link.announce events) := ⟨rfl, rfl, rfl⟩

theorem same_setAlarm (event : Alarm.Event) : Same link (link.setAlarm event) := ⟨rfl, rfl, rfl⟩

theorem same_feed (data : Bytes) : Same link (link.feed data) where
  held := rfl
  pending := Intake.feed_slot (P := fun slot => slot.question.map (·.generation) = link.pending?)
    (fun slot line h => (slot.hear_generation line).trans h) rfl data
  sent := rfl

theorem same_schedule (delay : Nat) (data : Bytes) : Same link (link.schedule delay data) := ⟨rfl, rfl, rfl⟩

theorem same_arrivals (arrivals : List Arrival) :
    Same link (arrivals.foldl (fun link arrival => link.feed arrival.data) link) := by
  induction arrivals generalizing link with
  | nil => exact .refl link
  | cons arrival rest ih => exact (link.same_feed arrival.data).trans (ih (link.feed arrival.data))

theorem same_advance (time : Nat) : Same link (link.advance time) :=
  Same.trans (b := { link with
      clock := max link.clock time
      arrivals := link.arrivals.dropWhile fun arrival => arrival.due ≤ time })
    ⟨rfl, rfl, rfl⟩ (same_arrivals _ _)

theorem same_reply (reply : Modem.Reply) : Same link (link.reply reply) := by
  unfold Link.reply
  split
  · exact link.same_feed _
  · exact link.same_schedule _ _

theorem same_obey (rule : Modem.Rule) : Same link (link.obey rule).1 := by
  show Same link (rule.replies.foldl Link.reply link)
  induction rule.replies generalizing link with
  | nil => exact .refl link
  | cons reply rest ih => exact (link.same_reply reply).trans (ih (link.reply reply))

/-! ### What is written -/

/-- How a run of writes over `parts` stands when `written` has been written. -/
def Transmission.Wrote (parts written : List Bytes) : Transmission → Prop
  | .complete => written = parts
  | .failed _ => written <+: parts
  | .stalled _ _ rest => written ++ rest = parts

/-- From `link` on, a run of writes over `parts` has led to `after`. -/
structure Transmitted (link : Link) (parts : List Bytes) (after : Link × Transmission) : Prop where
  held : after.1.held = link.held
  pending : after.1.pending? = link.pending?
  sent : ∃ written, after.1.sent = link.sent ++ written ∧ written.head? = parts.head? ∧
    after.2.Wrote parts written

theorem Transmitted.cons {link next : Link} {part : Bytes} {rest : List Bytes} {after : Link × Transmission}
    (hsame : Same { link with sent := link.sent ++ [part] } next) (h : Transmitted next rest after) :
    Transmitted link (part :: rest) after where
  held := h.held.trans hsame.held
  pending := h.pending.trans hsame.pending
  sent := by
    obtain ⟨written, hsent, -, hwrote⟩ := h.sent
    refine ⟨part :: written, ?_, rfl, ?_⟩
    · rw [hsent, hsame.sent, List.append_assoc, List.singleton_append]
    · cases hstate : after.2 with
      | complete => rw [hstate] at hwrote; exact congrArg (part :: ·) hwrote
      | failed fault => rw [hstate] at hwrote; exact (List.prefix_cons_inj part).mpr hwrote
      | stalled due rule rest' => rw [hstate] at hwrote; exact congrArg (part :: ·) hwrote

/-- A run of writes writes its parts in order, and the first of them in any case. -/
theorem transmit_transmitted (parts : List Bytes) : Transmitted link parts (link.transmit parts) := by
  induction parts generalizing link with
  | nil => exact ⟨rfl, rfl, [], by simp [transmit], rfl, rfl⟩
  | cons part rest ih =>
    unfold transmit
    simp only
    split
    · exact .cons (.refl _) (ih _)
    · rename_i rule rules hrule
      split
      · exact ⟨rfl, rfl, [part], rfl, rfl, rfl⟩
      · have hsame : Same { link with sent := link.sent ++ [part] }
            (obey { link with sent := link.sent ++ [part], rules } rule).1 := by
          have h := same_obey { link with sent := link.sent ++ [part], rules } rule
          exact ⟨h.held, h.pending, h.sent⟩
        rcases hobey : obey { link with sent := link.sent ++ [part], rules } rule with ⟨after, _ | fault⟩
        · rw [hobey] at hsame
          exact .cons hsame (ih _)
        · rw [hobey] at hsame
          exact ⟨hsame.held, hsame.pending, [part], hsame.sent, rfl, by simp [Transmission.Wrote]⟩

end Link

/-! ### Requests -/

namespace Dialogue

/-- The generation of the question that a request waits with. -/
def Hold.generation? : Hold → Option UInt32
  | .writing _ _ _ expectation => expectation.map (·.generation)
  | .listening generation _ => some generation
  | .pausing _ => none

def Hold.rest : Hold → List Bytes
  | .writing _ _ rest _ => rest
  | .listening .. | .pausing _ => []

def Request.parts : Request → List Bytes
  | .ask parts _ _ => parts
  | .send parts => parts
  | .pause _ | .clear => []

/-- The question in the slot, if there is one, is that of the request that waits. -/
def Hold.Owns (hold : Hold) (link : Link) : Prop :=
  ∀ generation, link.pending? = some generation → hold.generation? = some generation

/-- How a request that had `parts` to write stands when `written` has been written. -/
def Progress.Wrote (parts written : List Bytes) : Progress → Prop
  | .waiting hold => written ++ hold.rest = parts
  | .finished (.ok _) => written = parts
  | .finished (.error _) => written <+: parts

theorem Progress.Wrote.isPrefix {parts written : List Bytes} {progress : Progress} (h : progress.Wrote parts written) :
    written <+: parts := by
  rcases progress with hold | (cause | answer)
  · exact ⟨hold.rest, h⟩
  · exact h
  · exact (show written = parts from h) ▸ List.prefix_refl written

/-- Only a request that waits leaves a question in the slot, and only its own. -/
def Progress.Owns (link : Link) : Progress → Prop
  | .waiting hold => hold.Owns link
  | .finished _ => link.pending? = none

/-- From `link` on, a request that had `parts` to write has led to `after`. -/
structure Led (link : Link) (parts : List Bytes) (after : Link × Progress) : Prop where
  held : after.1.held = link.held
  owns : after.2.Owns after.1
  sent : ∃ written, after.1.sent = link.sent ++ written ∧ after.2.Wrote parts written

variable {link : Link}

theorem pending?_forget {generation : UInt32}
    (h : ∀ g, link.pending? = some g → generation = g) : (link.forget generation).pending? = none := by
  show ((link.intake.slot.forget generation).question.map (·.generation)) = none
  unfold Slot.forget
  split
  · rename_i question heq
    rw [if_pos (h question.generation (by simp [Link.pending?, heq])).symm]
    rfl
  · rename_i heq
    simp [heq]

theorem pending?_giveUp {expectation : Option Expectation}
    (h : ∀ g, link.pending? = some g → expectation.map (·.generation) = some g) :
    (giveUp link expectation).pending? = none := by
  cases expectation with
  | none => exact Link.pending?_eq_none h rfl
  | some expectation => exact pending?_forget fun g hg => by simpa using h g hg

/-- A look that finds the answer takes the question out of the slot; any other leaves it there. -/
theorem collect_question (slot : Slot) (generation : UInt32) :
    (slot.collect generation).1.question =
      if (slot.collect generation).2.isSome then none else slot.question := by
  unfold Slot.collect
  split
  · split <;> rfl
  · rfl

theorem look_question (slot : Slot) (generation : UInt32) :
    (slot.look generation).1.question = if (slot.look generation).2.isSome then none else slot.question := by
  have h := collect_question slot generation
  unfold Slot.look
  rcases hcollect : slot.collect generation with ⟨after, _ | answer⟩ <;> simpa [hcollect] using h

theorem lookAgain_question (slot : Slot) (generation : UInt32) :
    (slot.lookAgain generation).1.question =
      if (slot.lookAgain generation).2.isSome then none else slot.question := by
  unfold Slot.lookAgain
  cases slot.wakeUp with
  | some _ => exact collect_question { slot with wakeUp := none } generation
  | none => rfl

/-- A look at the slot of `link` has led to `after`. -/
structure Looked (link : Link) (after : Link × Option String) : Prop where
  held : after.1.held = link.held
  sent : after.1.sent = link.sent
  pending : after.1.pending? = if after.2.isSome then none else link.pending?

theorem looked_orSetAlarm {found : Slot × Option String}
    (h : found.1.question = if found.2.isSome then none else link.intake.slot.question) :
    Looked link (link.orSetAlarm found) := by
  obtain ⟨slot, _ | answer⟩ := found
  · exact ⟨rfl, rfl, congrArg (Option.map Slot.Question.generation) h⟩
  · exact ⟨rfl, rfl, congrArg (Option.map Slot.Question.generation) h⟩

theorem looked_look (link : Link) (generation : UInt32) : Looked link (link.look generation) :=
  looked_orSetAlarm (look_question _ _)

theorem looked_lookAgain (link : Link) (generation : UInt32) : Looked link (link.lookAgain generation) :=
  looked_orSetAlarm (lookAgain_question _ _)

theorem led_listen {expectation : Option Expectation}
    (h : ∀ g, link.pending? = some g → expectation.map (·.generation) = some g) :
    Led link [] (listen link expectation) := by
  cases expectation with
  | none => exact ⟨rfl, Link.pending?_eq_none h rfl, [], by simp [listen], rfl⟩
  | some expectation =>
    obtain ⟨generation, timeout⟩ := expectation
    obtain ⟨hheld, hsent, hpending⟩ := looked_look link generation
    rcases hlook : link.look generation with ⟨after, _ | answer⟩ <;>
      simp only [hlook, Option.isSome, Bool.false_eq_true, if_false, if_true] at hheld hsent hpending <;>
      simp only [listen, hlook]
    · exact ⟨hheld, fun g hg => h g (hpending ▸ hg), [], by simpa using hsent, rfl⟩
    · exact ⟨hheld, hpending, [], by simpa using hsent, rfl⟩

theorem giveUp_held (expectation : Option Expectation) : (giveUp link expectation).held = link.held := by
  cases expectation <;> rfl

theorem giveUp_sent (expectation : Option Expectation) : (giveUp link expectation).sent = link.sent := by
  cases expectation <;> rfl

theorem Led.append {next : Link} {parts written : List Bytes} {after : Link × Progress}
    (hheld : next.held = link.held) (hsent : next.sent = link.sent ++ written) (h : Led next parts after) :
    Led link (written ++ parts) after where
  held := h.held.trans hheld
  owns := h.owns
  sent := by
    obtain ⟨more, hmore, hwrote⟩ := h.sent
    refine ⟨written ++ more, by rw [hmore, hsent, List.append_assoc], ?_⟩
    obtain ⟨after, hold | (cause | answer)⟩ := after
    · show written ++ more ++ hold.rest = written ++ parts
      rw [List.append_assoc]
      exact congrArg (written ++ ·) hwrote
    · exact (List.prefix_append_right_inj written).mpr hwrote
    · exact congrArg (written ++ ·) hwrote

theorem led_proceed {expectation : Option Expectation} {parts : List Bytes} {after : Link × Link.Transmission}
    (h : ∀ g, link.pending? = some g → expectation.map (·.generation) = some g)
    (ht : Link.Transmitted link parts after) : Led link parts (proceed expectation after) := by
  obtain ⟨written, hsent, -, hwrote⟩ := ht.sent
  have hnext : ∀ g, after.1.pending? = some g → expectation.map (·.generation) = some g := fun g hg =>
    h g (ht.pending ▸ hg)
  obtain ⟨next, _ | fault | ⟨due, rule, rest⟩⟩ := after
  · -- All is written.
    obtain rfl : written = parts := hwrote
    exact List.append_nil written ▸ Led.append ht.held hsent (led_listen hnext)
  · exact ⟨(giveUp_held expectation).trans ht.held, pending?_giveUp hnext, written,
      (giveUp_sent expectation).trans hsent, hwrote⟩
  · exact ⟨ht.held, hnext, written, hsent, hwrote⟩

theorem led_refused (h : link.pending? = none) (parts : List Bytes) (cause : Failure Fault) :
    Led link parts (link, .finished (.error cause)) :=
  ⟨rfl, h, [], by simp, List.nil_prefix⟩

theorem ask_eq {expected : String} {after : Link} {generation : UInt32} (h : link.ask expected = .ok (after, generation)) :
    after.held = link.held ∧ after.sent = link.sent ∧ after.pending? = some generation := by
  unfold Link.ask Slot.ask at h
  split at h
  · rename_i slot g heq
    split at heq
    · cases heq
    · split at heq
      · cases heq
      · cases heq
        cases h
        exact ⟨rfl, rfl, rfl⟩
  · cases h

theorem ask_ne_busy (h : link.pending? = none) (expected : String) : link.ask expected ≠ .error .busy := by
  have hquestion : link.intake.slot.question = none := Option.map_eq_none_iff.mp h
  unfold Link.ask Slot.ask Slot.isWaiting
  rw [hquestion]
  by_cases hlong : Limits.expected < expected.utf8ByteSize <;> simp [hlong]

/-- The first visit of a request that finds the slot empty. -/
theorem led_start (h : link.pending? = none) (request : Request) : Led link request.parts (start link request) := by
  cases request with
  | ask parts expected timeout =>
    show Led link parts (start link (.ask parts expected timeout))
    rcases hask : link.ask expected with (_ | _) | ⟨after, generation⟩ <;> simp only [start, hask]
    · exact led_refused h parts .busy
    · exact led_refused h parts .commandTooLong
    · obtain ⟨hheld, hsent, hpending⟩ := ask_eq hask
      have hled : Led after parts (proceed (some ⟨generation, timeout⟩) (after.transmit parts)) :=
        led_proceed (fun g hg => hpending.symm.trans hg) (after.transmit_transmitted parts)
      have hnothing : after.sent = link.sent ++ [] := by simpa using hsent
      exact Led.append hheld hnothing hled
  | send parts => exact led_proceed (fun g hg => by simp [h] at hg) (link.transmit_transmitted parts)
  | pause duration => exact ⟨rfl, fun g hg => by simp [start, h] at hg, [], by simp [start], rfl⟩
  | clear => exact ⟨rfl, h, [], by simp [start, Link.clear], rfl⟩

theorem proceed_sent (expectation : Option Expectation) (after : Link × Link.Transmission) :
    (proceed expectation after).1.sent = after.1.sent := by
  obtain ⟨link, _ | fault | ⟨due, rule, rest⟩⟩ := after
  · cases expectation with
    | none => rfl
    | some expectation =>
      have hsent := (looked_look link expectation.generation).sent
      simp only [proceed, listen]
      rcases hlook : link.look expectation.generation with ⟨after, _ | answer⟩ <;> rw [hlook] at hsent <;> exact hsent
  · exact giveUp_sent expectation
  · rfl

/-- A question that fits is not refused by an empty slot: its first part is written at once. -/
theorem start_ask_sent (h : link.pending? = none) {expected : String}
    (hfits : expected.utf8ByteSize ≤ Limits.expected) (parts : List Bytes) (timeout : Nat) :
    ∃ written, (start link (.ask parts expected timeout)).1.sent = link.sent ++ written ∧
      written.head? = parts.head? ∧ (start link (.ask parts expected timeout)).2.Wrote parts written := by
  obtain ⟨-, -, written, hsent, hwrote⟩ := led_start h (.ask parts expected timeout)
  refine ⟨written, hsent, ?_, hwrote⟩
  have hquestion : link.intake.slot.question = none := Option.map_eq_none_iff.mp h
  obtain ⟨after, generation, hask⟩ : ∃ after generation, link.ask expected = .ok (after, generation) := by
    simp [Link.ask, Slot.ask, Slot.isWaiting, hquestion, Nat.not_lt.mpr hfits]
  obtain ⟨more, hmore, hhead, -⟩ := (after.transmit_transmitted parts).sent
  have hstart : (start link (.ask parts expected timeout)).1.sent = link.sent ++ more := by
    simp only [start, hask]
    rw [proceed_sent, hmore, (ask_eq hask).2.1]
  exact List.append_cancel_left (hsent.symm.trans hstart) ▸ hhead

theorem led_resume {hold : Hold} (h : hold.Owns link) : Led link hold.rest (resume link hold) := by
  cases hold with
  | writing due rule rest expectation =>
    show Led link rest (resume link (.writing due rule rest expectation))
    simp only [resume]
    split
    · -- The modem does what it held back, and the writes go on.
      have hobey := link.same_obey rule
      unfold Link.resumeTransmit
      rcases heq : link.obey rule with ⟨after, _ | fault⟩ <;> rw [heq] at hobey
      · have hled : Led after rest (proceed expectation (after.transmit rest)) :=
          led_proceed (fun g hg => h g (hobey.pending ▸ hg)) (after.transmit_transmitted rest)
        have hnothing : after.sent = link.sent ++ [] := by simpa using hobey.sent
        exact Led.append hobey.held hnothing hled
      · have hsent : (giveUp after expectation).sent = link.sent := (giveUp_sent expectation).trans hobey.sent
        exact ⟨(giveUp_held expectation).trans hobey.held,
          pending?_giveUp fun g hg => h g (hobey.pending ▸ hg), [], by simpa [proceed] using hsent,
          List.nil_prefix⟩
    · exact ⟨rfl, h, [], by simp, rfl⟩
  | listening generation deadline =>
    show Led link [] (resume link (.listening generation deadline))
    obtain ⟨hheld, hsent, hpending⟩ := looked_lookAgain link generation
    rcases hlook : link.lookAgain generation with ⟨after, _ | answer⟩ <;>
      simp only [hlook, Option.isSome, Bool.false_eq_true, if_false, if_true] at hheld hsent hpending <;>
      simp only [resume, hlook]
    · have howns : ∀ g, after.pending? = some g → generation = g := fun g hg =>
        Option.some.inj (h g (hpending.symm.trans hg))
      split
      · exact ⟨hheld, pending?_forget howns, [], by simpa [Link.forget, Link.withSlot] using hsent,
          List.nil_prefix⟩
      · exact ⟨hheld, fun g hg => congrArg some (howns g hg), [], by simpa using hsent, rfl⟩
    · exact ⟨hheld, hpending, [], by simpa using hsent, rfl⟩
  | pausing due =>
    have hnone : link.pending? = none := Link.pending?_eq_none h rfl
    show Led link [] (resume link (.pausing due))
    simp only [resume]
    split
    · exact ⟨rfl, hnone, [], by simp, rfl⟩
    · exact ⟨rfl, h, [], by simp, rfl⟩

theorem cancel_eq {hold : Hold} (h : hold.Owns link) :
    (cancel link hold).held = link.held ∧ (cancel link hold).sent = link.sent ∧
      (cancel link hold).pending? = none := by
  cases hold with
  | writing due rule rest expectation => exact ⟨giveUp_held expectation, giveUp_sent expectation, pending?_giveUp h⟩
  | listening generation deadline =>
    exact ⟨rfl, rfl, pending?_forget fun g hg => Option.some.inj (h g hg)⟩
  | pausing due => exact ⟨rfl, rfl, Link.pending?_eq_none h rfl⟩

end Dialogue
end SensorLink
