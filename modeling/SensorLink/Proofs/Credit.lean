import SensorLink.Proofs.Exclusive
import SensorLink.Proofs.Hearing

/-! Which line a command is credited with. Questions have numbers, but lines do not: a question takes the first line
    that fits and comes while it waits, whichever command the modem sent it in answer to. -/

namespace SensorLink

namespace Log

/-- Calls of a client, and the lines that the modem sends meanwhile. -/
inductive Event where
  | sendCommand (text expected : String) (timeout : Nat)
  | sendRaw (data : Bytes) (expected : String) (timeout : Nat)
  | step (i : Nat)
  | drop (i : Nat)
  | advance (time : Nat)
  /-- A line that the modem sends in answer to the question of this number. -/
  | line (answers : Nat) (line : Bytes)

def Event.move : Event → Crowd.Move
  | .sendCommand text expected timeout => .start (.sendCommand text expected timeout)
  | .sendRaw data expected timeout => .start (.sendRaw data expected timeout)
  | .step i => .step i
  | .drop i => .drop i
  | .advance time => .advance time
  | .line _ data => .start (.feed (data ++ Dialogue.lineEnd))

/-- A question that a line has answered. -/
structure Credit where
  question : Nat
  /-- The question that the modem sent the line in answer to. -/
  answers : Nat
  answer : String
  deriving DecidableEq

/-- An answer that a call has returned. -/
structure Return where
  task : Nat
  question : Nat
  answer : String
  deriving DecidableEq

/-- The credit of question `number`, if it waited before and has its answer after. -/
def credit? (number answers : Nat) : Option Slot.Question → Option Slot.Question → Option Credit
  | some ⟨_, _, none⟩, some ⟨_, _, some answer⟩ => some ⟨number, answers, answer⟩
  | _, _ => none

def Event.credit? (number : Nat) (before after : Link) : Event → Option Credit
  | .line answers _ => Log.credit? number answers before.intake.slot.question after.intake.slot.question
  | _ => none

def text? : Task → Option String
  | .finished (.text answer) => some answer
  | _ => none

/-- The answer to question `number` with which a step has finished a call. -/
def Event.return? (number : Nat) (before after : Crowd) : Event → Option Return
  | .step i =>
    if ((before.task? i).bind Task.stage?).isSome then ((after.task? i).bind text?).map fun answer => ⟨i, number, answer⟩
    else none
  | _ => none

end Log

/-- A run of calls and lines. -/
structure Log where
  crowd : Crowd
  /-- How many questions have been put. Their generations wrap, this does not. -/
  count : Nat := 0
  credits : List Log.Credit := []
  returns : List Log.Return := []

namespace Log

/-- The generation of the latest question. -/
def generation (log : Log) : UInt32 := log.crowd.node.link.intake.slot.generation

/-- How many questions have been put when the link has become `link`: one more if the generation has moved on. -/
def countAt (log : Log) (link : Link) : Nat :=
  if link.intake.slot.generation = log.generation then log.count else log.count + 1

def next (log : Log) (event : Event) : Log :=
  let after := log.crowd.next event.move
  { crowd := after
    count := log.countAt after.node.link
    credits := log.credits ++ (event.credit? log.count log.crowd.node.link after.node.link).toList
    returns := log.returns ++ (event.return? log.count log.crowd after).toList }

def run (log : Log) (events : List Event) : Log := events.foldl next log

/-- A node that nobody has used yet. Its modem takes writes by its rules, and all that it sends are the lines. -/
def fresh (node : Node) (rules : List Modem.Rule) : Log := { crowd := { node := { node with link := { rules } } } }

def question? (log : Log) : Option Slot.Question := log.crowd.node.link.intake.slot.question

/-- Question `number` waits, and takes a line: it is the first that fits. -/
def Takes (log : Log) (number : Nat) (line : Bytes) (answer : String) : Prop :=
  number = log.count ∧ ∃ generation expected, log.question? = some ⟨generation, expected, none⟩ ∧
    Intake.firstAnswer? expected (LineSplit.events (line ++ Dialogue.lineEnd)) = some answer

/-! ### Tasks that ask -/

/-- A task of a call, when the latest question is of this generation. -/
def Asks (generation : UInt32) : Task → Prop
  | .finished _ | .asking (.ask ..) .text | .parked (.modem (.ask ..) .text) | .checking (.modem (.ask ..) .text) => True
  | .parked (.request hold .text) | .checking (.request hold .text) => hold.Quiet ∧ hold.generation? = some generation
  | _ => False

theorem asks_of_outside {task : Task} {generation generation' : UInt32} (h : Asks generation task)
    (hstage : task.stage? = none) : Asks generation' task := by
  unfold Asks at h ⊢
  split at h
  · trivial
  · cases hstage
  · trivial
  · trivial
  · cases hstage
  · cases hstage
  · exact h.elim

/-! ### One event -/

/-- Every answer in the slot is credited, a question that waits has no credit yet, and every answer that a call has
    returned is credited to its question. -/
structure Sound (log : Log) : Prop where
  exclusive : log.crowd.Exclusive
  quiet : log.crowd.node.link.Quiet
  tasks : ∀ {i task}, log.crowd.task? i = some task → Asks log.generation task
  last : ∀ {question}, log.question? = some question → question.generation = log.generation
  waiting : ∀ {generation expected}, log.question? = some ⟨generation, expected, none⟩ →
    ∀ credit ∈ log.credits, credit.question < log.count
  answered : ∀ {generation expected answer}, log.question? = some ⟨generation, expected, some answer⟩ →
    ∃ credit ∈ log.credits, credit.question = log.count ∧ credit.answer = answer
  counted : ∀ credit ∈ log.credits, credit.question ≤ log.count
  once : log.credits.Pairwise fun a b => a.question < b.question
  returned : ∀ r ∈ log.returns, ∃ credit ∈ log.credits, credit.question = r.question ∧ credit.answer = r.answer
  logged : ∀ {i answer}, log.crowd.task? i = some (.finished (.text answer)) →
    ∃ r ∈ log.returns, r.task = i ∧ r.answer = answer

variable {log : Log}

theorem Event.move_isOrderly (event : Event) : event.move.IsOrderly := by
  cases event <;> simp [Event.move, Crowd.Move.IsOrderly]

/-- What may have become of the question when no line has come: it is the same, it is gone, or it is a new one. -/
inductive Kept (log : Log) (link : Link) : Prop where
  | same (generation : link.intake.slot.generation = log.generation) (question : link.intake.slot.question = log.question?)
  | gone (question : link.intake.slot.question = none)
  | asked (generation : link.intake.slot.generation = log.generation + 1) (expected : String)
      (question : link.intake.slot.question = some ⟨link.intake.slot.generation, expected, none⟩)

theorem countAt_same {link : Link} (h : link.intake.slot.generation = log.generation) : log.countAt link = log.count :=
  if_pos h

theorem countAt_asked {link : Link} (h : link.intake.slot.generation = log.generation + 1) :
    log.countAt link = log.count + 1 :=
  if_neg (by simp [h])

theorem count_le_countAt (log : Log) (link : Link) : log.count ≤ log.countAt link := by
  unfold countAt
  split
  · exact le_rfl
  · exact Nat.le_succ _

/-- A move that brings no line, and what it returns. -/
theorem Sound.kept (h : log.Sound) {crowd : Crowd} {returns : List Return} (hkept : Kept log crowd.node.link)
    (hexclusive : crowd.Exclusive) (hquiet : crowd.node.link.Quiet)
    (htasks : ∀ {i task}, crowd.task? i = some task → Asks crowd.node.link.intake.slot.generation task)
    (hreturned : ∀ r ∈ returns, ∃ credit ∈ log.credits, credit.question = r.question ∧ credit.answer = r.answer)
    (hlogged : ∀ {i answer}, crowd.task? i = some (.finished (.text answer)) →
      ∃ r ∈ log.returns ++ returns, r.task = i ∧ r.answer = answer) :
    Sound ⟨crowd, log.countAt crowd.node.link, log.credits, log.returns ++ returns⟩ where
  exclusive := hexclusive
  quiet := hquiet
  tasks := htasks
  last {question} hquestion := by
    cases hkept with
    | same hgeneration hsame => exact (h.last (hsame.symm.trans hquestion)).trans hgeneration.symm
    | gone hnone => exact absurd (hnone.symm.trans hquestion) (by simp)
    | asked _ expected hasked => cases hasked.symm.trans hquestion; rfl
  waiting {generation expected} hquestion credit hcredit := by
    cases hkept with
    | same hgeneration hsame =>
      rw [countAt_same hgeneration]
      exact h.waiting (hsame.symm.trans hquestion) credit hcredit
    | gone hnone => exact absurd (hnone.symm.trans hquestion) (by simp)
    | asked hgeneration expected' hasked =>
      rw [countAt_asked hgeneration]
      exact Nat.lt_succ_of_le (h.counted credit hcredit)
  answered {generation expected answer} hquestion := by
    cases hkept with
    | same hgeneration hsame =>
      rw [countAt_same hgeneration]
      exact h.answered (hsame.symm.trans hquestion)
    | gone hnone => exact absurd (hnone.symm.trans hquestion) (by simp)
    | asked _ expected' hasked => cases hasked.symm.trans hquestion
  counted credit hcredit := (h.counted credit hcredit).trans (count_le_countAt _ _)
  once := h.once
  returned r hr := (List.mem_append.mp hr).elim (h.returned r) (hreturned r)
  logged := hlogged

theorem sound_fresh (node : Node) {rules : List Modem.Rule} (hrules : ∀ rule ∈ rules, rule.replies = []) :
    (fresh node rules).Sound where
  exclusive := Crowd.exclusive_fresh rfl
  quiet := ⟨rfl, rfl, hrules⟩
  tasks h := by simp [fresh, Crowd.task?] at h
  last h := by cases h
  waiting h := by cases h
  answered h := by cases h
  counted := by simp [fresh]
  once := by simp [fresh]
  returned := by simp [fresh]
  logged h := by simp [fresh, Crowd.task?] at h

theorem sound_call {event : Event} {call : Call} {parts : List Bytes} {expected : String} {timeout : Nat}
    (h : log.Sound) (hevent : log.next event = ⟨log.crowd.next (.start call), log.countAt (log.crowd.next (.start call)).node.link,
      log.credits ++ [], log.returns ++ []⟩)
    (hcall : call.start log.crowd.node = (log.crowd.node, .talk (.ask parts expected timeout) .text))
    (horderly : ∀ expected, call ≠ .ask expected) : (log.next event).Sound := by
  have hlink : (log.crowd.next (.start call)).node = log.crowd.node := congrArg Prod.fst hcall
  have htask {i} : (log.crowd.next (.start call)).task? i =
      if i = log.crowd.tasks.length then some (.talk (.ask parts expected timeout) .text) else log.crowd.task? i := by
    rw [Crowd.task?_start, hcall]
  rw [hevent, List.append_nil]
  refine h.kept (.same (by rw [hlink]; rfl) (by rw [hlink]; rfl)) (Crowd.exclusive_start h.exclusive horderly)
    (hlink ▸ h.quiet) (fun {i task} hi => ?_) (by simp) fun {i answer} hi => ?_
  · rw [htask] at hi
    rw [hlink]
    split at hi
    · cases hi
      trivial
    · exact h.tasks hi
  · rw [htask] at hi
    rw [List.append_nil]
    split at hi
    · cases hi
    · exact h.logged hi

theorem sound_advance (h : log.Sound) (time : Nat) : (log.next (.advance time)).Sound := by
  have hlink : (log.crowd.next (.advance time)).node.link =
      { log.crowd.node.link with clock := max log.crowd.node.link.clock time } := by
    show log.crowd.node.link.advance time = _
    simp [Link.advance, h.quiet.arrivals]
  show Sound ⟨log.crowd.next (.advance time), log.countAt (log.crowd.next (.advance time)).node.link, log.credits ++ [],
    log.returns ++ []⟩
  rw [List.append_nil]
  refine h.kept (.same (by rw [hlink]; rfl) (by rw [hlink]; rfl)) (Crowd.exclusive_advance time h.exclusive)
    (hlink ▸ ⟨h.quiet.buffer, h.quiet.arrivals, h.quiet.rules⟩) (fun {i task} hi => ?_) (by simp) fun hi => ?_
  · rw [hlink]
    exact h.tasks hi
  · rw [List.append_nil]
    exact h.logged hi

section
variable {i : Nat} {task : Task}

theorem asks_set {node : Node} {put : Option Task} {generation : UInt32} (h : log.Sound)
    (htask : log.crowd.task? i = some task) (hstage : task.stage?.isSome)
    (hput : ∀ {task}, put = some task → Asks generation task) {j : Nat} {other : Task}
    (hother : Crowd.task? ⟨node, log.crowd.tasks.set i put⟩ j = some other) : Asks generation other := by
  rw [Crowd.task?_set htask] at hother
  split at hother
  · exact hput hother
  · rename_i hne
    exact asks_of_outside (h.tasks hother) (h.exclusive.allOutside htask hstage j (Ne.symm hne) other hother)

theorem logged_set {node : Node} {put : Option Task} {returns : List Return} (h : log.Sound)
    (htask : log.crowd.task? i = some task)
    (hput : ∀ {answer}, put = some (.finished (.text answer)) →
      ∃ r ∈ log.returns ++ returns, r.task = i ∧ r.answer = answer) {j : Nat} {answer : String}
    (hj : Crowd.task? ⟨node, log.crowd.tasks.set i put⟩ j = some (.finished (.text answer))) :
    ∃ r ∈ log.returns ++ returns, r.task = j ∧ r.answer = answer := by
  rw [Crowd.task?_set htask] at hj
  split at hj
  · rename_i heq
    exact heq ▸ hput hj
  · obtain ⟨r, hr, hreturn⟩ := h.logged hj
    exact ⟨r, List.mem_append_left _ hr, hreturn⟩

theorem drop_quiet {node : Node} (h : node.link.Quiet) (task : Task) : (node.drop task).link.Quiet ∧
    (node.drop task).link.intake.slot.generation = node.link.intake.slot.generation := by
  have cancelled (hold : Dialogue.Hold) : (Dialogue.cancel node.link hold).Quiet ∧
      (Dialogue.cancel node.link hold).intake.slot.generation = node.link.intake.slot.generation := by
    cases hold with
    | writing due rule rest expectation =>
      cases expectation with
      | none => exact ⟨h, rfl⟩
      | some expectation => exact ⟨Dialogue.quiet_forget h _, Dialogue.forget_count _ _⟩
    | listening generation deadline => exact ⟨Dialogue.quiet_forget h _, Dialogue.forget_count _ _⟩
    | pausing due => exact ⟨h, rfl⟩
  have released {link : Link} (h : link.Quiet) : ({ node with link } : Node).release.link.Quiet :=
    ⟨h.buffer, h.arrivals, h.rules⟩
  unfold Node.drop
  split
  · exact ⟨released (cancelled _).1, (cancelled _).2⟩
  · exact ⟨released (cancelled _).1, (cancelled _).2⟩
  · exact ⟨released h, rfl⟩
  · exact ⟨h, rfl⟩

theorem sound_drop (h : log.Sound) (i : Nat) : (log.next (.drop i)).Sound := by
  show Sound ⟨log.crowd.next (.drop i), log.countAt (log.crowd.next (.drop i)).node.link, log.credits ++ [],
    log.returns ++ []⟩
  have hexclusive := Crowd.exclusive_drop h.exclusive i
  rw [List.append_nil]
  rcases htask : log.crowd.task? i with _ | task
  · rw [Crowd.next_drop_none htask] at hexclusive ⊢
    exact h.kept (.same rfl rfl) hexclusive h.quiet h.tasks (by simp) fun hi => by
      rw [List.append_nil]
      exact h.logged hi
  rw [Crowd.next_drop htask] at hexclusive ⊢
  have hlogged {j answer} (hj : Crowd.task? ⟨log.crowd.node.drop task, log.crowd.tasks.set i none⟩ j =
      some (.finished (.text answer))) : ∃ r ∈ log.returns ++ [], r.task = j ∧ r.answer = answer :=
    logged_set h htask (by simp) hj
  rcases hstage : task.stage? with _ | stage
  · have hnode : log.crowd.node.drop task = log.crowd.node := drop_outside hstage
    refine h.kept (.same (by rw [hnode]; rfl) (by rw [hnode]; rfl)) hexclusive (by rw [hnode]; exact h.quiet)
      (fun {j other} hother => ?_) (by simp) hlogged
    rw [hnode] at hother ⊢
    rw [Crowd.task?_set htask] at hother
    split at hother
    · cases hother
    · exact h.tasks hother
  · have hsome : task.stage?.isSome := by simp [hstage]
    obtain ⟨-, -, hempty⟩ := drop_held hstage (h.exclusive.owns htask hsome)
    obtain ⟨hquiet, -⟩ := drop_quiet h.quiet task
    exact h.kept (.gone (Option.map_eq_none_iff.mp hempty)) hexclusive hquiet
      (asks_set h htask hsome (by simp)) (by simp) hlogged

/-- A visit of the task that holds the modem has led to a link and its request to a progress. -/
structure Visited (log : Log) (link : Link) (progress : Dialogue.Progress) : Prop where
  quiet : link.Quiet
  kept : Kept log link
  outcome : match progress with
    | .waiting hold => hold.Quiet ∧ hold.generation? = some link.intake.slot.generation
    | .finished (.ok answer) => ∃ expected, log.question? = some ⟨log.generation, expected, some answer⟩
    | .finished (.error _) => True

theorem visited_resume {hold : Dialogue.Hold} (h : log.Sound) (hhold : hold.Quiet)
    (hnumber : hold.generation? = some log.generation) :
    Visited log (Dialogue.resume log.crowd.node.link hold).1 (Dialogue.resume log.crowd.node.link hold).2 := by
  obtain ⟨hquiet, hcount, houtcome⟩ := Dialogue.heard_resume h.quiet (fun _ => h.last) hhold hnumber
  rcases hresume : Dialogue.resume log.crowd.node.link hold with ⟨link, hold' | (cause | answer)⟩ <;>
    rw [hresume] at hquiet hcount houtcome <;> simp only at hquiet hcount houtcome
  · exact ⟨hquiet, .same hcount houtcome.1, houtcome.2.1, houtcome.2.2.trans (by rw [hcount])⟩
  · exact ⟨hquiet, .gone houtcome, trivial⟩
  · exact ⟨hquiet, .gone houtcome.1, houtcome.2⟩

theorem visited_start (h : log.Sound) (hempty : log.question? = none) (parts : List Bytes) (expected : String)
    (timeout : Nat) : Visited log (Dialogue.start log.crowd.node.link (.ask parts expected timeout)).1
      (Dialogue.start log.crowd.node.link (.ask parts expected timeout)).2 := by
  obtain ⟨hquiet, houtcome⟩ := Dialogue.heard_start h.quiet hempty parts expected timeout
  rcases hstart : Dialogue.start log.crowd.node.link (.ask parts expected timeout) with
    ⟨link, hold | result⟩ <;> rw [hstart] at hquiet houtcome <;> simp only at hquiet houtcome
  · obtain ⟨hcount, hquestion, hhold, hnumber⟩ := houtcome
    exact ⟨hquiet, .asked hcount expected hquestion, hhold, hnumber⟩
  · obtain ⟨hquestion, cause, rfl⟩ := houtcome
    exact ⟨hquiet, .gone hquestion, trivial⟩

theorem step_visited (h : log.Sound) (htask : log.crowd.task? i = some task) (hstage : task.stage?.isSome) :
    ∃ link progress, log.crowd.node.step task.awaken = log.crowd.node.heed .text (link, progress) ∧
      Visited log link progress := by
  have hasks := h.tasks htask
  unfold Asks at hasks
  split at hasks
  · cases hstage
  · rename_i parts expected timeout
    exact ⟨_, _, rfl, visited_start h (Option.map_eq_none_iff.mp (h.exclusive.empty_of_asking htask)) _ _ _⟩
  · cases hstage
  · cases hstage
  · exact ⟨_, _, rfl, visited_resume h hasks.1 hasks.2⟩
  · exact ⟨_, _, rfl, visited_resume h hasks.1 hasks.2⟩
  · exact hasks.elim

theorem step_waiting {node : Node} {generation : UInt32} (hasks : Asks generation task) (hstage : task.stage? = none)
    (hquiet : node.link.Quiet) : (node.step task.awaken).1.link.intake = node.link.intake ∧
      (node.step task.awaken).1.link.Quiet ∧ Asks generation (node.step task.awaken).2 ∧
      ∀ answer, (node.step task.awaken).2 = .finished (.text answer) → task = .finished (.text answer) := by
  have waits (parts : List Bytes) (expected : String) (timeout : Nat) :
      let after := node.check (.modem (.ask parts expected timeout) .text)
      after.1.link.intake = node.link.intake ∧ after.1.link.Quiet ∧ Asks generation after.2 ∧
        ∀ answer, after.2 ≠ .finished (.text answer) := by
    simp only [Node.check]
    split
    · exact ⟨rfl, ⟨hquiet.buffer, hquiet.arrivals, hquiet.rules⟩, trivial, by simp⟩
    · exact ⟨rfl, ⟨hquiet.buffer, hquiet.arrivals, hquiet.rules⟩, trivial, by simp⟩
  unfold Asks at hasks
  split at hasks
  · exact ⟨rfl, hquiet, trivial, fun _ h => h⟩
  · cases hstage
  · obtain ⟨hintake, hquiet, hafter, hne⟩ := waits _ _ _
    exact ⟨hintake, hquiet, hafter, fun answer h => absurd h (hne answer)⟩
  · obtain ⟨hintake, hquiet, hafter, hne⟩ := waits _ _ _
    exact ⟨hintake, hquiet, hafter, fun answer h => absurd h (hne answer)⟩
  · cases hstage
  · cases hstage
  · exact hasks.elim

theorem return?_outside {after : Crowd} (h : (log.crowd.task? i).bind Task.stage? = none) :
    (Event.step i).return? log.count log.crowd after = none := by
  simp [Event.return?, h]

theorem sound_step_outside (h : log.Sound) (htask : log.crowd.task? i = some task) (hstage : task.stage? = none) :
    (log.next (.step i)).Sound := by
  obtain ⟨hintake, hquiet, hasks, hreturns⟩ := step_waiting (h.tasks htask) hstage h.quiet
  have hexclusive := Crowd.exclusive_step h.exclusive i
  show Sound ⟨log.crowd.next (.step i), log.countAt (log.crowd.next (.step i)).node.link, log.credits ++ [],
    log.returns ++ ((Event.step i).return? log.count log.crowd (log.crowd.next (.step i))).toList⟩
  rw [return?_outside (by simp [htask, hstage]), List.append_nil]
  rw [Crowd.next_step htask] at hexclusive ⊢
  refine h.kept (.same (by rw [hintake]; rfl) (by rw [hintake]; rfl)) hexclusive hquiet (fun {j other} hother => ?_)
    (by simp) (logged_set h htask fun {answer} hanswer => ?_)
  · rw [hintake]
    rw [Crowd.task?_set htask] at hother
    split at hother
    · cases hother
      exact hasks
    · exact h.tasks hother
  · obtain ⟨r, hr, hreturn⟩ := h.logged ((hreturns answer (Option.some.inj hanswer)) ▸ htask)
    exact ⟨r, List.mem_append_left _ hr, hreturn⟩

theorem sound_step_inside (h : log.Sound) (htask : log.crowd.task? i = some task) (hstage : task.stage?.isSome) :
    (log.next (.step i)).Sound := by
  obtain ⟨link, progress, hstep, hquiet, hkept, houtcome⟩ := step_visited h htask hstage
  have hexclusive := Crowd.exclusive_step h.exclusive i
  have hafter : (log.crowd.next (.step i)).task? i = some (log.crowd.node.step task.awaken).2 :=
    (Crowd.task?_step htask).trans (if_pos rfl)
  obtain ⟨stage, hsome⟩ := Option.isSome_iff_exists.mp hstage
  have hreturn : (Event.step i).return? log.count log.crowd (log.crowd.next (.step i)) =
      (text? (log.crowd.node.step task.awaken).2).map fun answer => ⟨i, log.count, answer⟩ := by
    simp [Event.return?, htask, hafter, hsome]
  show Sound ⟨log.crowd.next (.step i), log.countAt (log.crowd.next (.step i)).node.link, log.credits ++ [],
    log.returns ++ ((Event.step i).return? log.count log.crowd (log.crowd.next (.step i))).toList⟩
  rw [hreturn, List.append_nil]
  rw [Crowd.next_step htask] at hexclusive ⊢
  rw [hstep] at hexclusive ⊢
  have hreleased : ({ log.crowd.node with link } : Node).release.link.Quiet :=
    ⟨hquiet.buffer, hquiet.arrivals, hquiet.rules⟩
  have hkept' : Kept log ({ log.crowd.node with link } : Node).release.link := by
    cases hkept with
    | same generation question => exact .same generation question
    | gone question => exact .gone question
    | asked generation expected question => exact .asked generation expected question
  rcases progress with hold | (cause | answer)
  · exact h.kept hkept hexclusive hquiet (asks_set h htask hstage (by rintro _ ⟨⟩; exact houtcome)) (by simp [Node.heed, text?])
      (logged_set h htask (by rintro _ ⟨⟩))
  · exact h.kept hkept' hexclusive hreleased (asks_set h htask hstage (by rintro _ ⟨⟩; trivial))
      (by simp [Node.heed, Node.after, Stage.next, text?]) (logged_set h htask (by rintro _ ⟨⟩))
  · -- The answer was in the slot, so it is credited.
    obtain ⟨expected, hanswer⟩ := houtcome
    exact h.kept hkept' hexclusive hreleased (asks_set h htask hstage (by rintro _ ⟨⟩; trivial))
      (by simpa [Node.heed, Node.after, Stage.next, text?] using h.answered hanswer)
      (logged_set h htask (by rintro _ ⟨⟩; simp [Node.heed, Node.after, Stage.next, text?]))

theorem sound_step (h : log.Sound) (i : Nat) : (log.next (.step i)).Sound := by
  rcases htask : log.crowd.task? i with _ | task
  · show Sound ⟨log.crowd.next (.step i), log.countAt (log.crowd.next (.step i)).node.link, log.credits ++ [],
      log.returns ++ ((Event.step i).return? log.count log.crowd (log.crowd.next (.step i))).toList⟩
    rw [return?_outside (by simp [htask]), List.append_nil, Crowd.next_step_none htask]
    exact h.kept (.same rfl rfl) h.exclusive h.quiet h.tasks (by simp) fun hi => by
      rw [Option.toList_none, List.append_nil]
      exact h.logged hi
  · rcases hstage : task.stage? with _ | stage
    · exact sound_step_outside h htask hstage
    · exact sound_step_inside h htask (by simp [hstage])

end

/-! ### Lines -/

/-- The line that a whole line leaves in the slot, and nowhere else. -/
theorem feed_line {link : Link} (h : link.Quiet) (line : Bytes) :
    (link.feed (line ++ Dialogue.lineEnd)).Quiet ∧
      (link.feed (line ++ Dialogue.lineEnd)).intake.slot.generation = link.intake.slot.generation ∧
      (link.feed (line ++ Dialogue.lineEnd)).intake.slot.question = link.intake.slot.question.map fun question =>
        question.offer (Intake.firstAnswer? question.expected (LineSplit.events (line ++ Dialogue.lineEnd))) := by
  have hfound := LineSplit.found_eq link.intake (line ++ Dialogue.lineEnd)
  rw [h.buffer, LineSplit.pushAll_eq] at hfound
  have hbuffer : (link.intake.feed (line ++ Dialogue.lineEnd)).buffer = {} :=
    (congrArg Prod.fst hfound).symm.trans (LineSplit.buffer_line line)
  refine ⟨⟨hbuffer, h.arrivals, h.rules⟩, Intake.feed_number _ _, ?_⟩
  have hevents : LineSplit.events (line ++ Dialogue.lineEnd) = LineSplit.found link.intake (line ++ Dialogue.lineEnd) :=
    congrArg Prod.snd hfound
  rw [hevents]
  exact Intake.feed_question _ _

/-- The question that waited, if one did, is the one that waits or is answered when a line has come. -/
theorem question_before_line {link : Link} (h : link.Quiet) (line : Bytes) {generation : UInt32}
    {expected : String} {answer : Option String} (hquestion : (link.feed (line ++ Dialogue.lineEnd)).intake.slot.question =
      some ⟨generation, expected, answer⟩) : ∃ before, link.intake.slot.question = some ⟨generation, expected, before⟩ ∧
        answer = before.or (Intake.firstAnswer? expected (LineSplit.events (line ++ Dialogue.lineEnd))) := by
  rw [(feed_line h line).2.2] at hquestion
  obtain ⟨⟨number', expected', before⟩, hbefore, hoffer⟩ := Option.map_eq_some_iff.mp hquestion
  cases hoffer
  exact ⟨before, hbefore, rfl⟩

theorem mem_credit? (h : log.Sound) {answers : Nat} {line : Bytes} {credit : Credit} :
    (Event.line answers line).credit? log.count log.crowd.node.link
        (log.crowd.next (Event.line answers line).move).node.link = some credit ↔
      credit.answers = answers ∧ log.Takes credit.question line credit.answer := by
  obtain ⟨-, -, hquestion⟩ := feed_line h.quiet line
  show Log.credit? log.count answers log.question? (log.crowd.node.link.feed (line ++ Dialogue.lineEnd)).intake.slot.question =
    some credit ↔ _
  rw [hquestion, Takes]
  show Log.credit? log.count answers log.question? (log.question?.map _) = some credit ↔ _
  obtain ⟨number, answers', answer⟩ := credit
  rcases log.question? with _ | ⟨generation, expected, _ | answer'⟩
  · simp [credit?]
  · rcases hfirst : Intake.firstAnswer? expected (LineSplit.events (line ++ Dialogue.lineEnd)) with _ | first
    · simp [credit?, Slot.Question.offer, hfirst]
    · simp only [Option.map_some, Slot.Question.offer, hfirst, Option.none_or, credit?, Option.some.injEq,
        Credit.mk.injEq, Slot.Question.mk.injEq, and_true]
      constructor
      · rintro ⟨rfl, rfl, rfl⟩
        exact ⟨rfl, rfl, generation, expected, ⟨rfl, rfl⟩, hfirst⟩
      · rintro ⟨rfl, rfl, generation', expected', ⟨rfl, rfl⟩, hanswer⟩
        exact ⟨rfl, rfl, Option.some.inj (hfirst.symm.trans hanswer)⟩
  · simp [credit?]

theorem sound_line (h : log.Sound) (answers : Nat) (line : Bytes) : (log.next (.line answers line)).Sound := by
  obtain ⟨hquiet, hcount, -⟩ := feed_line h.quiet line
  have hcredit := @mem_credit? log h answers line
  have htask {i} : (log.crowd.next (Event.line answers line).move).task? i =
      if i = log.crowd.tasks.length then some (.finished .done) else log.crowd.task? i := Crowd.task?_start _
  show Sound ⟨log.crowd.next (Event.line answers line).move,
    log.countAt (log.crowd.next (Event.line answers line).move).node.link, log.credits ++ ((Event.line answers line).credit?
      log.count log.crowd.node.link (log.crowd.next (Event.line answers line).move).node.link).toList, log.returns ++ []⟩
  have hsame : log.countAt (log.crowd.next (Event.line answers line).move).node.link = log.count := countAt_same hcount
  rw [hsame]
  have hmem {credit} : credit ∈ log.credits ++ ((Event.line answers line).credit? log.count log.crowd.node.link
      (log.crowd.next (Event.line answers line).move).node.link).toList ↔
        credit ∈ log.credits ∨ credit.answers = answers ∧ log.Takes credit.question line credit.answer := by
    rw [List.mem_append, Option.mem_toList, hcredit]
  refine ⟨Crowd.exclusive_next h.exclusive (Event.move_isOrderly (.line answers line)), hquiet, fun {i task} hi => ?_,
    fun {question} hq => ?_, fun {generation expected} hq credit hc => ?_, fun {generation expected answer} hq => ?_,
    fun credit hc => ?_, ?_, fun r hr => ?_, fun {i answer} hi => ?_⟩
  · show Asks (log.crowd.node.link.feed (line ++ Dialogue.lineEnd)).intake.slot.generation task
    rw [hcount]
    rw [htask] at hi
    split at hi
    · cases hi
      trivial
    · exact h.tasks hi
  · obtain ⟨before, hbefore, -⟩ := question_before_line h.quiet line hq
    exact (h.last hbefore).trans hcount.symm
  · obtain ⟨before, hbefore, hanswer⟩ := question_before_line h.quiet line hq
    obtain ⟨rfl, hfirst⟩ := Option.or_eq_none_iff.mp hanswer.symm
    rcases hmem.mp hc with hc | ⟨-, -, generation', expected', htaken, hfits⟩
    · exact h.waiting hbefore credit hc
    · cases hbefore.symm.trans htaken
      exact absurd (hfirst.symm.trans hfits) (by simp)
  · obtain ⟨before, hbefore, hanswer⟩ := question_before_line h.quiet line hq
    rcases before with _ | before
    · exact ⟨⟨log.count, answers, answer⟩, hmem.mpr (.inr ⟨rfl, rfl, generation, expected, hbefore, hanswer.symm⟩), rfl, rfl⟩
    · obtain rfl : answer = before := Option.some.inj hanswer
      obtain ⟨credit, hc, hcredited⟩ := h.answered hbefore
      exact ⟨credit, hmem.mpr (.inl hc), hcredited⟩
  · rcases hmem.mp hc with hc | ⟨-, hlatest, -⟩
    · exact h.counted credit hc
    · exact hlatest.le
  · refine List.pairwise_append.mpr ⟨h.once, ?_, fun a ha b hb => ?_⟩
    · cases (Event.line answers line).credit? _ _ _ <;> simp
    · obtain ⟨-, hlatest, generation, expected, htaken, -⟩ := hcredit.mp (Option.mem_toList.mp hb)
      exact hlatest ▸ h.waiting htaken a ha
  · rw [List.append_nil] at hr
    obtain ⟨credit, hc, hcredited⟩ := h.returned r hr
    exact ⟨credit, hmem.mpr (.inl hc), hcredited⟩
  · rw [htask] at hi
    rw [List.append_nil]
    split at hi
    · cases hi
    · exact h.logged hi

/-! ### Runs -/

theorem sound_next (h : log.Sound) (event : Event) : (log.next event).Sound := by
  cases event with
  | sendCommand text expected timeout => exact sound_call h rfl rfl (by simp)
  | sendRaw data expected timeout => exact sound_call h rfl rfl (by simp)
  | step i => exact sound_step h i
  | drop i => exact sound_drop h i
  | advance time => exact sound_advance h time
  | line answers line => exact sound_line h answers line

theorem sound_run (h : log.Sound) (events : List Event) : (log.run events).Sound := by
  induction events generalizing log with
  | nil => exact h
  | cons event rest ih => exact ih (sound_next h event)

/-- The credits of a run are the lines that were taken, each by the question that waited when it came. -/
theorem mem_credits_run (h : log.Sound) (events : List Event) (credit : Credit) :
    credit ∈ (log.run events).credits ↔ credit ∈ log.credits ∨ ∃ before line after,
      events = before ++ .line credit.answers line :: after ∧
        (log.run before).Takes credit.question line credit.answer := by
  induction events generalizing log with
  | nil => simp [run]
  | cons event rest ih =>
    show credit ∈ ((log.next event).run rest).credits ↔ _
    rw [ih (sound_next h event)]
    have hfirst : credit ∈ (log.next event).credits ↔ credit ∈ log.credits ∨
        ∃ line, event = .line credit.answers line ∧ log.Takes credit.question line credit.answer := by
      show credit ∈ log.credits ++ (event.credit? _ _ _).toList ↔ _
      rw [List.mem_append, Option.mem_toList]
      cases event with
      | line answers line =>
        rw [mem_credit? h]
        constructor
        · rintro (hc | ⟨rfl, htakes⟩)
          · exact .inl hc
          · exact .inr ⟨line, rfl, htakes⟩
        · rintro (hc | ⟨line', heq, htakes⟩)
          · exact .inl hc
          · cases heq
            exact .inr ⟨rfl, htakes⟩
      | _ => simp [Event.credit?]
    rw [hfirst]
    constructor
    · rintro ((hc | ⟨line, rfl, htakes⟩) | ⟨before, line, after, rfl, htakes⟩)
      · exact .inl hc
      · exact .inr ⟨[], line, rest, rfl, htakes⟩
      · exact .inr ⟨event :: before, line, after, rfl, htakes⟩
    · rintro (hc | ⟨_ | ⟨first, before⟩, line, after, heq, htakes⟩)
      · exact .inl (.inl hc)
      · cases heq
        exact .inl (.inr ⟨line, rfl, htakes⟩)
      · cases heq
        exact .inr ⟨before, line, after, rfl, htakes⟩

/-- A line that the modem sent in answer to an earlier question, and that the question which waits takes. -/
def Stale (log : Log) : Event → Prop
  | .line answers line => ∃ number answer, log.Takes number line answer ∧ answers < number
  | _ => False

/-- Every answer that a call returns is credited to its question, and to no other. The line was sent in answer to an
    earlier question only if it came while the later one waited, and fitted. Where that never happens, and no answer
    comes before its question is put, a call returns what the modem answered to its own question. -/
theorem own_answer_iff (node : Node) (rules : List Modem.Rule) (hrules : ∀ rule ∈ rules, rule.replies = [])
    (events : List Event) :
    let log := (fresh node rules).run events
    (∀ i answer, log.crowd.task? i = some (.finished (.text answer)) → ∃ r ∈ log.returns, r.task = i ∧ r.answer = answer) ∧
    (∀ r ∈ log.returns, ∃ credit ∈ log.credits, credit.question = r.question ∧ credit.answer = r.answer) ∧
    (log.credits.Pairwise fun a b => a.question < b.question) ∧
    ((∀ credit ∈ log.credits, ¬credit.answers < credit.question) ↔
      ∀ before event after, events = before ++ event :: after → ¬((fresh node rules).run before).Stale event) ∧
    ((∀ credit ∈ log.credits, ¬credit.answers < credit.question) →
      (∀ before answers line after, events = before ++ .line answers line :: after →
        answers ≤ ((fresh node rules).run before).count) →
      ∀ r ∈ log.returns, ∃ before line after, events = before ++ .line r.question line :: after ∧
        ((fresh node rules).run before).Takes r.question line r.answer) := by
  intro log
  have hfresh := sound_fresh node hrules
  have hsound : log.Sound := sound_run hfresh events
  have hmem (credit : Credit) : credit ∈ log.credits ↔ ∃ before line after,
      events = before ++ .line credit.answers line :: after ∧
        ((fresh node rules).run before).Takes credit.question line credit.answer := by
    rw [mem_credits_run hfresh events credit]
    simp [fresh]
  refine ⟨fun _ _ => hsound.logged, hsound.returned, hsound.once, ⟨fun hown before event after heq hstale => ?_,
    fun hnever credit hc hlt => ?_⟩, fun hown hcausal r hr => ?_⟩
  · cases event with
    | line answers line =>
      obtain ⟨number, answer, htakes, hlt⟩ := hstale
      exact hown ⟨number, answers, answer⟩ ((hmem _).mpr ⟨before, line, after, heq, htakes⟩) hlt
    | _ => exact hstale
  · obtain ⟨before, line, after, heq, htakes⟩ := (hmem credit).mp hc
    exact hnever before _ after heq ⟨credit.question, credit.answer, htakes, hlt⟩
  · obtain ⟨credit, hc, hquestion, hanswer⟩ := hsound.returned r hr
    obtain ⟨before, line, after, heq, htakes⟩ := (hmem credit).mp hc
    -- The line was sent in answer to the question that was the last when it came.
    have hle : credit.answers ≤ credit.question := (hcausal before credit.answers line after heq).trans htakes.1.ge
    have heq' : credit.answers = r.question := (Nat.le_antisymm hle (Nat.le_of_not_lt (hown credit hc))).trans hquestion
    exact ⟨before, line, after, heq' ▸ heq, hquestion ▸ hanswer ▸ htakes⟩

/-- A command that its answer reaches in time, though the modem holds back every write. -/
theorem own_answer_in_time :
    let log := (fresh { table := { capacity := 1 }, depth := 1 } [{ trigger := [], delay := 5 }]).run
      [.sendCommand "AT" "OK" 30, .step 0, .step 0, .advance 5, .step 0, .advance 10, .step 0,
        .line 1 (Text.encode "OK"), .step 0]
    ∀ r ∈ log.returns, ∃ credit ∈ log.credits, credit.question = r.question ∧ credit.answer = r.answer :=
  (own_answer_iff { table := { capacity := 1 }, depth := 1 } [{ trigger := [], delay := 5 }] (by simp)
    [.sendCommand "AT" "OK" 30, .step 0, .step 0, .advance 5, .step 0, .advance 10, .step 0,
      .line 1 (Text.encode "OK"), .step 0]).2.1

/-- An answer that comes too late for its command is taken for the answer to the next one, which the modem has not
    answered at all. -/
theorem late_answer_taken :
    let log := (fresh { table := { capacity := 1 }, depth := 1 } []).run
      [.sendCommand "AT" "OK" 30, .step 0, .step 0, .advance 30, .step 0,
        .sendCommand "ATE0" "OK" 30, .step 1, .step 1, .line 1 (Text.encode "OK"), .step 1]
    log.crowd.task? 0 = some (.finished (.failed .timeout)) ∧ log.crowd.task? 1 = some (.finished (.text "")) ∧
      log.credits = [⟨2, 1, ""⟩] ∧ log.returns = [⟨1, 2, ""⟩] := by
  decide

end Log
end SensorLink
