import SensorLink.Limits

/-! The slot in which a question to the modem meets its answer. Each question gets the next generation, in 32 bits
    that wrap; the first line heard that starts with what the question expects answers it, and whoever waits for
    that generation collects the rest of the line.

    A wake-up goes to the first waiter that looks for one, whichever generation it waits for. -/

namespace SensorLink

structure Slot.Question where
  generation : UInt32
  /-- What the line that answers the question starts with. -/
  expected : String
  /-- What followed on the line that answered it; none while the question waits. -/
  answer : Option String := none
  deriving DecidableEq

structure Slot where
  generation : UInt32 := 0
  question : Option Slot.Question := none
  /-- The generation that was answered, until a waiter has been woken for it. -/
  wakeUp : Option UInt32 := none
  deriving DecidableEq

namespace Slot

inductive Refusal where
  | busy
  | prefixTooLong
  deriving DecidableEq

def isWaiting (slot : Slot) : Bool :=
  match slot.question with
  | some question => question.answer.isNone
  | none => false

/-- Puts the next question. One that still waits keeps its place; one that was answered gives way, and so does
    the wake-up meant for it. -/
def ask (slot : Slot) (expected : String) : Except Refusal (Slot × UInt32) :=
  if Limits.expected < expected.utf8ByteSize then .error .prefixTooLong
  else if slot.isWaiting then .error .busy
  else
    let generation := slot.generation + 1
    .ok ({ generation, question := some { generation, expected }, wakeUp := none }, generation)

/-- What a line answers to a question that expects `expected`: the rest of the line, or nothing of a rest that
    no line can hold. -/
def answerOf? (expected line : String) : Option String :=
  (expected.toList.isPrefixOf? line.toList).map fun rest =>
    let answer := String.ofList rest
    if answer.utf8ByteSize ≤ Limits.line then answer else ""

/-- Hears a line, and tells whether it answered the question that waits. -/
def hear (slot : Slot) (line : String) : Slot × Bool :=
  match slot.question with
  | some ⟨generation, expected, none⟩ =>
    match answerOf? expected line with
    | some answer =>
      ({ slot with
          question := some ⟨generation, expected, some answer⟩
          wakeUp := some generation }, true)
    | none => (slot, false)
  | _ => (slot, false)

def collect (slot : Slot) (generation : UInt32) : Slot × Option String :=
  match slot.question with
  | some ⟨g, _, some answer⟩ =>
    if g = generation then ({ slot with question := none }, some answer) else (slot, none)
  | _ => (slot, none)

/-- Gives up the question of this generation: a line that comes later answers nothing. -/
def forget (slot : Slot) (generation : UInt32) : Slot :=
  match slot.question with
  | some question => if question.generation = generation then { slot with question := none } else slot
  | none => slot

section
variable {slot : Slot} {generation : UInt32}

theorem isWaiting_iff : slot.isWaiting = true ↔ ∃ g expected, slot.question = some ⟨g, expected, none⟩ := by
  unfold isWaiting
  rcases slot.question with _ | ⟨g, expected, _ | answer⟩ <;> simp

theorem collect_own {expected answer : String} (h : slot.question = some ⟨generation, expected, some answer⟩) :
    slot.collect generation = ({ slot with question := none }, some answer) := by
  simp [collect, h]

theorem collect_eq_self (h : ∀ expected answer, slot.question ≠ some ⟨generation, expected, some answer⟩) :
    slot.collect generation = (slot, none) := by
  unfold collect
  split
  · rename_i heq
    refine if_neg ?_
    rintro rfl
    exact h _ _ heq
  · rfl

theorem forget_own {expected : String} {answer : Option String}
    (h : slot.question = some ⟨generation, expected, answer⟩) : slot.forget generation = { slot with question := none } := by
  simp [forget, h]

theorem forget_eq_self (h : ∀ expected answer, slot.question ≠ some ⟨generation, expected, answer⟩) :
    slot.forget generation = slot := by
  unfold forget
  split
  · rename_i heq
    refine if_neg ?_
    rintro rfl
    exact h _ _ heq
  · rfl

end

/-- The first look of a waiter: it collects the answer if that is there, and else clears the wake-up and goes
    to sleep. -/
def look (slot : Slot) (generation : UInt32) : Slot × Option String :=
  match slot.collect generation with
  | (slot, some answer) => (slot, some answer)
  | (slot, none) => ({ slot with wakeUp := none }, none)

/-- The look of a waiter that sleeps: without a wake-up it sleeps on. -/
def lookAgain (slot : Slot) (generation : UInt32) : Slot × Option String :=
  match slot.wakeUp with
  | some _ => { slot with wakeUp := none }.collect generation
  | none => (slot, none)

inductive Waiter where
  | fresh (generation : UInt32)
  | asleep (generation : UInt32)
  | served
  deriving DecidableEq

/-- Lets a waiter look, which is served at most once. -/
def serve (slot : Slot) : Waiter → Slot × Waiter × Option String
  | .fresh generation =>
    match slot.look generation with
    | (slot, some answer) => (slot, .served, some answer)
    | (slot, none) => (slot, .asleep generation, none)
  | .asleep generation =>
    match slot.lookAgain generation with
    | (slot, some answer) => (slot, .served, some answer)
    | (slot, none) => (slot, .asleep generation, none)
  | .served => (slot, .served, none)

end Slot
end SensorLink
