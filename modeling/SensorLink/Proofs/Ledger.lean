import SensorLink.Proofs.Exclusive
import SensorLink.Proofs.Subscribing

/-! Runs of calls to subscribe and unsubscribe, side by side in any order: the table against what the modem was told
    last. -/

namespace SensorLink
open Command

/-! ### One pattern -/

/-- How the table, the last order about a pattern and the tasks fit together. `held` tells whether the table holds the
    pattern, `lost` whether the modem was asked for it in vain while nobody held it, `flying` whether the modem has been
    asked for it and has not answered yet, and `pending` whether it is still to be dropped. -/
structure Fair (held : Bool) (last : Option (Order × Bool)) (lost : Bool) (flying pending : Prop) : Prop where
  untold : last = none → held = false
  subscribed : ∀ {was}, last = some (.subscribe, was) → held = true ∨ lost = true ∨ flying ∨ pending
  unheld : last = some (.unsubscribe, false) → held = false
  kept : last = some (.unsubscribe, true) → held = true ∨ pending
  flies : flying → ∃ was, last = some (.subscribe, was)
  unheard : lost = true → held = false ∧ ¬flying

namespace Fair
variable {held lost : Bool} {last : Option (Order × Bool)} {flying flying' pending pending' : Prop}

theorem mono (h : Fair held last lost flying pending) (hflying : flying' ↔ flying) (hpending : pending → pending') :
    Fair held last lost flying' pending' where
  untold := h.untold
  subscribed hlast := by
    rcases h.subscribed hlast with hheld | hlost | hfly | hpend
    · exact .inl hheld
    · exact .inr (.inl hlost)
    · exact .inr (.inr (.inl (hflying.mpr hfly)))
    · exact .inr (.inr (.inr (hpending hpend)))
  unheld := h.unheld
  kept hlast := (h.kept hlast).imp_right hpending
  flies hfly := h.flies (hflying.mp hfly)
  unheard hlost := (h.unheard hlost).imp_right fun hnot hfly => hnot (hflying.mp hfly)

/-- The last pair of the pattern is taken out, and the modem is to be told. -/
theorem removed (h : Fair held last lost flying pending) (hflying : flying' ↔ flying) (hpending : pending') :
    Fair false last lost flying' pending' where
  untold _ := rfl
  subscribed _ := .inr (.inr (.inr hpending))
  unheld _ := rfl
  kept _ := .inr hpending
  flies hfly := h.flies (hflying.mp hfly)
  unheard hlost := ⟨rfl, fun hfly => (h.unheard hlost).2 (hflying.mp hfly)⟩

/-- The modem has been told to subscribe to the pattern, and this is what has come of it. -/
theorem of_subscribe {failed : Bool} (hlast : ∃ was, last = some (.subscribe, was))
    (h : held = true ∨ failed = true ∨ flying ∨ pending) (hfailed : failed = true → ¬flying) :
    Fair held last (failed && !held) flying pending := by
  obtain ⟨was, rfl⟩ := hlast
  refine ⟨by simp, fun _ => ?_, by simp, by simp, fun _ => ⟨was, rfl⟩, fun hlost => ?_⟩
  · rcases h with hheld | hfail | hfly | hpend
    · exact .inl hheld
    · cases held with
      | false => exact .inr (.inl (by simp [hfail]))
      | true => exact .inl rfl
    · exact .inr (.inr (.inl hfly))
    · exact .inr (.inr (.inr hpend))
  · simp only [Bool.and_eq_true, Bool.not_eq_true'] at hlost
    exact ⟨hlost.2, hfailed hlost.1⟩

theorem of_unsubscribe (h : ¬flying) (hlost : lost = true → held = false) :
    Fair held (some (.unsubscribe, held)) lost flying pending where
  untold hlast := by cases hlast
  subscribed hlast := by cases hlast
  unheld hlast := by cases hlast; rfl
  kept hlast := by cases hlast; exact .inl rfl
  flies hfly := absurd hfly h
  unheard hlost' := ⟨hlost hlost', h⟩

end Fair

/-! ### Runs -/

/-- A stage belongs to a call that asks the modem for the pattern. -/
def Stage.asksFor (pattern : String) : Stage → Bool
  | .subscribe full _ _ _ => full = pattern
  | _ => false

theorem Stage.Gives.asksFor {qos : UInt8} {order : Order} {pattern other : String} {command : Command} {stage : Stage}
    (h : stage.Gives qos order other command) : stage.asksFor pattern = decide (order = .subscribe ∧ other = pattern) := by
  cases stage <;> first | exact h.elim | skip
  · obtain ⟨rfl, rfl, -⟩ := h
    simp [Stage.asksFor]
  · obtain ⟨rfl, -⟩ := h
    simp [Stage.asksFor]

/-- A run of calls to subscribe and unsubscribe, and what it does about one pattern. -/
structure Ledger where
  crowd : Crowd
  /-- What the modem was told about the pattern, and whether the table held the pattern then. -/
  orders : List (Order × Bool) := []
  /-- Since the modem was last told to subscribe to the pattern, this has failed, and nobody held the pattern then. -/
  lost : Bool := false

namespace Ledger

/-- A step is the end of an attempt to subscribe to the pattern, which fails. -/
def fails (pattern : String) (node : Node) : Task → Bool
  | .asking request stage => stage.asksFor pattern && (Dialogue.start node.link request).2.isError
  | .checking (.request hold stage) => stage.asksFor pattern && (Dialogue.resume node.link hold).2.isError
  | _ => false

def failed (pattern : String) (crowd : Crowd) : Crowd.Move → Bool
  | .step i => (crowd.task? i).any fun task => fails pattern crowd.node task.awaken
  | _ => false

def next (pattern : String) (ledger : Ledger) (move : Crowd.Move) : Ledger :=
  let node := ledger.crowd.node
  let after := ledger.crowd.next move
  let given := (after.node.link.sent.drop node.link.sent.length).filterMap (orderOf? node.messaging.qos pattern)
  { crowd := after
    orders := ledger.orders ++ given.map fun order => (order, node.table.holds pattern)
    lost := (ledger.lost && !given.contains .subscribe) ||
      (failed pattern ledger.crowd move && !after.node.table.holds pattern) }

def run (pattern : String) (ledger : Ledger) (moves : List Crowd.Move) : Ledger := moves.foldl (next pattern) ledger

/-- A node that nobody has used yet, with its own options and rules. -/
def fresh (node : Node) (rules : List Modem.Rule) : Ledger :=
  { crowd := { node := { node with link := { rules }, table := { capacity := node.table.capacity } } } }

/-- Calls to subscribe and unsubscribe, none of which is given up, and whatever the modem does. -/
def IsSubscribing : Crowd.Move → Prop
  | .start (.subscribe ..) | .start (.unsubscribe ..) | .start (.feed _) | .start (.schedule ..) | .start (.setRules _)
  | .step _ | .advance _ => True
  | _ => False

theorem IsSubscribing.isOrderly {move : Crowd.Move} (h : IsSubscribing move) : move.IsOrderly := by
  unfold IsSubscribing at h
  split at h <;> first | exact h.elim | simp [Crowd.Move.IsOrderly]

def Any (crowd : Crowd) (P : Task → Prop) : Prop := ∃ i task, crowd.task? i = some task ∧ P task

structure Sound (qos : UInt8) (pattern : String) (ledger : Ledger) : Prop where
  exclusive : ledger.crowd.Exclusive
  options : ledger.crowd.node.messaging.qos = qos
  serves : ∀ {i task}, ledger.crowd.task? i = some task → Serves qos task.awaken
  fits : ledger.crowd.node.Fits
  wire : ledger.orders.map Prod.fst = ledger.crowd.node.link.sent.filterMap (orderOf? qos pattern)
  fair : Fair (ledger.crowd.node.table.holds pattern) ledger.orders.getLast? ledger.lost
    (Any ledger.crowd (Task.Flies pattern)) (Any ledger.crowd (Task.Pends qos pattern))

section
variable {qos : UInt8} {pattern : String} {ledger : Ledger} {i : Nat} {task : Task}

theorem any_start {P : Task → Prop} (crowd : Crowd) (call : Call) :
    Any (crowd.next (.start call)) P ↔ Any crowd P ∨ P (call.start crowd.node).2 := by
  constructor
  · rintro ⟨i, task, htask, hP⟩
    rw [Crowd.task?_start] at htask
    split at htask
    · cases htask
      exact .inr hP
    · exact .inl ⟨i, task, htask, hP⟩
  · rintro (⟨i, task, htask, hP⟩ | hP)
    · exact ⟨i, task, by rw [Crowd.task?_start, if_neg (Nat.ne_of_lt (Crowd.lt_of_task? htask)), htask], hP⟩
    · exact ⟨crowd.tasks.length, _, by rw [Crowd.task?_start, if_pos rfl], hP⟩

theorem any_step {P : Task → Prop} {crowd : Crowd} (htask : crowd.task? i = some task) :
    Any (crowd.next (.step i)) P ↔
      P (crowd.node.step task.awaken).2 ∨ ∃ j ≠ i, ∃ other, crowd.task? j = some other ∧ P other := by
  constructor
  · rintro ⟨j, other, hother, hP⟩
    rw [Crowd.task?_step htask] at hother
    split at hother
    · cases hother
      exact .inl hP
    · rename_i hne
      exact .inr ⟨j, Ne.symm hne, other, hother, hP⟩
  · rintro (hP | ⟨j, hne, other, hother, hP⟩)
    · exact ⟨i, _, by rw [Crowd.task?_step htask, if_pos rfl], hP⟩
    · exact ⟨j, other, by rw [Crowd.task?_step htask, if_neg (Ne.symm hne), hother], hP⟩

theorem any_split {P : Task → Prop} {crowd : Crowd} (htask : crowd.task? i = some task) :
    Any crowd P ↔ P task ∨ ∃ j ≠ i, ∃ other, crowd.task? j = some other ∧ P other := by
  constructor
  · rintro ⟨j, other, hother, hP⟩
    by_cases hj : j = i
    · subst hj
      obtain rfl : task = other := Option.some.inj (htask.symm.trans hother)
      exact .inl hP
    · exact .inr ⟨j, hj, other, hother, hP⟩
  · rintro (hP | ⟨j, -, other, hother, hP⟩)
    · exact ⟨i, task, htask, hP⟩
    · exact ⟨j, other, hother, hP⟩

theorem sound_fresh (node : Node) (rules : List Modem.Rule) (pattern : String) :
    (fresh node rules).Sound node.messaging.qos pattern where
  exclusive := Crowd.exclusive_fresh rfl
  options := rfl
  serves h := by simp [fresh, Crowd.task?] at h
  fits := by simp [fresh, Node.Fits]
  wire := rfl
  fair := by
    have hnone (P : Task → Prop) : ¬Any (fresh node rules).crowd P := by
      rintro ⟨i, task, htask, -⟩
      simp [fresh, Crowd.task?] at htask
    have hheld : (fresh node rules).crowd.node.table.holds pattern = false := rfl
    refine ⟨fun _ => hheld, ?_, ?_, ?_, fun h => absurd h (hnone _), ?_⟩ <;> simp [fresh]

/-- What every move keeps, once it is known what it tells the modem. -/
theorem Sound.move {move : Crowd.Move} (h : ledger.Sound qos pattern) (given : List Order) (hmove : IsSubscribing move)
    (hsent : ∃ written, (ledger.crowd.next move).node.link.sent = ledger.crowd.node.link.sent ++ written ∧
      written.filterMap (orderOf? qos pattern) = given)
    (hoptions : (ledger.crowd.next move).node.messaging = ledger.crowd.node.messaging)
    (hserves : ∀ {i task}, (ledger.crowd.next move).task? i = some task → Serves qos task.awaken)
    (hfits : (ledger.crowd.next move).node.Fits)
    (hfair : Fair ((ledger.crowd.next move).node.table.holds pattern)
      (ledger.orders ++ given.map fun order => (order, ledger.crowd.node.table.holds pattern)).getLast?
      ((ledger.lost && !given.contains .subscribe) ||
        (failed pattern ledger.crowd move && !(ledger.crowd.next move).node.table.holds pattern))
      (Any (ledger.crowd.next move) (Task.Flies pattern)) (Any (ledger.crowd.next move) (Task.Pends qos pattern))) :
    (ledger.next pattern move).Sound qos pattern := by
  obtain ⟨written, hsent, hgiven⟩ := hsent
  have hwritten : ((ledger.crowd.next move).node.link.sent.drop ledger.crowd.node.link.sent.length).filterMap
      (orderOf? ledger.crowd.node.messaging.qos pattern) = given := by
    rw [hsent, List.drop_left, h.options, hgiven]
  have horders : (ledger.next pattern move).orders =
      ledger.orders ++ given.map fun order => (order, ledger.crowd.node.table.holds pattern) := by
    simp only [next, hwritten]
  have hlost : (ledger.next pattern move).lost = ((ledger.lost && !given.contains .subscribe) ||
      (failed pattern ledger.crowd move && !(ledger.crowd.next move).node.table.holds pattern)) := by
    simp only [next, hwritten]
  refine ⟨Crowd.exclusive_next h.exclusive hmove.isOrderly, hoptions ▸ h.options, hserves, hfits, ?_,
    horders ▸ hlost ▸ hfair⟩
  rw [horders, List.map_append, h.wire]
  show _ = (ledger.crowd.next move).node.link.sent.filterMap _
  rw [hsent, List.filterMap_append, hgiven]
  simp [Function.comp_def]

/-- A move that tells the modem nothing, and at which no attempt fails. -/
theorem Sound.quiet {move : Crowd.Move} (h : ledger.Sound qos pattern) (hmove : IsSubscribing move)
    (hsent : (ledger.crowd.next move).node.link.sent = ledger.crowd.node.link.sent)
    (hoptions : (ledger.crowd.next move).node.messaging = ledger.crowd.node.messaging)
    (hserves : ∀ {i task}, (ledger.crowd.next move).task? i = some task → Serves qos task.awaken)
    (hfits : (ledger.crowd.next move).node.Fits) (hfailed : failed pattern ledger.crowd move = false)
    (hfair : Fair ((ledger.crowd.next move).node.table.holds pattern) ledger.orders.getLast? ledger.lost
      (Any (ledger.crowd.next move) (Task.Flies pattern)) (Any (ledger.crowd.next move) (Task.Pends qos pattern))) :
    (ledger.next pattern move).Sound qos pattern := by
  refine h.move [] hmove ⟨[], by rw [hsent, List.append_nil], rfl⟩ hoptions hserves hfits ?_
  rw [hfailed, List.map_nil, List.append_nil, List.contains_nil, Bool.not_false, Bool.and_true, Bool.false_and,
    Bool.or_false]
  exact hfair

theorem sound_start {call : Call} (h : ledger.Sound qos pattern) (hmove : IsSubscribing (.start call))
    (hcalled : Called qos ledger.crowd.node (call.start ledger.crowd.node)) :
    (ledger.next pattern (.start call)).Sound qos pattern := by
  refine h.quiet hmove hcalled.sent hcalled.messaging (fun {i task} htask => ?_) hcalled.fits rfl ?_
  · rw [Crowd.task?_start] at htask
    split at htask
    · cases htask
      exact hcalled.serves
    · exact h.serves htask
  · have hflying : Any (ledger.crowd.next (.start call)) (Task.Flies pattern) ↔ Any ledger.crowd (Task.Flies pattern) := by
      rw [any_start, or_iff_left (hcalled.flies pattern)]
    rw [any_start (P := Task.Pends qos pattern)]
    rcases hcalled.holds pattern with hsame | ⟨hremoved, hpends⟩
    · rw [show (ledger.crowd.next (.start call)).node.table.holds pattern = _ from hsame]
      exact h.fair.mono hflying .inl
    · rw [show (ledger.crowd.next (.start call)).node.table.holds pattern = _ from hremoved]
      exact h.fair.removed hflying (.inr hpends)

theorem sound_advance (h : ledger.Sound qos pattern) (time : Nat) :
    (ledger.next pattern (.advance time)).Sound qos pattern :=
  h.quiet trivial (ledger.crowd.node.link.same_advance time).sent rfl h.serves h.fits rfl (h.fair.mono Iff.rfl id)

theorem failed_step (htask : ledger.crowd.task? i = some task) : failed pattern ledger.crowd (.step i) =
    fails pattern ledger.crowd.node task.awaken := by
  simp [failed, htask]

theorem serves_step (h : ledger.Sound qos pattern) (htask : ledger.crowd.task? i = some task)
    (hafter : Serves qos (ledger.crowd.node.step task.awaken).2.awaken) {j : Nat} {other : Task}
    (hother : (ledger.crowd.next (.step i)).task? j = some other) : Serves qos other.awaken := by
  rw [Crowd.task?_step htask] at hother
  split at hother
  · cases hother
    exact hafter
  · exact h.serves hother

/-- A step that tells the modem nothing, changes nothing in the table, and leaves the task where it stood. -/
theorem sound_step_idle {after : Node × Task} (h : ledger.Sound qos pattern) (htask : ledger.crowd.task? i = some task)
    (hstep : ledger.crowd.node.step task.awaken = after) (hsent : after.1.link.sent = ledger.crowd.node.link.sent)
    (hmessaging : after.1.messaging = ledger.crowd.node.messaging) (htable : after.1.table = ledger.crowd.node.table)
    (hserves : Serves qos after.2.awaken) (hfails : fails pattern ledger.crowd.node task.awaken = false)
    (hflies : after.2.Flies pattern ↔ task.Flies pattern) (hpends : after.2.Pends qos pattern ↔ task.Pends qos pattern) :
    (ledger.next pattern (.step i)).Sound qos pattern := by
  subst hstep
  have hnode : (ledger.crowd.next (.step i)).node = (ledger.crowd.node.step task.awaken).1 := by
    rw [Crowd.next_step htask]
  refine h.quiet trivial (hnode ▸ hsent) (hnode ▸ hmessaging) (serves_step h htask hserves) ?_
    ((failed_step htask).trans hfails) ?_
  · intro entry hentry
    rw [hnode, htable] at hentry
    exact h.fits entry hentry
  · rw [hnode, htable, any_step htask, any_step htask, hflies, hpends, ← any_split htask, ← any_split htask]
    exact h.fair

/-- A step of a task that waits for the modem to give its order. -/
theorem sound_step_waits {order : Order} {other : String} {command : Command} {stage : Stage} {timeout : Nat}
    (h : ledger.Sound qos pattern) (htask : ledger.crowd.task? i = some task)
    (hawaken : task.awaken = .checking (.modem (.command command.text acknowledged timeout) stage))
    (hgives : stage.Gives qos order other command) : (ledger.next pattern (.step i)).Sound qos pattern := by
  have hfails : fails pattern ledger.crowd.node task.awaken = false := by
    rw [hawaken]
    rfl
  by_cases hheld : ledger.crowd.node.link.held
  · have hstep : ledger.crowd.node.step task.awaken = (ledger.crowd.node.setAlarm .modem,
        .parked (.modem (.command command.text acknowledged timeout) stage)) := by
      rw [hawaken]
      simp [Node.step, Node.check, hheld]
    exact sound_step_idle h htask hstep rfl rfl rfl (.waits hgives) hfails (Task.flies_congr hawaken.symm)
      (Task.pends_congr hawaken.symm)
  · have hstep : ledger.crowd.node.step task.awaken =
        (ledger.crowd.node.acquire, .asking (.command command.text acknowledged timeout) stage) := by
      rw [hawaken]
      simp [Node.step, Node.check, hheld]
    refine sound_step_idle h htask hstep rfl rfl rfl (.asks hgives) hfails ?_ ?_
    · apply iff_of_false <;> rintro ⟨_, _, _, _, hflies⟩
      · cases hflies
      · cases hawaken.symm.trans hflies
    · -- What was due when the task waited is what it asks for now.
      have hdue : task.due = Dialogue.line command.text := by
        unfold Task.due
        rw [hawaken]
        rfl
      rw [Task.Pends, Task.Pends, hdue]
      rfl

/-- A step of the task that holds the modem, and that gives its order now or has given it before. -/
theorem sound_step_heed {order : Order} {other : String} {command : Command} {stage : Stage} {link : Link}
    {progress : Dialogue.Progress} {written : List Bytes} (h : ledger.Sound qos pattern)
    (htask : ledger.crowd.task? i = some task) (hstage : task.stage?.isSome)
    (hstep : ledger.crowd.node.step task.awaken = ledger.crowd.node.heed stage (link, progress))
    (hgives : stage.Gives qos order other command)
    (hrest : ∀ hold, progress = .waiting hold → ∀ part ∈ hold.rest, part = Dialogue.lineEnd)
    (hsent : link.sent = ledger.crowd.node.link.sent ++ written)
    (hfails : fails pattern ledger.crowd.node task.awaken = (stage.asksFor pattern && progress.isError))
    (hflies : task.Flies pattern → order = .subscribe ∧ other = pattern)
    (hgiven : (written.filterMap (orderOf? qos pattern) = if other = pattern then [order] else []) ∧
        (task.Pends qos pattern → other = pattern) ∨
      written.filterMap (orderOf? qos pattern) = [] ∧ ¬task.Pends qos pattern ∧
        (order = .subscribe → task.Flies other)) : (ledger.next pattern (.step i)).Sound qos pattern := by
  have hheeded : Heeded qos order other ledger.crowd.node link progress (ledger.crowd.node.heed stage (link, progress)) :=
    heeded hgives hrest
  rw [← hstep] at hheeded
  have hnode : (ledger.crowd.next (.step i)).node = (ledger.crowd.node.step task.awaken).1 := by
    rw [Crowd.next_step htask]
  refine h.move (written.filterMap (orderOf? qos pattern)) trivial ⟨written, by rw [hnode, hheeded.sent, hsent], rfl⟩
    (hnode ▸ hheeded.messaging) (serves_step h htask hheeded.serves) (hnode ▸ hheeded.fits h.fits) ?_
  rw [failed_step htask, hfails, hgives.asksFor, hnode, any_step htask, any_step htask]
  have hfair := h.fair
  rw [any_split htask, any_split htask] at hfair
  -- Only the task that holds the modem can have asked for the pattern.
  have halone : ¬∃ j ≠ i, ∃ task', ledger.crowd.task? j = some task' ∧ task'.Flies pattern := by
    rintro ⟨j, hne, task', htask', hfly⟩
    have hnone := h.exclusive.allOutside htask hstage j hne task' htask'
    simpa [hnone] using Task.stage?_of_flies hfly
  by_cases hother : other = pattern
  · subst hother
    cases order with
    | subscribe =>
      have htold : (∃ was, (ledger.orders ++ (written.filterMap (orderOf? qos other)).map fun order =>
          (order, ledger.crowd.node.table.holds other)).getLast? = some (.subscribe, was)) ∧
          (ledger.lost && !(written.filterMap (orderOf? qos other)).contains .subscribe) = false := by
        rcases hgiven with ⟨hgiven, -⟩ | ⟨hgiven, -, hflew⟩
        · simp [hgiven]
        · -- The order was given before, so that nothing is lost yet.
          have hnot : ¬ledger.lost = true := fun hlost => (hfair.unheard hlost).2 (.inl (hflew rfl))
          rw [hgiven, List.map_nil, List.append_nil]
          exact ⟨hfair.flies (.inl (hflew rfl)), by simp [hnot]⟩
      rw [htold.2, Bool.false_or, decide_eq_true ⟨rfl, rfl⟩, Bool.true_and]
      refine .of_subscribe htold.1 ?_ fun herror hfly => hfly.elim (hheeded.failed herror) halone
      rcases hheeded.subscribed rfl with hheld | herror | hfly | hpend
      · exact .inl hheld
      · exact .inr (.inl herror)
      · exact .inr (.inr (.inl (.inl hfly)))
      · exact .inr (.inr (.inr (.inl hpend)))
    | unsubscribe =>
      obtain ⟨htable, hlands⟩ := hheeded.unsubscribed rfl
      have hnotflies : ¬task.Flies other := fun hfly => by simpa using (hflies hfly).1
      rcases hgiven with ⟨hgiven, -⟩ | ⟨hgiven, hnotpends, -⟩
      · rw [hgiven, if_pos rfl, List.map_singleton, List.getLast?_concat, htable]
        exact .of_unsubscribe (fun hfly => hfly.elim hlands halone) fun hlost => (hfair.unheard (by simpa using hlost)).1
      · rw [hgiven, List.map_nil, List.append_nil, htable]
        simpa using hfair.mono (by simp only [hlands, hnotflies]) fun hpend => .inr (hpend.resolve_left hnotpends)
  · obtain ⟨hheld, hnotpends', hlands⟩ := hheeded.others pattern (Ne.symm hother)
    have hnotflies : ¬task.Flies pattern := fun hfly => hother (hflies hfly).2
    have hnotpends : ¬task.Pends qos pattern := fun hpend =>
      hgiven.elim (fun hgiven => hother (hgiven.2 hpend)) fun hgiven => hgiven.2.1 hpend
    have hnothing : written.filterMap (orderOf? qos pattern) = [] :=
      hgiven.elim (fun hgiven => hgiven.1.trans (if_neg hother)) And.left
    rw [hnothing, List.map_nil, List.append_nil, hheld]
    simpa [hother] using hfair.mono (by simp only [hlands, hnotflies]) fun hpend => .inr (hpend.resolve_left hnotpends)

theorem sound_step_asks {order : Order} {other : String} {command : Command} {stage : Stage} {timeout : Nat}
    (h : ledger.Sound qos pattern)
    (htask : ledger.crowd.task? i = some (.asking (.command command.text acknowledged timeout) stage))
    (hgives : stage.Gives qos order other command) : (ledger.next pattern (.step i)).Sound qos pattern := by
  obtain ⟨written, hsent, hwritten, hrest⟩ := start_command (h.exclusive.empty_of_asking htask) command.text timeout
  have hgiven : written.filterMap (orderOf? qos pattern) = if other = pattern then [order] else [] := by
    rcases hwritten with rfl | rfl
    · exact orders_line hgives.order?
    · rw [List.filterMap_cons, orderOf?_command hgives.order?]
      split <;> simp_all
  refine sound_step_heed h htask rfl rfl hgives hrest hsent rfl ?_
    (.inl ⟨hgiven, fun hpends => ((pends_iff_of_due rfl hgives.order?).mp hpends).1⟩)
  rintro ⟨_, _, _, _, hawaken⟩
  cases hawaken

theorem sound_step_listens {order : Order} {other : String} {command : Command} {stage : Stage} {hold : Dialogue.Hold}
    (h : ledger.Sound qos pattern) (htask : ledger.crowd.task? i = some task)
    (hawaken : task.awaken = .checking (.request hold stage)) (hgives : stage.Gives qos order other command)
    (hlineEnds : ∀ part ∈ hold.rest, part = Dialogue.lineEnd) : (ledger.next pattern (.step i)).Sound qos pattern := by
  have hstage : task.stage? = some stage ∧ task.generation? = hold.generation? := by
    cases task <;> cases hawaken <;> exact ⟨rfl, rfl⟩
  have howns : hold.Owns ledger.crowd.node.link := fun generation hpending =>
    hstage.2.symm.trans (h.exclusive.owns htask (by simp [hstage.1]) generation hpending)
  obtain ⟨-, -, written, hsent, hwrote⟩ := Dialogue.led_resume howns
  -- Only line ends were left to write.
  have hwritten : ∀ part ∈ written, part = Dialogue.lineEnd := fun part hpart =>
    hlineEnds part (hwrote.isPrefix.subset hpart)
  have hrest (hold' : Dialogue.Hold) (hwaiting : (Dialogue.resume ledger.crowd.node.link hold).2 = .waiting hold') :
      ∀ part ∈ hold'.rest, part = Dialogue.lineEnd := by
    rw [hwaiting] at hwrote
    exact fun part hpart => hlineEnds part
      ((show written ++ hold'.rest = hold.rest from hwrote) ▸ List.mem_append_right _ hpart)
  have hdue : task.due = hold.rest := by
    unfold Task.due
    rw [hawaken]
  refine sound_step_heed h htask (by simp [hstage.1]) (by rw [hawaken]; rfl) hgives hrest hsent
    (by rw [hawaken]; rfl) ?_
    (.inr ⟨orders_lineEnds hwritten, not_pends_of_rest (hdue ▸ hlineEnds), ?_⟩)
  · rintro ⟨_, _, _, _, hflies⟩
    cases hawaken.symm.trans hflies
    obtain ⟨rfl, rfl, -⟩ := hgives
    exact ⟨rfl, rfl⟩
  · rintro rfl
    cases stage <;> first | exact hgives.elim | skip
    · rename_i full subscriber given retries
      obtain ⟨-, rfl, -⟩ := hgives
      exact ⟨hold, subscriber, given, retries, hawaken⟩
    · exact absurd hgives.1 (by simp)

theorem sound_step (h : ledger.Sound qos pattern) (i : Nat) : (ledger.next pattern (.step i)).Sound qos pattern := by
  rcases htask : ledger.crowd.task? i with _ | task
  · have hcrowd := Crowd.next_step_none htask
    refine h.quiet trivial (by rw [hcrowd]) (by rw [hcrowd]) (by rw [hcrowd]; exact h.serves) (by rw [hcrowd]; exact h.fits)
      (by simp [failed, htask]) ?_
    rw [hcrowd]
    exact h.fair
  have hserves := h.serves htask
  obtain ⟨awake, hawaken⟩ : ∃ awake, task.awaken = awake := ⟨_, rfl⟩
  rw [hawaken] at hserves
  cases hserves with
  | finished answer =>
    have hstep : ledger.crowd.node.step task.awaken = (ledger.crowd.node, .finished answer) := by
      rw [hawaken]
      rfl
    exact sound_step_idle h htask hstep rfl rfl rfl (.finished answer) (by rw [hawaken]; rfl)
      (Task.flies_congr hawaken.symm) (Task.pends_congr hawaken.symm)
  | waits hgives => exact sound_step_waits h htask hawaken hgives
  | @asks order other command timeout stage hgives =>
    have htask' : task = .asking (.command command.text acknowledged timeout) stage := by
      cases task <;> cases hawaken
      rfl
    exact sound_step_asks h (htask' ▸ htask) hgives
  | listens hgives hrest => exact sound_step_listens h htask hawaken hgives hrest

theorem sound_next {move : Crowd.Move} (h : ledger.Sound qos pattern) (hmove : IsSubscribing move) :
    (ledger.next pattern move).Sound qos pattern := by
  cases move with
  | step i => exact sound_step h i
  | advance time => exact sound_advance h time
  | drop i => exact hmove.elim
  | start call =>
    have hkept (after : Node) (hsent : after.link.sent = ledger.crowd.node.link.sent)
        (hmessaging : after.messaging = ledger.crowd.node.messaging) (htable : after.table = ledger.crowd.node.table) :
        Called qos ledger.crowd.node (after, .finished .done) :=
      ⟨hsent, hmessaging, fun entry hentry => h.fits entry (htable ▸ hentry), .finished _,
        fun _ => Task.not_flies_finished _ _, fun other => .inl (by rw [htable])⟩
    cases call <;> first | exact hmove.elim | skip
    · exact sound_start h hmove (hkept _ rfl rfl rfl)
    · exact sound_start h hmove (hkept _ rfl rfl rfl)
    · exact sound_start h hmove (hkept _ rfl rfl rfl)
    · exact sound_start h hmove (h.options ▸ called_subscribe h.fits _ _ _)
    · exact sound_start h hmove (called_unsubscribe h.fits _ _ _)

theorem sound_run {moves : List Crowd.Move} (h : ledger.Sound qos pattern) (hmoves : ∀ move ∈ moves, IsSubscribing move) :
    (ledger.run pattern moves).Sound qos pattern := by
  induction moves generalizing ledger with
  | nil => exact h
  | cons move rest ih =>
    exact ih (sound_next h (hmoves move List.mem_cons_self)) fun m hm => hmoves m (List.mem_cons_of_mem _ hm)

end

theorem lost_run {pattern : String} {ledger : Ledger} {moves : List Crowd.Move} (h : ledger.lost = false)
    (hnever : ∀ before move after, moves = before ++ move :: after →
      failed pattern (ledger.run pattern before).crowd move = false) : (ledger.run pattern moves).lost = false := by
  induction moves generalizing ledger with
  | nil => exact h
  | cons move rest ih =>
    have hfirst : failed pattern ledger.crowd move = false := hnever [] move rest rfl
    apply ih
    · simp [next, h, hfirst]
    · intro before move' after heq
      exact hnever (move :: before) move' after (by rw [heq, List.cons_append])

/-- When calls to subscribe and unsubscribe have run to their ends, in whatever order: the table holds a pattern exactly
    if the modem was last told to subscribe to it, with two exceptions. The last attempt to subscribe may have failed with
    nobody holding the pattern; and the modem may have been told to drop the pattern while the table held it, which then
    still holds what the modem has dropped. Where no attempt fails, only the second is left. -/
theorem holds_iff_last_subscribed (node : Node) (rules : List Modem.Rule) (pattern : String) (moves : List Crowd.Move)
    (hmoves : ∀ move ∈ moves, IsSubscribing move)
    (hdone : ∀ i task, ((fresh node rules).run pattern moves).crowd.task? i = some task →
      ∃ answer, task = .finished answer) :
    let ledger := (fresh node rules).run pattern moves
    let held := ledger.crowd.node.table.holds pattern
    let last := ledger.orders.getLast?
    ledger.orders.map Prod.fst = ledger.crowd.node.link.sent.filterMap (orderOf? node.messaging.qos pattern) ∧
    (held = true ↔ last.map Prod.fst = some .subscribe ∧ ledger.lost = false ∨ last = some (.unsubscribe, true)) ∧
    ((held = true ↔ last.map Prod.fst = some .subscribe) ↔
      ¬(last.map Prod.fst = some .subscribe ∧ ledger.lost = true) ∧ last ≠ some (.unsubscribe, true)) ∧
    ((∀ before move after, moves = before ++ move :: after →
        failed pattern ((fresh node rules).run pattern before).crowd move = false) →
      ((held = true ↔ last.map Prod.fst = some .subscribe) ↔ last ≠ some (.unsubscribe, true))) := by
  intro ledger held last
  have hsound : ledger.Sound node.messaging.qos pattern := sound_run (sound_fresh node rules pattern) hmoves
  have hfinished {P : Task → Prop} (hP : ∀ answer, ¬P (.finished answer)) : ¬Any ledger.crowd P := by
    rintro ⟨i, task, htask, h⟩
    obtain ⟨answer, rfl⟩ := hdone i task htask
    exact hP answer h
  have hflying : ¬Any ledger.crowd (Task.Flies pattern) := hfinished (Task.not_flies_finished pattern)
  have hpending : ¬Any ledger.crowd (Task.Pends node.messaging.qos pattern) :=
    hfinished (Task.not_pends_finished _ pattern)
  obtain ⟨huntold, hsubscribed, hunheld, hheld, -, hlost⟩ := hsound.fair
  simp only [hflying, hpending, or_false, not_false_eq_true, and_true] at hsubscribed hheld hlost
  change last = none → held = false at huntold
  change ∀ {was}, last = some (.subscribe, was) → held = true ∨ ledger.lost = true at hsubscribed
  change last = some (.unsubscribe, false) → held = false at hunheld
  change last = some (.unsubscribe, true) → held = true at hheld
  change ledger.lost = true → held = false at hlost
  have hheld_iff : held = true ↔
      last.map Prod.fst = some .subscribe ∧ ledger.lost = false ∨ last = some (.unsubscribe, true) := by
    rcases hlast : last with _ | ⟨_ | _, was⟩
    · simp [huntold hlast]
    · -- Either the pattern is held or the attempt was in vain, and never both.
      rcases hsubscribed hlast with hin | hvain
      · have hnot : ¬ledger.lost = true := fun hvain => by simp [hlost hvain] at hin
        simp [hin, hnot]
      · simp [hvain, hlost hvain]
    · cases was with
      | false => simp [hunheld hlast]
      | true => simp [hheld hlast]
  have hexact : (held = true ↔ last.map Prod.fst = some .subscribe) ↔
      ¬(last.map Prod.fst = some .subscribe ∧ ledger.lost = true) ∧ last ≠ some (.unsubscribe, true) := by
    rw [hheld_iff]
    rcases last with _ | ⟨_ | _, _ | _⟩ <;> simp
  refine ⟨hsound.wire, hheld_iff, hexact, fun hnever => ?_⟩
  have hnotlost : ledger.lost = false := lost_run rfl hnever
  simpa [hnotlost] using hexact

/-- Two calls subscribe to a pattern side by side, and the modem answers both. -/
theorem holds_of_two_subscribers :
    let acknowledges : Crowd.Move := .start (.feed (Text.encode "OK\r\n"))
    let moves : List Crowd.Move :=
      [.start (.subscribe .remote "p" 0), .step 0, .step 0, .start (.subscribe .remote "p" 1), .step 1,
        acknowledges, .step 0, .step 1, .step 1, acknowledges, .step 1]
    let ledger := (fresh { table := { capacity := 4 }, depth := 1 } []).run "p" moves
    (∀ move ∈ moves, IsSubscribing move) ∧
      (∀ i task, ledger.crowd.task? i = some task → ∃ answer, task = .finished answer) ∧
      (ledger.crowd.node.table.holds "p" = true ↔ ledger.orders.getLast?.map Prod.fst = some .subscribe) := by
  intro acknowledges moves ledger
  have hmoves : ∀ move ∈ moves, IsSubscribing move := by simp [moves, acknowledges, IsSubscribing]
  have htasks : ledger.crowd.tasks = List.replicate 4 (some (.finished .done)) := by decide
  have hdone (i : Nat) (task : Task) (htask : ledger.crowd.task? i = some task) : ∃ answer, task = .finished answer := by
    rw [Crowd.task?, htasks, List.getElem?_replicate] at htask
    split at htask
    · exact ⟨.done, (Option.some.inj htask).symm⟩
    · cases htask
  have hlost : ledger.lost = false := by decide
  have hlast : ledger.orders.getLast? = some (.subscribe, true) := by decide
  obtain ⟨-, -, hiff, -⟩ := holds_iff_last_subscribed { table := { capacity := 4 }, depth := 1 } [] "p" moves hmoves hdone
  rw [show run "p" (fresh { table := { capacity := 4 }, depth := 1 } []) moves = ledger from rfl] at hiff
  exact ⟨hmoves, hdone, hiff.mpr ⟨fun hvain => by simp [hlost] at hvain, fun hdropped => by simp [hlast] at hdropped⟩⟩

/-- An answer that comes right behind an unfinished line is not recognised, and the attempt is in vain. -/
example :
    let node : Node := { messaging := { subscribeRetries := 0 }, table := { capacity := 4 }, depth := 1 }
    let ledger := (fresh node []).run "p"
      [.start (.feed (Text.encode "x")), .start (.subscribe .remote "p" 0), .step 1, .step 1,
        .start (.feed (Text.encode "OK\r\n")), .advance node.messaging.commandTimeout, .step 1]
    ledger.orders = [(.subscribe, false)] ∧ ledger.lost = true ∧ ledger.crowd.node.table.holds "p" = false := by
  decide

/-- Two calls subscribe to a pattern, and the first unsubscribes again before the modem has answered the second: the
    modem is told to drop the pattern last of all, but the second subscriber stays in the table. -/
theorem dropped_while_held :
    let acknowledges : Crowd.Move := .start (.feed (Text.encode "OK\r\n"))
    let ledger := (fresh { table := { capacity := 4 }, depth := 1 } []).run "p"
      [.start (.subscribe .remote "p" 0), .step 0, .step 0, .start (.subscribe .remote "p" 1), .step 1,
        acknowledges, .step 0, .step 1, .step 1, .start (.unsubscribe .remote "p" 0), .step 3,
        acknowledges, .step 1, .step 3, .step 3, acknowledges, .step 3]
    ledger.crowd.tasks = List.replicate 6 (some (.finished .done)) ∧ ledger.lost = false ∧
      ledger.orders = [(.subscribe, false), (.subscribe, true), (.unsubscribe, true)] ∧
      ledger.crowd.node.table.holds "p" = true := by
  decide

end Ledger
end SensorLink
