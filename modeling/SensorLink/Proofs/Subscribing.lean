import SensorLink.Proofs.CommandText
import SensorLink.Proofs.Steps
import SensorLink.Proofs.Table

/-! What a call to subscribe or unsubscribe does, step by step: the order that it gives the modem, and the pair that it
    puts into the table or takes out. -/

namespace SensorLink
open Command

/-! ### Tasks that give orders -/

/-- The command of a stage gives an order about a pattern. -/
def Stage.Gives (qos : UInt8) (order : Order) (pattern : String) (command : Command) : Stage → Prop
  | .subscribe full _ given _ =>
    order = .subscribe ∧ full = pattern ∧ given = command ∧ order? qos pattern .subscribe = some command
  | .unsubscribe _ => order = .unsubscribe ∧ order? qos pattern .unsubscribe = some command
  | _ => False

theorem Stage.Gives.order? {qos : UInt8} {order : Order} {pattern : String} {command : Command} {stage : Stage}
    (h : stage.Gives qos order pattern command) : order? qos pattern order = some command := by
  cases stage <;> first | exact h.elim | skip
  · obtain ⟨rfl, -, -, h⟩ := h
    exact h
  · obtain ⟨rfl, h⟩ := h
    exact h

/-- A task of a call to subscribe or unsubscribe, when it is visited: it waits for the modem to give its order, is about
    to give it, has given it, or is finished. -/
inductive Serves (qos : UInt8) : Task → Prop
  | finished (answer : Answer) : Serves qos (.finished answer)
  | waits {order : Order} {pattern : String} {command : Command} {timeout : Nat} {stage : Stage}
      (gives : stage.Gives qos order pattern command) :
      Serves qos (.checking (.modem (.command command.text acknowledged timeout) stage))
  | asks {order : Order} {pattern : String} {command : Command} {timeout : Nat} {stage : Stage}
      (gives : stage.Gives qos order pattern command) :
      Serves qos (.asking (.command command.text acknowledged timeout) stage)
  | listens {order : Order} {pattern : String} {command : Command} {hold : Dialogue.Hold} {stage : Stage}
      (gives : stage.Gives qos order pattern command) (rest : ∀ part ∈ hold.rest, part = Dialogue.lineEnd) :
      Serves qos (.checking (.request hold stage))

namespace Task

/-- What a task has still to write for the request that it makes, or will make once it holds the modem. -/
def due (task : Task) : List Bytes :=
  match task.awaken with
  | .checking (.modem request _) | .asking request _ => request.parts
  | .checking (.request hold _) => hold.rest
  | _ => []

/-- A task is yet to tell the modem to drop a pattern. -/
def Pends (qos : UInt8) (pattern : String) (task : Task) : Prop :=
  ∃ part ∈ task.due, orderOf? qos pattern part = some .unsubscribe

/-- A task waits for the modem to acknowledge that it asked for a pattern. -/
def Flies (pattern : String) (task : Task) : Prop :=
  ∃ hold subscriber command retries, task.awaken = .checking (.request hold (.subscribe pattern subscriber command retries))

theorem not_pends_finished (qos : UInt8) (pattern : String) (answer : Answer) : ¬Pends qos pattern (.finished answer) := by
  simp [Pends, due, awaken]

theorem not_flies_finished (pattern : String) (answer : Answer) : ¬Flies pattern (.finished answer) := by
  simp [Flies, awaken]

theorem flies_congr {task task' : Task} {pattern : String} (h : task'.awaken = task.awaken) :
    task'.Flies pattern ↔ task.Flies pattern := by
  unfold Flies
  rw [h]

theorem pends_congr {qos : UInt8} {task task' : Task} {pattern : String} (h : task'.awaken = task.awaken) :
    task'.Pends qos pattern ↔ task.Pends qos pattern := by
  unfold Pends due
  rw [h]

theorem stage?_of_flies {task : Task} {pattern : String} (h : task.Flies pattern) : task.stage?.isSome := by
  obtain ⟨hold, subscriber, command, retries, hawaken⟩ := h
  cases task with
  | parked wait | checking wait =>
    cases hawaken
    rfl
  | asking request stage | finished answer => cases hawaken

end Task

section
variable {qos : UInt8} {order : Order} {pattern other : String} {command : Command} {stage : Stage} {timeout : Nat}

theorem orders_line (h : order? qos pattern order = some command) :
    (Dialogue.line command.text).filterMap (orderOf? qos other) = if pattern = other then [order] else [] := by
  have hline : Dialogue.line command.text = [Text.encode command.text, [LineBuffer.cr, LineBuffer.lf]] := rfl
  rw [hline, List.filterMap_cons, orderOf?_command h, List.filterMap_cons, orderOf?_lineEnd]
  split <;> simp_all

theorem orders_lineEnds {parts : List Bytes} (h : ∀ part ∈ parts, part = Dialogue.lineEnd) :
    parts.filterMap (orderOf? qos pattern) = [] := by
  rw [List.filterMap_eq_nil_iff]
  intro part hpart
  rw [h part hpart]
  exact orderOf?_lineEnd

/-- Who is yet to give an order is yet to drop a pattern if the order says so. -/
theorem pends_iff_of_due {task : Task} (hdue : task.due = Dialogue.line command.text)
    (h : order? qos pattern order = some command) : task.Pends qos other ↔ pattern = other ∧ order = .unsubscribe := by
  have hmem : task.Pends qos other ↔ .unsubscribe ∈ task.due.filterMap (orderOf? qos other) := by
    simp [Task.Pends]
  rw [hmem, hdue, orders_line h]
  split <;> simp_all [eq_comm]

theorem not_pends_of_rest {task : Task} (h : ∀ part ∈ task.due, part = Dialogue.lineEnd) : ¬task.Pends qos other := by
  rintro ⟨part, hpart, horder⟩
  rw [h part hpart] at horder
  exact absurd (horder.symm.trans orderOf?_lineEnd) (by simp)

end

/-- The first visit of a command writes it, and perhaps its line end. -/
theorem start_command {link : Link} (h : link.pending? = none) (text : String) (timeout : Nat) :
    ∃ written, (Dialogue.start link (.command text acknowledged timeout)).1.sent = link.sent ++ written ∧
      (written = Dialogue.line text ∨ written = [Text.encode text]) ∧
      ∀ hold, (Dialogue.start link (.command text acknowledged timeout)).2 = .waiting hold →
        ∀ part ∈ hold.rest, part = Dialogue.lineEnd := by
  obtain ⟨written, hsent, hhead, hwrote⟩ :=
    Dialogue.start_ask_sent h (by decide : acknowledged.utf8ByteSize ≤ Limits.expected) (Dialogue.line text) timeout
  obtain ⟨more, rfl⟩ : ∃ more, written = Text.encode text :: more := by
    cases written with
    | nil => simp [Dialogue.line] at hhead
    | cons first more => exact ⟨more, by rw [Option.some.inj hhead]⟩
  have hmore {rest : List Bytes} (heq : Text.encode text :: more ++ rest = Dialogue.line text) :
      (more = [Dialogue.lineEnd] ∨ more = []) ∧ ∀ part ∈ rest, part = Dialogue.lineEnd := by
    have htail : more ++ rest = [Dialogue.lineEnd] := (List.cons.inj heq).2
    rcases List.append_eq_singleton_iff.mp htail with ⟨rfl, rfl⟩ | ⟨rfl, rfl⟩ <;> simp
  refine ⟨_, hsent, ?_, fun hold hwaiting => ?_⟩
  · obtain ⟨rest, hrest⟩ := hwrote.isPrefix
    rcases (hmore hrest).1 with rfl | rfl
    · exact .inl rfl
    · exact .inr rfl
  · change Dialogue.Progress.Wrote _ _ (Dialogue.start link (.command text acknowledged timeout)).2 at hwrote
    rw [hwaiting] at hwrote
    exact (hmore hwrote).2

/-! ### What a turn does to the table -/

/-- Whatever pattern the table holds, the modem can be told to drop it. -/
def Node.Fits (node : Node) : Prop := ∀ entry ∈ node.table.entries, (unsubscribe? entry.pattern).isSome

def Dialogue.Progress.isError : Dialogue.Progress → Bool
  | .finished (.error _) => true
  | _ => false

section
variable {qos : UInt8} {node : Node} {full : String}

theorem dropPattern_serves (qos : UInt8) (node : Node) (h : (unsubscribe? full).isSome) (answer : Answer) :
    Serves qos (node.dropPattern full answer).awaken ∧
      (∀ other, (node.dropPattern full answer).Pends qos other ↔ full = other) ∧
      ∀ other, ¬(node.dropPattern full answer).Flies other := by
  obtain ⟨command, hcommand⟩ := Option.isSome_iff_exists.mp h
  have horder : order? qos full .unsubscribe = some command := hcommand
  unfold Node.dropPattern
  rw [hcommand]
  exact ⟨.waits ⟨rfl, horder⟩, fun other => (pends_iff_of_due rfl horder).trans (by simp),
    fun other => by simp [Task.Flies, Task.talk, Task.awaken]⟩

/-- Putting in a pair succeeds, or the table is full. -/
theorem enter_cases (node : Node) (full : String) (subscriber : Subscriber) (asked : Bool) :
    (∃ table, node.enter full subscriber asked = ({ node with table }, .finished .done) ∧
        (∀ other, table.holds other = (node.table.holds other || decide (full = other))) ∧
        ∀ entry ∈ table.entries, entry ∈ node.table.entries ∨ entry.pattern = full) ∨
      (node.table.holds full = false ∧
        node.enter full subscriber asked = (node, node.dropPattern full (.failed .tableFull))) ∨
      (node.enter full subscriber asked = (node, .finished (.failed .tableFull)) ∧
        (asked = true → node.table.holds full = true)) := by
  unfold Node.enter
  split
  · rename_i table novelty hinsert
    refine .inl ⟨table, rfl, fun other => Subscriptions.holds_insert? hinsert, fun entry hentry => ?_⟩
    exact ((Subscriptions.mem_insert? hinsert entry).mp hentry).imp_right fun h => by rw [h]
  · split
    · rename_i hdrop
      exact .inr (.inl ⟨by simpa using (Bool.and_eq_true_iff.mp hdrop).2, rfl⟩)
    · rename_i hkeep
      exact .inr (.inr ⟨rfl, fun hasked => by simpa [hasked] using hkeep⟩)

/-- A task that gives an order about a pattern, and what has become of its request, have led to `after`. -/
structure Heeded (qos : UInt8) (order : Order) (pattern : String) (node : Node) (link : Link)
    (progress : Dialogue.Progress) (after : Node × Task) : Prop where
  sent : after.1.link.sent = link.sent
  messaging : after.1.messaging = node.messaging
  fits : node.Fits → after.1.Fits
  serves : Serves qos after.2.awaken
  others : ∀ other ≠ pattern, after.1.table.holds other = node.table.holds other ∧ ¬after.2.Pends qos other ∧
    ¬after.2.Flies other
  unsubscribed : order = .unsubscribe → after.1.table = node.table ∧ ¬after.2.Flies pattern
  subscribed : order = .subscribe → after.1.table.holds pattern = true ∨ progress.isError = true ∨
    after.2.Flies pattern ∨ after.2.Pends qos pattern
  failed : progress.isError = true → ¬after.2.Flies pattern

theorem heeded_enter {pattern : String} {subscriber : Subscriber} {link : Link} {answer : String}
    (h : (unsubscribe? pattern).isSome) {after : Node × Task}
    (hafter : after = ((({ node with link } : Node).enter pattern subscriber true).1.release,
      (({ node with link } : Node).enter pattern subscriber true).2)) :
    Heeded qos .subscribe pattern node link (.finished (.ok answer)) after := by
  subst hafter
  rcases enter_cases { node with link } pattern subscriber true with
    ⟨table, henter, hholds, hmem⟩ | ⟨-, henter⟩ | ⟨henter, hheld⟩ <;> rw [henter]
  · refine ⟨rfl, rfl, fun hfits entry hentry => ?_, .finished _, fun other hne => ⟨?_, Task.not_pends_finished _ _ _,
      Task.not_flies_finished _ _⟩, by simp, fun _ => .inl ?_, ?_⟩
    · exact (hmem entry hentry).elim (hfits entry) fun heq => heq ▸ h
    · exact (hholds other).trans (by simp [Ne.symm hne])
    · exact (hholds pattern).trans (by simp)
    · simp [Dialogue.Progress.isError]
  · obtain ⟨hserves, hpends, hflies⟩ := dropPattern_serves qos { node with link } h (.failed .tableFull)
    exact ⟨rfl, rfl, id, hserves, fun other hne => ⟨rfl, fun hp => hne ((hpends other).mp hp).symm, hflies other⟩,
      by simp, fun _ => .inr (.inr (.inr ((hpends pattern).mpr rfl))), by simp [Dialogue.Progress.isError]⟩
  · exact ⟨rfl, rfl, id, .finished _, fun other hne => ⟨rfl, Task.not_pends_finished _ _ _, Task.not_flies_finished _ _⟩,
      by simp, fun _ => .inl (hheld rfl), by simp [Dialogue.Progress.isError]⟩

theorem heeded {order : Order} {pattern : String} {command : Command} {stage : Stage} {link : Link}
    {progress : Dialogue.Progress} (hgives : stage.Gives qos order pattern command)
    (hrest : ∀ hold, progress = .waiting hold → ∀ part ∈ hold.rest, part = Dialogue.lineEnd) :
    Heeded qos order pattern node link progress (node.heed stage (link, progress)) := by
  have finished (answer : Answer) (other : String) :
      ¬(Task.finished answer).Pends qos other ∧ ¬(Task.finished answer).Flies other :=
    ⟨Task.not_pends_finished _ _ _, Task.not_flies_finished _ _⟩
  cases stage <;> first | exact hgives.elim | skip
  · rename_i full subscriber given retries
    have hgives' := hgives
    obtain ⟨rfl, rfl, rfl, horder⟩ := hgives'
    rcases progress with hold | (cause | answer)
    · have hrest' := hrest hold rfl
      refine ⟨rfl, rfl, id, .listens hgives hrest', fun other hne => ⟨rfl, not_pends_of_rest hrest', ?_⟩, by simp,
        fun _ => .inr (.inr (.inl ⟨hold, subscriber, given, retries, rfl⟩)), by simp [Dialogue.Progress.isError]⟩
      rintro ⟨_, _, _, _, hawaken⟩
      cases hawaken
      exact hne rfl
    · cases retries with
      | zero =>
        exact ⟨rfl, rfl, id, .finished _, fun other _ => ⟨rfl, finished _ _⟩, by simp, fun _ => .inr (.inl rfl),
          fun _ => (finished _ _).2⟩
      | succ retries =>
        have hflies (other : String) : ¬(Task.asking (.command given.text acknowledged node.messaging.commandTimeout)
            (.subscribe full subscriber given retries)).Flies other := by
          simp [Task.Flies, Task.awaken]
        exact ⟨rfl, rfl, id, .asks ⟨rfl, rfl, rfl, horder⟩, fun other hne => ⟨rfl,
          fun hpends => hne ((pends_iff_of_due rfl horder).mp hpends).1.symm, hflies other⟩, by simp,
          fun _ => .inr (.inl rfl), fun _ => hflies full⟩
    · exact heeded_enter (unsubscribe?_isSome horder) rfl
  · rename_i answer
    have hgives' := hgives
    obtain ⟨rfl, horder⟩ := hgives'
    rcases progress with hold | result
    · have hrest' := hrest hold rfl
      have hflies (other : String) : ¬(Task.parked (.request hold (.unsubscribe answer))).Flies other := by
        simp [Task.Flies, Task.awaken]
      exact ⟨rfl, rfl, id, .listens hgives hrest', fun other _ => ⟨rfl, not_pends_of_rest hrest', hflies other⟩,
        fun _ => ⟨rfl, hflies pattern⟩, by simp, by simp [Dialogue.Progress.isError]⟩
    · exact ⟨rfl, rfl, id, .finished _, fun other _ => ⟨rfl, finished _ _⟩, fun _ => ⟨rfl, (finished _ _).2⟩, by simp,
        fun _ => (finished _ _).2⟩

/-- A call has led from a node to `after` on its first visit: the modem learns nothing yet, and a pattern that the table
    does not hold any more is still to be dropped. -/
structure Called (qos : UInt8) (node : Node) (after : Node × Task) : Prop where
  sent : after.1.link.sent = node.link.sent
  messaging : after.1.messaging = node.messaging
  fits : after.1.Fits
  serves : Serves qos after.2.awaken
  flies : ∀ other, ¬after.2.Flies other
  holds : ∀ other, after.1.table.holds other = node.table.holds other ∨
    after.1.table.holds other = false ∧ after.2.Pends qos other

theorem called_finished (hfits : node.Fits) (answer : Answer) : Called qos node (node, .finished answer) :=
  ⟨rfl, rfl, hfits, .finished _, fun _ => Task.not_flies_finished _ _, fun _ => .inl rfl⟩

theorem called_subscribe (hfits : node.Fits) (scope : Scope) (pattern : String) (subscriber : Subscriber) :
    Called node.messaging.qos node (node.subscribe scope pattern subscriber) := by
  unfold Node.subscribe
  split
  · exact called_finished hfits _
  · rename_i full _
    split
    · exact called_finished hfits _
    · rename_i hnovelty
      have hheld : node.table.holds full = true := by simp [Subscriptions.holds_eq_novelty subscriber, hnovelty]
      split
      · exact called_finished hfits _
      · rcases enter_cases node full subscriber false with ⟨table, henter, hholds, hmem⟩ | ⟨hnot, -⟩ | ⟨henter, -⟩
        · rw [henter]
          refine ⟨rfl, rfl, fun entry hentry => ?_, .finished _, fun _ => Task.not_flies_finished _ _, fun other => .inl ?_⟩
          · refine (hmem entry hentry).elim (hfits entry) fun heq => ?_
            obtain ⟨held, hheldMem, hheldPattern⟩ := Subscriptions.holds_iff.mp hheld
            exact heq.trans hheldPattern.symm ▸ hfits held hheldMem
          · -- The table held the pattern before.
            refine (hholds other).trans ?_
            by_cases heq : full = other
            · rw [← heq, hheld, Bool.true_or]
            · simp [heq]
        · exact absurd (hnot.symm.trans hheld) (by simp)
        · rw [henter]
          exact called_finished hfits _
    · split
      · exact called_finished hfits _
      · split
        · exact called_finished hfits _
        · rename_i command hcommand
          refine ⟨rfl, rfl, hfits, .waits ⟨rfl, rfl, rfl, hcommand⟩, fun other => ?_, fun _ => .inl rfl⟩
          simp [Task.Flies, Task.talk, Task.awaken]

theorem called_unsubscribe (hfits : node.Fits) (scope : Scope) (pattern : String) (subscriber : Subscriber) :
    Called qos node (node.unsubscribe scope pattern subscriber) := by
  unfold Node.unsubscribe
  split
  · exact called_finished hfits _
  · rename_i full _
    have hfits' : Node.Fits { node with table := (node.table.erase full subscriber).1 } := fun entry hentry =>
      hfits entry (Subscriptions.mem_of_mem_erase hentry)
    have hothers (other : String) (hne : full ≠ other) :
        (node.table.erase full subscriber).1.holds other = node.table.holds other :=
      Subscriptions.holds_erase_of_ne hne
    have hheld : (node.table.erase full subscriber).1.holds full =
        if (node.table.erase full subscriber).2 = .last then false else node.table.holds full :=
      Subscriptions.holds_erase
    simp only
    split
    · rename_i hlast
      rw [if_pos hlast] at hheld
      -- The pair was there, so its pattern can be dropped.
      have hfull : (unsubscribe? full).isSome := by
        rcases Subscriptions.erase_entries node.table full subscriber with ⟨-, hsame⟩ | ⟨i, hi, hget, -, -⟩
        · simp [hsame] at hlast
        · simpa [hget] using hfits _ (List.getElem_mem hi)
      obtain ⟨hserves, hpends, hflies⟩ := dropPattern_serves qos
        { node with table := (node.table.erase full subscriber).1 } hfull .done
      refine ⟨rfl, rfl, hfits', hserves, hflies, fun other => ?_⟩
      by_cases heq : full = other
      · exact .inr ⟨heq ▸ hheld, (hpends other).mpr heq⟩
      · exact .inl (hothers other heq)
    · rename_i hlast
      rw [if_neg hlast] at hheld
      refine ⟨rfl, rfl, hfits', .finished _, fun _ => Task.not_flies_finished _ _, fun other => .inl ?_⟩
      by_cases heq : full = other
      · exact heq ▸ hheld
      · exact hothers other heq

end

end SensorLink
