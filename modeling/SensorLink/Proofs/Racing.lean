import Mathlib.Algebra.BigOperators.Group.List.Basic
import Mathlib.Data.List.Perm.Subperm
import SensorLink.Proofs.Contest
import SensorLink.Proofs.Ledger
import SensorLink.Proofs.Progress

/-! Racing for the last places of the table. Every race can be brought to its end (`all_finish`); then as many calls have
    succeeded as there were places (`length_winners`), and the modem was last told to subscribe to exactly the patterns
    that somebody holds (`last_told`). -/

namespace SensorLink
open Command

/-! ### To the end -/

/-- How many requests a call to subscribe makes from here on, at most. -/
def Stage.requests : Stage → Nat
  | .subscribe _ _ _ retries => retries + 2
  | _ => 1

def Task.requests (task : Task) : Nat := task.aim?.elim 0 Stage.requests

theorem requests_dropPattern (node : Node) (full : String) (answer : Answer) : (node.dropPattern full answer).requests ≤ 1 := by
  unfold Node.dropPattern
  split
  · exact Nat.zero_le 1
  · exact Nat.le_refl 1

/-- A call to subscribe has fewer requests before it when one has come to its end. -/
theorem requests_after (node : Node) {stage : Stage} {full : String} (h : stage.SubscribesTo full) (result : Dialogue.Result) :
    (node.after stage result).2.requests < stage.requests := by
  cases stage with
  | subscribe other subscriber command retries =>
    cases result with
    | ok answer =>
      show (node.enter other subscriber true).2.requests < retries + 2
      have hdrop := requests_dropPattern node other (.failed .tableFull)
      rcases enter_cases node other subscriber true with ⟨table, henter, -⟩ | ⟨-, henter⟩ | ⟨henter, -⟩ <;> rw [henter]
      · exact Nat.succ_pos _
      · exact Nat.lt_of_le_of_lt hdrop (Nat.lt_add_left retries Nat.one_lt_two)
      · exact Nat.succ_pos _
    | error cause =>
      cases retries with
      | zero => exact Nat.succ_pos 1
      | succ retries => exact Nat.lt_succ_self (retries + 2)
  | unsubscribe answer => exact Nat.succ_pos 0
  | _ => exact h.elim

namespace Crowd

def requests (crowd : Crowd) : Nat := (crowd.tasks.map (·.elim 0 Task.requests)).sum

/-- Every task subscribes, or has come to its end. -/
def AllSubscribe (crowd : Crowd) : Prop := ∀ i task, crowd.task? i = some task → ∃ full, task.SubscribesTo full

section
variable {crowd : Crowd} {node : Node} {moves : List Move} {i : Nat} {task : Task}

theorem requests_went (htask : crowd.task? i = some task) {after : Node × Task} (hless : after.2.requests < task.requests) :
    (crowd.went i after).requests < crowd.requests := by
  have hlt : i < (crowd.tasks.map (·.elim 0 Task.requests)).length := by
    rw [List.length_map]
    exact lt_of_task? htask
  have hget : (crowd.tasks.map (·.elim 0 Task.requests))[i] = task.requests := by
    have hjoin : crowd.tasks[i]? = some (some task) := Option.join_eq_some_iff.mp htask
    rw [List.getElem_map, (List.getElem?_eq_some_iff.mp hjoin).2]
    rfl
  have hbefore := List.sum_set (crowd.tasks.map (·.elim 0 Task.requests)) i task.requests
  have hafter := List.sum_set (crowd.tasks.map (·.elim 0 Task.requests)) i after.2.requests
  rw [← hget, List.set_getElem_self, if_pos hlt, hget] at hbefore
  rw [if_pos hlt] at hafter
  rw [requests, requests, went, List.map_set]
  show (List.set _ i after.2.requests).sum < _
  omega

theorem exists_aim {full : String} (h : task.SubscribesTo full) (hunfinished : ¬task.isFinished) :
    ∃ stage, task.aim? = some stage := by
  unfold Task.SubscribesTo at h
  cases haim : task.aim? with
  | none =>
    rw [haim] at h
    exact absurd h hunfinished
  | some stage => exact ⟨stage, rfl⟩

/-- While a call is under way, some call can go on: the one that holds the modem, or any that waits for it. -/
theorem exists_turn {full : String} (hheld : crowd.HeldByTask) (htask : crowd.task? i = some task)
    (hfull : task.SubscribesTo full) (hunfinished : ¬task.isFinished) : ∃ j other stage, crowd.task? j = some other ∧
      other.aim? = some stage ∧ (other.stage? = none → crowd.node.link.held = false) := by
  cases hmodem : crowd.node.link.held with
  | false =>
    obtain ⟨stage, haim⟩ := exists_aim hfull hunfinished
    exact ⟨i, task, stage, htask, haim, fun _ => rfl⟩
  | true =>
    obtain ⟨j, holder, hholder, hholds⟩ := hheld hmodem
    obtain ⟨stage, hstage⟩ := Option.isSome_iff_exists.mp hholds
    exact ⟨j, holder, stage, hholder, aim?_of_stage? hstage, fun hnone => by simp [hnone] at hstage⟩

/-- Whatever the modem does: when the calls that are under way are visited at their deadlines, all come to their ends. -/
theorem all_finish (hempty : node.link.intake.slot.question = none) (hfree : node.link.held = false)
    (hmoves : ∀ move ∈ moves, move.IsOrderly) (hsubscribe : (Crowd.run { node } moves).AllSubscribe) : ∃ more,
      (∀ move ∈ more, ∃ i, Move.IsVisit i move) ∧
        ∀ i task, (Crowd.run { node } (moves ++ more)).task? i = some task → task.isFinished := by
  induction hn : (Crowd.run { node } moves).requests using Nat.strongRecOn generalizing moves with
  | ind n ih =>
    by_cases hdone : ∀ i task, (Crowd.run { node } moves).task? i = some task → task.isFinished
    · exact ⟨[], nofun, by rwa [List.append_nil]⟩
    · simp only [not_forall, exists_prop] at hdone
      obtain ⟨i, task, htask, hunfinished⟩ := hdone
      obtain ⟨_, hfull⟩ := hsubscribe i task htask
      obtain ⟨i, task, stage, htask, haim, hturn⟩ := exists_turn (held_run hempty hfree hmoves) htask hfull hunfinished
      obtain ⟨full, hfull⟩ := hsubscribe i task htask
      obtain ⟨visits, link, result, hvisits, hrun⟩ := aim_ends htask haim hturn
      rw [Task.SubscribesTo, haim] at hfull
      have hless : (Crowd.run { node } (moves ++ visits)).requests < n := by
        have hrequests : task.requests = stage.requests := by
          rw [Task.requests, haim]
          rfl
        rw [run_append, hrun, ← hn]
        exact requests_went htask (hrequests ▸ requests_after _ hfull result)
      have hsubscribe' : (Crowd.run { node } (moves ++ visits)).AllSubscribe := by
        intro j other hother
        rw [run_append, hrun, went, task?_set htask] at hother
        split at hother
        · cases hother
          exact ⟨full, (subscribed_after _ hfull result).1.task⟩
        · exact hsubscribe j other hother
      have hmoves' : ∀ move ∈ moves ++ visits, move.IsOrderly :=
        List.forall_mem_append.mpr ⟨hmoves, fun move hmove => (hvisits move hmove).isOrderly⟩
      obtain ⟨more, hmore, hfinished⟩ := ih _ hless hmoves' hsubscribe' rfl
      refine ⟨visits ++ more, List.forall_mem_append.mpr ⟨fun move hmove => ⟨i, hvisits move hmove⟩, hmore⟩, ?_⟩
      rwa [← List.append_assoc]

end

/-! ### Who succeeds -/

/-- The pairs of the calls that have succeeded in a run. -/
def winners (node : Node) (moves : List Move) : List Subscription :=
  (((Crowd.calls moves).zip (Crowd.run { node } moves).tasks).filter fun (_, task) =>
    task = some (.finished .done)).filterMap fun (call, _) => call.pair? node

section
variable {node : Node} {moves before after : List Move} {new : List Subscription} {pair : Subscription} {call : Call}
  {task : Task} {i : Nat} {full : String}

/-- Nobody is given up in a race. -/
theorem exists_task (h : Race node moves) (hi : i < (Crowd.calls moves).length) :
    ∃ task, (Crowd.run { node } moves).task? i = some task := by
  induction moves using List.reverseRecOn with
  | nil => exact absurd hi (Nat.not_lt_zero i)
  | append_singleton moves move ih =>
    rw [calls_append, List.length_append] at hi
    rw [run_append]
    show ∃ task, ((Crowd.run { node } moves).next move).task? i = some task
    cases move with
    | start call =>
      rw [task?_start]
      split
      · exact ⟨_, rfl⟩
      · rename_i hne
        refine ih h.before (Nat.lt_of_le_of_ne (Nat.le_of_lt_succ hi) ?_)
        rwa [length_calls node moves]
    | step j =>
      obtain ⟨task, htask⟩ := ih h.before hi
      cases hother : (Crowd.run { node } moves).task? j with
      | none => exact ⟨task, by rwa [next_step_none hother]⟩
      | some other =>
        rw [task?_step hother]
        split
        · exact ⟨_, rfl⟩
        · exact ⟨task, htask⟩
    | drop j => cases h.races (.drop j) (by simp)
    | advance time => exact ih h.before hi

theorem allSubscribe_of_contest (h : Contest node (Crowd.calls moves) (Crowd.run { node } moves) new) :
    (Crowd.run { node } moves).AllSubscribe := by
  intro i task htask
  obtain ⟨call, -, hcontends⟩ := h.contends i task htask
  cases hcontends with
  | outside _ answer => exact ⟨"", rfl⟩
  | won | lost => exact ⟨"", rfl⟩
  | @asks pair command retries _ _ _ _ haims =>
    have hasks : task.SubscribesTo pair.pattern := by
      rw [Task.SubscribesTo, haims]
      rfl
    exact ⟨pair.pattern, hasks⟩
  | drops _ _ _ haims =>
    have hdrops : task.SubscribesTo "" := by
      rw [Task.SubscribesTo, haims]
      rfl
    exact ⟨"", hdrops⟩

theorem mem_winners : pair ∈ winners node moves ↔ HasWon node (Crowd.calls moves) (Crowd.run { node } moves) pair := by
  simp only [winners, List.mem_filterMap, List.mem_filter, decide_eq_true_eq, Prod.exists, HasWon]
  constructor
  · rintro ⟨call, task, ⟨hmem, rfl⟩, hpair⟩
    obtain ⟨i, hi⟩ := List.mem_iff_getElem?.mp hmem
    obtain ⟨hcall, htask⟩ := List.getElem?_zip_eq_some.mp hi
    exact ⟨i, call, hcall, hpair, Option.join_eq_some_iff.mpr htask⟩
  · rintro ⟨i, call, hcall, hpair, htask⟩
    refine ⟨call, _, ⟨List.mem_of_getElem? (i := i) ?_, rfl⟩, hpair⟩
    exact List.getElem?_zip_eq_some.mpr ⟨hcall, Option.join_eq_some_iff.mp htask⟩

theorem winners_sublist (node : Node) (moves : List Move) :
    (winners node moves).Sublist ((Crowd.calls moves).filterMap (Call.pair? node)) := by
  have hpairs : (Crowd.calls moves).filterMap (Call.pair? node) =
      ((Crowd.calls moves).zip (Crowd.run { node } moves).tasks).filterMap fun (call, _) => call.pair? node := by
    conv_lhs => rw [← List.map_fst_zip (Nat.le_of_eq (length_calls node moves)), List.filterMap_map]
    rfl
  rw [hpairs]
  exact List.filter_sublist.filterMap _

theorem perm_winners (h : Race node moves) (hcontest : Contest node (Crowd.calls moves) (Crowd.run { node } moves) new) :
    (winners node moves).Perm new := by
  have hnew : new.Nodup := (List.nodup_append.mp (hcontest.entries ▸ hcontest.nodup)).2.1
  refine (List.perm_ext_iff_of_nodup (h.pairs.sublist (winners_sublist node moves)) hnew).mpr fun pair => ?_
  rw [mem_winners, hcontest.won]

/-- At the end of a race every call has succeeded, or has found the table full. -/
theorem ends_of_finished (h : Race node moves) (hcontest : Contest node (Crowd.calls moves) (Crowd.run { node } moves) new)
    (hcall : (Crowd.calls moves)[i]? = some call) (hpair : (call.pair? node).isSome)
    (hfinished : ∀ task, (Crowd.run { node } moves).task? i = some task → task.isFinished) :
    (Crowd.run { node } moves).task? i = some (.finished .done) ∨
      (Crowd.run { node } moves).task? i = some (.finished (.failed .tableFull)) ∧
        (Crowd.run { node } moves).node.table.isFull = true := by
  obtain ⟨task, htask⟩ := exists_task h (List.getElem?_eq_some_iff.mp hcall).1
  obtain ⟨made, hmade, hcontends⟩ := hcontest.contends i task htask
  obtain rfl : call = made := Option.some.inj (hcall.symm.trans hmade)
  have hdone := hfinished task htask
  cases hcontends with
  | outside houtside answer => simp [pair?_of_isOutside houtside] at hpair
  | asks _ _ _ haims => exact absurd hdone (not_isFinished_of_aim haims)
  | drops _ _ _ haims => exact absurd hdone (not_isFinished_of_aim haims)
  | won => exact .inl htask
  | lost _ hfull => exact .inr ⟨htask, hfull⟩

/-- As many calls succeed as there are places, or all. -/
theorem length_winners (h : Race node moves) (hcontest : Contest node (Crowd.calls moves) (Crowd.run { node } moves) new)
    (hfinished : ∀ i task, (Crowd.run { node } moves).task? i = some task → task.isFinished) :
    (winners node moves).length =
      min (node.table.capacity - node.table.entries.length) ((Crowd.calls moves).filterMap (Call.pair? node)).length := by
  have hlength := (perm_winners h hcontest).length_eq
  have hle := (winners_sublist node moves).length_le
  have hroom : new.length ≤ node.table.capacity - node.table.entries.length := by
    rcases List.eq_nil_or_concat new with rfl | ⟨_, _, rfl⟩
    · exact Nat.zero_le _
    · have hroom := hcontest.room (by simp)
      rw [hcontest.entries, List.length_append] at hroom
      omega
  by_cases hall : ∀ pair ∈ (Crowd.calls moves).filterMap (Call.pair? node), pair ∈ winners node moves
  · -- All have succeeded.
    have hpairs := (h.pairs.subperm hall).length_le
    omega
  · -- Somebody has found the table full.
    simp only [not_forall, exists_prop] at hall
    obtain ⟨pair, hmem, hlost⟩ := hall
    obtain ⟨call, hcallMem, hpair⟩ := List.mem_filterMap.mp hmem
    obtain ⟨i, hcall⟩ := List.mem_iff_getElem?.mp hcallMem
    rcases ends_of_finished h hcontest hcall (by simp [hpair]) (hfinished i) with hdone | ⟨-, hfull⟩
    · exact absurd (mem_winners.mpr ⟨i, call, hcall, hpair, hdone⟩) hlost
    · have hfull : (Crowd.run { node } moves).node.table.capacity ≤
          (Crowd.run { node } moves).node.table.entries.length := by simpa [Subscriptions.isFull] using hfull
      rw [hcontest.capacity, hcontest.entries, List.length_append] at hfull
      omega

/-- Who has succeeded stays so. -/
theorem hasWon_stays (h : Race node (before ++ after))
    (hwon : HasWon node (Crowd.calls before) (Crowd.run { node } before) pair) :
    HasWon node (Crowd.calls (before ++ after)) (Crowd.run { node } (before ++ after)) pair := by
  obtain ⟨i, call, hcall, hpair, hdone⟩ := hwon
  induction after using List.reverseRecOn with
  | nil => exact ⟨i, call, by rwa [List.append_nil], hpair, by rwa [List.append_nil]⟩
  | append_singleton after move ih =>
    rw [← List.append_assoc] at h ⊢
    obtain ⟨i, call, hcall, hpair, hdone⟩ := ih h.before
    refine ⟨i, call, ?_, hpair, ?_⟩
    · rw [calls_append, List.getElem?_append_left (List.getElem?_eq_some_iff.mp hcall).1, hcall]
    · rw [run_append]
      show ((Crowd.run { node } (before ++ after)).next move).task? i = _
      by_cases hmove : move.task? = some i
      · cases move with
        | start call => cases hmove
        | advance time => cases hmove
        | drop j => cases h.races (.drop j) (by simp)
        | step j =>
          cases hmove
          rw [task?_step hdone, if_pos rfl]
          rfl
      · exact task?_elsewhere hdone hmove

/-- A full table gains no pattern. -/
theorem absent_stays (h : Race node (before ++ after)) (hfull : (Crowd.run { node } before).node.table.isFull = true)
    (habsent : (Crowd.run { node } before).node.table.holds full = false) :
    (Crowd.run { node } (before ++ after)).node.table.holds full = false := by
  obtain ⟨old, hold⟩ := contest_run h.before
  obtain ⟨new, hnew⟩ := contest_run h
  refine Bool.eq_false_iff.mpr fun hheld => ?_
  obtain ⟨entry, hentry, hpattern⟩ := Subscriptions.holds_iff.mp hheld
  have hnot : entry ∉ (Crowd.run { node } before).node.table.entries := fun hmem =>
    absurd (Subscriptions.holds_iff.mpr ⟨entry, hmem, hpattern⟩) (by simp [habsent])
  -- One pair more than fits would be in the table.
  have hsubset : entry :: (Crowd.run { node } before).node.table.entries ⊆
      (Crowd.run { node } (before ++ after)).node.table.entries := by
    refine List.cons_subset.mpr ⟨hentry, fun other hother => ?_⟩
    rw [hold.entries, List.mem_append] at hother
    rw [hnew.entries, List.mem_append]
    exact hother.imp_right fun hmem => (hnew.won other).mpr (hasWon_stays h ((hold.won other).mp hmem))
  have hmore := ((List.nodup_cons.mpr ⟨hnot, hold.nodup⟩).subperm hsubset).length_le
  have hplaces : node.table.capacity ≤ (Crowd.run { node } before).node.table.entries.length := by
    rw [← hold.capacity]
    simpa [Subscriptions.isFull] using hfull
  have hroom : (Crowd.run { node } (before ++ after)).node.table.entries.length ≤ node.table.capacity := by
    refine hnew.room fun hnil => hnot (hold.kept entry ?_)
    rwa [hnew.entries, hnil, List.append_nil] at hentry
  rw [List.length_cons] at hmore
  omega

end

/-! ### What the modem is told -/

/-- The orders about a pattern that are given in a run. -/
def told (node : Node) (full : String) (moves : List Move) : List Order :=
  ((Crowd.run { node } moves).node.link.sent.drop node.link.sent.length).filterMap (orderOf? node.messaging.qos full)

section
variable {node : Node} {moves before after : List Move} {move : Move} {full : String} {order : Order}

theorem told_concat (hempty : node.link.intake.slot.question = none) (hmoves : ∀ made ∈ moves ++ [move], made.IsOrderly)
    (full : String) :
    told node full (moves ++ [move]) = told node full moves ++ (Crowd.run { node } moves).given full move := by
  rw [List.forall_mem_append] at hmoves
  have hsent := sent_run (exclusive_fresh hempty) hmoves.1
  obtain ⟨written, hwritten, -⟩ := sent_next (exclusive_run (exclusive_fresh hempty) hmoves.1)
    (hmoves.2 move List.mem_cons_self)
  rw [told, told, given, run_append, (settings_run { node } moves).2]
  show List.filterMap _ (List.drop _ ((Crowd.run { node } moves).next move).node.link.sent) = _
  rw [hwritten, List.drop_left, hsent, List.append_assoc, List.drop_left, List.drop_left, List.filterMap_append]

theorem mem_told (h : Race node moves) : order ∈ told node full moves ↔ ∃ before move after,
    moves = before ++ move :: after ∧ order ∈ (Crowd.run { node } before).given full move := by
  induction moves using List.reverseRecOn with
  | nil => simp [told, run]
  | append_singleton moves move ih =>
    rw [told_concat h.empty h.orderly, List.mem_append, ih h.before]
    constructor
    · rintro (⟨before, move', after, rfl, hgiven⟩ | hgiven)
      · exact ⟨before, move', after ++ [move], by simp, hgiven⟩
      · exact ⟨moves, move, [], rfl, hgiven⟩
    · rintro ⟨before, move', after, hsplit, hgiven⟩
      rcases List.eq_nil_or_concat after with rfl | ⟨after, last, rfl⟩
      · obtain ⟨rfl, hmove⟩ := List.append_inj' hsplit rfl
        cases hmove
        exact .inr hgiven
      · rw [List.concat_eq_append, ← List.cons_append, ← List.append_assoc] at hsplit
        exact .inl ⟨before, move', after, (List.append_inj' hsplit rfl).1, hgiven⟩

/-- Nobody tells the modem of a pattern that was held before the race, and who drops a pattern does so because the table
    is full and nobody holds the pattern. -/
theorem absent_of_given (h : Race node (before ++ move :: after))
    (hgiven : order ∈ (Crowd.run { node } before).given full move) : node.table.holds full = false ∧
      (order = .unsubscribe → (Crowd.run { node } before).node.table.isFull = true ∧
        (Crowd.run { node } before).node.table.holds full = false) := by
  obtain ⟨new, hcontest⟩ := contest_run h.before
  obtain ⟨i, task, -, htask, howes⟩ := owes_of_given h.before.exclusive (h.orderly move (by simp)) hgiven
  obtain ⟨call, -, hcontends⟩ := hcontest.contends i task htask
  cases hcontends with
  | outside _ answer => exact absurd howes (Task.owesNothing_finished answer full order)
  | won | lost => exact absurd howes (Task.owesNothing_finished _ full order)
  | asks _ _ habsent _ howesOnly =>
    obtain ⟨rfl, rfl⟩ := howesOnly full order howes
    exact ⟨habsent, nofun⟩
  | drops _ hfull habsent _ howesOnly =>
    obtain ⟨rfl, rfl⟩ := howesOnly full order howes
    refine ⟨Bool.eq_false_iff.mpr fun hheld => ?_, fun _ => ⟨hfull, habsent⟩⟩
    simpa [habsent] using Subscriptions.holds_mono hcontest.kept hheld

/-- A pattern that the modem was told to drop is held by nobody any more. -/
theorem absent_of_dropped (h : Race node moves) (hdropped : .unsubscribe ∈ told node full moves) :
    (Crowd.run { node } moves).node.table.holds full = false := by
  obtain ⟨before, move, after, rfl, hgiven⟩ := (mem_told h).mp hdropped
  obtain ⟨hfull, habsent⟩ := (absent_of_given h hgiven).2 rfl
  exact absent_stays h hfull habsent

end
end Crowd

namespace Ledger

/-- The ledger of a node that has told the modem something before. Whatever that was, it is taken for lost. -/
def since (node : Node) (pattern : String) : Ledger where
  crowd := { node }
  orders := (node.link.sent.filterMap (orderOf? node.messaging.qos pattern)).map (·, false)
  lost := true

section
variable {node : Node} {pattern : String} {crowd : Crowd} {move : Crowd.Move} {moves : List Crowd.Move}

theorem sound_since (hempty : node.link.intake.slot.question = none) (hfits : node.Fits)
    (habsent : node.table.holds pattern = false) : (since node pattern).Sound node.messaging.qos pattern where
  exclusive := Crowd.exclusive_fresh hempty
  options := rfl
  serves h := by simp [since, Crowd.task?] at h
  fits := hfits
  wire := by simp [since, Function.comp_def]
  fair := by
    have hnone (P : Task → Prop) : ¬Any (since node pattern).crowd P := by
      rintro ⟨i, task, htask, -⟩
      simp [since, Crowd.task?] at htask
    have hheld : (since node pattern).crowd.node.table.holds pattern = false := habsent
    refine ⟨fun _ => hheld, fun _ => .inr (.inl rfl), fun _ => hheld, fun hkept => ?_, fun h => absurd h (hnone _),
      fun _ => ⟨hheld, hnone _⟩⟩
    obtain ⟨order, -, hlast⟩ := List.mem_map.mp (List.mem_of_getLast? hkept)
    cases hlast

theorem exists_error_of_failed (h : failed pattern crowd move = true) :
    ∃ stage cause, crowd.concludes? move = some (stage, .error cause) := by
  cases move with
  | step i =>
    cases htask : crowd.task? i with
    | none => simp [failed, htask] at h
    | some task =>
      have hfails : fails pattern crowd.node task.awaken = true := by simpa [failed, htask] using h
      have hends {progress : Dialogue.Progress} {stage : Stage} (herror : progress.isError = true) :
          ∃ cause, progress.result?.map (stage, ·) = some (stage, .error cause) := by
        rcases progress with hold | (cause | answer)
        · cases herror
        · exact ⟨cause, rfl⟩
        · cases herror
      rw [Crowd.concludes?_step htask]
      unfold fails at hfails
      split at hfails
      · rename_i heq
        rw [heq]
        exact ⟨_, hends (Bool.and_eq_true_iff.mp hfails).2⟩
      · rename_i heq
        rw [heq]
        exact ⟨_, hends (Bool.and_eq_true_iff.mp hfails).2⟩
      · cases hfails
  | _ => cases h

theorem orders_next (ledger : Ledger) : (ledger.next pattern move).orders =
    ledger.orders ++ (ledger.crowd.given pattern move).map (·, ledger.crowd.node.table.holds pattern) := rfl

theorem lost_next (ledger : Ledger) : (ledger.next pattern move).lost =
    ((ledger.lost && !(ledger.crowd.given pattern move).contains .subscribe) ||
      (failed pattern ledger.crowd move && !(ledger.crowd.next move).node.table.holds pattern)) := rfl

/-- What a ledger notes in a race: no attempt is lost, and whoever drops the pattern does so while nobody holds it. -/
theorem noted_since (h : Crowd.Race node moves) (pattern : String) :
    ((since node pattern).run pattern moves).crowd = Crowd.run { node } moves ∧
    (((since node pattern).run pattern moves).lost = true → .subscribe ∉ Crowd.told node pattern moves) ∧
    ∃ noted, ((since node pattern).run pattern moves).orders = (since node pattern).orders ++ noted ∧
      noted.map Prod.fst = Crowd.told node pattern moves ∧ (.unsubscribe, true) ∉ noted := by
  induction moves using List.reverseRecOn with
  | nil =>
    have htold : Crowd.told node pattern [] = [] := by simp [Crowd.told, Crowd.run]
    exact ⟨rfl, fun _ => by simp [htold], [], (List.append_nil _).symm, htold.symm, List.not_mem_nil⟩
  | append_singleton moves move ih =>
    obtain ⟨hcrowd, hlost, noted, horders, hnoted, hkept⟩ := ih h.before
    have hrun : (since node pattern).run pattern (moves ++ [move]) =
        ((since node pattern).run pattern moves).next pattern move := List.foldl_concat ..
    have hnever : failed pattern (Crowd.run { node } moves) move = false := by
      refine Bool.eq_false_iff.mpr fun hfailed => ?_
      obtain ⟨stage, cause, hconcludes⟩ := exists_error_of_failed hfailed
      cases h.answered hconcludes
    rw [hrun, Crowd.told_concat h.empty h.orderly, Crowd.run_append]
    refine ⟨congrArg (Crowd.next · move) hcrowd, fun hnow => ?_,
      noted ++ ((Crowd.run { node } moves).given pattern move).map (·, (Crowd.run { node } moves).node.table.holds pattern),
      ?_, ?_, ?_⟩
    · rw [lost_next, hcrowd, hnever, Bool.false_and, Bool.or_false, Bool.and_eq_true, Bool.not_eq_true',
        List.contains_eq_mem, decide_eq_false_iff_not] at hnow
      rw [List.mem_append]
      exact not_or_intro (hlost hnow.1) hnow.2
    · rw [orders_next, hcrowd, horders, List.append_assoc]
    · simp [hnoted, Function.comp_def]
    · rw [List.mem_append]
      refine not_or_intro hkept fun hnew => ?_
      obtain ⟨order, hgiven, heq⟩ := List.mem_map.mp hnew
      obtain ⟨rfl, hheld⟩ := Prod.mk.inj heq
      simp [((Crowd.absent_of_given h hgiven).2 rfl).2] at hheld

theorem isSubscribing_of_races (h : move.races node) : IsSubscribing move := by
  cases move with
  | start call => cases call <;> trivial
  | drop i => cases h
  | _ => trivial

/-- When all calls have come to their ends, nobody waits for the modem's answer and nobody has anything to drop. -/
theorem Sound.fair_of_finished {qos : UInt8} {ledger : Ledger} (h : ledger.Sound qos pattern)
    (hfinished : ∀ i task, ledger.crowd.task? i = some task → task.isFinished) :
    Fair (ledger.crowd.node.table.holds pattern) ledger.orders.getLast? ledger.lost False False := by
  have hnone {P : Task → Prop} (hP : ∀ answer, ¬P (.finished answer)) : ¬Any ledger.crowd P := by
    rintro ⟨i, task, htask, hholds⟩
    have hdone := hfinished i task htask
    cases task <;> cases hdone
    exact hP _ hholds
  exact h.fair.mono (iff_of_false id (hnone (Task.not_flies_finished pattern)))
    (hnone (Task.not_pends_finished qos pattern))

/-- At the end of a race the modem was last told to subscribe to exactly the patterns that somebody holds. -/
theorem last_told (h : Crowd.Race node moves)
    (hfinished : ∀ i task, (Crowd.run { node } moves).task? i = some task → task.isFinished)
    (htold : Crowd.told node pattern moves ≠ []) : (Crowd.told node pattern moves).getLast? = some .subscribe ↔
      (Crowd.run { node } moves).node.table.holds pattern = true := by
  have hnot : node.table.holds pattern = false := by
    obtain ⟨order, hmem⟩ := List.exists_mem_of_ne_nil _ htold
    obtain ⟨before, move, after, rfl, hgiven⟩ := (Crowd.mem_told h).mp hmem
    exact (Crowd.absent_of_given h hgiven).1
  obtain ⟨hcrowd, hlost, noted, horders, hnoted, hkept⟩ := noted_since h pattern
  have hfits : node.Fits := fun entry hentry => unsubscribe?_isSome_of_fits (h.fits entry hentry)
  have hsound := sound_run (sound_since h.empty hfits hnot) fun move hmove => isSubscribing_of_races (h.races move hmove)
  have hfair := hsound.fair_of_finished (hcrowd ▸ hfinished)
  obtain ⟨⟨order, held⟩, hlast⟩ : ∃ entry, noted.getLast? = some entry := by
    refine Option.ne_none_iff_exists'.mp fun hnone => htold ?_
    rw [← hnoted, List.getLast?_eq_none_iff.mp hnone]
    rfl
  rw [hcrowd, horders, List.getLast?_append, hlast, Option.some_or] at hfair
  have hlastTold : (Crowd.told node pattern moves).getLast? = some order := by
    rw [← hnoted, List.getLast?_map, hlast]
    rfl
  rw [hlastTold]
  cases order with
  | subscribe =>
    refine iff_of_true rfl ?_
    rcases hfair.subscribed rfl with hheld | hvain | hflies | hpends
    · exact hheld
    · exact absurd (List.mem_of_getLast? hlastTold) (hlost hvain)
    · exact hflies.elim
    · exact hpends.elim
  | unsubscribe =>
    obtain rfl : held = false := Bool.eq_false_iff.mpr fun hheld => hkept (hheld ▸ List.mem_of_getLast? hlast)
    exact iff_of_false (by simp) (by simp [hfair.unheld rfl])

end
end Ledger

namespace Crowd

/-- A race for the last places of the table, in whatever order its calls go on. It can always be brought to its end. Then
    as many calls have succeeded as there were places, or all, and the others have found the table full; the table has
    gained exactly the pairs of those that have succeeded; and of the patterns that the modem was told about, it was last
    told to subscribe to those that somebody holds, and has dropped the others. -/
theorem race_for_last_slots {node : Node} {moves : List Move} (h : Race node moves) :
    (∃ more, (∀ move ∈ more, ∃ i, Move.IsVisit i move) ∧
      ∀ i task, (Crowd.run { node } (moves ++ more)).task? i = some task → task.isFinished) ∧
    ((∀ i task, (Crowd.run { node } moves).task? i = some task → task.isFinished) →
      let pairs := (Crowd.calls moves).filterMap (Call.pair? node)
      let table := (Crowd.run { node } moves).node.table
      (∀ i call, (Crowd.calls moves)[i]? = some call → (call.pair? node).isSome →
        (Crowd.run { node } moves).task? i = some (.finished .done) ∨
          (Crowd.run { node } moves).task? i = some (.finished (.failed .tableFull))) ∧
      (winners node moves).length = min (node.table.capacity - node.table.entries.length) pairs.length ∧
      (∃ new, new.Perm (winners node moves) ∧ table.entries = node.table.entries ++ new) ∧ table.entries.Nodup ∧
      ∀ pattern, told node pattern moves ≠ [] →
        ((told node pattern moves).getLast? = some .subscribe ↔ table.holds pattern = true) ∧
        (.unsubscribe ∈ told node pattern moves ↔ table.holds pattern = false)) := by
  obtain ⟨new, hcontest⟩ := contest_run h
  refine ⟨all_finish h.empty h.free h.orderly (allSubscribe_of_contest hcontest), fun hfinished => ?_⟩
  refine ⟨fun i call hcall hpair => ?_, length_winners h hcontest hfinished,
    ⟨new, (perm_winners h hcontest).symm, hcontest.entries⟩, hcontest.nodup, fun pattern htold => ?_⟩
  · exact (ends_of_finished h hcontest hcall hpair (hfinished i)).imp_right And.left
  · have hlast := Ledger.last_told h hfinished htold
    refine ⟨hlast, absent_of_dropped h, fun habsent => ?_⟩
    obtain ⟨order, horder⟩ := Option.ne_none_iff_exists'.mp fun hnone => htold (List.getLast?_eq_none_iff.mp hnone)
    cases order with
    | subscribe => exact absurd (hlast.mp horder) (by simp [habsent])
    | unsubscribe => exact List.mem_of_getLast? horder

/-- Two calls ask the modem for patterns while there is one place left. The second comes too late and drops its pattern. -/
theorem race_of_two :
    let node : Node := { table := { capacity := 1 }, depth := 1 }
    let acknowledges : Move := .start (.feed (Text.encode "OK\r\n"))
    let moves : List Move :=
      [.start (.subscribe .remote "a" 0), .step 0, .step 0, .start (.subscribe .remote "b" 1), acknowledges, .step 0,
        .step 1, .step 1, acknowledges, .step 1, .step 1, .step 1, acknowledges, .step 1]
    Race node moves ∧ (∀ i task, (Crowd.run { node } moves).task? i = some task → task.isFinished) ∧
      (winners node moves).length = min 1 2 ∧ .subscribe ∈ told node "b" moves ∧ .unsubscribe ∈ told node "b" moves := by
  intro node acknowledges moves
  have hrace : Race node moves := ⟨by simp [node], rfl, rfl, by decide, by decide, by decide⟩
  have htasks : (Crowd.run { node } moves).tasks = [some (.finished .done), some (.finished (.failed .tableFull)),
      some (.finished .done), some (.finished .done), some (.finished .done)] := by decide
  have hfinished (i : Nat) (task : Task) (htask : (Crowd.run { node } moves).task? i = some task) : task.isFinished := by
    have hall : (Crowd.run { node } moves).isIdle := by
      rw [isIdle, htasks]
      rfl
    exact isFinished_of_isIdle hall htask
  have htold : .subscribe ∈ told node "b" moves := by decide
  obtain ⟨-, hends⟩ := race_for_last_slots hrace
  obtain ⟨-, hlength, -, -, hwire⟩ := hends hfinished
  obtain ⟨-, hdropped⟩ := hwire "b" (List.ne_nil_of_mem htold)
  exact ⟨hrace, hfinished, hlength, htold, hdropped.mpr (by decide)⟩

end Crowd
end SensorLink
