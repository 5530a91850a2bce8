import SensorLink.Proofs.BrokerSession
import SensorLink.Proofs.Fitting
import SensorLink.Proofs.Telling
import SensorLink.Proofs.Turns

/-! Calls to subscribe side by side, each for a new pair, while the modem acknowledges every command. The table gains the
    pairs of the calls that succeed, up to its last slot, and whoever comes too late fails (`contest_run`). -/

namespace SensorLink
open Command

/-- The pair that a call is to put into the table, if it subscribes to a proper pattern. -/
def Call.pair? (node : Node) : Call → Option Subscription
  | .subscribe scope pattern subscriber => (node.fullPattern scope pattern).toOption.map (⟨·, subscriber⟩)
  | _ => none

/-- Where the task of a call stands, the race having begun on `node` and led to `now`. -/
inductive Contends (node now : Node) (call : Call) : Task → Prop
  | outside (outside_eq : call.isOutside = true) (answer : Answer) : Contends node now call (.finished answer)
  | asks {pair : Subscription} {command : Command} {retries : Nat} {task : Task} (pair_eq : call.pair? node = some pair)
      (new : pair ∉ now.table.entries) (absent : node.table.holds pair.pattern = false)
      (aims : task.aim? = some (.subscribe pair.pattern pair.subscriber command retries))
      (owes : task.OwesOnly now.messaging.qos pair.pattern .subscribe) : Contends node now call task
  | drops {pair : Subscription} {task : Task} (pair_eq : call.pair? node = some pair) (full : now.table.isFull = true)
      (absent : now.table.holds pair.pattern = false) (aims : task.aim? = some (.unsubscribe (.failed .tableFull)))
      (owes : task.OwesOnly now.messaging.qos pair.pattern .unsubscribe) : Contends node now call task
  | won {pair : Subscription} (pair_eq : call.pair? node = some pair) (mem : pair ∈ now.table.entries) :
      Contends node now call (.finished .done)
  | lost {pair : Subscription} (pair_eq : call.pair? node = some pair) (full : now.table.isFull = true) :
      Contends node now call (.finished (.failed .tableFull))

/-- What a turn of a call comes to: the table stays as it is, or gains the pair of the call, which has succeeded then. -/
inductive Turn (node now : Node) (call : Call) (after : Node × Task) : Prop where
  | quiet (table_eq : after.1.table = now.table) (unwon : call.pair? node ≠ none → after.2 ≠ .finished .done)
      (contends : Contends node after.1 call after.2)
  | put (pair : Subscription) (pair_eq : call.pair? node = some pair) (new : pair ∉ now.table.entries)
      (room : now.table.isFull = false)
      (table_eq : after.1.table = now.table.add pair)
      (done : after.2 = .finished .done)

section
variable {node now later : Node} {call : Call} {task : Task} {stage : Stage} {pair : Subscription}

theorem pair?_eq_some_iff : call.pair? node = some pair ↔ ∃ scope pattern,
    call = .subscribe scope pattern pair.subscriber ∧ node.fullPattern scope pattern = .ok pair.pattern := by
  constructor
  · intro h
    cases call with
    | subscribe scope pattern subscriber =>
      obtain ⟨full, hfull, rfl⟩ := Option.map_eq_some_iff.mp h
      refine ⟨scope, pattern, rfl, ?_⟩
      cases hpattern : node.fullPattern scope pattern with
      | error cause =>
        rw [hpattern] at hfull
        cases hfull
      | ok full' =>
        rw [hpattern] at hfull
        cases hfull
        rfl
    | _ => cases h
  · rintro ⟨scope, pattern, rfl, hfull⟩
    rw [Call.pair?, hfull]
    rfl

theorem size_pair (h : call.pair? node = some pair) : pair.pattern.utf8ByteSize ≤ Limits.fullTopic := by
  obtain ⟨scope, pattern, -, hfull⟩ := pair?_eq_some_iff.mp h
  exact size_fullTopic (fullTopic_of_fullPattern hfull)

theorem fullPattern_congr (h : now.identity = node.identity) (scope : Scope) (pattern : String) :
    now.fullPattern scope pattern = node.fullPattern scope pattern := by
  unfold Node.fullPattern
  rw [h]

theorem Contends.frame (h : Contends node now call task) (hmessaging : later.messaging = now.messaging)
    (htable : later.table = now.table) : Contends node later call task := by
  cases h with
  | outside houtside answer => exact .outside houtside answer
  | asks hpair hnew habsent haims howes => exact .asks hpair (htable ▸ hnew) habsent haims (hmessaging ▸ howes)
  | drops hpair hfull habsent haims howes =>
    exact .drops hpair (htable ▸ hfull) (htable ▸ habsent) haims (hmessaging ▸ howes)
  | won hpair hmem => exact .won hpair (htable ▸ hmem)
  | lost hpair hfull => exact .lost hpair (htable ▸ hfull)

/-- The table gains the pair of another call. -/
theorem Contends.grow (h : Contends node now call task) (hroom : now.table.isFull = false)
    (hne : call.pair? node ≠ some pair) (hmessaging : later.messaging = now.messaging)
    (htable : later.table = now.table.add pair) : Contends node later call task := by
  cases h with
  | outside houtside answer => exact .outside houtside answer
  | asks hpair hnew habsent haims howes =>
    refine .asks hpair ?_ habsent haims (hmessaging ▸ howes)
    rw [htable, Subscriptions.add_entries hroom, List.mem_append, List.mem_singleton]
    rintro (hmem | rfl)
    · exact hnew hmem
    · exact hne hpair
  | drops _ hfull => cases hroom.symm.trans hfull
  | won hpair hmem =>
    refine .won hpair ?_
    rw [htable, Subscriptions.add_entries hroom]
    exact List.mem_append_left _ hmem
  | lost _ hfull => cases hroom.symm.trans hfull

/-! ### Turns -/

theorem Turn.of_link {after : Node × Task} {link : Link} (h : Turn node { now with link } call after) :
    Turn node now call after := by
  cases h with
  | quiet htable hunwon hcontends => exact .quiet htable hunwon hcontends
  | put pair hpair hnew hroom htable hdone => exact .put pair hpair hnew hroom htable hdone

theorem turn_enter (hpair : call.pair? node = some pair) (hnew : pair ∉ now.table.entries) :
    Turn node now call (now.enter pair.pattern pair.subscriber false) := by
  rw [enter_of_new hnew (size_pair hpair)]
  cases hfull : now.table.isFull with
  | true => exact .quiet rfl (by simp) (.lost hpair hfull)
  | false => exact .put pair hpair hnew hfull rfl rfl

/-- The modem has acknowledged a pattern, and the table has filled up meanwhile. -/
theorem turn_refused (hpair : call.pair? node = some pair) (hfull : now.table.isFull = true) :
    Turn node now call (now.release, if now.table.holds pair.pattern then .finished (.failed .tableFull)
      else now.dropPattern pair.pattern (.failed .tableFull)) := by
  cases hheld : now.table.holds pair.pattern with
  | true => exact .quiet rfl (by simp) (.lost hpair hfull)
  | false =>
    obtain ⟨command, hcommand, hdrop⟩ := dropPattern_of_fits (size_pair hpair) now (.failed .tableFull)
    have horder : order? now.messaging.qos pair.pattern .unsubscribe = some command := hcommand
    rw [if_neg (by simp), hdrop]
    exact .quiet rfl (by simp [Task.talk]) (.drops hpair hfull hheld rfl (Task.owesOnly_of_due rfl horder))

/-- The first visit of a call. -/
theorem turn_subscribe {scope : Scope} {pattern : String} (hidentity : now.identity = node.identity)
    (hpair : (Call.subscribe scope pattern pair.subscriber).pair? node = some pair) (hnew : pair ∉ now.table.entries)
    (hkept : ∀ entry ∈ node.table.entries, entry ∈ now.table.entries) :
    Turn node now (.subscribe scope pattern pair.subscriber) (now.subscribe scope pattern pair.subscriber) := by
  obtain ⟨scope', pattern', hcall, hfull⟩ := pair?_eq_some_iff.mp hpair
  cases hcall
  rw [← fullPattern_congr hidentity] at hfull
  unfold Node.subscribe
  rw [hfull]
  simp only
  cases hnovelty : now.table.novelty pair.pattern pair.subscriber with
  | duplicate =>
    unfold Subscriptions.novelty at hnovelty
    rw [if_neg hnew] at hnovelty
    split at hnovelty <;> cases hnovelty
  | existingPattern =>
    simp only
    split
    · rename_i hfull
      exact .quiet rfl (by simp) (.lost hpair hfull)
    · exact turn_enter hpair hnew
  | newPattern =>
    simp only
    have hnot : now.table.holds pair.pattern = false := by simp [Subscriptions.holds_eq_novelty pair.subscriber, hnovelty]
    split
    · rename_i hfull
      exact .quiet rfl (by simp) (.lost hpair hfull)
    · obtain ⟨command, hcommand⟩ := Option.isSome_iff_exists.mp (subscribe?_isSome (size_pair hpair) now.messaging.qos)
      have horder : order? now.messaging.qos pair.pattern .subscribe = some command := hcommand
      have habsent : node.table.holds pair.pattern = false :=
        Bool.eq_false_iff.mpr fun hheld => by simpa [hnot] using Subscriptions.holds_mono hkept hheld
      rw [hcommand]
      exact .quiet rfl (by simp [Task.talk]) (.asks hpair hnew habsent rfl (Task.owesOnly_of_due rfl horder))

/-- A turn of a call that is under way, with a modem that acknowledges what it is told. -/
theorem turn_step {written : List Bytes} {after : Node × Task} (h : Contends node now call task)
    (haim : task.aim? = some stage) (hgoes : now.Goes task stage written after)
    (hanswers : ∀ stage result, now.concludes? task.awaken = some (stage, result) → result.isOk) :
    Turn node now call after := by
  cases hgoes with
  | on link hkeeps haims hwrote =>
    have hdue : ∀ part ∈ after.2.due, part ∈ task.due := fun part hpart => hwrote ▸ List.mem_append_right _ hpart
    have hunwon : after.2 ≠ .finished .done := by
      intro hdone
      rw [hdone] at haims
      cases haims
    have htable : after.1.table = now.table := by rw [hkeeps]
    have hmessaging : after.1.messaging = now.messaging := by rw [hkeeps]
    refine .quiet htable (fun _ => hunwon) (Contends.frame ?_ hmessaging htable)
    cases h with
    | outside | won | lost => cases haim
    | asks hpair hnew habsent haims' howes =>
      exact .asks hpair hnew habsent (haims.trans (haim.symm.trans haims')) (howes.of_due hdue)
    | drops hpair hfull habsent haims' howes =>
      exact .drops hpair hfull habsent (haims.trans (haim.symm.trans haims')) (howes.of_due hdue)
  | ended link result _ hconcludes hfollows _ =>
    subst hfollows
    cases h with
    | outside | won | lost => cases haim
    | @asks pair command retries _ hpair hnew habsent haims howes =>
      obtain rfl := Option.some.inj (haim.symm.trans haims)
      cases result with
      | error cause => cases hanswers _ _ hconcludes
      | ok answer =>
        have hnew' : ⟨pair.pattern, pair.subscriber⟩ ∉ ({ now with link } : Node).table.entries := hnew
        rw [after_acknowledged hnew' (size_pair hpair)]
        split
        · rename_i hfull
          have hrefused : Turn node { now with link } call _ := turn_refused hpair hfull
          exact hrefused.of_link
        · rename_i hroom
          exact .put pair hpair hnew (by simpa using hroom) rfl rfl
    | drops hpair hfull habsent haims howes =>
      obtain rfl := Option.some.inj (haim.symm.trans haims)
      exact .quiet rfl (by simp [Node.after, Stage.next]) (.lost hpair hfull)

end

/-! ### The race -/

namespace Crowd

/-- The call for a pair has succeeded. -/
def HasWon (node : Node) (calls : List Call) (crowd : Crowd) (pair : Subscription) : Prop :=
  ∃ i call, calls[i]? = some call ∧ call.pair? node = some pair ∧ crowd.task? i = some (.finished .done)

/-- How a race stands that began on `node`: the table has gained the pairs `new` of the calls that have succeeded. -/
structure Contest (node : Node) (calls : List Call) (crowd : Crowd) (new : List Subscription) : Prop where
  capacity : crowd.node.table.capacity = node.table.capacity
  entries : crowd.node.table.entries = node.table.entries ++ new
  nodup : crowd.node.table.entries.Nodup
  won : ∀ pair, pair ∈ new ↔ HasWon node calls crowd pair
  room : new ≠ [] → crowd.node.table.entries.length ≤ node.table.capacity
  contends : ∀ i task, crowd.task? i = some task → ∃ call, calls[i]? = some call ∧ Contends node crowd.node call task

theorem Contest.kept {node : Node} {calls : List Call} {crowd : Crowd} {new : List Subscription}
    (h : Contest node calls crowd new) : ∀ entry ∈ node.table.entries, entry ∈ crowd.node.table.entries := fun _ hentry =>
  h.entries ▸ List.mem_append_left _ hentry

/-- A move of a race: a call for some pair, a step, or something that happens around the node. -/
def Move.races (node : Node) : Move → Bool
  | .start call => call.isOutside || (call.pair? node).isSome
  | .step _ | .advance _ => true
  | .drop _ => false

theorem Move.isOrderly_of_races {node : Node} {move : Move} (h : move.races node) : move.IsOrderly := by
  cases move with
  | start call =>
    rintro expected rfl
    cases h
  | _ => trivial

/-- Every request that comes to an end in a run has been acknowledged in time. -/
def allAcknowledged (crowd : Crowd) : List Move → Bool
  | [] => true
  | move :: rest => (crowd.concludes? move).all (·.2.isOk) && (crowd.next move).allAcknowledged rest

theorem allAcknowledged_append (crowd : Crowd) (first rest : List Move) : crowd.allAcknowledged (first ++ rest) =
    (crowd.allAcknowledged first && (crowd.run first).allAcknowledged rest) := by
  induction first generalizing crowd with
  | nil => rfl
  | cons move first ih =>
    rw [List.cons_append, allAcknowledged, ih, allAcknowledged, Bool.and_assoc]
    rfl

/-- Calls race for places in the table of `node`: each is for a new pair of its own, nobody unsubscribes or is given up,
    and the modem acknowledges every command in time. -/
structure Race (node : Node) (moves : List Move) : Prop where
  fits : ∀ entry ∈ node.table.entries, entry.pattern.utf8ByteSize ≤ Limits.fullTopic
  empty : node.link.intake.slot.question = none
  free : node.link.held = false
  races : ∀ move ∈ moves, move.races node
  distinct : (node.table.entries ++ (Crowd.calls moves).filterMap (Call.pair? node)).Nodup
  answers : allAcknowledged { node } moves

namespace Race
variable {node : Node} {first rest moves : List Move}

theorem before (h : Race node (first ++ rest)) : Race node first where
  fits := h.fits
  empty := h.empty
  free := h.free
  races move hmove := h.races move (List.mem_append_left _ hmove)
  distinct := by
    have hdistinct := h.distinct
    rw [calls_append, List.filterMap_append, ← List.append_assoc] at hdistinct
    exact (List.nodup_append.mp hdistinct).1
  answers := by
    have hanswers := h.answers
    rw [allAcknowledged_append, Bool.and_eq_true] at hanswers
    exact hanswers.1

theorem pairs (h : Race node moves) : ((Crowd.calls moves).filterMap (Call.pair? node)).Nodup :=
  (List.nodup_append.mp h.distinct).2.1

theorem orderly (h : Race node moves) : ∀ move ∈ moves, move.IsOrderly := fun move hmove =>
  Move.isOrderly_of_races (h.races move hmove)

theorem exclusive (h : Race node moves) : (Crowd.run { node } moves).Exclusive :=
  exclusive_run (exclusive_fresh h.empty) h.orderly

theorem answered {move : Move} {stage : Stage} {result : Dialogue.Result} (h : Race node (moves ++ [move]))
    (hconcludes : (Crowd.run { node } moves).concludes? move = some (stage, result)) : result.isOk := by
  have hanswers := h.answers
  rw [allAcknowledged_append, Bool.and_eq_true] at hanswers
  simpa [allAcknowledged, hconcludes] using hanswers.2

end Race

section
variable {node : Node} {calls : List Call} {crowd after : Crowd} {new : List Subscription} {pair : Subscription}
  {i j : Nat} {task : Task} {call other : Call} {moves : List Move}

theorem eq_of_pair? (hdistinct : (calls.filterMap (Call.pair? node)).Nodup) (hi : calls[i]? = some call)
    (hj : calls[j]? = some other) (hcall : call.pair? node = some pair) (hother : other.pair? node = some pair) :
    i = j := by
  obtain ⟨hi', rfl⟩ := List.getElem?_eq_some_iff.mp hi
  obtain ⟨hj', rfl⟩ := List.getElem?_eq_some_iff.mp hj
  rw [List.Nodup, List.pairwise_filterMap, List.pairwise_iff_getElem] at hdistinct
  rcases Nat.lt_trichotomy i j with hlt | heq | hlt
  · exact absurd rfl (hdistinct i j hi' hj' hlt pair hcall pair hother)
  · exact heq
  · exact absurd rfl (hdistinct j i hj' hi' hlt pair hother pair hcall)

/-- Who has succeeded after a turn of call `i`, which had not succeeded before. -/
theorem hasWon_turn {calls' : List Call} (hcall : calls'[i]? = some call)
    (hothers : ∀ j ≠ i, calls'[j]? = calls[j]? ∧ after.task? j = crowd.task? j) (htask : after.task? i = some task)
    (hbefore : crowd.task? i ≠ some (.finished .done)) (pair : Subscription) : HasWon node calls' after pair ↔
      HasWon node calls crowd pair ∨ call.pair? node = some pair ∧ task = .finished .done := by
  constructor
  · rintro ⟨j, other, hother, hpair, hdone⟩
    by_cases hj : j = i
    · subst hj
      obtain rfl : call = other := Option.some.inj (hcall.symm.trans hother)
      exact .inr ⟨hpair, Option.some.inj (htask.symm.trans hdone)⟩
    · obtain ⟨hcalls, htasks⟩ := hothers j hj
      exact .inl ⟨j, other, hcalls.symm.trans hother, hpair, htasks.symm.trans hdone⟩
  · rintro (⟨j, other, hother, hpair, hdone⟩ | ⟨hpair, rfl⟩)
    · have hj : j ≠ i := by
        rintro rfl
        exact hbefore hdone
      obtain ⟨hcalls, htasks⟩ := hothers j hj
      exact ⟨j, other, hcalls.trans hother, hpair, htasks.trans hdone⟩
    · exact ⟨i, call, hcall, hpair, htask⟩

/-- A call has had a turn. -/
theorem contest_turn {calls' : List Call} (h : Contest node calls crowd new)
    (hdistinct : (calls'.filterMap (Call.pair? node)).Nodup) (hcall : calls'[i]? = some call)
    (hothers : ∀ j ≠ i, calls'[j]? = calls[j]? ∧ after.task? j = crowd.task? j) (htask : after.task? i = some task)
    (hbefore : crowd.task? i ≠ some (.finished .done)) (hmessaging : after.node.messaging = crowd.node.messaging)
    (hturn : Turn node crowd.node call (after.node, task)) : ∃ new, Contest node calls' after new := by
  have hwon (pair : Subscription) : HasWon node calls' after pair ↔
      HasWon node calls crowd pair ∨ call.pair? node = some pair ∧ task = .finished .done :=
    hasWon_turn hcall hothers htask hbefore pair
  have hcontends (hself : Contends node after.node call task)
      (hother : ∀ j ≠ i, ∀ made other, calls'[j]? = some made → Contends node crowd.node made other →
        Contends node after.node made other) (j : Nat) (other : Task) (hj : after.task? j = some other) :
      ∃ made, calls'[j]? = some made ∧ Contends node after.node made other := by
    by_cases hji : j = i
    · subst hji
      obtain rfl : task = other := Option.some.inj (htask.symm.trans hj)
      exact ⟨call, hcall, hself⟩
    · obtain ⟨hcalls, htasks⟩ := hothers j hji
      obtain ⟨made, hmade, hmadeContends⟩ := h.contends j other (htasks.symm.trans hj)
      exact ⟨made, hcalls.trans hmade, hother j hji made other (hcalls.trans hmade) hmadeContends⟩
  cases hturn with
  | quiet htable hunwon hself =>
    have htable : after.node.table = crowd.node.table := htable
    refine ⟨new, htable ▸ h.capacity, htable ▸ h.entries, htable ▸ h.nodup, fun pair => ?_, htable ▸ h.room,
      hcontends hself fun _ _ _ _ _ hmade => hmade.frame hmessaging htable⟩
    rw [hwon, h.won, or_iff_left]
    rintro ⟨hpair, hdone⟩
    exact hunwon (by simp [hpair]) hdone
  | put pair hpair hnew hroom htable hdone =>
    have htable : after.node.table = crowd.node.table.add pair := htable
    have hentries : after.node.table.entries = crowd.node.table.entries ++ [pair] := by
      rw [htable, Subscriptions.add_entries hroom]
    have hdone : task = .finished .done := hdone
    refine ⟨new ++ [pair], by rw [htable, Subscriptions.add_capacity, ← h.capacity], ?_, ?_, fun other => ?_, fun _ => ?_, hcontends ?_ ?_⟩
    · rw [hentries, h.entries, List.append_assoc]
    · rw [hentries]
      exact (List.perm_append_singleton pair _).nodup_iff.mpr (List.nodup_cons.mpr ⟨hnew, h.nodup⟩)
    · rw [hwon, List.mem_append, List.mem_singleton, h.won]
      simp [hpair, hdone, eq_comm]
    · have hlt : crowd.node.table.entries.length < crowd.node.table.capacity := by
        simpa [Subscriptions.isFull] using hroom
      rw [hentries, List.length_append, List.length_singleton, ← h.capacity]
      exact hlt
    · rw [hdone]
      exact .won hpair (hentries ▸ List.mem_append_right _ List.mem_cons_self)
    · intro j hj made other hmade hmadeContends
      refine hmadeContends.grow hroom (fun hsame => hj ?_) hmessaging htable
      exact eq_of_pair? hdistinct hmade hcall hsame hpair

/-! ### Moves and runs -/

theorem pair?_of_isOutside (h : call.isOutside = true) : call.pair? node = none := by
  cases call <;> first | rfl | cases h

/-- The pair of a call that has not been made yet is not in the table. -/
theorem notMem_of_distinct (h : Contest node calls crowd new) (hlength : calls.length = crowd.tasks.length)
    (hdistinct : (node.table.entries ++ (calls ++ [call]).filterMap (Call.pair? node)).Nodup)
    (hpair : call.pair? node = some pair) : pair ∉ crowd.node.table.entries := by
  obtain ⟨-, hpairs, hapart⟩ := List.nodup_append.mp hdistinct
  rw [h.entries, List.mem_append]
  rintro (hold | hmem)
  · have hpairMem : pair ∈ (calls ++ [call]).filterMap (Call.pair? node) :=
      List.mem_filterMap.mpr ⟨call, List.mem_append_right _ List.mem_cons_self, hpair⟩
    exact hapart pair hold pair hpairMem rfl
  · obtain ⟨j, other, hother, hotherPair, hdone⟩ := (h.won pair).mp hmem
    have hlt : j < calls.length := hlength ▸ lt_of_task? hdone
    have hj : (calls ++ [call])[j]? = some other := by rw [List.getElem?_append_left hlt, hother]
    exact Nat.ne_of_lt hlt (eq_of_pair? hpairs hj List.getElem?_concat_length hotherPair hpair)

theorem contest_start (h : Contest node calls crowd new) (hlength : calls.length = crowd.tasks.length)
    (hidentity : crowd.node.identity = node.identity) (hcall : call.isOutside = true ∨ (call.pair? node).isSome = true)
    (hdistinct : (node.table.entries ++ (calls ++ [call]).filterMap (Call.pair? node)).Nodup) :
    ∃ new, Contest node (calls ++ [call]) (crowd.next (.start call)) new := by
  have hpairs : ((calls ++ [call]).filterMap (Call.pair? node)).Nodup := (List.nodup_append.mp hdistinct).2.1
  have hself : (calls ++ [call])[crowd.tasks.length]? = some call := by rw [← hlength, List.getElem?_concat_length]
  have hothers (j : Nat) (hj : j ≠ crowd.tasks.length) :
      (calls ++ [call])[j]? = calls[j]? ∧ (crowd.next (.start call)).task? j = crowd.task? j := by
    refine ⟨?_, by rw [task?_start, if_neg hj]⟩
    rcases Nat.lt_or_ge j calls.length with hlt | hge
    · exact List.getElem?_append_left hlt
    · have hgt : calls.length < j := Nat.lt_of_le_of_ne hge (hlength ▸ Ne.symm hj)
      rw [List.getElem?_eq_none hge, List.getElem?_eq_none (by rw [List.length_append]; exact hgt)]
  have hbefore : crowd.task? crowd.tasks.length ≠ some (.finished .done) := fun hdone =>
    Nat.lt_irrefl _ (lt_of_task? hdone)
  have hturn : Turn node crowd.node call (call.start crowd.node) := by
    rcases hcall with houtside | hsome
    · obtain ⟨htable, hfinished⟩ := start_isOutside houtside crowd.node
      refine .quiet htable (fun hpair => absurd (pair?_of_isOutside houtside) hpair) ?_
      cases htask : (call.start crowd.node).2 with
      | finished answer => exact .outside houtside answer
      | _ =>
        rw [htask] at hfinished
        cases hfinished
    · obtain ⟨pair, hpair⟩ := Option.isSome_iff_exists.mp hsome
      obtain ⟨scope, pattern, rfl, -⟩ := pair?_eq_some_iff.mp hpair
      exact turn_subscribe hidentity hpair (notMem_of_distinct h hlength hdistinct hpair) h.kept
  have htask : (crowd.next (.start call)).task? crowd.tasks.length = some (call.start crowd.node).2 := by
    rw [task?_start, if_pos rfl]
  exact contest_turn h hpairs hself hothers htask hbefore (settings_next crowd (.start call)).2 hturn

theorem contest_step (h : Contest node calls crowd new) (hexclusive : crowd.Exclusive)
    (hdistinct : (calls.filterMap (Call.pair? node)).Nodup)
    (hanswers : ∀ stage result, crowd.concludes? (.step i) = some (stage, result) → result.isOk) :
    ∃ new, Contest node calls (crowd.next (.step i)) new := by
  cases htask : crowd.task? i with
  | none =>
    rw [next_step_none htask]
    exact ⟨new, h⟩
  | some task =>
    obtain ⟨call, hcall, hcontends⟩ := h.contends i task htask
    cases haim : task.aim? with
    | none =>
      have hfinished : task.isFinished := by
        cases hcontends with
        | outside | won | lost => rfl
        | asks _ _ _ haims | drops _ _ _ haims => cases haims.symm.trans haim
      rw [next_step htask, step_finished hfinished, set_self htask]
      exact ⟨new, h⟩
    | some stage =>
      obtain ⟨written, -, hgoes⟩ := step_goes hexclusive htask haim
      have hturn : Turn node crowd.node call (crowd.node.step task.awaken) :=
        turn_step hcontends haim hgoes fun stage result hconcludes =>
          hanswers stage result ((concludes?_step htask).trans hconcludes)
      have hbefore : crowd.task? i ≠ some (.finished .done) := by
        rw [htask]
        rintro ⟨⟩
        cases haim
      have hnode : (crowd.next (.step i)).node = (crowd.node.step task.awaken).1 := by rw [next_step htask]
      refine contest_turn h hdistinct hcall (fun j hj => ⟨rfl, by rw [task?_step htask, if_neg (Ne.symm hj)]⟩)
        (by rw [task?_step htask, if_pos rfl]) hbefore (settings_next crowd (.step i)).2 ?_
      rw [hnode]
      exact hturn

theorem contest_run (h : Race node moves) : ∃ new, Contest node (Crowd.calls moves) (Crowd.run { node } moves) new := by
  induction moves using List.reverseRecOn with
  | nil =>
    refine ⟨[], rfl, (List.append_nil _).symm, (List.nodup_append.mp h.distinct).1, fun pair => ?_, fun hne => ?_, ?_⟩
    · refine iff_of_false (by simp) ?_
      rintro ⟨i, call, hcall, -⟩
      cases hcall
    · exact absurd rfl hne
    · intro i task htask
      simp [run, task?] at htask
  | append_singleton moves move ih =>
    obtain ⟨new, hcontest⟩ := ih h.before
    rw [run_append]
    cases move with
    | start call =>
      have hcall : call.isOutside = true ∨ (call.pair? node).isSome = true :=
        Bool.or_eq_true_iff.mp (h.races (.start call) (by simp))
      have hdistinct := h.distinct
      rw [calls_append] at hdistinct ⊢
      exact contest_start hcontest (length_calls node moves) (settings_run { node } moves).1 hcall hdistinct
    | step i =>
      rw [calls_concat_of_none moves rfl]
      exact contest_step hcontest h.before.exclusive h.before.pairs fun stage result => h.answered
    | drop i => cases h.races (.drop i) (by simp)
    | advance time =>
      rw [calls_concat_of_none moves rfl]
      refine ⟨new, hcontest.capacity, hcontest.entries, hcontest.nodup, hcontest.won, hcontest.room, fun i task htask => ?_⟩
      obtain ⟨call, hcall, hcontends⟩ := hcontest.contends i task htask
      exact ⟨call, hcall, hcontends.frame rfl rfl⟩

end
end Crowd
end SensorLink
