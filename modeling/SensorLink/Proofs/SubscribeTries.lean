import SensorLink.Proofs.Bystanders
import SensorLink.Proofs.Transcribing

/-! How often a call to subscribe asks the modem. A pair that is there, a pattern that somebody holds, and a table without
    room are no matter for the modem. Any other pattern is asked for until the modem acknowledges it or the tries are used
    up, and only what has been acknowledged comes into the table (`Crowd.subscribe_tries`). -/

namespace SensorLink
open Dialogue

/-- The request that asks for a pattern with this command. -/
def Node.subscribeRequest (node : Node) (command : Command) : Request :=
  .command command.text Command.acknowledged node.messaging.commandTimeout

section
variable {node : Node} {scope : Scope} {pattern full : String} {subscriber : Subscriber}

/-! ### What the call finds -/

section
variable (hfull : node.fullPattern scope pattern = .ok full)
include hfull

theorem subscribe_present (h : ⟨full, subscriber⟩ ∈ node.table.entries) :
    node.subscribe scope pattern subscriber = (node, .finished .done) := by
  have hnovelty : node.table.novelty full subscriber = .duplicate := if_pos h
  simp only [Node.subscribe, hfull, hnovelty]

theorem subscribe_full (h : ⟨full, subscriber⟩ ∉ node.table.entries) (hroom : node.table.isFull = true) :
    node.subscribe scope pattern subscriber = (node, .finished (.failed .tableFull)) := by
  have hnovelty := Subscriptions.novelty_of_new h
  cases hheld : node.table.holds full <;> simp [Node.subscribe, hfull, hnovelty, hheld, hroom]

theorem subscribe_held (h : ⟨full, subscriber⟩ ∉ node.table.entries) (hroom : node.table.isFull = false)
    (hheld : node.table.holds full = true) : node.subscribe scope pattern subscriber =
      ({ node with table := node.table.add ⟨full, subscriber⟩ }, .finished .done) := by
  have hnovelty := Subscriptions.novelty_of_new h
  have hfits := size_fullTopic (fullTopic_of_fullPattern hfull)
  simp only [Node.subscribe, hfull, hnovelty, hheld, if_true, hroom]
  rw [enter_of_new h hfits]
  simp [hroom]

theorem subscribe_new (hroom : node.table.isFull = false) (hheld : node.table.holds full = false) {command : Command}
    (hcommand : Command.subscribe? full node.messaging.qos = some command) :
    node.subscribe scope pattern subscriber = (node, .talk (node.subscribeRequest command)
      (.subscribe full subscriber command node.messaging.subscribeRetries.toNat)) := by
  have hnovelty := Subscriptions.novelty_of_new (Subscriptions.notMem_of_not_holds hheld subscriber)
  simp [Node.subscribe, hfull, hnovelty, hheld, hroom, hcommand, Node.subscribeRequest]

end

end

/-! ### The task -/

/-- What has been said for a pattern: one request over and over, with these results. -/
structure Transcript.Repeats (said : Transcript) (request : Request) (results : List Result) : Prop where
  requests : ∀ round ∈ said.rounds, round.request = request
  results : said.rounds.map Round.result = results

/-- The task of a call that asks for a pattern which was new at `origin`. -/
inductive Node.Subscribes (origin : Node) (full : String) (subscriber : Subscriber) (command : Command) (node : Node)
    (said : Transcript) (task : Task) : Prop where
  | trying (table : node.table = origin.table) (messaging : node.messaging = origin.messaging)
      (waits : task.stage? = none → node.link.held = origin.link.held) (failures : List (Failure Fault)) (retries : Nat)
      (tries : failures.length + retries = origin.messaging.subscribeRetries.toNat)
      (repeats : said.Repeats (origin.subscribeRequest command) (failures.map .error))
      (speaks : task.Speaks (origin.subscribeRequest command) (.subscribe full subscriber command retries) said)
  | done (table : node.table = origin.table.add ⟨full, subscriber⟩) (finished : task = .finished .done)
      (failures : List (Failure Fault)) (answer : String) (few : failures.length ≤ origin.messaging.subscribeRetries.toNat)
      (repeats : said.Repeats (origin.subscribeRequest command) (failures.map .error ++ [.ok answer]))
      (silent : said.current = none)
  | failed (table : node.table = origin.table) (failures : List (Failure Fault)) (cause : Failure Fault)
      (finished : task = .finished (.failed cause)) (all : failures.length = origin.messaging.subscribeRetries.toNat)
      (repeats : said.Repeats (origin.subscribeRequest command) (failures.map .error ++ [.error cause]))
      (silent : said.current = none)

section
variable {origin node : Node} {full : String} {subscriber : Subscriber} {command : Command} {said later : Transcript}
  {task : Task} {request : Request} {results : List Result}

theorem Transcript.Repeats.concat (h : said.Repeats request results) {written : List Bytes} {result : Result} {time : Nat}
    (hpast : later.past = said.past ++ [.round { request, written, result, ended := time }]) :
    later.Repeats request (results ++ [result]) := by
  have hrounds : later.rounds = said.rounds ++ [{ request, written, result, ended := time }] := by
    rw [Transcript.rounds, hpast, List.filterMap_append]
    rfl
  refine ⟨?_, ?_⟩
  · rw [hrounds]
    exact List.forall_mem_append.mpr ⟨h.requests, List.forall_mem_singleton.mpr rfl⟩
  · rw [hrounds, List.map_append, h.results]
    rfl

theorem Transcript.Repeats.of_past (h : said.Repeats request results) (hpast : later.past = said.past) :
    later.Repeats request results := by
  have hrounds : later.rounds = said.rounds := by rw [Transcript.rounds, hpast]; rfl
  exact ⟨hrounds ▸ h.requests, hrounds ▸ h.results⟩

/-- The modem has acknowledged a pattern for a new pair, and the table has room for it. -/
theorem after_acknowledged_room (node : Node) (hnew : ⟨full, subscriber⟩ ∉ node.table.entries)
    (hfits : full.utf8ByteSize ≤ Limits.fullTopic) (hroom : node.table.isFull = false) (command : Command) (retries : Nat)
    (answer : String) : node.after (.subscribe full subscriber command retries) (.ok answer) =
      (({ node with table := node.table.add ⟨full, subscriber⟩ } : Node).release, .finished .done) := by
  rw [after_acknowledged hnew hfits, hroom]
  rfl

/-- While the pattern is new and the table has room, the task goes on asking, or has come to its end. -/
theorem subscribes_step (hnew : ⟨full, subscriber⟩ ∉ origin.table.entries) (hfits : full.utf8ByteSize ≤ Limits.fullTopic)
    (hroom : origin.table.isFull = false) (h : origin.Subscribes full subscriber command node said task) :
    origin.Subscribes full subscriber command (node.step task.awaken).1 (said.next node task.awaken)
      (node.step task.awaken).2 := by
  cases h with
  | trying htable hmessaging hwaits failures retries htries hrepeats hspeaks =>
    cases speaks_step node hspeaks with
    | on link hkeeps hspeaks' hpast hstays =>
      refine .trying ?_ ?_ (fun hnone => ?_) failures retries htries (hrepeats.of_past hpast) hspeaks'
      · rw [hkeeps]
        exact htable
      · rw [hkeeps]
        exact hmessaging
      · rcases hstays with houtside | ⟨hold, hparked⟩
        · rcases step_outside node houtside with ⟨hlink, -⟩ | ⟨request, stage, -, hafter⟩
          · exact hlink.held.trans (hwaits houtside)
          · rw [hafter] at hnone
            cases hnone
        · rw [hparked] at hnone
          cases hnone
    | ended link result written hfollows hpast hsilent =>
      have hlater := hrepeats.concat hpast
      rw [hfollows]
      cases result with
      | ok answer =>
        rw [after_acknowledged_room { node with link } (htable ▸ hnew) hfits (htable ▸ hroom)]
        refine .done ?_ rfl failures answer (htries ▸ Nat.le_add_right _ _) hlater hsilent
        exact congrArg (Subscriptions.add · ⟨full, subscriber⟩) htable
      | error cause =>
        cases retries with
        | zero =>
          have hall : failures.length = origin.messaging.subscribeRetries.toNat := htries
          exact .failed htable failures cause rfl hall hlater hsilent
        | succ retries =>
          have hasks : ({ node with link } : Node).after (.subscribe full subscriber command (retries + 1)) (.error cause) =
              ({ node with link }, .asking (origin.subscribeRequest command) (.subscribe full subscriber command retries)) := by
            show (_, Task.asking (Request.command _ _ node.messaging.commandTimeout) _) = _
            rw [hmessaging]
            rfl
          have htries' : (failures ++ [cause]).length + retries = origin.messaging.subscribeRetries.toNat := by
            rw [List.length_append, List.length_singleton]
            omega
          have hlater' : (said.next node task.awaken).Repeats (origin.subscribeRequest command)
              ((failures ++ [cause]).map .error) := by
            rw [List.map_append]
            exact hlater
          rw [hasks]
          exact .trying htable hmessaging nofun (failures ++ [cause]) retries htries' hlater' (.asks rfl hsilent)
  | done htable hfinished failures answer hfew hrepeats hsilent =>
    subst hfinished
    rw [next_finished rfl hsilent node]
    exact .done htable rfl failures answer hfew hrepeats hsilent
  | failed htable failures cause hfinished hall hrepeats hsilent =>
    subst hfinished
    rw [next_finished rfl hsilent node]
    exact .failed htable failures cause rfl hall hrepeats hsilent

/-- The task comes to its end if it finds the modem free. -/
theorem ends_subscribe {crowd : Crowd} {i retries : Nat} (hnew : ⟨full, subscriber⟩ ∉ crowd.node.table.entries)
    (hfits : full.utf8ByteSize ≤ Limits.fullTopic) (hroom : crowd.node.table.isFull = false)
    (htask : crowd.task? i = some task) (haim : task.aim? = some (.subscribe full subscriber command retries))
    (hfree : task.stage? = none → crowd.node.link.held = false) : ∃ visits, (∀ move ∈ visits, Crowd.Move.IsVisit i move) ∧
      ∃ answer, (crowd.run visits).task? i = some (.finished answer) := by
  induction retries generalizing crowd task with
  | zero =>
    obtain ⟨visits, link, result, hvisits, hrun⟩ := Crowd.aim_ends htask haim hfree
    refine ⟨visits, hvisits, ?_⟩
    rw [hrun, Crowd.task?_went htask]
    cases result with
    | ok answer =>
      rw [after_acknowledged_room { crowd.node with link } hnew hfits hroom]
      exact ⟨.done, rfl⟩
    | error cause => exact ⟨.failed cause, rfl⟩
  | succ retries ih =>
    obtain ⟨visits, link, result, hvisits, hrun⟩ := Crowd.aim_ends htask haim hfree
    have hafter := Crowd.task?_went htask (({ crowd.node with link } : Node).after
      (.subscribe full subscriber command (retries + 1)) result)
    rw [← hrun] at hafter
    cases result with
    | ok answer =>
      refine ⟨visits, hvisits, .done, ?_⟩
      rw [hafter, after_acknowledged_room { crowd.node with link } hnew hfits hroom]
    | error cause =>
      have htable : (crowd.run visits).node.table = crowd.node.table := by
        rw [hrun]
        rfl
      obtain ⟨more, hmore, hend⟩ := ih (htable ▸ hnew) (htable ▸ hroom) hafter rfl nofun
      refine ⟨visits ++ more, List.forall_mem_append.mpr ⟨hvisits, hmore⟩, ?_⟩
      rw [Crowd.run_append]
      exact hend

/-! ### What the call comes to -/

/-- What a call to put a pair into the table has come to, from `node` on, when it has said this and led to the table. -/
structure Node.Entered (node : Node) (pair : Subscription) (said : Transcript) (answer : Answer) (table : Subscriptions) :
    Prop where
  tried : said.rounds = [] ∨ Tried node.messaging.subscribeRetries.toNat (said.rounds.map Round.result)
  done_iff : answer = .done ↔ pair ∈ node.table.entries ∨
    node.table.isFull = false ∧ (node.table.holds pair.pattern ∨ ∃ round ∈ said.rounds, round.result.isOk)
  entries : answer = .done → table.capacity = node.table.capacity ∧
    table.entries = if pair ∈ node.table.entries then node.table.entries else node.table.entries ++ [pair]
  failed : answer ≠ .done → table = node.table ∧ (answer = .failed .tableFull ∧ node.table.isFull ∨
    ∃ cause, answer = .failed cause ∧ (said.rounds.map Round.result).getLast? = some (.error cause))

theorem entries_add {table : Subscriptions} {pair : Subscription} (hnew : pair ∉ table.entries) (hroom : table.isFull = false) :
    (table.add pair).capacity = table.capacity ∧
      (table.add pair).entries = if pair ∈ table.entries then table.entries else table.entries ++ [pair] := by
  rw [if_neg hnew]
  exact ⟨Subscriptions.add_capacity _ _, Subscriptions.add_entries hroom _⟩

/-- The request has been put once for each result, and may be under way once more. -/
theorem Transcript.Repeats.requests_eq (h : said.Repeats request results) :
    said.requests = List.replicate results.length request ++ (said.current.map Prod.fst).toList := by
  have hpast : said.rounds.map Round.request = List.replicate said.rounds.length request := by
    refine List.eq_replicate_iff.mpr ⟨List.length_map _, fun made hmade => ?_⟩
    obtain ⟨round, hround, rfl⟩ := List.mem_map.mp hmade
    exact h.requests round hround
  have hlength : said.rounds.length = results.length := by rw [← h.results, List.length_map]
  rw [Transcript.requests, hpast, hlength]

theorem Transcript.Repeats.of_silent (h : said.Repeats request results) (hsilent : said.current = none) :
    said.requests.length = results.length ∧ ∀ made ∈ said.requests, made = request := by
  have hrequests := h.requests_eq
  rw [hsilent] at hrequests
  have hall : said.requests = List.replicate results.length request := hrequests.trans (List.append_nil _)
  rw [hall]
  exact ⟨List.length_replicate, fun made hmade => List.eq_of_mem_replicate hmade⟩

theorem Transcript.Repeats.of_speaks {stage : Stage} (h : said.Repeats request results)
    (hspeaks : task.Speaks request stage said) :
    said.requests.length ≤ results.length + 1 ∧ ∀ made ∈ said.requests, made = request := by
  cases hspeaks with
  | waits hawaken hsilent | asks hasks hsilent =>
    obtain ⟨hlength, hall⟩ := h.of_silent hsilent
    exact ⟨hlength ▸ Nat.le_succ _, hall⟩
  | listens hold hawaken written hcurrent =>
    have hrequests := h.requests_eq
    rw [hcurrent] at hrequests
    have hall : said.requests = List.replicate (results.length + 1) request :=
      hrequests.trans List.replicate_succ'.symm
    rw [hall]
    exact ⟨(List.length_replicate).le, fun made hmade => List.eq_of_mem_replicate hmade⟩

theorem Transcript.Repeats.not_ok {causes : List (Failure Fault)} (h : said.Repeats request (causes.map .error)) :
    ∀ round ∈ said.rounds, ¬round.result.isOk := by
  intro round hround
  have hmem : round.result ∈ causes.map Except.error := h.results ▸ List.mem_map_of_mem hround
  obtain ⟨cause, -, hcause⟩ := List.mem_map.mp hmem
  rw [← hcause]
  exact nofun

theorem entered_of_done {pair : Subscription} (hnew : pair ∉ node.table.entries) (hroom : node.table.isFull = false)
    {failures : List (Failure Fault)} {answer : String} (hfew : failures.length ≤ node.messaging.subscribeRetries.toNat)
    (h : said.Repeats request (failures.map .error ++ [.ok answer])) : node.Entered pair said .done (node.table.add pair) where
  tried := .inr ⟨failures, .ok answer, h.results, hfew, .inl rfl⟩
  done_iff := by
    have hmem : (.ok answer : Result) ∈ said.rounds.map Round.result := by
      rw [h.results]
      simp
    obtain ⟨round, hround, hresult⟩ := List.mem_map.mp hmem
    exact iff_of_true rfl (.inr ⟨hroom, .inr ⟨round, hround, hresult ▸ rfl⟩⟩)
  entries _ := entries_add hnew hroom
  failed hne := absurd rfl hne

theorem entered_of_failed {pair : Subscription} (hnew : pair ∉ node.table.entries)
    (hheld : node.table.holds pair.pattern = false) {failures : List (Failure Fault)} {cause : Failure Fault}
    (hall : failures.length = node.messaging.subscribeRetries.toNat)
    (h : said.Repeats request (failures.map .error ++ [.error cause])) :
    node.Entered pair said (.failed cause) node.table where
  tried := .inr ⟨failures, .error cause, h.results, hall.le, .inr hall⟩
  done_iff := by
    have hcauses : failures.map Except.error ++ [.error cause] = ((failures ++ [cause]).map .error : List Result) := by simp
    rw [hcauses] at h
    refine iff_of_false nofun ?_
    rintro (hmem | ⟨-, hpattern | ⟨round, hround, hok⟩⟩)
    · exact hnew hmem
    · cases hheld.symm.trans hpattern
    · exact h.not_ok round hround hok
  entries := nofun
  failed _ := ⟨rfl, .inr ⟨cause, rfl, by rw [h.results, List.getLast?_concat]⟩⟩

/-- What the modem need not be asked for comes to its end at once. -/
theorem subscribe_settled {scope : Scope} {pattern : String} (hfull : node.fullPattern scope pattern = .ok full)
    (h : ⟨full, subscriber⟩ ∈ node.table.entries ∨ node.table.holds full ∨ node.table.isFull) :
    ∃ after answer, node.subscribe scope pattern subscriber = (after, .finished answer) ∧
      node.Entered ⟨full, subscriber⟩ {} answer after.table := by
  by_cases hnew : ⟨full, subscriber⟩ ∈ node.table.entries
  · refine ⟨node, .done, subscribe_present hfull hnew, .inl rfl, iff_of_true rfl (.inl hnew), fun _ => ⟨rfl, ?_⟩,
      fun hne => absurd rfl hne⟩
    rw [if_pos hnew]
  cases hroom : node.table.isFull with
  | true =>
    refine ⟨node, _, subscribe_full hfull hnew hroom, .inl rfl, iff_of_false nofun ?_, nofun,
      fun _ => ⟨rfl, .inl ⟨rfl, hroom⟩⟩⟩
    rintro (hmem | ⟨hfree, -⟩)
    · exact hnew hmem
    · cases hroom.symm.trans hfree
  | false =>
    have hheld : node.table.holds full = true := by simpa [hnew, hroom] using h
    exact ⟨_, .done, subscribe_held hfull hnew hroom hheld, .inl rfl, iff_of_true rfl (.inr ⟨hroom, .inl hheld⟩),
      fun _ => entries_add hnew hroom, fun hne => absurd rfl hne⟩

namespace Node.Subscribes

theorem of_same {later : Node} (h : origin.Subscribes full subscriber command node said task)
    (hsame : node.SameMessaging later) : origin.Subscribes full subscriber command later said task := by
  cases h with
  | trying htable hmessaging hwaits failures retries htries hrepeats hspeaks =>
    exact .trying (hsame.table.trans htable) (hsame.messaging.trans hmessaging)
      (fun hnone => hsame.held.trans (hwaits hnone)) failures retries htries hrepeats hspeaks
  | done htable hfinished failures answer hfew hrepeats hsilent =>
    exact .done (hsame.table.trans htable) hfinished failures answer hfew hrepeats hsilent
  | failed htable failures cause hfinished hall hrepeats hsilent =>
    exact .failed (hsame.table.trans htable) failures cause hfinished hall hrepeats hsilent

/-- No request but the one is made, and not too often. -/
theorem asks (h : origin.Subscribes full subscriber command node said task) :
    said.requests.length ≤ origin.messaging.subscribeRetries.toNat + 1 ∧
      ∀ request ∈ said.requests, request = origin.subscribeRequest command := by
  cases h with
  | trying htable hmessaging hwaits failures retries htries hrepeats hspeaks =>
    obtain ⟨hmade, hall⟩ := hrepeats.of_speaks hspeaks
    rw [List.length_map] at hmade
    exact ⟨by omega, hall⟩
  | done htable hfinished failures answer hfew hrepeats hsilent =>
    obtain ⟨hmade, hall⟩ := hrepeats.of_silent hsilent
    rw [List.length_append, List.length_map] at hmade
    exact ⟨hmade.trans_le (Nat.succ_le_succ hfew), hall⟩
  | failed htable failures cause hfinished hlength hrepeats hsilent =>
    obtain ⟨hmade, hall⟩ := hrepeats.of_silent hsilent
    rw [List.length_append, List.length_map] at hmade
    exact ⟨hmade.trans_le (Nat.succ_le_succ hlength.le), hall⟩

/-- Until the call has come to its end, nothing has been acknowledged, and the table is what it was. -/
theorem unfinished (h : origin.Subscribes full subscriber command node said task) (hunfinished : ¬task.isFinished) :
    (∀ round ∈ said.rounds, ¬round.result.isOk) ∧ node.table = origin.table := by
  cases h with
  | trying htable hmessaging hwaits failures retries htries hrepeats hspeaks => exact ⟨hrepeats.not_ok, htable⟩
  | done htable hfinished failures answer hfew hrepeats hsilent => exact absurd (hfinished ▸ rfl) hunfinished
  | failed htable failures cause hfinished hall hrepeats hsilent => exact absurd (hfinished ▸ rfl) hunfinished

theorem entered (h : origin.Subscribes full subscriber command node said task)
    (hnew : ⟨full, subscriber⟩ ∉ origin.table.entries) (hheld : origin.table.holds full = false)
    (hroom : origin.table.isFull = false) {answer : Answer} (hanswer : task = .finished answer) :
    origin.Entered ⟨full, subscriber⟩ said answer node.table := by
  cases h with
  | trying htable hmessaging hwaits failures retries htries hrepeats hspeaks =>
    exact absurd (hanswer ▸ rfl) hspeaks.not_isFinished
  | done htable hfinished failures answer hfew hrepeats hsilent =>
    cases hfinished.symm.trans hanswer
    exact htable ▸ entered_of_done hnew hroom hfew hrepeats
  | failed htable failures cause hfinished hall hrepeats hsilent =>
    cases hfinished.symm.trans hanswer
    exact htable ▸ entered_of_failed hnew hheld hall hrepeats

end Node.Subscribes

end

/-! ### Runs -/

namespace Crowd
open Command (subscribe?)

section
variable {crowd : Crowd} {task : Task} {call : Call} {during : List Move} {after : Node} {answer : Answer}

/-- A call that comes to its end at once says nothing. -/
theorem settled_call (hidle : ∀ j task, crowd.task? j = some task → task.isFinished)
    (hcalls : ∀ call ∈ Crowd.calls during, call.isOutside) (hstart : call.start crowd.node = (after, .finished answer))
    (htask : (crowd.run (.start call :: during)).task? crowd.tasks.length = some task) :
    (crowd.run (.start call :: during)).node.table = after.table ∧
      crowd.transcript crowd.tasks.length {} (.start call :: during) = {} ∧ task = .finished answer := by
  refine follow_call (P := fun now said task => now.table = after.table ∧ said = {} ∧ task = .finished answer)
    bystands_idle Node.SameMessaging.refl (fun hsame h => ⟨hsame.table.trans h.1, h.2⟩) (fun h => ?_) hidle hcalls ?_ htask
  · obtain ⟨htable, rfl, rfl⟩ := h
    exact ⟨htable, next_finished rfl rfl _, rfl⟩
  · rw [hstart]
    exact ⟨rfl, rfl, rfl⟩

/-- A call for a pattern that is new, and for which there is room, asks for it until it has come to its end. -/
theorem subscribes_call {scope : Scope} {pattern full : String} {subscriber : Subscriber} {command : Command}
    (hidle : ∀ j task, crowd.task? j = some task → task.isFinished) (hcalls : ∀ call ∈ Crowd.calls during, call.isOutside)
    (hfull : crowd.node.fullPattern scope pattern = .ok full)
    (hcommand : subscribe? full crowd.node.messaging.qos = some command)
    (hnew : ⟨full, subscriber⟩ ∉ crowd.node.table.entries) (hheld : crowd.node.table.holds full = false)
    (hroom : crowd.node.table.isFull = false)
    (htask : (crowd.run (.start (.subscribe scope pattern subscriber) :: during)).task? crowd.tasks.length = some task) :
    crowd.node.Subscribes full subscriber command (crowd.run (.start (.subscribe scope pattern subscriber) :: during)).node
      (crowd.transcript crowd.tasks.length {} (.start (.subscribe scope pattern subscriber) :: during)) task := by
  have hstart : (Call.subscribe scope pattern subscriber).start crowd.node = _ :=
    subscribe_new hfull hroom hheld hcommand
  have hbegin : crowd.node.Subscribes full subscriber command
      ((Call.subscribe scope pattern subscriber).start crowd.node).1 {}
      ((Call.subscribe scope pattern subscriber).start crowd.node).2 := by
    rw [hstart]
    exact .trying rfl rfl (fun _ => rfl) [] crowd.node.messaging.subscribeRetries.toNat (Nat.zero_add _) ⟨nofun, rfl⟩
      (.waits rfl rfl)
  have hfits := size_fullTopic (fullTopic_of_fullPattern hfull)
  exact follow_call bystands_idle Node.SameMessaging.refl (fun hsame h => h.of_same hsame)
    (subscribes_step hnew hfits hroom) hidle hcalls hbegin htask

/-- The call comes to its end if it finds the modem free. -/
theorem subscribes_ends {origin : Node} {full : String} {subscriber : Subscriber} {command : Command} {said : Transcript}
    {i : Nat} (h : origin.Subscribes full subscriber command crowd.node said task)
    (hnew : ⟨full, subscriber⟩ ∉ origin.table.entries) (hfits : full.utf8ByteSize ≤ Limits.fullTopic)
    (hroom : origin.table.isFull = false) (htask : crowd.task? i = some task) (hfree : origin.link.held = false) :
    ∃ visits, (∀ move ∈ visits, Move.IsVisit i move) ∧ ∃ answer, (crowd.run visits).task? i = some (.finished answer) := by
  cases h with
  | trying htable hmessaging hwaits failures retries htries hrepeats hspeaks =>
    exact ends_subscribe (htable ▸ hnew) hfits (htable ▸ hroom) htask hspeaks.aim? fun hnone => (hwaits hnone).trans hfree
  | done htable hfinished failures answer hfew hrepeats hsilent => exact ⟨[], nofun, .done, hfinished ▸ htask⟩
  | failed htable failures cause hfinished hall hrepeats hsilent => exact ⟨[], nofun, _, hfinished ▸ htask⟩

end

/-- While nothing else goes on at the node, and whatever the modem does, a call to subscribe to a proper pattern goes as
    follows. It asks the modem for the full pattern and for nothing else, at most once more often than it may try again, and
    never again once the modem has acknowledged it. A pair that is there, a pattern that somebody holds, and a table without
    room are no matter for the modem. Until the call has come to its end the table stays as it was, also when it is given up.
    It succeeds exactly if the pair was there, or the table had room and the pattern was held or has been acknowledged, and
    then the pair stands once in the table, behind all others if it is new. A call that fails leaves the table as it was, and
    reports that it is full or why the last try failed.

    It comes to its end if the modem is not held by anybody, and while the modem has one user at a time it writes nothing but
    pieces of its command. -/
theorem subscribe_tries (crowd : Crowd) (hidle : ∀ j task, crowd.task? j = some task → task.isFinished) (scope : Scope)
    (pattern : String) (subscriber : Subscriber) {full : String} (hfull : crowd.node.fullPattern scope pattern = .ok full)
    (during : List Move) (hcalls : ∀ call ∈ Crowd.calls during, call.isOutside) :
    let node := crowd.node
    let retries := node.messaging.subscribeRetries.toNat
    let i := crowd.tasks.length
    let moves := .start (.subscribe scope pattern subscriber) :: during
    let last := crowd.run moves
    let said := crowd.transcript i {} moves
    ∃ command, subscribe? full node.messaging.qos = some command ∧ ∀ task, last.task? i = some task →
      (said.requests.length ≤ retries + 1 ∧ ∀ request ∈ said.requests, request = node.subscribeRequest command) ∧
      (⟨full, subscriber⟩ ∈ node.table.entries ∨ node.table.holds full ∨ node.table.isFull → said.requests = []) ∧
      (¬task.isFinished → (∀ round ∈ said.rounds, ¬round.result.isOk) ∧ last.node.table = node.table ∧
        (last.next (.drop i)).node.table = node.table) ∧
      (∀ answer, task = .finished answer → node.Entered ⟨full, subscriber⟩ said answer last.node.table) ∧
      (node.link.held = false → ∃ visits, (∀ move ∈ visits, Move.IsVisit i move) ∧
        ∃ answer, (last.run visits).task? i = some (.finished answer)) ∧
      (crowd.Exclusive → ∃ pieces : List (List Bytes), crowd.writesOf i moves = pieces.flatten ∧ pieces.length ≤ retries + 1 ∧
        ∀ piece ∈ pieces, piece <+: Dialogue.line command.text) := by
  intro node retries i moves last said
  have hfits := size_fullTopic (fullTopic_of_fullPattern hfull)
  obtain ⟨command, hcommand⟩ := Option.isSome_iff_exists.mp (subscribe?_isSome hfits node.messaging.qos)
  refine ⟨command, hcommand, fun task htask => ?_⟩
  have horderly : ∀ move ∈ moves, move.IsOrderly := isOrderly_of_calls fun call hcall => by
    rcases List.mem_cons.mp hcall with rfl | hmem
    · rfl
    · rw [hcalls call hmem]
      rfl
  have hwrites (hfew : said.requests.length ≤ retries + 1)
      (hall : ∀ request ∈ said.requests, request = node.subscribeRequest command) (hexclusive : crowd.Exclusive) :
      ∃ pieces : List (List Bytes), crowd.writesOf i moves = pieces.flatten ∧ pieces.length ≤ retries + 1 ∧
        ∀ piece ∈ pieces, piece <+: Dialogue.line command.text := by
    obtain ⟨pieces, hflat, hlength, hpieces⟩ := pieces_call hexclusive horderly htask hall
    exact ⟨pieces, hflat, hlength.trans_le hfew, hpieces⟩
  by_cases hknown : ⟨full, subscriber⟩ ∈ node.table.entries ∨ node.table.holds full ∨ node.table.isFull
  · obtain ⟨after, answer, hsubscribe, hentered⟩ := subscribe_settled hfull hknown
    have hstart : (Call.subscribe scope pattern subscriber).start crowd.node = (after, .finished answer) := hsubscribe
    obtain ⟨htable, hsaid, rfl⟩ := settled_call hidle hcalls hstart htask
    have hnothing : said.requests = [] := congrArg Transcript.requests hsaid
    have hfew : said.requests.length ≤ retries + 1 := hnothing ▸ Nat.zero_le _
    have hall : ∀ request ∈ said.requests, request = node.subscribeRequest command := hnothing ▸ nofun
    refine ⟨⟨hfew, hall⟩, fun _ => hnothing, fun hunfinished => absurd rfl hunfinished, fun answer' hanswer => ?_,
      fun _ => ⟨[], nofun, answer, htask⟩, hwrites hfew hall⟩
    cases hanswer
    rw [show said = {} from hsaid, show last.node.table = after.table from htable]
    exact hentered
  · obtain ⟨hnew, hheld, hroom⟩ : ⟨full, subscriber⟩ ∉ node.table.entries ∧ node.table.holds full = false ∧
        node.table.isFull = false := by simpa using hknown
    have h : node.Subscribes full subscriber command last.node said task :=
      subscribes_call hidle hcalls hfull hcommand hnew hheld hroom htask
    obtain ⟨hfew, hall⟩ := h.asks
    refine ⟨⟨hfew, hall⟩, fun heq => absurd heq hknown, fun hunfinished => ?_,
      fun answer hanswer => h.entered hnew hheld hroom hanswer, subscribes_ends h hnew hfits hroom htask, hwrites hfew hall⟩
    obtain ⟨hrefused, htable⟩ := h.unfinished hunfinished
    exact ⟨hrefused, htable, (frame_next_drop last i).table.trans htable⟩

/-- The modem misses the first command and acknowledges the second. -/
theorem subscribe_tries_at_distracted_modem :
    let deaf : Modem.Rule := { trigger := Text.encode "AT+MQTTSUB", uses := some 1 }
    let node : Node := { link := { rules := deaf :: obeying }, table := { capacity := 4 }, depth := 1 }
    let during : List Move := turns 0 2 ++ .advance 1000000 :: turns 0 2
    (Crowd.run { node } (.start (.subscribe .remote "p" 7) :: during)).task? 0 = some (.finished .done) ∧
      (Crowd.run { node } (.start (.subscribe .remote "p" 7) :: during)).node.table.entries = [⟨"p", 7⟩] ∧
      (Crowd.transcript 0 { node } {} (.start (.subscribe .remote "p" 7) :: during)).rounds.map (·.result.isOk) =
        [false, true] := by
  intro deaf node during
  have hend : (Crowd.run { node } (.start (.subscribe .remote "p" 7) :: during)).task? 0 = some (.finished .done) := by
    decide +kernel
  obtain ⟨command, -, hall⟩ := subscribe_tries { node } (all_fresh _ node) .remote "p" 7 rfl during (by decide)
  obtain ⟨-, -, -, hfinished, -⟩ := hall _ hend
  obtain ⟨-, hentries⟩ := (hfinished .done rfl).entries rfl
  exact ⟨hend, hentries, by decide +kernel⟩

end Crowd
end SensorLink
