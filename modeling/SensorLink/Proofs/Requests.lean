import SensorLink.Proofs.Effects
import SensorLink.Proofs.OneLine
import SensorLink.Proofs.Qualifying

/-! Where the values in a command come from. Every command that a task puts to the modem is spelled from the values that
    its call was made with (`Task.Of`), or that the call was made with that has posted what it publishes. -/

namespace SensorLink
open Command Text

/-! ### What a call puts in quotes -/

namespace Call

/-- The levels of the full topic or pattern that a call is about. -/
def levels (identity : Identity) : Call → List String
  | .publish scope topic _ | .tryPost scope topic _ | .post scope topic _ | .subscribe scope topic _
  | .unsubscribe scope topic _ => identity.root scope ++ [topic]
  | _ => []

/-- The command of a call that is handed on as it is. -/
def text? : Call → Option String
  | .sendCommand text _ _ | .probe text _ _ => some text
  | _ => none

def credentials? : Call → Option Credentials
  | .join credentials | .joinUntil credentials _ => some credentials
  | _ => none

def broker? : Call → Option Broker
  | .openBroker broker | .openBrokerUntil broker _ => some broker
  | _ => none

/-- The values of the call that stand in the command of a stage. -/
def values (identity : Identity) (call : Call) : Stage → List String
  | .text | .flag => call.text?.toList
  | .publishInline _ | .publishHeader .. | .subscribe .. | .unsubscribe _ => call.levels identity
  | .join _ => call.credentials?.toList.flatMap fun credentials => [credentials.ssid, credentials.password]
  | .configure .. => call.broker?.toList.flatMap fun broker => [broker.clientId, broker.username, broker.password]
  | .openSession _ => call.broker?.toList.map Broker.host
  | _ => []

def posts : Call → Bool
  | .tryPost .. | .post .. => true
  | _ => false

/-- A call publishes what others have posted. -/
def forwards : Call → Bool
  | .drain | .publishNext | .serve => true
  | _ => false

/-- The call whose values a call hands on: itself, or one of `calls` that posts. -/
def Source (calls : List Call) (call source : Call) : Prop :=
  if call.forwards then source ∈ calls ∧ source.posts else source = call

/-- A text is one line exactly if the values of the call in it are. -/
def Spells (identity : Identity) (call : Call) (stage : Stage) (text : String) : Prop :=
  IsOneLine text ↔ ∀ value ∈ call.values identity stage, IsOneLine value

end Call

/-! ### What a task knows of its call -/

section
variable (identity : Identity) (qos : UInt8) (calls : List Call) (call : Call)

def Dialogue.Request.Spelled (stage : Stage) (request : Dialogue.Request) : Prop :=
  ∀ text expected timeout, request = .command text expected timeout →
    ∃ source, call.Source calls source ∧ source.Spells identity stage text

def Goal.Of : Goal → Prop
  | .report => True
  | .drain _ | .serve => call.forwards = true

/-- What a stage remembers is the call's. -/
def Stage.Of : Stage → Prop
  | .publishInline goal | .publishHeader _ goal | .publishBody goal => goal.Of call
  | .subscribe full subscriber command _ => ∃ scope pattern, call = .subscribe scope pattern subscriber ∧
      identity.fullTopic scope pattern = .ok full ∧ subscribe? full qos = some command
  | .join retry => call.forwards = false ∧ ∀ again ∈ retry, call.credentials? = some again.target
  | .configure session retry => call.forwards = false ∧ call.Spells identity (.openSession retry) session.text ∧
      ∀ again ∈ retry, call.broker? = some again.target
  | .openSession retry => call.forwards = false ∧ ∀ again ∈ retry, call.broker? = some again.target
  | _ => call.forwards = false

/-- A posting is what a call among `calls` was made with. -/
def Posting.Of (posting : Posting) : Prop :=
  ∃ source ∈ calls, source.posts ∧ source.levels identity = identity.root posting.scope ++ [posting.topic]

def Wait.Of : Wait → Prop
  | .modem made stage => stage.Of identity qos call ∧ made.Spelled identity calls call stage
  | .request _ stage => stage.Of identity qos call
  | .rejoin _ retry => call.forwards = false ∧ call.credentials? = some retry.target
  | .reopen _ retry => call.forwards = false ∧ call.broker? = some retry.target
  | .work | .posting | .drain _ => call.forwards = true
  | .room queued => queued.Of identity calls
  | _ => True

def Task.Of : Task → Prop
  | .parked wait | .checking wait => wait.Of identity qos calls call
  | .asking request stage => stage.Of identity qos call ∧ request.Spelled identity calls call stage
  | .finished _ => True

def Next.Of : Next → Prop
  | .again request stage => stage.Of identity qos call ∧ request.Spelled identity calls call stage
  | .leave task => task.Of identity qos calls call

end

/-! ### Requests and their values -/

section
variable {identity : Identity} {qos : UInt8} {calls : List Call} {call source : Call} {stage : Stage} {node : Node}

theorem command_inj {text other expected expected' : String} {timeout timeout' : Nat}
    (h : Dialogue.Request.command text expected timeout = .command other expected' timeout') : text = other := by
  simp only [Dialogue.Request.command, Dialogue.line, Dialogue.Request.ask.injEq, List.cons.injEq] at h
  exact encode_injective h.1.1

theorem spelled_command (hsource : call.Source calls source) {text : String} (h : source.Spells identity stage text)
    (expected : String) (timeout : Nat) :
    (Dialogue.Request.command text expected timeout).Spelled identity calls call stage := by
  intro other expected' timeout' heq
  exact command_inj heq ▸ ⟨source, hsource, h⟩

theorem source_self (h : call.forwards = false) : call.Source calls call := by
  rw [Call.Source, h]
  rfl

/-- A command of the modem's own has no values. -/
theorem spelled_plain (h : call.forwards = false) {text : String} (htext : IsOneLine text)
    (hstage : call.values identity stage = []) (expected : String) (timeout : Nat) :
    (Dialogue.Request.command text expected timeout).Spelled identity calls call stage :=
  spelled_command (source_self h) (by simp [Call.Spells, htext, hstage]) expected timeout

theorem spelled_data (data : Bytes) (expected : String) (timeout : Nat) :
    (Dialogue.Request.ask [data] expected timeout).Spelled identity calls call stage := by
  intro text expected' timeout' heq
  simp [Dialogue.Request.command, Dialogue.line] at heq

/-- A request that is no question has no command to spell. -/
theorem spelled_silent {request : Dialogue.Request}
    (h : ∀ parts expected timeout, request ≠ .ask parts expected timeout) :
    request.Spelled identity calls call stage :=
  fun _ expected timeout hcommand => absurd hcommand (h _ expected timeout)

theorem isOneLine_fullTopic {scope : Scope} {topic full : String} (h : identity.fullTopic scope topic = .ok full) :
    IsOneLine full ↔ ∀ level ∈ identity.root scope ++ [topic], IsOneLine level := by
  obtain ⟨-, -, rfl⟩ := Identity.fullTopic_eq_ok_iff.mp h
  exact isOneLine_ofLevels _

theorem fullTopic_of_fullPattern {scope : Scope} {pattern full : String}
    (h : node.fullPattern scope pattern = .ok full) :
    node.identity.fullTopic scope pattern = .ok full := by
  unfold Node.fullPattern at h
  cases hcheck : Topic.checkPattern pattern with
  | error cause => simp [hcheck, Except.bind, bind] at h
  | ok value => simpa [hcheck, Except.bind, bind] using h

theorem publish?_of_publishForm {scope : Scope} {topic : String} {payload : Bytes} {form : PublishForm}
    (h : node.publishForm scope topic payload = .ok form) : ∃ full, node.identity.fullTopic scope topic = .ok full ∧
      publish? full payload node.messaging.qos node.messaging.retain = some form := by
  unfold Node.publishForm at h
  cases hcheck : Topic.checkConcrete topic with
  | error cause => simp [hcheck, Except.mapError, Except.bind, bind] at h
  | ok value =>
    cases hfull : node.identity.fullTopic scope topic with
    | error cause => simp [hcheck, hfull, Except.mapError, Except.bind, bind] at h
    | ok full =>
      refine ⟨full, rfl, ?_⟩
      simp only [hcheck, hfull, Except.mapError, Except.bind, bind] at h
      split at h <;> cases h
      assumption

theorem isOneLine_subscribe? {full : String} {command : Command} (h : subscribe? full qos = some command) :
    IsOneLine command.text ↔ IsOneLine full := by
  have hplain : ∀ text ∈ ["AT+MQTTSUB=", ",", ","], IsOneLine text := by decide
  exact (isOneLine_ofParts? h hplain).trans List.forall_mem_singleton

theorem spelled_subscribe {scope : Scope} {pattern full : String} {subscriber : Subscriber} {command : Command}
    (hfull : identity.fullTopic scope pattern = .ok full) (h : subscribe? full qos = some command) (retries : Nat)
    (expected : String) (timeout : Nat) :
    (Dialogue.Request.command command.text expected timeout).Spelled identity calls
      (.subscribe scope pattern subscriber) (.subscribe full subscriber command retries) := by
  have hspells : (Call.subscribe scope pattern subscriber).Spells identity (.subscribe full subscriber command retries)
    command.text := (isOneLine_subscribe? h).trans (isOneLine_fullTopic hfull)
  exact spelled_command (source_self rfl) hspells expected timeout

theorem isOneLine_unsubscribe? {full : String} {command : Command} (h : unsubscribe? full = some command) :
    IsOneLine command.text ↔ IsOneLine full := by
  have hplain : ∀ text ∈ ["AT+MQTTUNSUB=", ","], IsOneLine text := by decide
  exact (isOneLine_ofParts? h hplain).trans List.forall_mem_singleton

theorem isOneLine_closeSession? {command : Command} (h : closeSession? = some command) : IsOneLine command.text := by
  have hplain : ∀ text ∈ ["AT+MQTTCLEAN="], IsOneLine text := by decide
  exact (isOneLine_ofParts? h hplain).mpr nofun

theorem isOneLine_publish? {full : String} {payload : Bytes} {retain : Bool} {form : PublishForm}
    (h : publish? full payload qos retain = some form) :
    (∀ command, form = .inline command → (IsOneLine command.text ↔ IsOneLine full)) ∧
      ∀ header, form = .raw header → (IsOneLine header.text ↔ IsOneLine full) := by
  unfold publish? at h
  split at h
  · rename_i command hcommand
    cases h
    obtain ⟨text, htext, hparts⟩ := Option.bind_eq_some_iff.mp hcommand
    have hplain : ∀ text ∈ ["AT+MQTTPUB=", ",", ",", ",", ","], IsOneLine text := by decide
    refine ⟨fun _ heq => ?_, nofun⟩
    cases heq
    have hvalues : (∀ value ∈ [full, text], IsOneLine value) ↔ IsOneLine full := by
      simp [isOneLine_inlineText? htext]
    exact (isOneLine_ofParts? hparts hplain).trans hvalues
  · obtain ⟨header, hparts, rfl⟩ := Option.map_eq_some_iff.mp h
    have hplain : ∀ text ∈ ["AT+MQTTPUBRAW=", ",", ",", ",", ","], IsOneLine text := by decide
    refine ⟨nofun, fun _ heq => ?_⟩
    cases heq
    exact (isOneLine_ofParts? hparts hplain).trans List.forall_mem_singleton

theorem spells_join? {credentials : Credentials} {command : Command} (hcall : call.credentials? = some credentials)
    (h : join? credentials = some command) (retry : Option (Retry Credentials)) :
    call.Spells identity (.join retry) command.text := by
  have hplain : ∀ text ∈ ["AT+CWJAP=", ","], IsOneLine text := by decide
  have hvalues : call.values identity (.join retry) = [credentials.ssid, credentials.password] := by
    simp [Call.values, hcall]
  rw [Call.Spells, hvalues]
  exact isOneLine_ofParts? h hplain

theorem spells_userConfig? {broker : Broker} {command : Command} (hcall : call.broker? = some broker)
    (h : userConfig? broker = some command) (session : Command) (retry : Option (Retry Broker)) :
    call.Spells identity (.configure session retry) command.text := by
  have hplain : ∀ text ∈ ["AT+MQTTUSERCFG=", ",1,", ",", ",", ",0,0,\"\""], IsOneLine text := by decide
  have hvalues :
      call.values identity (.configure session retry) = [broker.clientId, broker.username, broker.password] := by
    simp [Call.values, hcall]
  rw [Call.Spells, hvalues]
  exact isOneLine_ofParts? h hplain

theorem spells_openSession? {broker : Broker} {command : Command} (hcall : call.broker? = some broker)
    (h : openSession? broker = some command) (retry : Option (Retry Broker)) :
    call.Spells identity (.openSession retry) command.text := by
  have hplain : ∀ text ∈ ["AT+MQTTCONN=", ",", ",", ","], IsOneLine text := by decide
  have hvalues : call.values identity (.openSession retry) = [broker.host] := by simp [Call.values, hcall]
  rw [Call.Spells, hvalues]
  exact isOneLine_ofParts? h hplain

/-! ### Tasks of a call -/

theorem of_goal {goal : Goal} (h : goal.Of call) (result : Except (Failure Fault) Unit) :
    (goal.next result).Of identity qos calls call := by
  cases goal with
  | report => trivial
  | drain published => cases result <;> exact h
  | serve => exact h

/-- A publish is spelled from the values of the call that it is due to. -/
theorem of_publish (hidentity : node.identity = identity) {scope : Scope} {topic : String} {goal : Goal}
    (hsource : call.Source calls source) (hlevels : source.levels identity = identity.root scope ++ [topic])
    (hgoal : goal.Of call) (payload : Bytes) : (node.publish scope topic payload goal).Of identity qos calls call := by
  have hform {form : PublishForm} (h : node.publishForm scope topic payload = .ok form) :
      ∃ full, (IsOneLine full ↔ ∀ level ∈ source.levels identity, IsOneLine level) ∧
        publish? full payload node.messaging.qos node.messaging.retain = some form := by
    obtain ⟨full, hfull, hpublish⟩ := publish?_of_publishForm h
    exact ⟨full, hlevels ▸ isOneLine_fullTopic (hidentity ▸ hfull), hpublish⟩
  unfold Node.publish
  split
  · exact of_goal hgoal _
  · rename_i command h
    obtain ⟨full, hfull, hpublish⟩ := hform h
    have hspells : source.Spells identity (.publishInline goal) command.text :=
      ((isOneLine_publish? hpublish).1 _ rfl).trans hfull
    exact ⟨hgoal, spelled_command hsource hspells _ _⟩
  · rename_i header h
    obtain ⟨full, hfull, hpublish⟩ := hform h
    have hspells : source.Spells identity (.publishHeader payload goal) header.text :=
      ((isOneLine_publish? hpublish).2 _ rfl).trans hfull
    exact ⟨hgoal, spelled_command hsource hspells _ _⟩

theorem of_dropPattern (hcall : call.forwards = false) {full : String}
    (hfull : IsOneLine full ↔ ∀ level ∈ call.levels identity, IsOneLine level) (answer : Answer) :
    (node.dropPattern full answer).Of identity qos calls call := by
  unfold Node.dropPattern
  split
  · trivial
  · rename_i command hcommand
    have hspells : call.Spells identity (.unsubscribe answer) command.text :=
      (isOneLine_unsubscribe? hcommand).trans hfull
    exact ⟨hcall, spelled_command (source_self hcall) hspells _ _⟩

theorem of_enter (hcall : call.forwards = false) {full : String}
    (hfull : IsOneLine full ↔ ∀ level ∈ call.levels identity, IsOneLine level) (subscriber : Subscriber)
    (asked : Bool) :
    (node.enter full subscriber asked).2.Of identity qos calls call := by
  rcases enter_cases node full subscriber asked with ⟨table, henter, -⟩ | ⟨-, henter⟩ | ⟨henter, -⟩ <;> rw [henter]
  · trivial
  · exact of_dropPattern hcall hfull _
  · trivial

theorem of_conclude {α : Type} {retry : Option (Retry α)} {wait : Nat → Retry α → Wait}
    (hretry : ∀ again ∈ retry, ∀ due failures, (wait due { again with failures }).Of identity qos calls call)
    (result : Except (Failure Fault) Unit) : (node.conclude retry wait result).Of identity qos calls call := by
  unfold Node.conclude
  split
  · trivial
  · trivial
  · trivial
  · exact hretry _ rfl _ _

theorem of_join (hcall : call.forwards = false) {credentials : Credentials}
    (hcredentials : call.credentials? = some credentials) {retry : Option (Retry Credentials)}
    (hretry : ∀ again ∈ retry, call.credentials? = some again.target) :
    (node.join credentials retry).Of identity qos calls call := by
  unfold Node.join
  split
  · refine of_conclude (fun again hagain _ _ => ?_) _
    exact ⟨hcall, hretry again hagain⟩
  · rename_i command hcommand
    have hjoin : join? credentials = some command := by
      unfold Node.joinCommand at hcommand
      split at hcommand
      · cases hcommand
      · split at hcommand
        · cases hcommand
        · split at hcommand <;> cases hcommand
          assumption
    exact ⟨⟨hcall, hretry⟩, spelled_command (source_self hcall) (spells_join? hcredentials hjoin _) _ _⟩

theorem of_openBroker (hcall : call.forwards = false) {broker : Broker} (hbroker : call.broker? = some broker)
    {retry : Option (Retry Broker)} (hretry : ∀ again ∈ retry, call.broker? = some again.target) :
    (node.openBroker broker retry).Of identity qos calls call := by
  unfold Node.openBroker
  split
  · refine of_conclude (fun again hagain _ _ => ?_) _
    exact ⟨hcall, hretry again hagain⟩
  · rename_i user session hcommands
    obtain ⟨huser, hsession⟩ : userConfig? broker = some user ∧ openSession? broker = some session := by
      unfold Node.sessionCommands at hcommands
      split at hcommands
      · cases hcommands
      · split at hcommands
        · cases hcommands
        · split at hcommands
          · cases hcommands
          · split at hcommands <;> cases hcommands
            rename_i huser hsession
            exact ⟨huser, hsession⟩
    exact ⟨⟨hcall, spells_openSession? hbroker hsession _, hretry⟩,
      spelled_command (source_self hcall) (spells_userConfig? hbroker huser _ _) _ _⟩

/-- What follows a request of the call is the call's. -/
theorem of_next (node : Node) (h : stage.Of identity qos call) (result : Dialogue.Result) :
    (stage.next node result).2.Of identity qos calls call := by
  have hprobe : IsOneLine Command.probe ∧ IsOneLine echoOff ∧ IsOneLine singleConnection := by decide
  cases stage with
  | text | flag | done | fault | unsubscribe answer => trivial
  | publishInline goal | publishBody goal => cases result <;> exact of_goal h _
  | publishHeader payload goal =>
    cases result with
    | ok answer => exact ⟨h, spelled_data _ _ _⟩
    | error cause => exact of_goal h _
  | subscribe full subscriber command retries =>
    obtain ⟨scope, pattern, rfl, hfull, hcommand⟩ := h
    cases result with
    | ok answer => exact of_enter rfl (isOneLine_fullTopic hfull) subscriber true
    | error cause =>
      cases retries with
      | zero => trivial
      | succ retries => exact ⟨⟨scope, pattern, rfl, hfull, hcommand⟩, spelled_subscribe hfull hcommand _ _ _⟩
  | reset | settle | backoff => exact ⟨h, spelled_silent (by simp [Node.resetRequest])⟩
  | flush => exact ⟨h, spelled_plain h hprobe.1 rfl _ _⟩
  | echo => exact ⟨h, spelled_plain h hprobe.2.2 rfl _ _⟩
  | probe =>
    cases result with
    | ok answer => exact ⟨h, spelled_plain h hprobe.2.1 rfl _ _⟩
    | error cause => exact ⟨h, spelled_silent (by simp)⟩
  | single retries =>
    cases result with
    | ok answer => trivial
    | error cause =>
      cases retries with
      | zero => trivial
      | succ retries => exact ⟨h, spelled_plain h hprobe.2.2 rfl _ _⟩
  | join retry | openSession retry =>
    cases result <;>
    · refine of_conclude (fun again hagain _ _ => ?_) _
      exact ⟨h.1, h.2 again hagain⟩
  | leave | closeSession => cases result <;> trivial
  | configure session retry =>
    obtain ⟨hcall, hsession, hretry⟩ := h
    cases result with
    | ok answer => exact ⟨⟨hcall, hretry⟩, spelled_command (source_self hcall) hsession _ _⟩
    | error cause =>
      refine of_conclude (fun again hagain _ _ => ?_) _
      exact ⟨hcall, hretry again hagain⟩

theorem of_after (node : Node) (h : stage.Of identity qos call) (result : Dialogue.Result) :
    (node.after stage result).2.Of identity qos calls call := by
  have hnext : (stage.next node result).2.Of identity qos calls call := of_next node h result
  unfold Node.after
  split <;> rename_i heq <;> rw [heq] at hnext <;> exact hnext

theorem of_publishNext? (hidentity : node.identity = identity)
    (hqueue : ∀ posting ∈ node.queue, posting.Of identity calls)
    (hcall : call.forwards = true) {goal : Goal} {after : Node × Task} (h : node.publishNext? goal = some after)
    (hgoal : goal.Of call) : after.2.Of identity qos calls call := by
  obtain ⟨posting, rest, hposting, rfl⟩ := Node.exists_of_publishNext? h
  obtain ⟨source, hmem, hposts, hlevels⟩ := hqueue posting (hposting ▸ List.mem_cons_self)
  have hsource : call.Source calls source := by
    rw [Call.Source, hcall]
    exact ⟨hmem, hposts⟩
  exact of_publish hidentity hsource hlevels hgoal _

theorem of_check (hidentity : node.identity = identity) (hqueue : ∀ posting ∈ node.queue, posting.Of identity calls)
    {wait : Wait} (hwait : ∀ hold stage, wait ≠ .request hold stage) (h : wait.Of identity qos calls call) :
    (node.check wait).2.Of identity qos calls call := by
  cases wait with
  | request hold stage => exact absurd rfl (hwait hold stage)
  | modem request stage =>
    simp only [Node.check]
    split <;> exact h
  | clock due =>
    simp only [Node.check]
    split <;> trivial
  | rejoin due retry =>
    simp only [Node.check]
    split
    · exact of_join h.1 h.2 fun again hagain => by cases hagain; exact h.2
    · exact h
  | reopen due retry =>
    simp only [Node.check]
    split
    · exact of_openBroker h.1 h.2 fun again hagain => by cases hagain; exact h.2
    · exact h
  | notice forever =>
    simp only [Node.check]
    split
    · cases forever <;> trivial
    · trivial
  | work =>
    simp only [Node.check]
    split
    · exact h
    · rcases hpublish : (node.setAlarm .notice).publishNext? .serve with _ | after
      · exact h
      · have hquiet : (node.setAlarm .notice).identity = identity := hidentity
        have hqueue' : ∀ posting ∈ (node.setAlarm .notice).queue, posting.Of identity calls := hqueue
        exact of_publishNext? hquiet hqueue' h hpublish h
  | posting =>
    simp only [Node.check]
    rcases hpublish : node.publishNext? .report with _ | after
    · exact h
    · exact of_publishNext? hidentity hqueue h hpublish trivial
  | drain published =>
    simp only [Node.check]
    rcases hpublish : node.publishNext? (.drain published) with _ | after
    · trivial
    · exact of_publishNext? hidentity hqueue h hpublish h
  | room posting =>
    simp only [Node.check]
    split
    · trivial
    · exact h
  | closed =>
    simp only [Node.check]
    split <;> trivial

/-- A step of a task leaves it the call's. -/
theorem of_step (hidentity : node.identity = identity) (hqueue : ∀ posting ∈ node.queue, posting.Of identity calls)
    {task : Task} (h : task.Of identity qos calls call) : (node.step task.awaken).2.Of identity qos calls call := by
  cases hstage : task.stage? with
  | some stage =>
    have hof : stage.Of identity qos call := by
      cases task with
      | finished answer => cases hstage
      | asking request stage' =>
        cases hstage
        exact h.1
      | parked wait | checking wait =>
        cases wait <;> cases hstage
        exact h
    obtain ⟨link, ⟨-, hold, hstep⟩ | ⟨result, -, hstep⟩⟩ := step_concludes node hstage <;> rw [hstep]
    · exact hof
    · exact of_after _ hof result
  | none =>
    cases task with
    | asking request stage => cases hstage
    | finished answer => trivial
    | parked wait | checking wait =>
      refine of_check hidentity hqueue (fun hold stage hwait => ?_) h
      subst hwait
      cases hstage

theorem of_subscribe (hidentity : node.identity = identity) (hqos : node.messaging.qos = qos) (scope : Scope)
    (pattern : String) (subscriber : Subscriber) :
    (node.subscribe scope pattern subscriber).2.Of identity qos calls (.subscribe scope pattern subscriber) := by
  unfold Node.subscribe
  split
  · trivial
  · rename_i full hpattern
    have hfull : identity.fullTopic scope pattern = .ok full := hidentity ▸ fullTopic_of_fullPattern hpattern
    split
    · trivial
    · split
      · trivial
      · exact of_enter rfl (isOneLine_fullTopic hfull) subscriber false
    · split
      · trivial
      · split
        · trivial
        · rename_i command hcommand
          rw [hqos] at hcommand
          exact ⟨⟨scope, pattern, rfl, hfull, hcommand⟩, spelled_subscribe hfull hcommand _ _ _⟩

theorem posting_of {scope : Scope} {topic : String} {payload : Bytes} {posting : Posting} (hcall : call ∈ calls)
    (hposts : call.posts) (hlevels : call.levels identity = identity.root scope ++ [topic])
    (h : Posting.ofParts scope topic payload = .ok posting) : posting.Of identity calls := by
  unfold Posting.ofParts at h
  split at h
  · split at h <;> cases h
    exact ⟨call, hcall, hposts, hlevels⟩
  · cases h

/-- A call leaves a task of its own. -/
theorem of_start (hidentity : node.identity = identity) (hqos : node.messaging.qos = qos) (hcall : call ∈ calls) :
    (call.start node).2.Of identity qos calls call := by
  cases call with
  | sendCommand text expected timeout | probe text expected timeout =>
    exact ⟨rfl, spelled_command (source_self rfl) (by simp [Call.Spells, Call.values, Call.text?]) _ _⟩
  | sendRaw data expected timeout => exact ⟨rfl, spelled_data _ _ _⟩
  | hold duration | writeLine text | write data | clear => exact ⟨rfl, spelled_silent (by simp)⟩
  | ask expected =>
    simp only [Call.start]
    split <;> trivial
  | publish scope topic payload =>
    have hsource : (Call.publish scope topic payload).Source calls (.publish scope topic payload) := source_self rfl
    have hgoal : Goal.report.Of (.publish scope topic payload) := trivial
    exact of_publish hidentity hsource rfl hgoal payload
  | subscribe scope pattern subscriber => exact of_subscribe hidentity hqos scope pattern subscriber
  | unsubscribe scope pattern subscriber =>
    simp only [Call.start, Node.unsubscribe]
    split
    · trivial
    · rename_i full hfull
      split
      · exact of_dropPattern rfl (isOneLine_fullTopic (hidentity ▸ hfull)) _
      · trivial
  | deliver line =>
    simp only [Call.start]
    split <;> trivial
  | tryPost scope topic payload =>
    simp only [Call.start, Node.tryPost]
    split
    · trivial
    · split <;> trivial
  | post scope topic payload =>
    simp only [Call.start, Node.post]
    split
    · trivial
    · rename_i posting hposting
      exact posting_of hcall rfl rfl hposting
  | drain | publishNext | serve => exact rfl
  | powerUp => exact ⟨rfl, spelled_silent (by simp [Node.resetRequest])⟩
  | join credentials => exact of_join rfl rfl (by simp)
  | joinUntil credentials delay => exact of_join rfl rfl fun again hagain => by cases hagain; rfl
  | openBroker broker => exact of_openBroker rfl rfl (by simp)
  | openBrokerUntil broker delay => exact of_openBroker rfl rfl fun again hagain => by cases hagain; rfl
  | leave =>
    simp only [Call.start, Node.leave]
    split
    · trivial
    · split
      · trivial
      · exact ⟨rfl, spelled_plain rfl (by decide) rfl _ _⟩
  | closeBroker =>
    simp only [Call.start, Node.closeBroker]
    split
    · trivial
    · split
      · trivial
      · rename_i command hcommand
        exact ⟨rfl, spelled_plain rfl (isOneLine_closeSession? hcommand) rfl _ _⟩
  | _ => trivial

end

/-! ### Runs -/

namespace Crowd

section

/-- Identity and quality of service are these, and every posting in the queue is due to a call. -/
structure Owned (identity : Identity) (qos : UInt8) (calls : List Call) (node : Node) : Prop where
  owner : node.identity = identity
  options : node.messaging.qos = qos
  queue : ∀ posting ∈ node.queue, posting.Of identity calls

theorem owned_fresh {node : Node} (h : node.queue = []) (calls : List Call) :
    Owned node.identity node.messaging.qos calls node :=
  ⟨rfl, rfl, fun posting hposting => by rw [h] at hposting; cases hposting⟩

/-- Every move leaves the tasks those of their calls. -/
theorem maintains_of (identity : Identity) (qos : UInt8) (calls : List Call) :
    Maintains (Owned identity qos calls) (fun call task => task.Of identity qos calls call) calls where
  start node h call hcall := by
    have hbegins := start_begins node call
    refine ⟨⟨hbegins.identity.trans h.owner, (congrArg _ hbegins.messaging).trans h.options,
      fun posting hposting => ?_⟩,
      of_start h.owner h.options hcall⟩
    rcases hbegins.queue posting hposting with hold | ⟨scope, topic, payload, rfl, hparts⟩
    · exact h.queue posting hold
    · exact posting_of hcall rfl rfl hparts
  step node h call task hof := by
    have heffect := step_effect node task
    refine ⟨⟨heffect.identity.trans h.owner, (congrArg _ heffect.messaging).trans h.options,
      fun posting hposting => ?_⟩,
      of_step h.owner h.queue hof⟩
    rcases heffect.queue posting hposting with hold | hroom
    · exact h.queue posting hold
    · -- The task has waited for room for this posting.
      cases task with
      | asking request stage | finished answer => cases hroom
      | parked wait | checking wait =>
        cases hroom
        exact hof
  drop node h task := by
    have hframe := drop_frame node task
    exact ⟨hframe.identity.trans h.owner, (congrArg _ hframe.messaging).trans h.options,
      fun posting hposting => h.queue posting (hframe.queue posting hposting)⟩
  advance node h time := ⟨h.owner, h.options, h.queue⟩

/-- A command that a task puts to the modem is one line exactly if the values in it are: what its call was made with, or
    the call that has posted what it publishes. -/
theorem command_isOneLine_iff (node : Node) (hqueue : node.queue = []) (moves : List Move) (i : Nat)
    (text expected : String) (timeout : Nat) (stage : Stage)
    (h : (Crowd.run { node } moves).task? i = some (.asking (.command text expected timeout) stage)) :
    ∃ call source, (Crowd.calls moves)[i]? = some call ∧ call.Source (Crowd.calls moves) source ∧
      (IsOneLine text ↔ ∀ value ∈ source.values node.identity stage, IsOneLine value) ∧
      (IsOneLine text → LineSplit.pieces (Dialogue.line text).flatten = ([Text.encode text], [])) := by
  obtain ⟨call, hcall, -, hspelled⟩ := (each_fresh (owned_fresh hqueue _) (maintains_of _ _ _)).tasks i _ h
  obtain ⟨source, hsource, hspells⟩ := hspelled text expected timeout rfl
  exact ⟨call, source, hcall, hsource, hspells, pieces_line⟩

end

/-- A command about a pattern that is one line. -/
theorem one_line_of_plain_pattern :
    let node : Node := { table := { capacity := 4 }, depth := 1 }
    let command : Command := ⟨"AT+MQTTSUB=0,\"p\",0", by decide⟩
    (Crowd.run { node } [.start (.subscribe .remote "p" 0), .step 0]).task? 0 =
        some (.asking (.command command.text "OK" 1000000) (.subscribe "p" 0 command 3)) ∧
      LineSplit.pieces (Dialogue.line command.text).flatten = ([Text.encode command.text], []) := by
  intro node command
  have htask : (Crowd.run { node } [.start (.subscribe .remote "p" 0), .step 0]).task? 0 =
      some (.asking (.command command.text "OK" 1000000) (.subscribe "p" 0 command 3)) := by decide +kernel
  obtain ⟨call, source, hcall, hsource, hiff, hpieces⟩ := command_isOneLine_iff node rfl _ 0 _ _ _ _ htask
  cases hcall
  obtain rfl : source = .subscribe .remote "p" 0 := hsource
  exact ⟨htask, hpieces (hiff.mpr (by decide))⟩

/-- A topic with a line end in it: the modem gets a command of its own to reset itself. -/
theorem reset_by_topic :
    let node : Node := { table := { capacity := 4 }, depth := 1 }
    let text := "AT+MQTTPUB=0,\"a\r\nAT+RST\r\n\",\"x\",0,0"
    (Crowd.run { node } [.start (.publish .remote "a\r\nAT+RST\r\n" (Text.encode "x")), .step 0]).task? 0 =
        some (.asking (.command text "OK" 1000000) (.publishInline .report)) ∧
      LineSplit.pieces (Dialogue.line text).flatten =
        ([Text.encode "AT+MQTTPUB=0,\"a", Text.encode "AT+RST", Text.encode "\",\"x\",0,0"], []) := by
  decide +kernel

end Crowd
end SensorLink
