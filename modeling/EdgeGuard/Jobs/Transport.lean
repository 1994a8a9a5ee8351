import EdgeGuard.Jobs.Messages
import EdgeGuard.Jobs.Settlement
import EdgeGuard.Messaging

/-! Publishers, broker and worker processes. A publisher declares its topology and then
publishes with confirms; a worker process declares its own, installs the policy and then
handles what the broker delivers to it, one delivery after another. Connections break and
processes end between any two calls, and the broker then returns what was not settled. -/
namespace EdgeGuard.Jobs.Transport
open Go Transition Messaging

structure Config where
  exchange : Str
  queue : Str
  deadExchange : Str
  deadQueue : Str
  prefetch : Nat
  deriving DecidableEq, Repr

def exchangeArgs : ExchangeArgs := ⟨.topic, true, false, false⟩

def queueArgs : QueueArgs := ⟨true, false, false, [(lit "x-queue-type", lit "quorum")]⟩

def bindingKey : Str := lit "jobs.#"

/-- `declareTopology` of the publisher. -/
def publisherTopology (config : Config) : List Command :=
  [.exchangeDeclare config.exchange exchangeArgs, .queueDeclare config.queue queueArgs,
    .queueBind config.queue bindingKey config.exchange]

/-- `declareTopology` of the consumer. -/
def consumerTopology (config : Config) : List Command :=
  [.exchangeDeclare config.exchange exchangeArgs, .exchangeDeclare config.deadExchange exchangeArgs,
    .queueDeclare config.queue queueArgs, .queueBind config.queue bindingKey config.exchange,
    .queueDeclare config.deadQueue queueArgs, .queueBind config.deadQueue bindingKey config.deadExchange]

/-- `remaining` are the declarations that `New` has yet to make. -/
structure Publisher where
  remaining : List Command
  connected : Bool
  closed : Bool
  deriving DecidableEq, Repr

/-- `Ping`: whether it reports no error. -/
def Publisher.ping (publisher : Publisher) : Bool := !(publisher.closed || !publisher.connected)

inductive PublishError where
  | invalid (err : EnvelopeError)
  | marshal
  | closed
  | publish
  | confirmation
  | notConfirmed
  deriving DecidableEq, Repr

/-- What becomes of a message that `Publish` hands to its channel: the channel fails, the
broker answers with a nack, no answer arrives in time, or it is confirmed. -/
inductive Fate where
  | unsent
  | refused
  | unanswered (taken : Bool)
  | confirmed
  deriving DecidableEq, Repr

def Fate.taken : Fate → Bool
  | .unanswered taken => taken
  | .confirmed => true
  | _ => false

def Fate.result : Fate → Except PublishError Unit
  | .unsent => .error .publish
  | .refused => .error .notConfirmed
  | .unanswered _ => .error .confirmation
  | .confirmed => .ok ()

variable {ν υ : Type}

/-- `Publish`: its result, and the message if the broker takes one over. -/
def Publisher.publish (lib : Library ν υ) (publisher : Publisher) (envelope : Envelope) (fate : Fate) :
    Except PublishError Unit × Option Message :=
  match envelope.validate lib.json.valid with
  | .error err => (.error (.invalid err), none)
  | .ok () => match lib.json.marshal envelope.fields with
    | none => (.error .marshal, none)
    | some body =>
      if publisher.closed then (.error .closed, none)
      else if publisher.connected = false then (.error .publish, none)
      else (fate.result, if fate.taken then some ⟨envelope.type, body⟩ else none)

/-- A worker process: the declarations that `NewConsumer` has yet to make, whether the
policy is installed, the deliveries it has received and the one it handles. -/
structure Process where
  remaining : List Command
  installed : Bool
  connected : Bool
  inbox : List Entry
  current : Option Entry
  deriving DecidableEq, Repr

/-- `accepted` are the messages the broker has taken over, `confirmed` those whose
`Publish` returned nil, and `acked` those whose acknowledgement reached the broker. -/
structure State (β : Type) where
  broker : β
  publishers : Nat → Option Publisher
  processes : Nat → Option Process
  jobs : System
  accepted : List Message
  confirmed : List Message
  acked : List Message

inductive Action where
  | startPublisher (publisher : Nat)
  | declare (publisher : Nat)
  | publish (publisher : Nat) (envelope : Envelope) (fate : Fate)
  | closePublisher (publisher : Nat)
  | losePublisher (publisher : Nat)
  | endPublisher (publisher : Nat)
  | startWorker (worker : Nat)
  | prepare (worker : Nat)
  | installPolicy (worker : Nat)
  | fetch (worker : Nat) (entry : Entry)
  | take (worker : Nat)
  | store (worker : Nat) (now : Time) (fault : Option Fault)
  | process (worker : Nat) (outcome : Outcome)
  | settle (worker : Nat) (sent received : Bool)
  | loseWorker (worker : Nat)
  | endWorker (worker : Nat)
  | forward (entry : Entry)
  | submit (submission : Submission)
  deriving DecidableEq, Repr

/-- The header of a delivery that came back. -/
def deliveryHeaders (entry : Entry) : Headers :=
  if entry.count = 0 then [] else [(lit "x-delivery-count", .signed (.ofNat entry.count))]

/-- What the broker is told when `handleDelivery` is done. -/
def settlementOf : Call → Option Settlement
  | .ack => some .ack
  | .reject true => some .requeue
  | .reject false => some .reject
  | _ => none

theorem settlementOf_ack {call : Call} (told : settlementOf call = some .ack) : call = .ack := by
  unfold settlementOf at told
  split at told <;> first | rfl | cases told

theorem settlementOf_reject {call : Call} (told : settlementOf call = some .reject) :
    call = .reject false := by
  unfold settlementOf at told
  split at told <;> first | rfl | cases told

section Steps
variable {β : Type} (server : Server β) (lib : Library ν υ) (config : Config)

namespace State

def start (table : Table) : State β := ⟨server.new, fun _ => none, fun _ => none, .start table, [], [], []⟩

def setPublisher (s : State β) (publisher : Nat) (state : Option Publisher) : State β :=
  { s with publishers := Function.update s.publishers publisher state }

def setProcess (s : State β) (worker : Nat) (process : Option Process) : State β :=
  { s with processes := Function.update s.processes worker process }

/-- The queue of the jobs. -/
def jobsQueue (s : State β) : Queue := (server.view s.broker).contents config.queue

def deadQueue (s : State β) : Queue := (server.view s.broker).contents config.deadQueue

/-- The policy of the workers is in force. -/
def policed (s : State β) : State β :=
  { s with broker := server.setPolicy s.broker config.queue config.deadExchange }

/-- The broker loses the connection of a worker. -/
def disconnect (s : State β) (worker : Nat) : State β :=
  { s with broker := server.disconnect s.broker config.queue worker }

/-- A worker process ends, on its own or because `Run` returned an error. -/
def stopped (s : State β) (worker : Nat) : State β :=
  { (s.disconnect server config worker).setProcess worker none with jobs := s.jobs.goOn worker none }

def published (s : State β) (result : Except PublishError Unit) : Option Message → State β
  | none => s
  | some message =>
    { s with
      broker := server.send s.broker config.exchange message
      accepted := s.accepted ++ [message]
      confirmed := match result with
        | .ok () => s.confirmed ++ [message]
        | .error _ => s.confirmed }

/-- The broker is told about the delivery that a worker has handled. -/
def settled (s : State β) (worker : Nat) (entry : Entry) (settlement : Settlement) : State β :=
  { s with
    broker := server.settle s.broker config.queue worker entry settlement
    acked := if settlement = .ack ∧ (worker, entry) ∈ (s.jobsQueue server config).held then
        s.acked ++ [entry.message]
      else s.acked }

end State

def step (s : State β) : Action → Option (State β)
  | .startPublisher publisher => match s.publishers publisher with
    | some _ => none
    | none => some (s.setPublisher publisher (some ⟨publisherTopology config, true, false⟩))
  | .declare publisher => do
    let state ← s.publishers publisher
    match state.remaining with
    | [] => none
    | command :: rest => match server.declare s.broker command with
      | none => some (s.setPublisher publisher none)
      | some broker => some ({ s with broker }.setPublisher publisher (some { state with remaining := rest }))
  | .publish publisher envelope fate => do
    let state ← s.publishers publisher
    if state.remaining = [] then
      let (result, message) := state.publish lib envelope fate
      some (s.published server config result message)
    else none
  | .closePublisher publisher => do
    let state ← s.publishers publisher
    some (s.setPublisher publisher (some { state with closed := true }))
  | .losePublisher publisher => do
    let state ← s.publishers publisher
    some (s.setPublisher publisher (some { state with connected := false }))
  | .endPublisher publisher => some (s.setPublisher publisher none)
  | .startWorker worker => match s.processes worker with
    | some _ => none
    | none => some (s.setProcess worker (some ⟨consumerTopology config, false, true, [], none⟩))
  | .prepare worker => do
    let process ← s.processes worker
    match process.remaining with
    | [] => none
    | command :: rest => match server.declare s.broker command with
      | none => some (s.setProcess worker none)
      | some broker => some ({ s with broker }.setProcess worker (some { process with remaining := rest }))
  | .installPolicy worker => do
    let process ← s.processes worker
    if process.remaining = [] then
      some ((s.policed server config).setProcess worker (some { process with installed := true }))
    else none
  | .fetch worker entry => do
    let process ← s.processes worker
    if process.installed = true ∧ process.connected = true then
      let broker ← server.deliver s.broker config.queue worker config.prefetch entry
      some ({ s with broker }.setProcess worker (some { process with inbox := process.inbox ++ [entry] }))
    else none
  | .take worker => do
    let process ← s.processes worker
    match process.inbox with
    | [] => none
    | entry :: rest =>
      let jobs ← Jobs.step lib.json.valid s.jobs
        (.deliver worker (deliveryHeaders entry) (decodeEnvelope lib entry.message.body))
      some ({ s with jobs }.setProcess worker (some { process with inbox := rest, current := some entry }))
  | .store worker now fault => do
    let jobs ← Jobs.step lib.json.valid s.jobs (.store worker now fault)
    -- `handleDelivery` returned an error, and with it `Run`
    if (jobs.workers worker).isNone then some ({ s with jobs }.stopped server config worker)
    else some { s with jobs }
  | .process worker outcome => do
    let jobs ← Jobs.step lib.json.valid s.jobs (.process worker outcome)
    some { s with jobs }
  | .settle worker sent received => do
    let process ← s.processes worker
    let entry ← process.current
    let handling ← s.jobs.workers worker
    let settlement ← settlementOf handling.next
    let jobs ← Jobs.step lib.json.valid s.jobs (.settle worker sent)
    let told := if received = true ∧ process.connected = true then s.settled server config worker entry settlement
      else s
    let next := { told with jobs }.setProcess worker (some { process with current := none })
    some (if sent then next else next.stopped server config worker)
  | .loseWorker worker => do
    let process ← s.processes worker
    some ((s.disconnect server config worker).setProcess worker (some { process with connected := false }))
  | .endWorker worker => some (s.stopped server config worker)
  | .forward entry => do
    let broker ← server.forward s.broker config.queue entry
    some { s with broker }
  | .submit submission => do
    let jobs ← Jobs.step lib.json.valid s.jobs (.submit submission)
    some { s with jobs }

end Steps

variable {lib : Library ν υ} {config : Config}

theorem publisherTopology_subset (config : Config) : publisherTopology config ⊆ consumerTopology config := by
  intro command member
  simp only [publisherTopology, consumerTopology, List.mem_cons, List.not_mem_nil, or_false] at member ⊢
  rcases member with same | same | same <;> simp [same]

theorem publisherTopology_ordered (config : Config) : Ordered (publisherTopology config) := by
  intro made queue pattern exchange rest split
  rcases made with _ | ⟨_, _ | ⟨_, _ | ⟨_, made⟩⟩⟩ <;> simp_all [publisherTopology]

theorem consumerTopology_ordered (config : Config) : Ordered (consumerTopology config) := by
  intro made queue pattern exchange rest split
  rcases made with _ | ⟨_, _ | ⟨_, _ | ⟨_, _ | ⟨_, _ | ⟨_, _ | ⟨_, made⟩⟩⟩⟩⟩⟩ <;>
    simp_all [consumerTopology]

theorem topology_peaceful (config : Config) : ∀ one ∈ consumerTopology config,
    ∀ other ∈ consumerTopology config, ¬ one.Conflicts other := by
  intro one member other member'
  simp only [consumerTopology, List.mem_cons, List.not_mem_nil, or_false] at member member'
  rcases member with rfl | rfl | rfl | rfl | rfl | rfl <;>
    rcases member' with rfl | rfl | rfl | rfl | rfl | rfl <;> simp [Command.Conflicts]

theorem jobTypes_bound : ∀ type ∈ jobTypes, topicMatches bindingKey type = true := by decide

theorem binding_cases {topology : Topology} (within : topology.Within (consumerTopology config)) :
    ∀ binding ∈ topology.bindings, binding = ⟨config.exchange, bindingKey, config.queue⟩ ∨
      binding = ⟨config.deadExchange, bindingKey, config.deadQueue⟩ := by
  intro binding member
  have planned := within (.queueBind binding.queue binding.pattern binding.exchange) member
  simp only [consumerTopology, List.mem_cons, List.not_mem_nil, or_false, reduceCtorEq,
    Command.queueBind.injEq, false_or] at planned
  obtain ⟨exchange, pattern, queue⟩ := binding
  rcases planned with ⟨rfl, rfl, rfl⟩ | ⟨rfl, rfl, rfl⟩
  · exact .inl rfl
  · exact .inr rfl

section Routes
variable {topology : Topology} (within : topology.Within (consumerTopology config))
  (distinct : config.exchange ≠ config.deadExchange) {type : Str} (known : type ∈ jobTypes)
include within distinct known

theorem route_jobs (declared : topology.Has (.exchangeDeclare config.exchange exchangeArgs))
    (bound : topology.Has (.queueBind config.queue bindingKey config.exchange)) :
    topology.route config.exchange type = [config.queue] := by
  refine Topology.route_eq declared bound (jobTypes_bound type known) ?_
  intro binding member same
  rcases binding_cases within binding member with rfl | rfl
  · rfl
  · exact absurd same.symm distinct

theorem route_dead (declared : topology.Has (.exchangeDeclare config.deadExchange exchangeArgs))
    (bound : topology.Has (.queueBind config.deadQueue bindingKey config.deadExchange)) :
    topology.route config.deadExchange type = [config.deadQueue] := by
  refine Topology.route_eq declared bound (jobTypes_bound type known) ?_
  intro binding member same
  rcases binding_cases within binding member with rfl | rfl
  · exact absurd same distinct
  · rfl

end Routes

section View
variable {β : Type} {server : Server β} {limit : Option Nat} (laws : server.Documented limit)

/-- The system with what the broker shows in place of its state. -/
def State.view (server : Server β) (s : State β) : State Broker :=
  ⟨server.view s.broker, s.publishers, s.processes, s.jobs, s.accepted, s.confirmed, s.acked⟩

include laws

namespace State
variable (s : State β)

theorem view_policed :
    (s.policed server config).view server = (s.view server).policed (Broker.server limit) config := by
  simp only [view, policed, laws.setPolicy]
  rfl

theorem view_disconnect (worker : Nat) :
    (s.disconnect server config worker).view server =
      (s.view server).disconnect (Broker.server limit) config worker := by
  simp only [view, disconnect, laws.disconnect]
  rfl

theorem view_stopped (worker : Nat) :
    (s.stopped server config worker).view server = (s.view server).stopped (Broker.server limit) config worker := by
  simp only [view, stopped, disconnect, setProcess, laws.disconnect]
  rfl

theorem view_published (result : Except PublishError Unit) (message : Option Message) :
    (s.published server config result message).view server =
      (s.view server).published (Broker.server limit) config result message := by
  cases message with
  | none => rfl
  | some message =>
    simp only [view, published, laws.send]
    rfl

theorem view_settled (worker : Nat) (entry : Entry) (settlement : Settlement) :
    (s.settled server config worker entry settlement).view server =
      (s.view server).settled (Broker.server limit) config worker entry settlement := by
  simp only [view, settled, laws.settle]
  rfl

end State

/-- The state of the broker matters through what it shows. -/
theorem step_view {s t : State β} {action : Action} (stepped : step server lib config s action = some t) :
    step (Broker.server limit) lib config (s.view server) action = some (t.view server) := by
  have declares (command : Command) : (Broker.server limit).declare (s.view server).broker command =
      (server.declare s.broker command).map server.view := (laws.declare s.broker command).symm
  cases action with
  | startPublisher publisher =>
    simp only [step] at stepped ⊢
    split at stepped
    · cases stepped
    · rename_i unused
      cases stepped
      simp only [State.view, unused]
      rfl
  | declare publisher =>
    simp only [step, Option.bind_eq_bind, Option.bind_eq_some_iff] at stepped ⊢
    obtain ⟨state, found, stepped⟩ := stepped
    refine ⟨state, found, ?_⟩
    split at stepped
    · cases stepped
    · rename_i command rest remaining
      rw [declares]
      split at stepped
      all_goals
        rename_i answer
        rw [answer]
        cases stepped
        rfl
  | publish publisher envelope fate =>
    simp only [step, Option.bind_eq_bind, Option.bind_eq_some_iff, Option.ite_none_right_eq_some] at stepped ⊢
    obtain ⟨state, found, finished, ⟨⟩⟩ := stepped
    exact ⟨state, found, finished, congrArg some (s.view_published laws _ _).symm⟩
  | closePublisher publisher | losePublisher publisher =>
    simp only [step, Option.bind_eq_bind, Option.bind_eq_some_iff] at stepped ⊢
    obtain ⟨state, found, ⟨⟩⟩ := stepped
    exact ⟨state, found, rfl⟩
  | endPublisher publisher =>
    cases stepped
    rfl
  | startWorker worker =>
    simp only [step] at stepped ⊢
    split at stepped
    · cases stepped
    · rename_i unused
      cases stepped
      simp only [State.view, unused]
      rfl
  | prepare worker =>
    simp only [step, Option.bind_eq_bind, Option.bind_eq_some_iff] at stepped ⊢
    obtain ⟨process, found, stepped⟩ := stepped
    refine ⟨process, found, ?_⟩
    split at stepped
    · cases stepped
    · rename_i command rest remaining
      rw [declares]
      split at stepped
      all_goals
        rename_i answer
        rw [answer]
        cases stepped
        rfl
  | installPolicy worker =>
    simp only [step, Option.bind_eq_bind, Option.bind_eq_some_iff, Option.ite_none_right_eq_some] at stepped ⊢
    obtain ⟨process, found, finished, ⟨⟩⟩ := stepped
    refine ⟨process, found, finished, ?_⟩
    rw [← s.view_policed laws]
    rfl
  | fetch worker entry =>
    simp only [step, Option.bind_eq_bind, Option.bind_eq_some_iff, Option.ite_none_right_eq_some] at stepped ⊢
    obtain ⟨process, found, up, broker, delivered, ⟨⟩⟩ := stepped
    refine ⟨process, found, up, server.view broker, ?_, rfl⟩
    have shown := laws.deliver s.broker config.queue worker config.prefetch entry
    rw [delivered] at shown
    exact shown.symm
  | take worker =>
    simp only [step, Option.bind_eq_bind, Option.bind_eq_some_iff] at stepped ⊢
    obtain ⟨process, found, stepped⟩ := stepped
    refine ⟨process, found, ?_⟩
    split at stepped
    · cases stepped
    · obtain ⟨jobs, called, ⟨⟩⟩ := Option.bind_eq_some_iff.mp stepped
      exact Option.bind_eq_some_iff.mpr ⟨jobs, called, rfl⟩
  | store worker now fault =>
    simp only [step, Option.bind_eq_bind, Option.bind_eq_some_iff] at stepped ⊢
    obtain ⟨jobs, called, stepped⟩ := stepped
    refine ⟨jobs, called, ?_⟩
    split at stepped
    · rename_i ended
      cases stepped
      rw [if_pos ended, State.view_stopped laws]
      rfl
    · rename_i goesOn
      cases stepped
      rw [if_neg goesOn]
      rfl
  | process worker outcome | submit submission =>
    simp only [step, Option.bind_eq_bind, Option.bind_eq_some_iff] at stepped ⊢
    obtain ⟨jobs, called, ⟨⟩⟩ := stepped
    exact ⟨jobs, called, rfl⟩
  | settle worker sent received =>
    simp only [step, Option.bind_eq_bind, Option.bind_eq_some_iff] at stepped ⊢
    obtain ⟨process, found, entry, current, handling, busy, settlement, told, jobs, called, ⟨⟩⟩ := stepped
    refine ⟨process, found, entry, current, handling, busy, settlement, told, jobs, called, ?_⟩
    rw [← s.view_settled laws]
    cases sent
    · rw [if_neg Bool.false_ne_true, if_neg Bool.false_ne_true, State.view_stopped laws]
      split <;> rfl
    · rw [if_pos rfl, if_pos rfl]
      split <;> rfl
  | loseWorker worker =>
    simp only [step, Option.bind_eq_bind, Option.bind_eq_some_iff] at stepped ⊢
    obtain ⟨process, found, ⟨⟩⟩ := stepped
    refine ⟨process, found, ?_⟩
    rw [← s.view_disconnect laws]
    rfl
  | endWorker worker =>
    cases stepped
    exact congrArg some (s.view_stopped laws worker).symm
  | forward entry =>
    simp only [step, Option.bind_eq_bind, Option.bind_eq_some_iff] at stepped ⊢
    obtain ⟨broker, moved, ⟨⟩⟩ := stepped
    have shown := laws.forward s.broker config.queue entry
    rw [moved] at shown
    exact ⟨server.view broker, shown.symm, rfl⟩

theorem run_view {table : Table} {actions : List Action} {s : State β}
    (path : run (step server lib config) (.start server table) actions = some s) :
    run (step (Broker.server limit) lib config) (.start (Broker.server limit) table) actions =
      some (s.view server) := by
  have start : (State.start server table).view server = .start (Broker.server limit) table := by
    simp only [State.view, State.start, laws.new]
    rfl
  rw [← start]
  exact run_map (step_view laws) path

end View
end EdgeGuard.Jobs.Transport
