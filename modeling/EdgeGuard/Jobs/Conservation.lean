import EdgeGuard.Jobs.Agreement
import EdgeGuard.Jobs.Transport

/-! No message is lost between the publishers and the end of a job. Whatever the broker has
taken over is in the queue of the jobs, in that of the dead letters, or acknowledged; what is
acknowledged has a succeeded row, and what a worker rejected has a failed one. The order in
which the processes declare, install and consume is what this rests on. -/
namespace EdgeGuard.Jobs.Transport
open Go Transition Messaging

variable {ν υ : Type} {lib : Library ν υ} {config : Config} {limit : Option Nat} {s t : State Broker}

/-- The topology of the workers is complete and their policy is in force. -/
structure Established (config : Config) (topology : Topology) (deadLetters : Str → Option Str) : Prop where
  declared : ∀ command ∈ consumerTopology config, topology.Has command
  policy : deadLetters config.queue = some config.deadExchange

/-- Why a message is dead: it came back too often, or a worker rejected it, and then its job
has failed unless the message is none. -/
def Perished (lib : Library ν υ) (table : Table) (entry : Entry) : Prop :=
  entry.death = some .deliveryLimit ∨ entry.death = some .rejected ∧
    ∀ envelope, decodeEnvelope lib entry.message.body = some envelope →
      envelope.validate lib.json.valid = .ok () → table.Holds envelope.id .failed

/-- `current` ties what a worker handles to the delivery that the broker knows. -/
structure Invariant (lib : Library ν υ) (config : Config) (s : State Broker) : Prop where
  within : s.broker.topology.Within (consumerTopology config)
  publishers : ∀ publisher state, s.publishers publisher = some state →
    Declared s.broker.topology (publisherTopology config) state.remaining
  processes : ∀ worker process, s.processes worker = some process →
    Declared s.broker.topology (consumerTopology config) process.remaining ∧
      (process.installed = true → Established config s.broker.topology s.broker.deadLetters)
  established : (s.broker.contents config.queue).held ≠ [] ∨ (s.broker.contents config.queue).dying ≠ [] →
    Established config s.broker.topology s.broker.deadLetters
  conserved : (s.accepted : Multiset Message) =
    (s.broker.contents config.queue).messages + (s.broker.contents config.deadQueue).messages +
      (s.acked : Multiset Message)
  keys : ∀ message ∈ s.accepted, message.routingKey ∈ jobTypes
  confirmed : s.confirmed ⊆ s.accepted
  consistent : Consistent lib.json.valid s.jobs
  current : ∀ worker handling, s.jobs.workers worker = some handling → ∃ process entry,
    s.processes worker = some process ∧ process.current = some entry ∧
      handling.body = decodeEnvelope lib entry.message.body
  acked : ∀ message ∈ s.acked, ∀ envelope, decodeEnvelope lib message.body = some envelope →
    s.jobs.table.Holds envelope.id .succeeded
  perished : ∀ entry, entry ∈ (s.broker.contents config.queue).dying ∨
    entry ∈ (s.broker.contents config.deadQueue).entries → Perished lib s.jobs.table entry

theorem start_invariant (table : Table) : Invariant lib config (.start (Broker.server limit) table) where
  within := by
    rintro (⟨_, _⟩ | ⟨_, _⟩ | ⟨_, _, _⟩) held
    · cases held
    · cases held
    · cases held
  publishers := nofun
  processes := nofun
  established := by simp [State.start, Broker.server, Broker.empty, Queue.empty]
  conserved := rfl
  keys := nofun
  confirmed := List.nil_subset _
  consistent := start_consistent table
  current := nofun
  acked := nofun
  perished := by simp [State.start, Broker.server, Broker.empty, Queue.empty, Queue.entries]

theorem Perished.kept {before after : Table} {entry : Entry} (perished : Perished lib before entry)
    (kept : Kept before after) : Perished lib after entry := by
  refine perished.imp_right ?_
  rintro ⟨death, failed⟩
  exact ⟨death, fun envelope decoded valid => kept.holds rfl (failed envelope decoded valid)⟩

theorem Established.grow {topology next : Topology} {command : Command} {deadLetters : Str → Option Str}
    (established : Established config topology deadLetters) (executed : topology.Executed command next) :
    Established config next deadLetters :=
  ⟨fun other member => executed.kept other (established.declared other member), established.policy⟩

namespace Invariant
variable (inv : Invariant lib config s)
include inv

theorem declared {command : Command} {next : Topology} (planned : command ∈ consumerTopology config)
    (executed : s.broker.topology.Executed command next) :
    Invariant lib config { s with broker := { s.broker with topology := next } } :=
  { inv with
    within := executed.within inv.within planned
    publishers := fun publisher state found => (inv.publishers publisher state found).grow executed
    processes := fun worker process found =>
      ⟨(inv.processes worker process found).1.grow executed,
        fun installed => ((inv.processes worker process found).2 installed).grow executed⟩
    established := fun used => (inv.established used).grow executed }

theorem publisher_accepted {command : Command} {rest : List Command}
    (made : Declared s.broker.topology (publisherTopology config) (command :: rest)) :
    ∃ next, s.broker.topology.execute command = some next :=
  made.accepted (publisherTopology_ordered config) (publisherTopology_subset config) inv.within
    (topology_peaceful config)

theorem consumer_accepted {command : Command} {rest : List Command}
    (made : Declared s.broker.topology (consumerTopology config) (command :: rest)) :
    ∃ next, s.broker.topology.execute command = some next :=
  made.accepted (consumerTopology_ordered config) (List.Subset.refl _) inv.within (topology_peaceful config)

theorem policed (declared : ∀ command ∈ consumerTopology config, s.broker.topology.Has command) :
    Invariant lib config (s.policed (Broker.server limit) config) :=
  have established : Established config s.broker.topology
      (s.broker.setPolicy config.queue config.deadExchange).deadLetters :=
    ⟨declared, Function.update_self ..⟩
  { inv with
    processes := fun worker process found =>
      ⟨(inv.processes worker process found).1, fun _ => established⟩
    established := fun _ => established }

theorem setPublisher {publisher : Nat} {state : Option Publisher}
    (made : ∀ now, state = some now → Declared s.broker.topology (publisherTopology config) now.remaining) :
    Invariant lib config (s.setPublisher publisher state) :=
  { inv with
    publishers := by
      intro other now found
      rcases update_found found with ⟨before, _⟩ | ⟨_, is⟩
      · exact inv.publishers other now before
      · exact made now is }

theorem setProcess {worker : Nat} {process : Option Process}
    (made : ∀ now, process = some now →
      Declared s.broker.topology (consumerTopology config) now.remaining ∧
        (now.installed = true → Established config s.broker.topology s.broker.deadLetters))
    (handles : ∀ handling, s.jobs.workers worker = some handling → ∃ now entry,
      process = some now ∧ now.current = some entry ∧
        handling.body = decodeEnvelope lib entry.message.body) :
    Invariant lib config (s.setProcess worker process) :=
  { inv with
    processes := by
      intro other now found
      rcases update_found found with ⟨before, _⟩ | ⟨_, is⟩
      · exact inv.processes other now before
      · exact made now is
    current := by
      intro other handling busy
      by_cases same : other = worker
      · subst same
        obtain ⟨now, entry, rfl, rest⟩ := handles handling busy
        exact ⟨now, entry, Function.update_self .., rest⟩
      · obtain ⟨now, entry, found, rest⟩ := inv.current other handling busy
        exact ⟨now, entry, (Function.update_of_ne same ..).trans found, rest⟩ }

theorem changeProcess {worker : Nat} {process now : Process} (found : s.processes worker = some process)
    (made : Declared s.broker.topology (consumerTopology config) now.remaining)
    (installed : now.installed = true → Established config s.broker.topology s.broker.deadLetters)
    (current : now.current = process.current) : Invariant lib config (s.setProcess worker (some now)) := by
  refine inv.setProcess ?_ ?_
  · rintro _ ⟨⟩
    exact ⟨made, installed⟩
  · intro handling busy
    obtain ⟨same, entry, found', handles, body⟩ := inv.current worker handling busy
    cases found.symm.trans found'
    exact ⟨now, entry, rfl, current.trans handles, body⟩

/-- A call of a worker or of the submission, where a delivery comes from the process. -/
theorem jobs {action : Jobs.Action} {next : System}
    (stepped : Jobs.step lib.json.valid s.jobs action = some next)
    (took : ∀ worker headers body, action = .deliver worker headers body → ∃ process entry,
      s.processes worker = some process ∧ process.current = some entry ∧
        body = decodeEnvelope lib entry.message.body) :
    Invariant lib config { s with jobs := next } :=
  have kept := step_kept stepped
  { inv with
    consistent := step_consistent inv.consistent stepped
    current := by
      intro worker handling busy
      cases step_moved stepped busy with
      | same _ before => exact inv.current worker handling before
      | delivered headers body is _ => exact took worker headers body is
      | replied earlier _ _ _ _ _ before _ _ _ _ => exact inv.current worker earlier before
      | processed earlier _ _ _ before _ _ => exact inv.current worker earlier before
    acked := fun message member envelope decoded =>
      kept.holds rfl (inv.acked message member envelope decoded)
    perished := fun entry place => (inv.perished entry place).kept kept }

/-- The queue of the jobs changes and keeps its messages, up to acknowledged ones. -/
theorem setQueue (apart : config.queue ≠ config.deadQueue) {queue : Queue} {acked : List Message}
    (established : queue.held ≠ [] ∨ queue.dying ≠ [] → Established config s.broker.topology s.broker.deadLetters)
    (messages : queue.messages + (acked : Multiset Message) =
      (s.broker.contents config.queue).messages + (s.acked : Multiset Message))
    (succeeded : ∀ message ∈ acked, message ∈ s.acked ∨ ∀ envelope,
      decodeEnvelope lib message.body = some envelope → s.jobs.table.Holds envelope.id .succeeded)
    (dying : ∀ entry ∈ queue.dying, entry ∈ (s.broker.contents config.queue).dying ∨ Perished lib s.jobs.table entry) :
    Invariant lib config { s with broker := s.broker.change config.queue queue, acked } := by
  have here : (s.broker.change config.queue queue).contents config.queue = queue := Function.update_self ..
  have there : (s.broker.change config.queue queue).contents config.deadQueue =
      s.broker.contents config.deadQueue := Function.update_of_ne apart.symm ..
  refine { inv with established := ?_, conserved := ?_, acked := ?_, perished := ?_ }
  · rw [here]
    exact established
  · rw [here, there]
    calc (s.accepted : Multiset Message)
        = (s.broker.contents config.queue).messages + (s.broker.contents config.deadQueue).messages +
          (s.acked : Multiset Message) :=
          inv.conserved
      _ = (s.broker.contents config.queue).messages + (s.acked : Multiset Message) +
          (s.broker.contents config.deadQueue).messages := by
          abel
      _ = queue.messages + (acked : Multiset Message) + (s.broker.contents config.deadQueue).messages := by
        rw [messages]
      _ = queue.messages + (s.broker.contents config.deadQueue).messages + (acked : Multiset Message) := by abel
  · intro message member envelope decoded
    rcases succeeded message member with before | holds
    · exact inv.acked message before envelope decoded
    · exact holds envelope decoded
  · rw [here, there]
    rintro entry (member | member)
    · rcases dying entry member with before | perished
      · exact inv.perished entry (.inl before)
      · exact perished
    · exact inv.perished entry (.inr member)

/-- The queue of the jobs dead-letters wherever it has deliveries to lose. -/
theorem deadLetters (held : (s.broker.contents config.queue).held ≠ []) :
    (s.broker.deadLetters config.queue).isSome = true := by
  rw [(inv.established (.inl held)).policy]
  rfl

theorem delivered (apart : config.queue ≠ config.deadQueue)
    (established : Established config s.broker.topology s.broker.deadLetters) {worker : Nat} {entry : Entry}
    {queue : Queue} (delivers : (s.broker.contents config.queue).deliver worker entry = some queue) :
    Invariant lib config { s with broker := s.broker.change config.queue queue } := by
  refine inv.setQueue apart (fun _ => established) ?_ (fun _ member => .inl member) ?_
  · rw [Queue.messages_deliver delivers]
  · rw [Queue.dying_deliver delivers]
    exact fun _ member => .inl member

theorem disconnect (apart : config.queue ≠ config.deadQueue) (limit : Option Nat) (worker : Nat) :
    Invariant lib config (s.disconnect (Broker.server limit) config worker) := by
  change Invariant lib config { s with broker := s.broker.disconnect limit config.queue worker }
  unfold Broker.disconnect
  by_cases held : (s.broker.contents config.queue).held = []
  · refine inv.setQueue apart ?_ ?_ (fun _ member => .inl member) ?_
    · rw [Queue.disconnect_unheld held]
      exact inv.established
    · rw [Queue.disconnect_unheld held]
    · rw [Queue.disconnect_unheld held]
      exact fun _ member => .inl member
  · rw [inv.deadLetters held]
    refine inv.setQueue apart (fun _ => inv.established (.inl held)) ?_ (fun _ member => .inl member) ?_
    · rw [Queue.messages_disconnect]
    · intro entry member
      exact (Queue.dying_disconnect member).imp_right .inl

theorem stopped (apart : config.queue ≠ config.deadQueue) (limit : Option Nat) (worker : Nat) :
    Invariant lib config (s.stopped (Broker.server limit) config worker) := by
  have crashed : Jobs.step lib.json.valid s.jobs (.crash worker) = some (s.jobs.goOn worker none) := rfl
  refine ((inv.disconnect apart limit worker).jobs crashed ?_).setProcess ?_ ?_
  · intro _ _ _ same
    cases same
  · intro now is
    cases is
  · intro handling busy
    have idle : (s.jobs.goOn worker none).workers worker = none := Function.update_self ..
    cases idle.symm.trans busy

/-- The settlement of the delivery that a worker has handled: the row that its last call
relies on is there. -/
theorem settled (apart : config.queue ≠ config.deadQueue) (limit : Option Nat) {worker : Nat}
    {process : Process} {entry : Entry}
    {handling : Handling} {settlement : Settlement} (found : s.processes worker = some process)
    (current : process.current = some entry) (busy : s.jobs.workers worker = some handling)
    (told : settlementOf handling.next = some settlement) :
    Invariant lib config (s.settled (Broker.server limit) config worker entry settlement) := by
  have body : handling.body = decodeEnvelope lib entry.message.body := by
    obtain ⟨same, other, found', current', body⟩ := inv.current worker handling busy
    cases found.symm.trans found'
    cases current.symm.trans current'
    exact body
  have backed := inv.consistent.handled worker handling busy
  change Invariant lib config { s with
    broker := s.broker.change config.queue ((s.broker.contents config.queue).settle
      (s.broker.deadLetters config.queue).isSome limit worker entry settlement)
    acked := if settlement = .ack ∧ (worker, entry) ∈ (s.broker.contents config.queue).held then
      s.acked ++ [entry.message] else s.acked }
  by_cases held : (worker, entry) ∈ (s.broker.contents config.queue).held
  · have used : (s.broker.contents config.queue).held ≠ [] := List.ne_nil_of_mem held
    obtain ⟨acks, requeues, rejects⟩ := Queue.messages_settle limit held
    rw [inv.deadLetters used]
    refine inv.setQueue apart (fun _ => inv.established (.inl used)) ?_ ?_ ?_
    · cases settlement with
      | ack =>
        rw [if_pos ⟨rfl, held⟩, acks, ← Multiset.coe_add, Multiset.coe_singleton, ← Multiset.singleton_add]
        abel
      | requeue => rw [if_neg (by simp), requeues]
      | reject => rw [if_neg (by simp), rejects]
    · intro message member
      split at member
      · rename_i acked
        obtain ⟨rfl, _⟩ := acked
        refine (List.mem_append.mp member).imp_right ?_
        intro last envelope decoded
        cases List.mem_singleton.mp last
        exact backed.acks (settlementOf_ack told) envelope (body.trans decoded)
      · exact .inl member
    · intro other member
      rcases Queue.dying_settle member with before | expired | ⟨rfl, rfl⟩
      · exact .inl before
      · exact .inr (.inl expired)
      · refine .inr (.inr ⟨rfl, ?_⟩)
        intro envelope decoded valid
        exact backed.rejects (settlementOf_reject told) envelope (body.trans decoded) valid
  · have unsettled : (s.broker.contents config.queue).settle (s.broker.deadLetters config.queue).isSome limit
        worker entry settlement = s.broker.contents config.queue := if_neg held
    rw [unsettled, if_neg (fun both => held both.2)]
    exact inv.setQueue apart inv.established rfl (fun _ member => .inl member) (fun _ member => .inl member)

theorem published (apart : config.queue ≠ config.deadQueue) (distinct : config.exchange ≠ config.deadExchange)
    (declared : ∀ command ∈ publisherTopology config, s.broker.topology.Has command)
    {message : Message} (known : message.routingKey ∈ jobTypes) (result : Except PublishError Unit) :
    Invariant lib config (s.published (Broker.server limit) config result (some message)) := by
  have routed := route_jobs inv.within distinct known (declared _ (by simp [publisherTopology]))
    (declared _ (by simp [publisherTopology]))
  have sent : s.broker.send config.exchange ⟨message, 0, none⟩ =
      s.broker.enqueue ⟨message, 0, none⟩ config.queue := Broker.send_eq routed
  change Invariant lib config { s.published (Broker.server limit) config result (some message) with
    broker := s.broker.send config.exchange ⟨message, 0, none⟩ }
  rw [sent]
  generalize after : s.broker.enqueue ⟨message, 0, none⟩ config.queue = broker
  have here : broker.contents config.queue = (s.broker.contents config.queue).push ⟨message, 0, none⟩ := by
    subst after
    exact Function.update_self ..
  have there : broker.contents config.deadQueue = s.broker.contents config.deadQueue := by
    subst after
    exact Function.update_of_ne apart.symm ..
  have topology : broker.topology = s.broker.topology := (congrArg Broker.topology after.symm :)
  have policy : broker.deadLetters = s.broker.deadLetters := (congrArg Broker.deadLetters after.symm :)
  refine ⟨?_, ?_, ?_, ?_, ?_, ?_, ?_, inv.consistent, inv.current, inv.acked, ?_⟩
  · rw [topology]
    exact inv.within
  · rw [topology]
    exact inv.publishers
  · rw [topology, policy]
    exact inv.processes
  · rw [here, topology, policy]
    exact inv.established
  · rw [here, there, Queue.messages_push]
    change ((s.accepted ++ [message] : List Message) : Multiset Message) = _
    rw [← Multiset.coe_add, inv.conserved, Multiset.coe_singleton, ← Multiset.singleton_add]
    change _ = {message} + _ + _ + (s.acked : Multiset Message)
    abel
  · intro other member
    rcases List.mem_append.mp member with before | last
    · exact inv.keys other before
    · cases List.mem_singleton.mp last
      exact known
  · intro other member
    change other ∈ s.accepted ++ [message]
    cases result with
    | ok _ =>
      exact (List.mem_append.mp member).elim (fun before => List.mem_append_left _ (inv.confirmed before))
        (fun last => List.mem_append_right _ last)
    | error _ => exact List.mem_append_left _ (inv.confirmed member)
  · rw [here, there]
    exact inv.perished

theorem forwarded (apart : config.queue ≠ config.deadQueue) (distinct : config.exchange ≠ config.deadExchange)
    {entry : Entry} {broker : Broker} (moved : s.broker.forward config.queue entry = some broker) :
    Invariant lib config { s with broker } := by
  have dying : entry ∈ (s.broker.contents config.queue).dying := by
    simp only [Broker.forward, Option.bind_eq_bind, Option.bind_eq_some_iff,
      Option.ite_none_right_eq_some] at moved
    obtain ⟨_, _, ⟨member, _⟩, _⟩ := moved
    exact member
  have established := inv.established (.inr (List.ne_nil_of_mem dying))
  have buried := Queue.messages_bury dying
  have known : entry.message.routingKey ∈ jobTypes := by
    apply inv.keys
    rw [← Multiset.mem_coe, inv.conserved, buried]
    simp
  have routed := route_dead inv.within distinct known (established.declared _ (by simp [consumerTopology]))
    (established.declared _ (by simp [consumerTopology]))
  obtain ⟨_, rfl⟩ := Broker.forward_moved moved established.policy routed
  generalize after : (s.broker.change config.queue ((s.broker.contents config.queue).bury entry)).enqueue
    entry config.deadQueue = broker
  have here : broker.contents config.queue = (s.broker.contents config.queue).bury entry := by
    subst after
    exact (Function.update_of_ne apart ..).trans (Function.update_self ..)
  have there : broker.contents config.deadQueue = (s.broker.contents config.deadQueue).push entry := by
    subst after
    refine (Function.update_self ..).trans ?_
    exact congrArg (Queue.push · entry) (Function.update_of_ne apart.symm ..)
  have topology : broker.topology = s.broker.topology := (congrArg Broker.topology after.symm :)
  have policy : broker.deadLetters = s.broker.deadLetters := (congrArg Broker.deadLetters after.symm :)
  refine ⟨?_, ?_, ?_, ?_, ?_, inv.keys, inv.confirmed, inv.consistent, inv.current, inv.acked, ?_⟩
  · rw [topology]
    exact inv.within
  · rw [topology]
    exact inv.publishers
  · rw [topology, policy]
    exact inv.processes
  · rw [topology, policy]
    exact fun _ => established
  · rw [here, there, Queue.messages_push, inv.conserved, buried, Multiset.cons_add, Multiset.cons_add,
      Multiset.add_cons, Multiset.cons_add]
  · intro other place
    rw [here, there] at place
    rcases place with member | member
    · exact inv.perished other (.inl (List.mem_of_mem_erase member))
    · simp only [Queue.entries, Queue.push, List.mem_append, List.mem_singleton] at member
      rcases member with ((ready | rfl) | held) | letter
      · exact inv.perished other (.inr (by simp [Queue.entries, ready]))
      · exact inv.perished entry (.inl dying)
      · exact inv.perished other (.inr (List.mem_append_left _ (List.mem_append_right _ held)))
      · exact inv.perished other (.inr (List.mem_append_right _ letter))

end Invariant

theorem publish_known {publisher : Publisher} {envelope : Envelope} {fate : Fate} {message : Message}
    (sent : (publisher.publish lib envelope fate).2 = some message) : message.routingKey ∈ jobTypes := by
  unfold Publisher.publish at sent
  split at sent
  · cases sent
  · rename_i valid
    have known : envelope.type ∈ jobTypes := (validate_ok_iff.mp valid).2.2.1
    split at sent
    · cases sent
    · split at sent
      · cases sent
      · split at sent
        · cases sent
        · obtain ⟨_, ⟨⟩⟩ := Option.ite_none_right_eq_some.mp sent
          exact known

theorem settle_idle {validJSON : Str → Bool} {jobs next : System} {worker : Nat} {sent : Bool}
    (stepped : Jobs.step validJSON jobs (.settle worker sent) = some next) : next.workers worker = none := by
  cases step_effect stepped with
  | ack _ _ _ _ _ => exact Function.update_self ..
  | reject _ _ _ _ _ _ => exact Function.update_self ..

section Step
variable (apart : config.queue ≠ config.deadQueue) (distinct : config.exchange ≠ config.deadExchange)
include apart distinct

theorem step_invariant {action : Action} (inv : Invariant lib config s)
    (stepped : step (Broker.server limit) lib config s action = some t) : Invariant lib config t := by
  cases action with
  | startPublisher publisher =>
    simp only [step] at stepped
    split at stepped
    · cases stepped
    · cases stepped
      refine inv.setPublisher ?_
      rintro _ ⟨⟩
      exact .fresh _ _
  | declare publisher =>
    simp only [step, Option.bind_eq_bind, Option.bind_eq_some_iff] at stepped
    obtain ⟨state, found, stepped⟩ := stepped
    have made := inv.publishers publisher state found
    split at stepped
    · cases stepped
    · rename_i command rest remaining
      rw [remaining] at made
      obtain ⟨topology, executes⟩ := inv.publisher_accepted made
      have declares : (Broker.server limit).declare s.broker command = some { s.broker with topology } :=
        congrArg (Option.map _) executes
      rw [declares] at stepped
      cases stepped
      have executed := Topology.execute_executed executes
      refine (inv.declared (publisherTopology_subset config made.planned) executed).setPublisher ?_
      rintro _ ⟨⟩
      exact made.advance executed
  | publish publisher envelope fate =>
    simp only [step, Option.bind_eq_bind, Option.bind_eq_some_iff, Option.ite_none_right_eq_some] at stepped
    obtain ⟨state, found, finished, stepped⟩ := stepped
    have made := inv.publishers publisher state found
    rw [finished] at made
    cases stepped
    cases sent : (state.publish lib envelope fate).2 with
    | none => exact inv
    | some message => exact inv.published apart distinct made.all (publish_known sent) _
  | closePublisher publisher | losePublisher publisher =>
    simp only [step, Option.bind_eq_bind, Option.bind_eq_some_iff] at stepped
    obtain ⟨state, found, ⟨⟩⟩ := stepped
    refine inv.setPublisher ?_
    rintro _ ⟨⟩
    exact inv.publishers publisher state found
  | endPublisher publisher =>
    cases stepped
    refine inv.setPublisher ?_
    rintro _ ⟨⟩
  | startWorker worker =>
    simp only [step] at stepped
    split at stepped
    · cases stepped
    · rename_i unused
      cases stepped
      refine inv.setProcess ?_ ?_
      · rintro _ ⟨⟩
        refine ⟨.fresh _ _, ?_⟩
        rintro ⟨⟩
      · intro handling busy
        obtain ⟨_, _, found, _⟩ := inv.current worker handling busy
        cases unused.symm.trans found
  | prepare worker =>
    simp only [step, Option.bind_eq_bind, Option.bind_eq_some_iff] at stepped
    obtain ⟨process, found, stepped⟩ := stepped
    obtain ⟨made, installed⟩ := inv.processes worker process found
    split at stepped
    · cases stepped
    · rename_i command rest remaining
      rw [remaining] at made
      obtain ⟨topology, executes⟩ := inv.consumer_accepted made
      have declares : (Broker.server limit).declare s.broker command = some { s.broker with topology } :=
        congrArg (Option.map _) executes
      rw [declares] at stepped
      cases stepped
      have executed := Topology.execute_executed executes
      exact (inv.declared made.planned executed).changeProcess found (made.advance executed)
        (fun set => (installed set).grow executed) rfl
  | installPolicy worker =>
    simp only [step, Option.bind_eq_bind, Option.bind_eq_some_iff, Option.ite_none_right_eq_some] at stepped
    obtain ⟨process, found, finished, ⟨⟩⟩ := stepped
    obtain ⟨made, _⟩ := inv.processes worker process found
    rw [finished] at made
    refine (inv.policed made.all).changeProcess found ?_ ?_ rfl
    · rw [finished]
      exact made
    · exact fun _ => ⟨made.all, Function.update_self ..⟩
  | fetch worker entry =>
    simp only [step, Option.bind_eq_bind, Option.bind_eq_some_iff, Option.ite_none_right_eq_some] at stepped
    obtain ⟨process, found, ⟨set, _⟩, broker, given, ⟨⟩⟩ := stepped
    obtain ⟨_, given⟩ := Option.ite_none_right_eq_some.mp given
    obtain ⟨queue, delivered, rfl⟩ := Option.map_eq_some_iff.mp given
    obtain ⟨made, installed⟩ := inv.processes worker process found
    exact (inv.delivered apart (installed set) delivered).changeProcess found made installed rfl
  | take worker =>
    simp only [step, Option.bind_eq_bind, Option.bind_eq_some_iff] at stepped
    obtain ⟨process, found, stepped⟩ := stepped
    split at stepped
    · cases stepped
    · rename_i entry rest received
      obtain ⟨jobs, called, ⟨⟩⟩ := Option.bind_eq_some_iff.mp stepped
      have idle : s.jobs.workers worker = none := by
        cases step_effect called with
        | deliver _ _ _ idle => exact idle
      have ready : Invariant lib config (s.setProcess worker
          (some { process with inbox := rest, current := some entry })) := by
        refine inv.setProcess ?_ ?_
        · rintro _ ⟨⟩
          exact inv.processes worker process found
        · intro handling busy
          cases idle.symm.trans busy
      refine ready.jobs called ?_
      rintro _ _ _ ⟨⟩
      exact ⟨_, entry, Function.update_self .., rfl, rfl⟩
  | store worker now fault =>
    simp only [step, Option.bind_eq_bind, Option.bind_eq_some_iff] at stepped
    obtain ⟨jobs, called, stepped⟩ := stepped
    have after := inv.jobs called (by rintro _ _ _ ⟨⟩)
    split at stepped
    · cases stepped
      exact after.stopped apart limit worker
    · cases stepped
      exact after
  | process worker outcome =>
    simp only [step, Option.bind_eq_bind, Option.bind_eq_some_iff] at stepped
    obtain ⟨jobs, called, ⟨⟩⟩ := stepped
    refine inv.jobs called ?_
    rintro _ _ _ ⟨⟩
  | settle worker sent received =>
    simp only [step, Option.bind_eq_bind, Option.bind_eq_some_iff] at stepped
    obtain ⟨process, found, entry, current, handling, busy, settlement, told, jobs, called, ⟨⟩⟩ := stepped
    generalize heard : (if received = true ∧ process.connected = true then
      s.settled (Broker.server limit) config worker entry settlement else s) = after
    have same : after.jobs = s.jobs ∧ after.processes = s.processes := by
      subst heard
      split
      · exact ⟨rfl, rfl⟩
      · exact ⟨rfl, rfl⟩
    have settled : Invariant lib config after := by
      subst heard
      split
      · exact inv.settled apart limit found current busy told
      · exact inv
    rw [← same.1] at called
    have next : Invariant lib config ({ after with jobs }.setProcess worker
        (some { process with current := none })) := by
      refine (settled.jobs called (by rintro _ _ _ ⟨⟩)).setProcess ?_ ?_
      · rintro _ ⟨⟩
        exact settled.processes worker process (same.2 ▸ found)
      · intro handling busy
        cases (settle_idle called).symm.trans busy
    split
    · exact next
    · exact next.stopped apart limit worker
  | loseWorker worker =>
    simp only [step, Option.bind_eq_bind, Option.bind_eq_some_iff] at stepped
    obtain ⟨process, found, ⟨⟩⟩ := stepped
    obtain ⟨made, installed⟩ := inv.processes worker process found
    exact (inv.disconnect apart limit worker).changeProcess found made installed rfl
  | endWorker worker =>
    cases stepped
    exact inv.stopped apart limit worker
  | forward entry =>
    simp only [step, Option.bind_eq_bind, Option.bind_eq_some_iff] at stepped
    obtain ⟨broker, moved, ⟨⟩⟩ := stepped
    exact inv.forwarded apart distinct moved
  | submit submission =>
    simp only [step, Option.bind_eq_bind, Option.bind_eq_some_iff] at stepped
    obtain ⟨jobs, called, ⟨⟩⟩ := stepped
    refine inv.jobs called ?_
    rintro _ _ _ ⟨⟩

section Run
variable {β : Type} {server : Server β} (laws : server.Documented limit) {table : Table} {actions : List Action}
  {s : State β} (path : run (step server lib config) (.start server table) actions = some s)
include laws path

theorem run_transport : Invariant lib config (s.view server) :=
  run_invariant (step_invariant apart distinct) (run_view laws path) (start_invariant table)

end Run
end Step

/-- The names that the two configurations default to. -/
def defaultConfig : Config :=
  ⟨lit "edgeguard.jobs.v1", lit "edgeguard.jobs.main.v1", lit "edgeguard.jobs.dead.v1",
    lit "edgeguard.jobs.dead.v1", 10⟩

def sampleMessage (envelope : Envelope) : Message :=
  ⟨envelope.type, (plainLibrary.json.marshal envelope.fields).getD []⟩

/-- Both processes start; the report job is done, the webhook job is rejected and moves on,
and a third job waits. -/
def threeJobs : List Action :=
  let report : Entry := ⟨sampleMessage reportJob, 0, none⟩
  let webhook : Entry := ⟨sampleMessage webhookJob, 0, none⟩
  [.startWorker 0, .startPublisher 0, .declare 0, .prepare 0, .prepare 0, .declare 0, .declare 0,
    .publish 0 reportJob .confirmed, .prepare 0, .prepare 0, .prepare 0, .prepare 0, .installPolicy 0,
    .fetch 0 report, .publish 0 webhookJob .confirmed, .fetch 0 webhook,
    .take 0, .store 0 1 none, .process 0 (.done ⟨lit "report generated", [], 0⟩), .store 0 2 none, .settle 0 true true,
    .take 0, .store 0 3 none, .process 0 (.failed true (lit "blocked address")), .store 0 4 none,
    .settle 0 true true, .forward { webhook with death := some .rejected },
    .publish 0 { reportJob with id := lit "5d8bba2b" } .confirmed]

def quorum : Server Broker := Broker.server (some 20)

/-- The messages that the run has confirmed, acknowledged and buried. -/
def State.report (s : State Broker) : List Message × List Message × List Entry :=
  (s.confirmed, s.acked, (s.deadQueue quorum defaultConfig).entries)

theorem threeJobs_run :
    ∃ s, run (step quorum plainLibrary defaultConfig) (.start quorum fun _ => none) threeJobs = some s ∧
      s.report = ([sampleMessage reportJob, sampleMessage webhookJob,
        sampleMessage { reportJob with id := lit "5d8bba2b" }], [sampleMessage reportJob],
        [⟨sampleMessage webhookJob, 0, some .rejected⟩]) :=
  Option.map_eq_some_iff.mp (by decide +kernel)

end EdgeGuard.Jobs.Transport
