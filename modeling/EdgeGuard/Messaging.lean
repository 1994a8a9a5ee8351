import EdgeGuard.Go.Strings
import Mathlib.Algebra.Order.Group.Multiset
import Mathlib.Data.List.Dedup
import Mathlib.Data.Multiset.Filter
import Mathlib.Tactic.Abel

/-! A message broker with exchanges, bound queues and consumers that settle what they
were delivered. A message that is not settled comes back to its queue; one that is
refused, or came back too often, is dead-lettered. No operation on a queue that
dead-letters loses or doubles a message. The broker of a system is a parameter, and
`Server.Documented` is what is asked of it. -/
namespace EdgeGuard.Messaging
open Go (Str lit)

/-- The words of a key against those of a pattern: `*` stands for one word and `#` for
any number of them. -/
def matchWords : List Str → List Str → Bool
  | [], key => key.isEmpty
  | word :: rest, key =>
    if word = lit "#" then key.tails.any (matchWords rest)
    else match key with
      | [] => false
      | first :: later => (word == lit "*" || word == first) && matchWords rest later

def topicMatches (pattern key : Str) : Bool := matchWords (pattern.splitOn 46) (key.splitOn 46)

inductive ExchangeKind where
  | direct
  | fanout
  | topic
  deriving DecidableEq, Repr

def ExchangeKind.accepts (kind : ExchangeKind) (pattern key : Str) : Bool :=
  match kind with
  | .direct => pattern == key
  | .fanout => true
  | .topic => topicMatches pattern key

structure ExchangeArgs where
  kind : ExchangeKind
  durable : Bool
  autoDelete : Bool
  internal : Bool
  deriving DecidableEq, Repr

structure QueueArgs where
  durable : Bool
  autoDelete : Bool
  exclusive : Bool
  arguments : List (Str × Str)
  deriving DecidableEq, Repr

structure Binding where
  exchange : Str
  pattern : Str
  queue : Str
  deriving DecidableEq, Repr

inductive Command where
  | exchangeDeclare (name : Str) (args : ExchangeArgs)
  | queueDeclare (name : Str) (args : QueueArgs)
  | queueBind (queue pattern exchange : Str)
  deriving DecidableEq, Repr

structure Message where
  routingKey : Str
  body : Str
  deriving DecidableEq, Repr

/-- Why a message was dead-lettered. -/
inductive Death where
  | rejected
  | deliveryLimit
  deriving DecidableEq, Repr

/-- A message in a queue, how often it came back, and the reason it was dead-lettered
for on its way here. -/
structure Entry where
  message : Message
  count : Nat
  death : Option Death
  deriving DecidableEq, Repr

instance lawfulBEqDelivery : LawfulBEq (Nat × Entry) := inferInstance

/-- `held` are deliveries that their consumer has not settled, `dying` dead letters that
no other queue has taken over yet. -/
structure Queue where
  ready : List Entry
  held : List (Nat × Entry)
  dying : List Entry
  deriving DecidableEq, Repr

namespace Queue

def empty : Queue := ⟨[], [], []⟩

def entries (q : Queue) : List Entry := q.ready ++ q.held.map Prod.snd ++ q.dying

def messages (q : Queue) : Multiset Message := Multiset.map Entry.message q.entries

def push (q : Queue) (entry : Entry) : Queue := { q with ready := q.ready ++ [{ entry with count := 0 }] }

def deliver (q : Queue) (consumer : Nat) (entry : Entry) : Option Queue :=
  if entry ∈ q.ready then
    some { q with ready := q.ready.erase entry, held := (consumer, entry) :: q.held }
  else none

def release (q : Queue) (consumer : Nat) (entry : Entry) : Queue :=
  { q with held := q.held.erase (consumer, entry) }

/-- A queue that does not dead-letter drops what it is done with. -/
def kill (q : Queue) (deadLetters : Bool) (death : Death) (entry : Entry) : Queue :=
  if deadLetters then { q with dying := q.dying ++ [{ entry with death := some death }] } else q

def giveBack (q : Queue) (deadLetters : Bool) (limit : Option Nat) (entry : Entry) : Queue :=
  let again := { entry with count := entry.count + 1 }
  if limit.any (· < again.count) then q.kill deadLetters .deliveryLimit again
  else { q with ready := q.ready ++ [again] }

/-- A consumer is gone: what it held comes back. -/
def disconnect (q : Queue) (deadLetters : Bool) (limit : Option Nat) (consumer : Nat) : Queue :=
  (q.held.filter (·.1 = consumer)).foldl (fun q delivery => q.giveBack deadLetters limit delivery.2)
    { q with held := q.held.filter (·.1 ≠ consumer) }

def bury (q : Queue) (entry : Entry) : Queue := { q with dying := q.dying.erase entry }

end Queue

/-- How a consumer settles a delivery. -/
inductive Settlement where
  | ack
  | requeue
  | reject
  deriving DecidableEq, Repr

/-- The settlement of a delivery that the consumer does not hold is without effect. -/
def Queue.settle (q : Queue) (deadLetters : Bool) (limit : Option Nat) (consumer : Nat) (entry : Entry)
    (settlement : Settlement) : Queue :=
  if (consumer, entry) ∈ q.held then
    match settlement with
    | .ack => q.release consumer entry
    | .requeue => (q.release consumer entry).giveBack deadLetters limit entry
    | .reject => (q.release consumer entry).kill deadLetters .rejected entry
  else q

structure Topology where
  exchanges : Str → Option ExchangeArgs
  queues : Str → Option QueueArgs
  bindings : List Binding

namespace Topology

def empty : Topology := ⟨fun _ => none, fun _ => none, []⟩

/-- A declaration is repeatable; with other arguments it is refused. -/
def execute (t : Topology) : Command → Option Topology
  | .exchangeDeclare name args => match t.exchanges name with
    | none => some { t with exchanges := Function.update t.exchanges name (some args) }
    | some declared => if declared = args then some t else none
  | .queueDeclare name args => match t.queues name with
    | none => some { t with queues := Function.update t.queues name (some args) }
    | some declared => if declared = args then some t else none
  | .queueBind queue pattern exchange =>
    if t.queues queue = none ∨ t.exchanges exchange = none then none
    else if ⟨exchange, pattern, queue⟩ ∈ t.bindings then some t
    else some { t with bindings := t.bindings ++ [⟨exchange, pattern, queue⟩] }

/-- The queues that a message for an exchange goes to. -/
def route (t : Topology) (exchange key : Str) : List Str :=
  match t.exchanges exchange with
  | none => []
  | some args => ((t.bindings.filter (fun binding => binding.exchange == exchange &&
      args.kind.accepts binding.pattern key)).map Binding.queue).dedup

end Topology

/-- `deadLetters` is the exchange a policy names for the dead letters of a queue. -/
structure Broker where
  topology : Topology
  contents : Str → Queue
  deadLetters : Str → Option Str

namespace Broker

def empty : Broker := ⟨.empty, fun _ => .empty, fun _ => none⟩

def change (b : Broker) (queue : Str) (contents : Queue) : Broker :=
  { b with contents := Function.update b.contents queue contents }

def declare (b : Broker) (command : Command) : Option Broker :=
  (b.topology.execute command).map (fun topology => { b with topology })

def setPolicy (b : Broker) (queue exchange : Str) : Broker :=
  { b with deadLetters := Function.update b.deadLetters queue (some exchange) }

def enqueue (b : Broker) (entry : Entry) (queue : Str) : Broker :=
  b.change queue ((b.contents queue).push entry)

def send (b : Broker) (exchange : Str) (entry : Entry) : Broker :=
  (b.topology.route exchange entry.message.routingKey).foldl (fun b queue => b.enqueue entry queue) b

/-- A consumer gets no further delivery while it holds as many as it asked for. -/
def deliver (b : Broker) (queue : Str) (consumer prefetch : Nat) (entry : Entry) : Option Broker :=
  if (b.contents queue).held.countP (·.1 = consumer) < prefetch ∨ prefetch = 0 then
    ((b.contents queue).deliver consumer entry).map (b.change queue)
  else none

def settle (b : Broker) (limit : Option Nat) (queue : Str) (consumer : Nat) (entry : Entry)
    (settlement : Settlement) : Broker :=
  b.change queue ((b.contents queue).settle (b.deadLetters queue).isSome limit consumer entry settlement)

def disconnect (b : Broker) (limit : Option Nat) (queue : Str) (consumer : Nat) : Broker :=
  b.change queue ((b.contents queue).disconnect (b.deadLetters queue).isSome limit consumer)

/-- A dead letter is taken over by the queues behind its exchange; where there is none
it stays. -/
def forward (b : Broker) (queue : Str) (entry : Entry) : Option Broker := do
  let exchange ← b.deadLetters queue
  if entry ∈ (b.contents queue).dying ∧ b.topology.route exchange entry.message.routingKey ≠ [] then
    some ((b.change queue ((b.contents queue).bury entry)).send exchange entry)
  else none

end Broker

/-- A broker as its clients find it: the operations, and what they show of its state. -/
structure Server (β : Type) where
  view : β → Broker
  new : β
  declare : β → Command → Option β
  setPolicy : β → (queue exchange : Str) → β
  send : β → (exchange : Str) → Message → β
  deliver : β → (queue : Str) → (consumer prefetch : Nat) → Entry → Option β
  settle : β → (queue : Str) → (consumer : Nat) → Entry → Settlement → β
  disconnect : β → (queue : Str) → (consumer : Nat) → β
  forward : β → (queue : Str) → Entry → Option β

/-- What is asked of the broker, with the delivery limit of its queues. -/
structure Server.Documented {β : Type} (server : Server β) (limit : Option Nat) : Prop where
  new : server.view server.new = .empty
  declare : ∀ b command, (server.declare b command).map server.view = (server.view b).declare command
  setPolicy : ∀ b queue exchange,
    server.view (server.setPolicy b queue exchange) = (server.view b).setPolicy queue exchange
  send : ∀ b exchange message,
    server.view (server.send b exchange message) = (server.view b).send exchange ⟨message, 0, none⟩
  deliver : ∀ b queue consumer prefetch entry, (server.deliver b queue consumer prefetch entry).map server.view =
    (server.view b).deliver queue consumer prefetch entry
  settle : ∀ b queue consumer entry settlement, server.view (server.settle b queue consumer entry settlement) =
    (server.view b).settle limit queue consumer entry settlement
  disconnect : ∀ b queue consumer,
    server.view (server.disconnect b queue consumer) = (server.view b).disconnect limit queue consumer
  forward : ∀ b queue entry, (server.forward b queue entry).map server.view = (server.view b).forward queue entry

/-- The broker that is no more than what it shows. -/
def Broker.server (limit : Option Nat) : Server Broker where
  view := id
  new := .empty
  declare := declare
  setPolicy := setPolicy
  send := fun b exchange message => b.send exchange ⟨message, 0, none⟩
  deliver := deliver
  settle := fun b => b.settle limit
  disconnect := fun b => b.disconnect limit
  forward := forward

theorem Broker.server_documented (limit : Option Nat) : (server limit).Documented limit where
  new := rfl
  declare := fun _ _ => congrFun Option.map_id _
  setPolicy := fun _ _ _ => rfl
  send := fun _ _ _ => rfl
  deliver := fun _ _ _ _ _ => congrFun Option.map_id _
  settle := fun _ _ _ _ _ => rfl
  disconnect := fun _ _ _ => rfl
  forward := fun _ _ _ => congrFun Option.map_id _

namespace Queue
variable {q next : Queue} {consumer : Nat} {entry : Entry}

theorem messages_eq (q : Queue) : q.messages =
    (q.ready.map Entry.message : Multiset Message) +
      (q.held.map (fun delivery => delivery.2.message) : Multiset Message) +
      (q.dying.map Entry.message : Multiset Message) := by
  simp only [messages, entries, Multiset.map_coe, List.map_append, List.map_map, Multiset.coe_add,
    Function.comp_def]

theorem map_erase {α : Type} [BEq α] [LawfulBEq α] {items : List α} {item : α} (f : α → Message)
    (member : item ∈ items) :
    (items.map f : Multiset Message) = f item ::ₘ ((items.erase item).map f : Multiset Message) :=
  Multiset.coe_eq_coe.mpr ((List.perm_cons_erase member).map f)

theorem map_concat {α : Type} (items : List α) (item : α) (f : α → Message) :
    ((items ++ [item]).map f : Multiset Message) = f item ::ₘ (items.map f : Multiset Message) :=
  Multiset.coe_eq_coe.mpr ((List.perm_append_singleton item items).map f)

theorem messages_push (q : Queue) (entry : Entry) : (q.push entry).messages = entry.message ::ₘ q.messages := by
  simp only [messages_eq, push, map_concat, Multiset.cons_add]

theorem messages_deliver (delivered : q.deliver consumer entry = some next) :
    next.messages = q.messages := by
  simp only [deliver, Option.ite_none_right_eq_some, Option.some.injEq] at delivered
  obtain ⟨member, rfl⟩ := delivered
  simp only [messages_eq, map_erase Entry.message member, List.map_cons, ← Multiset.cons_coe,
    Multiset.cons_add, Multiset.add_cons]

theorem dying_deliver (delivered : q.deliver consumer entry = some next) : next.dying = q.dying := by
  simp only [deliver, Option.ite_none_right_eq_some, Option.some.injEq] at delivered
  obtain ⟨_, rfl⟩ := delivered
  rfl

theorem messages_release (member : (consumer, entry) ∈ q.held) :
    q.messages = entry.message ::ₘ (q.release consumer entry).messages := by
  simp only [messages_eq, release, map_erase (fun delivery => delivery.2.message) member,
    Multiset.cons_add, Multiset.add_cons]

theorem messages_kill (q : Queue) (death : Death) (entry : Entry) :
    (q.kill true death entry).messages = entry.message ::ₘ q.messages := by
  simp only [messages_eq, kill, if_true, map_concat, Multiset.add_cons]

theorem messages_giveBack (q : Queue) (limit : Option Nat) (entry : Entry) :
    (q.giveBack true limit entry).messages = entry.message ::ₘ q.messages := by
  unfold giveBack
  dsimp only
  split
  · exact q.messages_kill .deliveryLimit _
  · simp only [messages_eq, map_concat, Multiset.cons_add]

theorem messages_giveBackAll (limit : Option Nat) (deliveries : List (Nat × Entry)) (q : Queue) :
    (deliveries.foldl (fun q delivery => q.giveBack true limit delivery.2) q).messages =
      (deliveries.map (fun delivery => delivery.2.message) : Multiset Message) + q.messages := by
  induction deliveries generalizing q with
  | nil => simp
  | cons delivery rest ih =>
    rw [List.foldl_cons, ih, messages_giveBack, List.map_cons, ← Multiset.cons_coe, Multiset.add_cons,
      Multiset.cons_add]

/-- What a consumer held is in the queue again, or among its dead letters. -/
theorem messages_disconnect (q : Queue) (limit : Option Nat) (consumer : Nat) :
    (q.disconnect true limit consumer).messages = q.messages := by
  have split : (q.held.map (fun delivery => delivery.2.message) : Multiset Message) =
      ((q.held.filter (·.1 = consumer)).map (fun delivery => delivery.2.message) : Multiset Message) +
        ((q.held.filter (·.1 ≠ consumer)).map (fun delivery => delivery.2.message) : Multiset Message) := by
    rw [Multiset.coe_add, ← List.map_append, Multiset.coe_eq_coe]
    refine List.Perm.map _ (List.Perm.symm ?_)
    simpa using List.filter_append_perm (fun delivery : Nat × Entry => decide (delivery.1 = consumer)) q.held
  rw [disconnect, messages_giveBackAll, messages_eq, messages_eq, split]
  abel

theorem messages_bury (member : entry ∈ q.dying) :
    q.messages = entry.message ::ₘ (q.bury entry).messages := by
  simp only [messages_eq, bury, map_erase Entry.message member, Multiset.add_cons]

theorem messages_settle (limit : Option Nat) (member : (consumer, entry) ∈ q.held) :
    q.messages = entry.message ::ₘ (q.settle true limit consumer entry .ack).messages ∧
    (q.settle true limit consumer entry .requeue).messages = q.messages ∧
    (q.settle true limit consumer entry .reject).messages = q.messages := by
  simp only [settle, if_pos member, messages_giveBack, messages_kill]
  exact ⟨messages_release member, (messages_release member).symm, (messages_release member).symm⟩

theorem disconnect_unheld (unheld : q.held = []) (deadLetters : Bool) (limit : Option Nat) (consumer : Nat) :
    q.disconnect deadLetters limit consumer = q := by
  obtain ⟨ready, held, dying⟩ := q
  cases unheld
  rfl

/-- The dead letters after a return: those before, and the delivery if it came back too
often. -/
theorem dying_giveBack {deadLetters : Bool} {limit : Option Nat} {other : Entry}
    (member : other ∈ (q.giveBack deadLetters limit entry).dying) :
    other ∈ q.dying ∨ other.death = some .deliveryLimit := by
  unfold giveBack at member
  dsimp only at member
  split at member
  · unfold kill at member
    split at member
    · refine (List.mem_append.mp member).imp_right ?_
      intro last
      rw [List.mem_singleton.mp last]
    · exact .inl member
  · exact .inl member

theorem dying_giveBackAll {deadLetters : Bool} {limit : Option Nat} {other : Entry}
    {deliveries : List (Nat × Entry)} (member : other ∈ (deliveries.foldl
      (fun q delivery => q.giveBack deadLetters limit delivery.2) q).dying) :
    other ∈ q.dying ∨ other.death = some .deliveryLimit := by
  induction deliveries generalizing q with
  | nil => exact .inl member
  | cons delivery rest ih =>
    rcases ih member with before | expired
    · exact dying_giveBack before
    · exact .inr expired

theorem dying_disconnect {deadLetters : Bool} {limit : Option Nat} {other : Entry}
    (member : other ∈ (q.disconnect deadLetters limit consumer).dying) :
    other ∈ q.dying ∨ other.death = some .deliveryLimit := by
  unfold disconnect at member
  have before := dying_giveBackAll member
  exact before

/-- The dead letters after a settlement: those before, a delivery that came back too often,
and the one that was rejected. -/
theorem dying_settle {deadLetters : Bool} {limit : Option Nat} {settlement : Settlement} {other : Entry}
    (member : other ∈ (q.settle deadLetters limit consumer entry settlement).dying) :
    other ∈ q.dying ∨ other.death = some .deliveryLimit ∨
      settlement = .reject ∧ other = { entry with death := some .rejected } := by
  unfold settle at member
  split at member
  · cases settlement with
    | ack => exact .inl member
    | requeue => exact (dying_giveBack member).imp_right .inl
    | reject =>
      simp only [kill] at member
      split at member
      · refine (List.mem_append.mp member).imp_right ?_
        intro last
        exact .inr ⟨rfl, List.mem_singleton.mp last⟩
      · exact .inl member
  · exact .inl member

end Queue

/-- Two declarations of one name with different arguments. -/
def Command.Conflicts : Command → Command → Prop
  | .exchangeDeclare name args, .exchangeDeclare other others => name = other ∧ args ≠ others
  | .queueDeclare name args, .queueDeclare other others => name = other ∧ args ≠ others
  | _, _ => False

namespace Topology
variable {t next : Topology} {command : Command}

/-- A declaration is in force. -/
def Has (t : Topology) : Command → Prop
  | .exchangeDeclare name args => t.exchanges name = some args
  | .queueDeclare name args => t.queues name = some args
  | .queueBind queue pattern exchange => ⟨exchange, pattern, queue⟩ ∈ t.bindings

/-- Nothing but the planned declarations is in force. -/
def Within (t : Topology) (plan : List Command) : Prop := ∀ command, t.Has command → command ∈ plan

/-- Everything a command that is not refused does. -/
structure Executed (t : Topology) (command : Command) (next : Topology) : Prop where
  has : next.Has command
  kept : ∀ other, t.Has other → next.Has other
  only : ∀ other, next.Has other → t.Has other ∨ other = command

theorem executed_same (has : t.Has command) : t.Executed command t :=
  ⟨has, fun _ held => held, fun _ held => .inl held⟩

theorem update_declared {α : Type} {declared : Str → Option α} {name : Str} {args : α}
    (fresh : declared name = none) :
    (∀ other others, declared other = some others → Function.update declared name (some args) other = some others) ∧
    (∀ other others, Function.update declared name (some args) other = some others →
      declared other = some others ∨ other = name ∧ others = args) := by
  constructor
  · intro other others held
    rw [Function.update_of_ne, held]
    rintro rfl
    rw [fresh] at held
    contradiction
  · intro other others held
    by_cases same : other = name
    · subst same
      rw [Function.update_self] at held
      exact .inr ⟨rfl, (Option.some.inj held).symm⟩
    · rw [Function.update_of_ne same] at held
      exact .inl held

theorem execute_executed (done : t.execute command = some next) : t.Executed command next := by
  cases command with
  | exchangeDeclare name args =>
    simp only [execute] at done
    split at done
    · rename_i fresh
      cases done
      obtain ⟨kept, only⟩ := @update_declared _ t.exchanges name args fresh
      refine ⟨Function.update_self .., ?_, ?_⟩
      · rintro (⟨other, others⟩ | ⟨_, _⟩ | ⟨_, _, _⟩) held
        · exact kept other others held
        · exact held
        · exact held
      · rintro (⟨other, others⟩ | ⟨_, _⟩ | ⟨_, _, _⟩) held
        · refine (only other others held).imp_right ?_
          rintro ⟨rfl, rfl⟩
          rfl
        · exact .inl held
        · exact .inl held
    · rename_i declared
      simp only [Option.ite_none_right_eq_some, Option.some.injEq] at done
      obtain ⟨rfl, rfl⟩ := done
      exact executed_same declared
  | queueDeclare name args =>
    simp only [execute] at done
    split at done
    · rename_i fresh
      cases done
      obtain ⟨kept, only⟩ := @update_declared _ t.queues name args fresh
      refine ⟨Function.update_self .., ?_, ?_⟩
      · rintro (⟨_, _⟩ | ⟨other, others⟩ | ⟨_, _, _⟩) held
        · exact held
        · exact kept other others held
        · exact held
      · rintro (⟨_, _⟩ | ⟨other, others⟩ | ⟨_, _, _⟩) held
        · exact .inl held
        · refine (only other others held).imp_right ?_
          rintro ⟨rfl, rfl⟩
          rfl
        · exact .inl held
    · rename_i declared
      simp only [Option.ite_none_right_eq_some, Option.some.injEq] at done
      obtain ⟨rfl, rfl⟩ := done
      exact executed_same declared
  | queueBind queue pattern exchange =>
    simp only [execute, Option.ite_none_left_eq_some] at done
    obtain ⟨_, done⟩ := done
    split at done
    · cases done
      exact executed_same ‹_›
    · cases done
      refine ⟨List.mem_append_right _ (List.mem_singleton.mpr rfl), ?_, ?_⟩
      · rintro (⟨_, _⟩ | ⟨_, _⟩ | ⟨_, _, _⟩) held
        · exact held
        · exact held
        · exact List.mem_append_left _ held
      · rintro (⟨_, _⟩ | ⟨_, _⟩ | ⟨_, _, _⟩) held
        · exact .inl held
        · exact .inl held
        · refine (List.mem_append.mp held).imp_right ?_
          intro last
          cases List.mem_singleton.mp last
          rfl

/-- A planned command is not refused where the plan is without conflict and what is to
be bound is there. -/
theorem execute_accepted {plan : List Command} (within : t.Within plan)
    (peaceful : ∀ one ∈ plan, ∀ other ∈ plan, ¬ one.Conflicts other) (planned : command ∈ plan)
    (bound : ∀ queue pattern exchange, command = .queueBind queue pattern exchange →
      t.queues queue ≠ none ∧ t.exchanges exchange ≠ none) : ∃ next, t.execute command = some next := by
  cases command with
  | exchangeDeclare name args =>
    simp only [execute]
    cases declared : t.exchanges name with
    | none => exact ⟨_, rfl⟩
    | some others =>
      have same : others = args := by
        by_contra different
        exact peaceful _ (within (.exchangeDeclare name others) declared) _ planned ⟨rfl, different⟩
      simp [same]
  | queueDeclare name args =>
    simp only [execute]
    cases declared : t.queues name with
    | none => exact ⟨_, rfl⟩
    | some others =>
      have same : others = args := by
        by_contra different
        exact peaceful _ (within (.queueDeclare name others) declared) _ planned ⟨rfl, different⟩
      simp [same]
  | queueBind queue pattern exchange =>
    obtain ⟨queued, exchanged⟩ := bound queue pattern exchange rfl
    simp only [execute, queued, exchanged, or_self, if_false]
    split <;> exact ⟨_, rfl⟩

end Topology

/-- Whatever a plan binds is declared before. -/
def Ordered (plan : List Command) : Prop :=
  ∀ made queue pattern exchange rest, made ++ .queueBind queue pattern exchange :: rest = plan →
    (∃ args, .queueDeclare queue args ∈ made) ∧ ∃ args, .exchangeDeclare exchange args ∈ made

/-- The declarations of a plan are made, up to the remaining ones. -/
def Declared (t : Topology) (plan remaining : List Command) : Prop :=
  ∃ made, made ++ remaining = plan ∧ ∀ command ∈ made, t.Has command

theorem Declared.fresh (t : Topology) (plan : List Command) : Declared t plan plan :=
  ⟨[], rfl, nofun⟩

section Plan
variable {t next : Topology} {plan whole remaining rest : List Command} {command : Command}

theorem Topology.Executed.within (executed : t.Executed command next) (within : t.Within plan)
    (planned : command ∈ plan) : next.Within plan := by
  intro other held
  rcases executed.only other held with before | rfl
  · exact within other before
  · exact planned

namespace Declared

theorem all (declared : Declared t plan []) : ∀ command ∈ plan, t.Has command := by
  obtain ⟨made, rfl, held⟩ := declared
  rwa [List.append_nil]

theorem planned (declared : Declared t plan (command :: rest)) : command ∈ plan := by
  obtain ⟨made, rfl, _⟩ := declared
  exact List.mem_append_right made List.mem_cons_self

theorem grow (declared : Declared t plan remaining) (executed : t.Executed command next) :
    Declared next plan remaining := by
  obtain ⟨made, split, held⟩ := declared
  exact ⟨made, split, fun other member => executed.kept other (held other member)⟩

theorem advance (declared : Declared t plan (command :: rest)) (executed : t.Executed command next) :
    Declared next plan rest := by
  obtain ⟨made, split, held⟩ := declared
  refine ⟨made ++ [command], ?_, ?_⟩
  · rw [List.append_assoc, List.singleton_append, split]
  · intro other member
    rcases List.mem_append.mp member with before | last
    · exact executed.kept other (held other before)
    · rw [List.mem_singleton.mp last]
      exact executed.has

/-- Parties that follow plans without conflict do not disturb each other: the next
declaration of each is accepted. -/
theorem accepted (declared : Declared t plan (command :: rest)) (ordered : Ordered plan) (part : plan ⊆ whole)
    (within : t.Within whole) (peaceful : ∀ one ∈ whole, ∀ other ∈ whole, ¬ one.Conflicts other) :
    ∃ next, t.execute command = some next := by
  refine Topology.execute_accepted within peaceful (part declared.planned) ?_
  rintro queue pattern exchange rfl
  obtain ⟨made, split, held⟩ := declared
  obtain ⟨⟨_, queued⟩, ⟨_, exchanged⟩⟩ := ordered made queue pattern exchange rest split
  have queueHeld : t.queues queue = some _ := held _ queued
  have exchangeHeld : t.exchanges exchange = some _ := held _ exchanged
  rw [queueHeld, exchangeHeld]
  exact ⟨nofun, nofun⟩

end Declared

end Plan

namespace Topology
variable {t : Topology}

/-- An exchange with bindings to one queue only sends there whatever one of them accepts. -/
theorem route_eq {exchange pattern key queue : Str} {args : ExchangeArgs}
    (declared : t.exchanges exchange = some args) (bound : ⟨exchange, pattern, queue⟩ ∈ t.bindings)
    (accepts : args.kind.accepts pattern key = true)
    (only : ∀ binding ∈ t.bindings, binding.exchange = exchange → binding.queue = queue) :
    t.route exchange key = [queue] := by
  simp only [route, declared]
  generalize matched : t.bindings.filter (fun binding => binding.exchange == exchange &&
    args.kind.accepts binding.pattern key) = found
  have all : ∀ name ∈ found.map Binding.queue, name = queue := by
    intro name member
    obtain ⟨binding, selected, rfl⟩ := List.mem_map.mp member
    rw [← matched, List.mem_filter, Bool.and_eq_true, beq_iff_eq] at selected
    exact only binding selected.1 selected.2.1
  have some : queue ∈ found.map Binding.queue := by
    refine List.mem_map.mpr ⟨⟨exchange, pattern, queue⟩, ?_, rfl⟩
    rw [← matched, List.mem_filter]
    exact ⟨bound, by simp [accepts]⟩
  have names : ∀ name, name ∈ (found.map Binding.queue).dedup ↔ name = queue := by
    intro name
    rw [List.mem_dedup]
    exact ⟨all name, fun same => same ▸ some⟩
  have distinct := List.nodup_dedup (found.map Binding.queue)
  generalize (found.map Binding.queue).dedup = names' at names distinct
  cases names' with
  | nil => exact absurd ((names queue).mpr rfl) List.not_mem_nil
  | cons first rest =>
    obtain rfl : first = queue := (names first).mp List.mem_cons_self
    cases rest with
    | nil => rfl
    | cons second later =>
      obtain rfl : second = first := (names second).mp (by simp)
      exact absurd distinct (by simp)

end Topology

namespace Broker
variable {b next : Broker}

theorem send_eq {exchange queue : Str} {entry : Entry}
    (routed : b.topology.route exchange entry.message.routingKey = [queue]) :
    b.send exchange entry = b.enqueue entry queue := by
  rw [send, routed]
  rfl

theorem forward_moved {queue target exchange : Str} {entry : Entry}
    (forwarded : b.forward queue entry = some next) (policy : b.deadLetters queue = some exchange)
    (routed : b.topology.route exchange entry.message.routingKey = [target]) :
    entry ∈ (b.contents queue).dying ∧
      next = (b.change queue ((b.contents queue).bury entry)).enqueue entry target := by
  simp only [forward, policy, Option.bind_eq_bind, Option.bind_some, Option.ite_none_right_eq_some,
    Option.some.injEq] at forwarded
  obtain ⟨⟨member, _⟩, rfl⟩ := forwarded
  exact ⟨member, send_eq routed⟩

end Broker

end EdgeGuard.Messaging
