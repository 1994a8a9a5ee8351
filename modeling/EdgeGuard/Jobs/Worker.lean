import EdgeGuard.Jobs.Statements
import EdgeGuard.Transition
import Mathlib.Logic.Function.Basic

/-! Any number of workers handling deliveries against one status table. A delivery
is a sequence of calls to the store, the processor and the channel; between two of
them every other worker may act, and each of them may fail or be the last one. -/
namespace EdgeGuard.Jobs
open Go Transition

/-- A value of an AMQP header table, as far as `headerInt64` tells values apart. -/
inductive HeaderValue where
  | signed (value : Int64)
  | unsigned (value : UInt64)
  | other
  deriving DecidableEq, Repr

abbrev Headers := List (Str × HeaderValue)

def headerInt64 (headers : Headers) (key : Str) : Int64 :=
  match headers.lookup key with
  | some (.signed value) => value
  | some (.unsigned value) => if value > 9223372036854775807 then 0 else value.toInt64
  | some .other | none => 0

def deliveryAttempt (headers : Headers) : Int :=
  let count := headerInt64 headers (lit "x-delivery-count")
  ((if count < 0 then 0 else count) + 1).toInt

/-- The next call of `handleDelivery`, with the arguments it has computed for it. -/
inductive Call where
  | prepareAttempt
  | process
  | markSucceeded (result : ExecutionResult)
  | markFailed (failure : Str)
  | markRetrying (failure : Str)
  | ack
  | reject (requeue : Bool)
  deriving DecidableEq, Repr

/-- The body is what `json.Unmarshal` makes of it. -/
def firstCall (validJSON : Str → Bool) : Option Envelope → Call
  | none => .reject false
  | some envelope => match envelope.validate validJSON with
    | .error _ => .reject false
    | .ok () => .prepareAttempt

def afterPrepare : Status → Call
  | .succeeded => .ack
  | .failed => .reject false
  | _ => .process

inductive Outcome where
  | done (result : ExecutionResult)
  | failed (permanent : Bool) (failure : Str)
  deriving DecidableEq, Repr

def afterProcess (envelope : Envelope) (attempt : Int) : Outcome → Call
  | .done result => .markSucceeded result
  | .failed permanent failure =>
    if permanent = true ∨ attempt ≥ envelope.maxAttempts then .markFailed failure
    else .markRetrying failure

def Call.statement (envelope : Envelope) (attempt : Int) (now : Time) : Call → Option Statement
  | .prepareAttempt => some (.prepareAttempt envelope attempt now)
  | .markSucceeded result => some (.markSucceeded attempt result now)
  | .markFailed failure => some (.markFailed attempt failure now)
  | .markRetrying failure => some (.markRetrying attempt failure now)
  | _ => none

/-- The call after a reply of the store; with none `handleDelivery` returns an error. -/
def Call.after : Call → Reply → Option Call
  | .prepareAttempt, .status status => some (afterPrepare status)
  | .markSucceeded _, .id => some .ack
  | .markFailed _, .id => some (.reject false)
  | .markRetrying _, .id => some (.reject true)
  | _, _ => none

structure Handling where
  body : Option Envelope
  attempt : Int
  next : Call
  deriving DecidableEq, Repr

abbrev Table := Str → Option JobRow

/-- The lists record what was delivered, the `Process` calls with their job and
attempt, and the bodies of the acknowledged and the dead-lettered deliveries. -/
structure System where
  table : Table
  workers : Nat → Option Handling
  delivered : List (Option Envelope)
  processed : List (Str × Int)
  acked : List (Option Envelope)
  deadLettered : List (Option Envelope)

def System.start (table : Table) : System := ⟨table, fun _ => none, [], [], [], []⟩

/-- What the control plane does to the table around a publication. -/
inductive Submission where
  | createJob (envelope : Envelope) (now : Time)
  | markQueued (id : Str) (now : Time)
  | markSubmissionFailed (id failure : Str) (now : Time)
  deriving DecidableEq, Repr

def Submission.id : Submission → Str
  | .createJob envelope _ => envelope.id
  | .markQueued id _ => id
  | .markSubmissionFailed id _ _ => id

def Submission.statement : Submission → Statement
  | .createJob envelope now => .createJob envelope now
  | .markQueued _ now => .markQueued now
  | .markSubmissionFailed _ failure now => .markSubmissionFailed failure now

/-- An error of the store: the statement did not run, or ran and its reply was lost. -/
inductive Fault where
  | unreached
  | lost
  deriving DecidableEq, Repr

inductive Action where
  | submit (submission : Submission)
  | deliver (worker : Nat) (headers : Headers) (body : Option Envelope)
  | store (worker : Nat) (now : Time) (fault : Option Fault)
  | process (worker : Nat) (outcome : Outcome)
  | settle (worker : Nat) (sent : Bool)
  | crash (worker : Nat)
  deriving DecidableEq, Repr

def Table.execute (table : Table) (id : Str) (statement : Statement) : Table :=
  Function.update table id (Jobs.execute statement (table id)).1

def System.goOn (s : System) (worker : Nat) (handling : Option Handling) : System :=
  { s with workers := Function.update s.workers worker handling }

def System.stored (s : System) (worker : Nat) (handling : Handling) (id : Str) (statement : Statement) :
    Option Fault → System
  | some .unreached => s.goOn worker none
  | some .lost => { s.goOn worker none with table := s.table.execute id statement }
  | none =>
    let reply := (execute statement (s.table id)).2
    { s.goOn worker ((handling.next.after reply).map ({ handling with next := · })) with
      table := s.table.execute id statement }

def step (validJSON : Str → Bool) (s : System) : Action → Option System
  | .submit submission =>
    some { s with table := s.table.execute submission.id submission.statement }
  | .deliver worker headers body => match s.workers worker with
    | some _ => none
    | none =>
      let handling := ⟨body, deliveryAttempt headers, firstCall validJSON body⟩
      some { s.goOn worker (some handling) with delivered := s.delivered ++ [body] }
  | .store worker now fault => do
    let handling ← s.workers worker
    let envelope ← handling.body
    let statement ← handling.next.statement envelope handling.attempt now
    some (s.stored worker handling envelope.id statement fault)
  | .process worker outcome => do
    let handling ← s.workers worker
    let envelope ← handling.body
    if handling.next = .process then
      let next := afterProcess envelope handling.attempt outcome
      some { s.goOn worker (some { handling with next }) with
             processed := s.processed ++ [(envelope.id, handling.attempt)] }
    else none
  | .settle worker sent => do
    let handling ← s.workers worker
    match handling.next with
    | .ack => some { s.goOn worker none with
        acked := if sent then s.acked ++ [handling.body] else s.acked }
    | .reject requeue => some { s.goOn worker none with
        deadLettered := if sent && !requeue then s.deadLettered ++ [handling.body] else s.deadLettered }
    | _ => none
  | .crash worker => some (s.goOn worker none)

/-- Everything an enabled action does. -/
inductive Effect (validJSON : Str → Bool) (s : System) : Action → System → Prop
  | submit (submission : Submission) : Effect validJSON s (.submit submission)
      { s with table := s.table.execute submission.id submission.statement }
  | deliver (worker : Nat) (headers : Headers) (body : Option Envelope)
      (idle : s.workers worker = none) : Effect validJSON s (.deliver worker headers body)
      { s.goOn worker (some ⟨body, deliveryAttempt headers, firstCall validJSON body⟩) with
        delivered := s.delivered ++ [body] }
  | store (worker : Nat) (now : Time) (fault : Option Fault) (handling : Handling)
      (envelope : Envelope) (statement : Statement) (busy : s.workers worker = some handling)
      (body : handling.body = some envelope)
      (calls : handling.next.statement envelope handling.attempt now = some statement) :
      Effect validJSON s (.store worker now fault)
        (s.stored worker handling envelope.id statement fault)
  | process (worker : Nat) (outcome : Outcome) (handling : Handling) (envelope : Envelope)
      (busy : s.workers worker = some handling) (body : handling.body = some envelope)
      (calls : handling.next = .process) : Effect validJSON s (.process worker outcome)
      { s.goOn worker
          (some { handling with next := afterProcess envelope handling.attempt outcome }) with
        processed := s.processed ++ [(envelope.id, handling.attempt)] }
  | ack (worker : Nat) (sent : Bool) (handling : Handling) (busy : s.workers worker = some handling)
      (calls : handling.next = .ack) : Effect validJSON s (.settle worker sent)
      { s.goOn worker none with acked := if sent then s.acked ++ [handling.body] else s.acked }
  | reject (worker : Nat) (sent requeue : Bool) (handling : Handling)
      (busy : s.workers worker = some handling) (calls : handling.next = .reject requeue) :
      Effect validJSON s (.settle worker sent)
      { s.goOn worker none with
        deadLettered := if sent && !requeue then s.deadLettered ++ [handling.body] else s.deadLettered }
  | crash (worker : Nat) : Effect validJSON s (.crash worker) (s.goOn worker none)

variable {validJSON : Str → Bool} {s t : System}

theorem step_effect {action : Action} (stepped : step validJSON s action = some t) :
    Effect validJSON s action t := by
  cases action with
  | submit submission =>
    cases stepped
    exact .submit submission
  | deliver worker headers body =>
    simp only [step] at stepped
    split at stepped
    · contradiction
    · cases stepped
      exact .deliver worker headers body ‹_›
  | store worker now fault =>
    simp only [step, Option.bind_eq_bind, Option.bind_eq_some_iff] at stepped
    obtain ⟨handling, busy, envelope, body, statement, calls, stepped⟩ := stepped
    cases stepped
    exact .store worker now fault handling envelope statement busy body calls
  | process worker outcome =>
    simp only [step, Option.bind_eq_bind, Option.bind_eq_some_iff] at stepped
    obtain ⟨handling, busy, envelope, body, stepped⟩ := stepped
    split at stepped
    · cases stepped
      exact .process worker outcome handling envelope busy body ‹_›
    · contradiction
  | settle worker sent =>
    simp only [step, Option.bind_eq_bind, Option.bind_eq_some_iff] at stepped
    obtain ⟨handling, busy, stepped⟩ := stepped
    split at stepped
    · cases stepped
      exact .ack worker sent handling busy ‹_›
    · cases stepped
      exact .reject worker sent _ handling busy ‹_›
    · contradiction
  | crash worker =>
    cases stepped
    exact .crash worker

/-- How a worker comes to what it is doing after an action. -/
inductive Moved (validJSON : Str → Bool) (s : System) (action : Action) (t : System) (worker : Nat) :
    Handling → Prop
  | same (handling : Handling) (busy : s.workers worker = some handling) :
      Moved validJSON s action t worker handling
  | delivered (headers : Headers) (body : Option Envelope) (took : action = .deliver worker headers body)
      (recorded : t.delivered = s.delivered ++ [body]) :
      Moved validJSON s action t worker ⟨body, deliveryAttempt headers, firstCall validJSON body⟩
  | replied (handling : Handling) (envelope : Envelope) (now : Time) (statement : Statement) (next : Call)
      (took : action = .store worker now none) (busy : s.workers worker = some handling)
      (body : handling.body = some envelope)
      (calls : handling.next.statement envelope handling.attempt now = some statement)
      (goes : handling.next.after (execute statement (s.table envelope.id)).2 = some next)
      (wrote : t.table = s.table.execute envelope.id statement) :
      Moved validJSON s action t worker { handling with next }
  | processed (handling : Handling) (envelope : Envelope) (outcome : Outcome)
      (took : action = .process worker outcome) (busy : s.workers worker = some handling)
      (body : handling.body = some envelope) (calls : handling.next = .process) :
      Moved validJSON s action t worker
        { handling with next := afterProcess envelope handling.attempt outcome }

theorem goOn_workers {worker other : Nat} {moved : Option Handling} {handling : Handling}
    (found : (s.goOn worker moved).workers other = some handling) :
    s.workers other = some handling ∨ worker = other ∧ moved = some handling := by
  by_cases same : other = worker
  · subst same
    exact .inr ⟨rfl, by simpa [System.goOn] using found⟩
  · exact .inl (by simpa [System.goOn, same] using found)

theorem step_moved {action : Action} {worker : Nat} {handling : Handling}
    (stepped : step validJSON s action = some t) (found : t.workers worker = some handling) :
    Moved validJSON s action t worker handling := by
  cases step_effect stepped with
  | submit submission => exact .same handling found
  | deliver _ headers body _ =>
    rcases goOn_workers found with before | ⟨rfl, ⟨⟩⟩
    · exact .same handling before
    · exact .delivered headers body rfl rfl
  | store _ now fault before envelope statement busy body calls =>
    match fault with
    | some .unreached | some .lost =>
      rcases goOn_workers found with before | ⟨_, ⟨⟩⟩
      exact .same handling before
    | none =>
      rcases goOn_workers found with before | ⟨rfl, moved⟩
      · exact .same handling before
      · obtain ⟨next, goes, rfl⟩ := Option.map_eq_some_iff.mp moved
        exact .replied before envelope now statement next rfl busy body calls goes rfl
  | process _ outcome before envelope busy body calls =>
    rcases goOn_workers found with before | ⟨rfl, ⟨⟩⟩
    · exact .same handling before
    · exact .processed before envelope outcome rfl busy body calls
  | ack _ _ _ _ _ | reject _ _ _ _ _ _ | crash _ =>
    rcases goOn_workers found with before | ⟨_, ⟨⟩⟩
    exact .same handling before

theorem step_processed {action : Action} (stepped : step validJSON s action = some t) :
    t.processed = s.processed ∨ ∃ worker handling, ∃ envelope : Envelope, s.workers worker = some handling ∧
      t.processed = s.processed ++ [(envelope.id, handling.attempt)] := by
  cases step_effect stepped with
  | process worker _ handling envelope busy _ _ => exact .inr ⟨worker, handling, envelope, busy, rfl⟩
  | store _ _ fault => rcases fault with _ | _ | _ <;> exact .inl rfl
  | _ => exact .inl rfl

def Kept (before after : Table) : Prop := ∀ id, Succeeds (before id) (after id)

theorem Kept.refl (table : Table) : Kept table table := fun id => .refl (table id)

theorem Kept.trans {first middle last : Table} (earlier : Kept first middle) (later : Kept middle last) :
    Kept first last := fun id => (earlier id).trans (later id)

theorem Table.execute_self (table : Table) (id : Str) (statement : Statement) :
    table.execute id statement id = (Jobs.execute statement (table id)).1 :=
  Function.update_self id _ table

theorem Table.execute_other {table : Table} {id other : Str} {statement : Statement}
    (different : other ≠ id) : table.execute id statement other = table other :=
  Function.update_of_ne different _ table

theorem Table.execute_kept (table : Table) (id : Str) (statement : Statement) :
    Kept table (table.execute id statement) := by
  intro other
  by_cases same : other = id
  · subst same
    rw [Table.execute_self]
    exact execute_succeeds statement (table other)
  · rw [Table.execute_other same]
    exact .refl _

theorem step_kept {action : Action} (stepped : step validJSON s action = some t) :
    Kept s.table t.table := by
  cases step_effect stepped with
  | submit submission => exact s.table.execute_kept _ _
  | store worker now fault handling envelope statement _ _ _ =>
    match fault with
    | none | some .lost => exact s.table.execute_kept _ _
    | some .unreached => exact .refl _
  | _ => exact .refl _

theorem run_kept {actions : List Action} (path : run (step validJSON) s actions = some t) :
    Kept s.table t.table := by
  refine run_invariant (P := fun u => Kept s.table u.table) ?_ path (.refl _)
  intro _ _ _ sofar stepped
  exact sofar.trans (step_kept stepped)

/-- The job has a row with this status. -/
def Table.Holds (table : Table) (id : Str) (status : Status) : Prop :=
  ∃ row, table id = some row ∧ row.status = status

theorem Kept.holds {before after : Table} (kept : Kept before after) {id : Str} {status : Status}
    (final : status.final = true) (held : before.Holds id status) : after.Holds id status := by
  obtain ⟨row, found, rfl⟩ := held
  obtain ⟨next, found, same⟩ := kept id row found
  exact ⟨next, found, same final⟩

theorem Table.Holds.unique {table : Table} {id : Str} {status other : Status}
    (held : table.Holds id status) (also : table.Holds id other) : status = other := by
  obtain ⟨row, found, rfl⟩ := held
  obtain ⟨same, found', rfl⟩ := also
  rw [found] at found'
  cases found'
  rfl

end EdgeGuard.Jobs
