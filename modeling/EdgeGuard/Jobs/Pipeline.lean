import EdgeGuard.Jobs.Worker

/-! Submitters, broker and workers on one status table. Every statement is an action
of its own, and a `PrepareAttempt` takes its snapshot in an earlier action than the
one in which it locks the row, so that all interleavings of the calls are runs.
The statements that had an effect are logged in the order they took it. -/
namespace EdgeGuard.Jobs
open Go Transition

/-- The replies of a statement that found its guard satisfied and wrote the row. -/
def Reply.took : Reply → Bool
  | .id => true
  | .status left => left == .processing
  | _ => false

def effective (statement : Statement) (row : Option JobRow) : Bool := (execute statement row).2.took

/-- The reply to a statement that began with the given view of its row. -/
def replyIn (snapshot : Option JobRow) (statement : Statement) (row : Option JobRow) : Reply :=
  match statement with
  | .prepareAttempt envelope attempt now => (prepareAttempt envelope attempt now snapshot row).2
  | _ => (execute statement row).2

theorem Table.execute_keeps {P : Option JobRow → Prop} (table : Table) (other : Str) (statement : Statement)
    (keeps : ∀ {row}, P row → P (Jobs.execute statement row).1) {id : Str} (held : P (table id)) :
    P (table.execute other statement id) := by
  by_cases here : id = other
  · subst here
    rw [Table.execute_self]
    exact keeps held
  · rwa [Table.execute_other here]

def Status.begun : Status → Bool
  | .processing | .retrying | .succeeded | .failed => true
  | _ => false

/-- The job has a row, and a worker has prepared it. -/
def Begun (row : Option JobRow) : Prop := ∃ found, row = some found ∧ found.status.begun = true

theorem Status.begun_of_final {status : Status} (final : status.final = true) : status.begun = true := by
  cases status <;> first | rfl | contradiction

theorem prepareAttempt_begun {envelope : Envelope} {attempt : Int} {now : Time}
    {snapshot locked : Option JobRow} {status : Status}
    (replied : (prepareAttempt envelope attempt now snapshot locked).2 = .status status) :
    Begun (execute (.prepareAttempt envelope attempt now) locked).1 := by
  rw [← prepareAttempt_row envelope attempt now snapshot locked]
  have prepared := prepareAttempt_prepared envelope attempt now snapshot locked
  generalize prepareAttempt envelope attempt now snapshot locked = outcome at prepared replied ⊢
  cases prepared with
  | refused | unseen _ _ => contradiction
  | inserted => exact ⟨firstAttemptRow envelope attempt now, rfl, rfl⟩
  | updated _ row _ => exact ⟨nextAttemptRow attempt now row, rfl, rfl⟩
  | stale _ row final => exact ⟨row, rfl, Status.begun_of_final final⟩

theorem execute_begun (statement : Statement) {row : Option JobRow} (begun : Begun row) :
    Begun (execute statement row).1 := by
  rcases execute_written statement row with same | ⟨after, wrote, _, written⟩
  · rwa [same]
  · rw [wrote]
    refine ⟨after, rfl, ?_⟩
    obtain ⟨before, rfl, begun⟩ := begun
    cases written with
    | next _ _ _ _ _ | retrying _ _ _ _ _ | succeeded _ _ _ _ _ | failed _ _ _ _ _ => rfl
    | queued _ _ publishing | submissionFailed _ _ _ publishing =>
      rw [publishing] at begun
      contradiction

/-- The attempt that a worker's statement carries. -/
def Statement.attempt : Statement → Option Int
  | .prepareAttempt _ attempt _ | .markRetrying attempt _ _ | .markSucceeded attempt _ _
  | .markFailed attempt _ _ => some attempt
  | _ => none

theorem execute_submitted {statement : Statement} {row : Option JobRow} (submits : statement.attempt = none)
    (begun : Begun row) : (execute statement row).1 = row ∧ effective statement row = false := by
  obtain ⟨row, rfl, begun⟩ := begun
  have closed : (row.status == .publishing) = false := by
    cases status : row.status <;> rw [status] at begun <;> first | contradiction | rfl
  cases statement with
  | createJob _ _ => exact ⟨rfl, rfl⟩
  | markQueued _ | markSubmissionFailed _ _ => simp [execute, effective, update, closed, Reply.took]
  | prepareAttempt _ _ _ | markRetrying _ _ _ | markSucceeded _ _ _ | markFailed _ _ _ => contradiction

/-- The calls between a successful `PrepareAttempt` and the answer to the broker. -/
def Call.works : Call → Bool
  | .process | .markSucceeded _ | .markFailed _ | .markRetrying _ => true
  | _ => false

theorem firstCall_works (validJSON : Str → Bool) (body : Option Envelope) :
    (firstCall validJSON body).works = false := by
  cases body with
  | none => rfl
  | some envelope =>
    simp only [firstCall]
    split <;> rfl

theorem prepareAttempt_unfinished {locked : Option JobRow}
    (unfinished : ∀ row, locked = some row → row.status.final = false) (envelope : Envelope) (attempt : Int)
    (now : Time) (snapshot : Option JobRow) :
    prepareAttempt envelope attempt now snapshot locked =
      execute (.prepareAttempt envelope attempt now) locked := by
  cases locked with
  | none => rfl
  | some row => simp only [execute, prepareAttempt, unfinished row rfl, if_true]

/-- The work starts after a `PrepareAttempt` that took effect, or over a final row whose
status the snapshot does not show. -/
theorem prepareAttempt_works {envelope : Envelope} {attempt : Int} {now : Time}
    {snapshot locked : Option JobRow} {status : Status}
    (replied : (prepareAttempt envelope attempt now snapshot locked).2 = .status status)
    (unfinished : status.final = false) :
    (effective (.prepareAttempt envelope attempt now) locked = true ∧
      ∀ row, locked = some row → row.status.final = false) ∨
    ∃ old row, snapshot = some old ∧ old.status.final = false ∧ locked = some row ∧
      row.status.final = true := by
  have alone (still : ∀ row, locked = some row → row.status.final = false) :=
    prepareAttempt_unfinished still envelope attempt now snapshot
  have prepared := prepareAttempt_prepared envelope attempt now snapshot locked
  generalize prepareAttempt envelope attempt now snapshot locked = outcome at alone prepared replied
  cases prepared with
  | refused | unseen _ _ => contradiction
  | inserted => exact .inl ⟨by rw [effective, ← alone (by simp)]; rfl, by simp⟩
  | updated _ row still =>
    have unfinished : ∀ found, some row = some found → found.status.final = false := by
      rintro _ ⟨⟩
      exact still
    exact .inl ⟨by rw [effective, ← alone unfinished]; rfl, unfinished⟩
  | stale old row final =>
    cases replied
    exact .inr ⟨old, row, rfl, unfinished, rfl, final⟩

theorem after_begun {call next : Call} {envelope : Envelope} {attempt : Int} {now : Time}
    {statement : Statement} {snapshot row : Option JobRow}
    (calls : call.statement envelope attempt now = some statement)
    (goes : call.after (replyIn snapshot statement row) = some next)
    (begun : call.works = true → Begun row) : Begun (execute statement row).1 := by
  cases call with
  | prepareAttempt =>
    cases calls
    simp only [replyIn] at goes
    cases replied : (prepareAttempt envelope attempt now snapshot row).2 with
    | status status => exact prepareAttempt_begun replied
    | _ =>
      rw [replied] at goes
      contradiction
  | markSucceeded _ | markFailed _ | markRetrying _ => exact execute_begun statement (begun rfl)
  | process | ack | reject _ => contradiction

namespace Pipeline

/-- The next call of `submit`. -/
inductive SubmitCall where
  | createJob
  | publish
  | markQueued
  | markSubmissionFailed (failure : Str)
  deriving DecidableEq, Repr

/-- A `submit` in progress; `confirmed` is what its `Publish` reported, if it was called. -/
structure Submitting where
  envelope : Envelope
  confirmed : Option Bool
  next : SubmitCall
  deriving DecidableEq, Repr

structure Receipt where
  id : Str
  type : Str
  status : Str
  createdAt : Time
  deriving DecidableEq, Repr

structure Answer where
  submitting : Submitting
  receipt : Option Receipt
  deriving DecidableEq, Repr

/-- What `submit` returns when it ends with the given call. -/
def Submitting.answer (submitting : Submitting) : Answer :=
  { submitting
    receipt := match submitting.next with
      | .markQueued => some ⟨submitting.envelope.id, submitting.envelope.type, lit "queued",
          submitting.envelope.createdAt⟩
      | _ => none }

/-- The status write after `Publish`; its error is dropped. -/
def Submitting.late (submitting : Submitting) (now : Time) : Option Statement :=
  match submitting.next with
  | .markQueued => some (.markQueued now)
  | .markSubmissionFailed failure => some (.markSubmissionFailed failure now)
  | _ => none

theorem Submitting.late_attempt {submitting : Submitting} {now : Time} {statement : Statement}
    (calls : submitting.late now = some statement) : statement.attempt = none := by
  simp only [Submitting.late] at calls
  split at calls <;> cases calls <;> rfl

/-- `Publish` validates the envelope before it is sent. -/
def Submitting.published (validJSON : Str → Bool) (submitting : Submitting) (confirmed : Bool)
    (failure : Str) : Submitting :=
  match submitting.envelope.validate validJSON with
  | .ok () => { submitting with
      confirmed := some confirmed
      next := if confirmed then .markQueued else .markSubmissionFailed failure }
  | .error _ => { submitting with confirmed := some false, next := .markSubmissionFailed failure }

/-- A `handleDelivery` in progress, with the snapshot of its `PrepareAttempt`
once that has begun. -/
structure Execution where
  handling : Handling
  snapshot : Option (Option JobRow)
  deriving DecidableEq, Repr

/-- The view of a statement that may run now. -/
def Execution.view (execution : Execution) : Option (Option JobRow) :=
  match execution.handling.next with
  | .prepareAttempt => execution.snapshot
  | _ => some none

/-- `delivered` logs the deliveries with a readable body, `processed` the calls of
`Process`, both with job and attempt, and `errors` the executions of `handleDelivery`
that returned an error. -/
structure State where
  table : Table
  broker : List Envelope
  submits : Nat → Option Submitting
  answers : List Answer
  executions : Nat → Option Execution
  delivered : List (Str × Int)
  processed : List (Str × Int)
  written : List (Str × Statement)
  errors : List Handling

def State.start (table : Table) : State :=
  ⟨table, [], fun _ => none, [], fun _ => none, [], [], [], []⟩

inductive Action where
  | submit (caller : Nat) (envelope : Envelope)
  | create (caller : Nat) (now : Time) (fault : Option Fault)
  | publish (caller : Nat) (accepted confirmed : Bool) (failure : Str)
  | mark (caller : Nat) (now : Time) (fault : Option Fault)
  | abandon (caller : Nat)
  | deliver (worker : Nat) (headers : Headers) (body : Option Envelope)
  | begin (worker : Nat)
  | store (worker : Nat) (now : Time) (fault : Option Fault)
  | process (worker : Nat) (outcome : Outcome)
  | settle (worker : Nat) (sent : Bool)
  | crash (worker : Nat)
  deriving DecidableEq, Repr

namespace State

def write (s : State) (id : Str) (statement : Statement) : State :=
  { s with
    table := s.table.execute id statement
    written := if effective statement (s.table id) then s.written ++ [(id, statement)] else s.written }

def setSubmit (s : State) (caller : Nat) (submitting : Option Submitting) : State :=
  { s with submits := Function.update s.submits caller submitting }

/-- A `submit` returns. -/
def answer (s : State) (caller : Nat) (submitting : Submitting) : State :=
  { s.setSubmit caller none with answers := s.answers ++ [submitting.answer] }

def setExecution (s : State) (worker : Nat) (execution : Option Execution) : State :=
  { s with executions := Function.update s.executions worker execution }

/-- A `handleDelivery` returns an error. -/
def fail (s : State) (worker : Nat) (handling : Handling) : State :=
  { s.setExecution worker none with errors := s.errors ++ [handling] }

def create (s : State) (caller : Nat) (submitting : Submitting) (now : Time) : Option Fault → State
  | some .unreached => s.answer caller submitting
  | some .lost => (s.write submitting.envelope.id (.createJob submitting.envelope now)).answer caller submitting
  | none =>
    let wrote := s.write submitting.envelope.id (.createJob submitting.envelope now)
    match (execute (.createJob submitting.envelope now) (s.table submitting.envelope.id)).2 with
    | .id => wrote.setSubmit caller (some { submitting with next := .publish })
    | _ => wrote.answer caller submitting

def publish (validJSON : Str → Bool) (s : State) (caller : Nat) (submitting : Submitting)
    (accepted confirmed : Bool) (failure : Str) : State :=
  { s.setSubmit caller (some (submitting.published validJSON confirmed failure)) with
    broker :=
      if accepted = true ∧ submitting.envelope.validate validJSON = .ok () then
        s.broker ++ [submitting.envelope]
      else s.broker }

def mark (s : State) (caller : Nat) (submitting : Submitting) (statement : Statement) :
    Option Fault → State
  | some .unreached => s.answer caller submitting
  | _ => (s.write submitting.envelope.id statement).answer caller submitting

def store (s : State) (worker : Nat) (handling : Handling) (id : Str) (statement : Statement)
    (snapshot : Option JobRow) : Option Fault → State
  | some .unreached => s.fail worker handling
  | some .lost => (s.write id statement).fail worker handling
  | none => match handling.next.after (replyIn snapshot statement (s.table id)) with
    | none => (s.write id statement).fail worker handling
    | some next => (s.write id statement).setExecution worker (some ⟨{ handling with next }, none⟩)

/-- What a statement of `submit` leaves as it is. -/
structure SubmitFrame (s t : State) : Prop where
  broker : t.broker = s.broker
  executions : t.executions = s.executions
  delivered : t.delivered = s.delivered
  processed : t.processed = s.processed
  errors : t.errors = s.errors

/-- What a call of a worker leaves as it is. -/
structure WorkerFrame (s t : State) : Prop where
  broker : t.broker = s.broker
  submits : t.submits = s.submits
  answers : t.answers = s.answers
  delivered : t.delivered = s.delivered
  processed : t.processed = s.processed

theorem create_frame (s : State) (caller : Nat) (submitting : Submitting) (now : Time)
    (fault : Option Fault) : s.SubmitFrame (s.create caller submitting now fault) := by
  match fault with
  | some .unreached | some .lost => exact ⟨rfl, rfl, rfl, rfl, rfl⟩
  | none =>
    simp only [create]
    split <;> exact ⟨rfl, rfl, rfl, rfl, rfl⟩

theorem mark_frame (s : State) (caller : Nat) (submitting : Submitting) (statement : Statement)
    (fault : Option Fault) : s.SubmitFrame (s.mark caller submitting statement fault) := by
  match fault with
  | some .unreached | some .lost | none => exact ⟨rfl, rfl, rfl, rfl, rfl⟩

theorem store_frame (s : State) (worker : Nat) (handling : Handling) (id : Str)
    (statement : Statement) (snapshot : Option JobRow) (fault : Option Fault) :
    s.WorkerFrame (s.store worker handling id statement snapshot fault) := by
  match fault with
  | some .unreached | some .lost => exact ⟨rfl, rfl, rfl, rfl, rfl⟩
  | none =>
    simp only [store]
    split <;> exact ⟨rfl, rfl, rfl, rfl, rfl⟩

theorem store_table (s : State) (worker : Nat) (handling : Handling) (id : Str) (statement : Statement)
    (snapshot : Option JobRow) :
    (s.store worker handling id statement snapshot none).table = s.table.execute id statement := by
  simp only [store]
  split <;> rfl

theorem settle_frame (s : State) (worker : Nat) (handling : Handling) (sent : Bool) :
    s.WorkerFrame (if sent then s.setExecution worker none else s.fail worker handling) := by
  cases sent <;> exact ⟨rfl, rfl, rfl, rfl, rfl⟩

end State

def step (validJSON : Str → Bool) (s : State) : Action → Option State
  | .submit caller envelope => match s.submits caller with
    | some _ => none
    | none => some (s.setSubmit caller (some ⟨envelope, none, .createJob⟩))
  | .create caller now fault => do
    let submitting ← s.submits caller
    if submitting.next = .createJob then some (s.create caller submitting now fault) else none
  | .publish caller accepted confirmed failure => do
    let submitting ← s.submits caller
    if submitting.next = .publish then
      some (s.publish validJSON caller submitting accepted confirmed failure)
    else none
  | .mark caller now fault => do
    let submitting ← s.submits caller
    let statement ← submitting.late now
    some (s.mark caller submitting statement fault)
  | .abandon caller => some (s.setSubmit caller none)
  | .deliver worker headers body => match s.executions worker with
    | some _ => none
    | none =>
      let attempt := deliveryAttempt headers
      let handling := ⟨body, attempt, firstCall validJSON body⟩
      some { s.setExecution worker (some ⟨handling, none⟩) with
             delivered := s.delivered ++ (body.map (fun envelope => (envelope.id, attempt))).toList }
  | .begin worker => do
    let execution ← s.executions worker
    let envelope ← execution.handling.body
    if execution.handling.next = .prepareAttempt ∧ execution.snapshot = none then
      some (s.setExecution worker (some { execution with snapshot := some (s.table envelope.id) }))
    else none
  | .store worker now fault => do
    let execution ← s.executions worker
    let envelope ← execution.handling.body
    let statement ← execution.handling.next.statement envelope execution.handling.attempt now
    let snapshot ← execution.view
    some (s.store worker execution.handling envelope.id statement snapshot fault)
  | .process worker outcome => do
    let execution ← s.executions worker
    let envelope ← execution.handling.body
    if execution.handling.next = .process then
      let next := afterProcess envelope execution.handling.attempt outcome
      some { s.setExecution worker (some ⟨{ execution.handling with next }, none⟩) with
             processed := s.processed ++ [(envelope.id, execution.handling.attempt)] }
    else none
  | .settle worker sent => do
    let execution ← s.executions worker
    match execution.handling.next with
    | .ack | .reject _ =>
      some (if sent then s.setExecution worker none else s.fail worker execution.handling)
    | _ => none
  | .crash worker => some (s.setExecution worker none)

/-- Everything an enabled action does. -/
inductive Effect (validJSON : Str → Bool) (s : State) : Action → State → Prop
  | submit (caller : Nat) (envelope : Envelope) (idle : s.submits caller = none) :
      Effect validJSON s (.submit caller envelope)
        (s.setSubmit caller (some ⟨envelope, none, .createJob⟩))
  | create (caller : Nat) (now : Time) (fault : Option Fault) (submitting : Submitting)
      (busy : s.submits caller = some submitting) (calls : submitting.next = .createJob) :
      Effect validJSON s (.create caller now fault) (s.create caller submitting now fault)
  | publish (caller : Nat) (accepted confirmed : Bool) (failure : Str) (submitting : Submitting)
      (busy : s.submits caller = some submitting) (calls : submitting.next = .publish) :
      Effect validJSON s (.publish caller accepted confirmed failure)
        (s.publish validJSON caller submitting accepted confirmed failure)
  | mark (caller : Nat) (now : Time) (fault : Option Fault) (submitting : Submitting)
      (statement : Statement) (busy : s.submits caller = some submitting)
      (calls : submitting.late now = some statement) :
      Effect validJSON s (.mark caller now fault) (s.mark caller submitting statement fault)
  | abandon (caller : Nat) : Effect validJSON s (.abandon caller) (s.setSubmit caller none)
  | deliver (worker : Nat) (headers : Headers) (body : Option Envelope)
      (idle : s.executions worker = none) : Effect validJSON s (.deliver worker headers body)
      { s.setExecution worker
          (some ⟨⟨body, deliveryAttempt headers, firstCall validJSON body⟩, none⟩) with
        delivered := s.delivered ++
          (body.map (fun envelope => (envelope.id, deliveryAttempt headers))).toList }
  | begin (worker : Nat) (execution : Execution) (envelope : Envelope)
      (busy : s.executions worker = some execution) (body : execution.handling.body = some envelope)
      (calls : execution.handling.next = .prepareAttempt) : Effect validJSON s (.begin worker)
      (s.setExecution worker (some { execution with snapshot := some (s.table envelope.id) }))
  | store (worker : Nat) (now : Time) (fault : Option Fault) (execution : Execution)
      (envelope : Envelope) (statement : Statement) (snapshot : Option JobRow)
      (busy : s.executions worker = some execution) (body : execution.handling.body = some envelope)
      (calls : execution.handling.next.statement envelope execution.handling.attempt now = some statement)
      (viewed : execution.view = some snapshot) : Effect validJSON s (.store worker now fault)
      (s.store worker execution.handling envelope.id statement snapshot fault)
  | process (worker : Nat) (outcome : Outcome) (execution : Execution) (envelope : Envelope)
      (busy : s.executions worker = some execution) (body : execution.handling.body = some envelope)
      (calls : execution.handling.next = .process) : Effect validJSON s (.process worker outcome)
      { s.setExecution worker (some ⟨{ execution.handling with
          next := afterProcess envelope execution.handling.attempt outcome }, none⟩) with
        processed := s.processed ++ [(envelope.id, execution.handling.attempt)] }
  | settle (worker : Nat) (sent : Bool) (execution : Execution)
      (busy : s.executions worker = some execution)
      (calls : execution.handling.next = .ack ∨ ∃ requeue, execution.handling.next = .reject requeue) :
      Effect validJSON s (.settle worker sent)
        (if sent then s.setExecution worker none else s.fail worker execution.handling)
  | crash (worker : Nat) : Effect validJSON s (.crash worker) (s.setExecution worker none)

variable {validJSON : Str → Bool} {s t : State} {action : Action}

theorem step_effect (stepped : step validJSON s action = some t) : Effect validJSON s action t := by
  cases action with
  | submit caller envelope =>
    simp only [step] at stepped
    split at stepped
    · contradiction
    · cases stepped
      exact .submit caller envelope ‹_›
  | create caller now fault =>
    simp only [step, Option.bind_eq_bind, Option.bind_eq_some_iff] at stepped
    obtain ⟨submitting, busy, stepped⟩ := stepped
    split at stepped
    · cases stepped
      exact .create caller now fault submitting busy ‹_›
    · contradiction
  | publish caller accepted confirmed failure =>
    simp only [step, Option.bind_eq_bind, Option.bind_eq_some_iff] at stepped
    obtain ⟨submitting, busy, stepped⟩ := stepped
    split at stepped
    · cases stepped
      exact .publish caller accepted confirmed failure submitting busy ‹_›
    · contradiction
  | mark caller now fault =>
    simp only [step, Option.bind_eq_bind, Option.bind_eq_some_iff] at stepped
    obtain ⟨submitting, busy, statement, calls, stepped⟩ := stepped
    cases stepped
    exact .mark caller now fault submitting statement busy calls
  | abandon caller =>
    cases stepped
    exact .abandon caller
  | deliver worker headers body =>
    simp only [step] at stepped
    split at stepped
    · contradiction
    · cases stepped
      exact .deliver worker headers body ‹_›
  | begin worker =>
    simp only [step, Option.bind_eq_bind, Option.bind_eq_some_iff] at stepped
    obtain ⟨execution, busy, envelope, body, stepped⟩ := stepped
    split at stepped
    · rename_i ready
      cases stepped
      exact .begin worker execution envelope busy body ready.1
    · contradiction
  | store worker now fault =>
    simp only [step, Option.bind_eq_bind, Option.bind_eq_some_iff] at stepped
    obtain ⟨execution, busy, envelope, body, statement, calls, snapshot, viewed, stepped⟩ := stepped
    cases stepped
    exact .store worker now fault execution envelope statement snapshot busy body calls viewed
  | process worker outcome =>
    simp only [step, Option.bind_eq_bind, Option.bind_eq_some_iff] at stepped
    obtain ⟨execution, busy, envelope, body, stepped⟩ := stepped
    split at stepped
    · cases stepped
      exact .process worker outcome execution envelope busy body ‹_›
    · contradiction
  | settle worker sent =>
    simp only [step, Option.bind_eq_bind, Option.bind_eq_some_iff] at stepped
    obtain ⟨execution, busy, stepped⟩ := stepped
    split at stepped
    · cases stepped
      exact .settle worker sent execution busy (.inl ‹_›)
    · cases stepped
      exact .settle worker sent execution busy (.inr ⟨_, ‹_›⟩)
    · contradiction
  | crash worker =>
    cases stepped
    exact .crash worker

/-- The statement that an action runs on the table. -/
inductive Issues (s : State) : Action → Str → Statement → Prop
  | create (caller : Nat) (now : Time) (fault : Option Fault) (submitting : Submitting)
      (busy : s.submits caller = some submitting) (calls : submitting.next = .createJob)
      (reached : fault ≠ some .unreached) :
      Issues s (.create caller now fault) submitting.envelope.id (.createJob submitting.envelope now)
  | mark (caller : Nat) (now : Time) (fault : Option Fault) (submitting : Submitting)
      (statement : Statement) (busy : s.submits caller = some submitting)
      (calls : submitting.late now = some statement) (reached : fault ≠ some .unreached) :
      Issues s (.mark caller now fault) submitting.envelope.id statement
  | store (worker : Nat) (now : Time) (fault : Option Fault) (execution : Execution)
      (envelope : Envelope) (statement : Statement) (busy : s.executions worker = some execution)
      (body : execution.handling.body = some envelope)
      (calls : execution.handling.next.statement envelope execution.handling.attempt now = some statement)
      (reached : fault ≠ some .unreached) :
      Issues s (.store worker now fault) envelope.id statement

/-- `Issues` as a function. -/
def issued (s : State) : Action → Option (Str × Statement)
  | .create caller now fault => do
    let submitting ← s.submits caller
    if submitting.next = .createJob ∧ fault ≠ some .unreached then
      some (submitting.envelope.id, .createJob submitting.envelope now)
    else none
  | .mark caller now fault => do
    let submitting ← s.submits caller
    let statement ← submitting.late now
    if fault ≠ some .unreached then some (submitting.envelope.id, statement) else none
  | .store worker now fault => do
    let execution ← s.executions worker
    let envelope ← execution.handling.body
    let statement ← execution.handling.next.statement envelope execution.handling.attempt now
    if fault ≠ some .unreached then some (envelope.id, statement) else none
  | _ => none

theorem issues_iff {id : Str} {statement : Statement} :
    Issues s action id statement ↔ issued s action = some (id, statement) := by
  constructor
  · intro issues
    cases issues with
    | create caller now fault submitting busy calls reached => simp [issued, busy, calls, reached]
    | mark caller now fault submitting _ busy calls reached => simp [issued, busy, calls, reached]
    | store worker now fault execution envelope _ busy body calls reached =>
      simp [issued, busy, body, calls, reached]
  · intro runs
    cases action with
    | create caller now fault =>
      simp only [issued, Option.bind_eq_bind, Option.bind_eq_some_iff, Option.ite_none_right_eq_some] at runs
      obtain ⟨submitting, busy, ⟨calls, reached⟩, ⟨⟩⟩ := runs
      exact .create caller now fault submitting busy calls reached
    | mark caller now fault =>
      simp only [issued, Option.bind_eq_bind, Option.bind_eq_some_iff, Option.ite_none_right_eq_some] at runs
      obtain ⟨submitting, busy, _, calls, reached, ⟨⟩⟩ := runs
      exact .mark caller now fault submitting statement busy calls reached
    | store worker now fault =>
      simp only [issued, Option.bind_eq_bind, Option.bind_eq_some_iff, Option.ite_none_right_eq_some] at runs
      obtain ⟨execution, busy, envelope, body, _, calls, reached, ⟨⟩⟩ := runs
      exact .store worker now fault execution envelope statement busy body calls reached
    | _ => contradiction

theorem step_writes (stepped : step validJSON s action = some t) :
    (t.table = s.table ∧ t.written = s.written) ∨ ∃ id statement, Issues s action id statement ∧
      t.table = s.table.execute id statement ∧ t.written = (s.write id statement).written := by
  cases step_effect stepped with
  | create caller now fault submitting busy calls =>
    match fault with
    | some .unreached => exact .inl ⟨rfl, rfl⟩
    | some .lost =>
      exact .inr ⟨_, _, .create caller now _ submitting busy calls (by simp), rfl, rfl⟩
    | none =>
      refine .inr ⟨_, _, .create caller now _ submitting busy calls (by simp), ?_⟩
      simp only [State.create]
      split <;> exact ⟨rfl, rfl⟩
  | mark caller now fault submitting statement busy calls =>
    match fault with
    | some .unreached => exact .inl ⟨rfl, rfl⟩
    | some .lost | none =>
      exact .inr ⟨_, statement, .mark caller now _ submitting statement busy calls (by simp), rfl, rfl⟩
  | store worker now fault execution envelope statement snapshot busy body calls viewed =>
    match fault with
    | some .unreached => exact .inl ⟨rfl, rfl⟩
    | some .lost =>
      exact .inr ⟨_, statement, .store worker now _ execution envelope statement busy body calls
        (by simp), rfl, rfl⟩
    | none =>
      refine .inr ⟨_, statement, .store worker now _ execution envelope statement busy body calls
        (by simp), ?_⟩
      simp only [State.store]
      split <;> exact ⟨rfl, rfl⟩
  | settle worker sent execution busy calls => cases sent <;> exact .inl ⟨rfl, rfl⟩
  | _ => exact .inl ⟨rfl, rfl⟩

theorem store_written {worker : Nat} {now : Time} {execution : Execution} {envelope : Envelope}
    {statement : Statement} (stepped : step validJSON s (.store worker now none) = some t)
    (busy : s.executions worker = some execution) (body : execution.handling.body = some envelope)
    (calls : execution.handling.next.statement envelope execution.handling.attempt now = some statement)
    (took : effective statement (s.table envelope.id) = true) :
    t.written = s.written ++ [(envelope.id, statement)] := by
  cases step_effect stepped with
  | store _ _ _ before other ran snapshot working received called _ =>
    cases working.symm.trans busy
    cases received.symm.trans body
    cases called.symm.trans calls
    simp only [State.store]
    split <;> exact if_pos took

/-- A condition on the statements that an action runs. -/
def Issuing (P : State → Str → Statement → Prop) (s : State) (action : Action) : Prop :=
  ∀ id statement, Issues s action id statement → P s id statement

instance (P : State → Str → Statement → Prop) [∀ s id statement, Decidable (P s id statement)]
    (s : State) (action : Action) : Decidable (Issuing P s action) :=
  match runs : issued s action with
  | none => isTrue (fun id statement issues => by simp [issues_iff.mp issues] at runs)
  | some (id, statement) => decidable_of_iff (P s id statement) (by simp [Issuing, issues_iff, runs])

theorem run_rows {P : State → Str → Statement → Prop} {Q : Str → Option JobRow → Option JobRow → Prop}
    (refl : ∀ id row, Q id row row)
    (trans : ∀ {id first middle last}, Q id first middle → Q id middle last → Q id first last)
    (writes : ∀ {s id statement}, P s id statement →
      Q id (s.table id) (execute statement (s.table id)).1)
    {actions : List Action} (path : run (step validJSON) s actions = some t)
    (met : Along (step validJSON) (Issuing P) s actions) (id : Str) : Q id (s.table id) (t.table id) := by
  refine run_invariant_along (P := fun u => Q id (s.table id) (u.table id)) ?_ path met (refl id _)
  intro u v action condition sofar stepped
  rcases step_writes stepped with ⟨same, _⟩ | ⟨other, statement, issued, wrote, _⟩
  · rw [same]
    exact sofar
  · rw [wrote]
    by_cases here : id = other
    · subst here
      rw [Table.execute_self]
      exact trans sofar (writes (condition id statement issued))
    · rw [Table.execute_other here]
      exact sofar

/-- How a worker comes to what it is doing after an action. -/
inductive Moved (validJSON : Str → Bool) (s : State) (action : Action) (t : State) (worker : Nat) :
    Execution → Prop
  | same (execution : Execution) (busy : s.executions worker = some execution)
      (quiet : ∀ now fault, action ≠ .store worker now fault) : Moved validJSON s action t worker execution
  | delivered (headers : Headers) (body : Option Envelope) (took : action = .deliver worker headers body) :
      Moved validJSON s action t worker ⟨⟨body, deliveryAttempt headers, firstCall validJSON body⟩, none⟩
  | began (execution : Execution) (envelope : Envelope) (took : action = .begin worker)
      (busy : s.executions worker = some execution) (body : execution.handling.body = some envelope)
      (calls : execution.handling.next = .prepareAttempt) :
      Moved validJSON s action t worker { execution with snapshot := some (s.table envelope.id) }
  | replied (execution : Execution) (envelope : Envelope) (now : Time) (statement : Statement)
      (snapshot : Option JobRow) (next : Call) (took : action = .store worker now none)
      (busy : s.executions worker = some execution) (body : execution.handling.body = some envelope)
      (calls : execution.handling.next.statement envelope execution.handling.attempt now = some statement)
      (viewed : execution.view = some snapshot)
      (goes : execution.handling.next.after (replyIn snapshot statement (s.table envelope.id)) = some next)
      (wrote : t.table = s.table.execute envelope.id statement) :
      Moved validJSON s action t worker ⟨{ execution.handling with next }, none⟩
  | processed (execution : Execution) (envelope : Envelope) (outcome : Outcome)
      (took : action = .process worker outcome) (busy : s.executions worker = some execution)
      (body : execution.handling.body = some envelope) (calls : execution.handling.next = .process) :
      Moved validJSON s action t worker ⟨{ execution.handling with
        next := afterProcess envelope execution.handling.attempt outcome }, none⟩

theorem step_moved {worker : Nat} {execution : Execution} (stepped : step validJSON s action = some t)
    (found : t.executions worker = some execution) : Moved validJSON s action t worker execution := by
  cases step_effect stepped with
  | submit _ _ _ | publish _ _ _ _ _ _ _ | abandon _ => exact .same execution found nofun
  | create caller now fault submitting _ _ =>
    rw [(s.create_frame caller submitting now fault).executions] at found
    exact .same execution found nofun
  | mark caller _ fault submitting statement _ _ =>
    rw [(s.mark_frame caller submitting statement fault).executions] at found
    exact .same execution found nofun
  | deliver _ headers body _ =>
    rcases update_found found with ⟨before, _⟩ | ⟨rfl, ⟨⟩⟩
    · exact .same execution before nofun
    · exact .delivered headers body rfl
  | begin _ before envelope busy body calls =>
    rcases update_found found with ⟨earlier, _⟩ | ⟨rfl, ⟨⟩⟩
    · exact .same execution earlier nofun
    · exact .began before envelope rfl busy body calls
  | store _ now fault before envelope statement snapshot busy body calls viewed =>
    match fault with
    | some .unreached | some .lost =>
      rcases update_found found with ⟨earlier, other⟩ | ⟨_, ⟨⟩⟩
      exact .same execution earlier (by simp [other])
    | none =>
      simp only [State.store] at found
      split at found
      · rcases update_found found with ⟨earlier, other⟩ | ⟨_, ⟨⟩⟩
        exact .same execution earlier (by simp [other])
      · rename_i next goes
        rcases update_found found with ⟨earlier, other⟩ | ⟨rfl, ⟨⟩⟩
        · exact .same execution earlier (by simp [other])
        · refine .replied before envelope now statement snapshot next rfl busy body calls viewed goes ?_
          simp only [State.store, goes]
          rfl
  | process _ outcome before envelope busy body calls =>
    rcases update_found found with ⟨earlier, _⟩ | ⟨rfl, ⟨⟩⟩
    · exact .same execution earlier nofun
    · exact .processed before envelope outcome rfl busy body calls
  | settle _ sent _ _ _ =>
    cases sent <;>
    · rcases update_found found with ⟨earlier, _⟩ | ⟨_, ⟨⟩⟩
      exact .same execution earlier nofun
  | crash _ =>
    rcases update_found found with ⟨earlier, _⟩ | ⟨_, ⟨⟩⟩
    exact .same execution earlier nofun

theorem step_kept (stepped : step validJSON s action = some t) : Kept s.table t.table := by
  rcases step_writes stepped with ⟨same, _⟩ | ⟨id, statement, _, wrote, _⟩
  · rw [same]
    exact .refl _
  · rw [wrote]
    exact s.table.execute_kept id statement

/-- The worker whose calls an action is about. -/
def Action.worker : Action → Option Nat
  | .deliver worker _ _ | .begin worker | .store worker _ _ | .process worker _ | .settle worker _
  | .crash worker => some worker
  | _ => none

theorem step_other (stepped : step validJSON s action = some t) {worker : Nat}
    (other : action.worker ≠ some worker) : t.executions worker = s.executions worker := by
  have apart {acting : Nat} (named : action.worker = some acting) : worker ≠ acting := by
    rintro rfl
    exact other named
  cases step_effect stepped with
  | submit _ _ _ | publish _ _ _ _ _ _ _ | abandon _ => rfl
  | create caller now fault submitting _ _ =>
    rw [(s.create_frame caller submitting now fault).executions]
  | mark caller _ fault submitting statement _ _ =>
    rw [(s.mark_frame caller submitting statement fault).executions]
  | deliver _ _ _ _ => exact Function.update_of_ne (apart rfl) _ _
  | begin _ _ _ _ _ _ => exact Function.update_of_ne (apart rfl) _ _
  | process _ _ _ _ _ _ _ => exact Function.update_of_ne (apart rfl) _ _
  | crash _ => exact Function.update_of_ne (apart rfl) _ _
  | settle acting sent _ _ _ =>
    cases sent with
    | true => exact Function.update_of_ne (apart rfl) _ _
    | false => exact Function.update_of_ne (apart rfl) _ _
  | store acting now fault before envelope statement snapshot _ _ _ _ =>
    match fault with
    | some .unreached | some .lost => exact Function.update_of_ne (apart rfl) _ _
    | none =>
      simp only [State.store]
      split
      · exact Function.update_of_ne (apart rfl) _ _
      · exact Function.update_of_ne (apart rfl) _ _

theorem step_delivered (stepped : step validJSON s action = some t) :
    t.delivered = s.delivered ∨ ∃ worker headers envelope, action = .deliver worker headers (some envelope) ∧
      t.delivered = s.delivered ++ [(envelope.id, deliveryAttempt headers)] := by
  cases step_effect stepped with
  | deliver worker headers body _ =>
    cases body with
    | none => exact .inl (List.append_nil _)
    | some envelope => exact .inr ⟨worker, headers, envelope, rfl, rfl⟩
  | create caller now fault submitting _ _ =>
    exact .inl (s.create_frame caller submitting now fault).delivered
  | mark caller _ fault submitting statement _ _ =>
    exact .inl (s.mark_frame caller submitting statement fault).delivered
  | store worker _ fault execution envelope statement snapshot _ _ _ _ =>
    exact .inl (s.store_frame worker execution.handling envelope.id statement snapshot fault).delivered
  | settle worker sent execution _ _ =>
    exact .inl (s.settle_frame worker execution.handling sent).delivered
  | _ => exact .inl rfl

theorem deliver_delivered {worker : Nat} {headers : Headers} {envelope : Envelope}
    (stepped : step validJSON s (.deliver worker headers (some envelope)) = some t) :
    t.delivered = s.delivered ++ [(envelope.id, deliveryAttempt headers)] := by
  cases step_effect stepped
  rfl

theorem step_processed (stepped : step validJSON s action = some t) :
    t.processed = s.processed ∨ ∃ worker outcome execution envelope, action = .process worker outcome ∧
      s.executions worker = some execution ∧ execution.handling.body = some envelope ∧
      execution.handling.next = .process ∧
      t.processed = s.processed ++ [(envelope.id, execution.handling.attempt)] := by
  cases step_effect stepped with
  | process worker outcome execution envelope busy body calls =>
    exact .inr ⟨worker, outcome, execution, envelope, rfl, busy, body, calls, rfl⟩
  | create caller now fault submitting _ _ =>
    exact .inl (s.create_frame caller submitting now fault).processed
  | mark caller _ fault submitting statement _ _ =>
    exact .inl (s.mark_frame caller submitting statement fault).processed
  | store worker _ fault execution envelope statement snapshot _ _ _ _ =>
    exact .inl (s.store_frame worker execution.handling envelope.id statement snapshot fault).processed
  | settle worker sent execution _ _ =>
    exact .inl (s.settle_frame worker execution.handling sent).processed
  | _ => exact .inl rfl

theorem step_gains (stepped : step validJSON s action = some t) :
    t.written = s.written ∨ ∃ id statement, Issues s action id statement ∧
      effective statement (s.table id) = true ∧ t.written = s.written ++ [(id, statement)] := by
  rcases step_writes stepped with ⟨_, log⟩ | ⟨id, statement, issued, _, log⟩
  · exact .inl log
  · rw [log, State.write]
    dsimp only
    split
    · exact .inr ⟨id, statement, issued, ‹_›, rfl⟩
    · exact .inl rfl

theorem step_begun (stepped : step validJSON s action = some t) {id : Str} (begun : Begun (s.table id)) :
    Begun (t.table id) := by
  rcases step_writes stepped with ⟨same, _⟩ | ⟨other, statement, _, wrote, _⟩
  · rwa [same]
  · rw [wrote]
    exact s.table.execute_keeps other statement (execute_begun statement) begun

/-- A worker past its `PrepareAttempt` has begun the row of its job. -/
def Staged (s : State) : Prop := ∀ worker execution envelope, s.executions worker = some execution →
  execution.handling.body = some envelope → execution.handling.next.works = true →
  Begun (s.table envelope.id)

theorem start_staged (table : Table) : Staged (.start table) :=
  fun _ _ _ busy => nomatch busy

theorem step_staged (staged : Staged s) (stepped : step validJSON s action = some t) : Staged t := by
  intro worker execution envelope found body works
  cases step_moved stepped found with
  | same _ busy _ => exact step_begun stepped (staged worker execution envelope busy body works)
  | delivered headers received took =>
    rw [firstCall_works] at works
    contradiction
  | began before other took busy _ calls =>
    simp only [calls] at works
    contradiction
  | replied before other now statement snapshot next took busy known calls viewed goes wrote =>
    cases known.symm.trans body
    rw [wrote, Table.execute_self]
    exact after_begun calls goes (staged worker before envelope busy body)
  | processed before other outcome took busy known calls =>
    refine step_begun stepped (staged worker before envelope busy body ?_)
    rw [calls]
    rfl

theorem run_staged {table : Table} {actions : List Action}
    (path : run (step validJSON) (.start table) actions = some s) : Staged s :=
  run_invariant step_staged path (start_staged table)

end Pipeline
end EdgeGuard.Jobs
