import EdgeGuard.Jobs.Records

/-! When `handleDelivery` returns an error although the database and the broker
answer every call. A status write that finds the job in a final status has no row to
return, and `scanRequiredID` makes an error of it; only `PrepareAttempt` settles the
delivery of a job that another worker has finished. -/
namespace EdgeGuard.Jobs
open Go Postgres Transition

/-- What a worker's statement has to find for its reply to be used. -/
def Statement.Unopposed (snapshot row : Option JobRow) : Statement → Prop
  | .prepareAttempt envelope attempt now => proposable envelope attempt now = true ∧
    ∀ found, row = some found → found.status.final = true → snapshot ≠ none
  | statement => statement.storable = true ∧
    ∀ found, row = some found → statement.passes found.status = true

instance (snapshot row : Option JobRow) (statement : Statement) :
    Decidable (statement.Unopposed snapshot row) := by
  cases row <;> cases statement <;> simp only [Statement.Unopposed, Option.some.injEq, forall_eq'] <;>
    infer_instance

theorem nextAttemptRow_accepted {row : JobRow} {attempt : Int} (accepted : row.accepted = true)
    (nonneg : 0 ≤ attempt) (now : Time) : (nextAttemptRow attempt now row).accepted = true := by
  simp only [JobRow.accepted, Bool.and_eq_true, decide_eq_true_eq] at accepted ⊢
  obtain ⟨⟨⟨⟨⟨⟨⟨⟨⟨type, _⟩, message⟩, path⟩, _⟩, bound⟩, rows⟩, _⟩, positive⟩, _⟩ := accepted
  obtain ⟨fits, least⟩ := int4Ok_min nonneg positive bound
  exact ⟨⟨⟨⟨⟨⟨⟨⟨⟨type, rfl⟩, message⟩, path⟩, fits⟩, bound⟩, rows⟩, least⟩, positive⟩, min_le_right _ _⟩

theorem prepareAttempt_goes_on {envelope : Envelope} {attempt : Int} {now : Time}
    {snapshot locked : Option JobRow} (accepted : ∀ row, locked = some row → row.accepted = true) :
    (Call.after .prepareAttempt (prepareAttempt envelope attempt now snapshot locked).2).isSome = true ↔
      (Statement.prepareAttempt envelope attempt now).Unopposed snapshot locked := by
  simp only [Statement.Unopposed, prepareAttempt]
  by_cases proposed : proposable envelope attempt now = true
  · cases locked with
    | none => simp [proposed, Call.after]
    | some row =>
      have fits := nextAttemptRow_accepted (accepted row rfl) (proposable_nonneg proposed) now
      cases final : row.status.final with
      | false => simp [proposed, final, fits, Call.after]
      | true => cases snapshot <;> simp [proposed, final, Call.after]
  · simp [proposed, Call.after]

theorem execute_unstorable {statement : Statement} (unstorable : statement.storable = false)
    (row : Option JobRow) : (execute statement row).2 ≠ .id := by
  have replied (guarded : Status → Bool) (change : JobRow → JobRow)
      (refused : ∀ row, (change row).accepted = false) : (update guarded change row).2 ≠ .id := by
    cases row with
    | none => simp [update]
    | some row => by_cases passed : guarded row.status = true <;> simp [update, passed, refused row]
  cases statement with
  | markRetrying _ failure now | markFailed _ failure now =>
    refine replied _ _ ?_
    intro row
    simp only [Statement.storable] at unstorable
    simp [JobRow.accepted, unstorable]
  | markSucceeded _ result now =>
    refine replied _ _ ?_
    intro row
    by_contra accepted
    simp only [Bool.not_eq_false, JobRow.accepted, Bool.and_eq_true] at accepted
    obtain ⟨⟨⟨⟨⟨⟨⟨⟨⟨_, _⟩, message⟩, path⟩, _⟩, _⟩, rows⟩, _⟩, _⟩, _⟩ := accepted
    simp [Statement.storable, message, path, rows] at unstorable
  | createJob _ _ | markQueued _ | markSubmissionFailed _ _ | prepareAttempt _ _ _ => contradiction

theorem Statement.unopposed_of_marks {statement : Statement} (marks : statement.marks = true)
    (snapshot : Option JobRow) (row : JobRow) : statement.Unopposed snapshot (some row) ↔
      statement.storable = true ∧ statement.passes row.status = true := by
  cases statement with
  | markRetrying _ _ _ | markSucceeded _ _ _ | markFailed _ _ _ => simp [Statement.Unopposed]
  | createJob _ _ | markQueued _ | markSubmissionFailed _ _ | prepareAttempt _ _ _ => contradiction

theorem mark_goes_on {call : Call} {statement : Statement} {envelope : Envelope} {attempt : Int} {now : Time}
    {row : JobRow} (marks : statement.marks = true)
    (calls : call.statement envelope attempt now = some statement) (nonneg : 0 ≤ attempt)
    (accepted : row.accepted = true) (snapshot : Option JobRow) :
    (call.after (execute statement (some row)).2).isSome = true ↔
      statement.Unopposed snapshot (some row) := by
  have carries : statement.attempt = some attempt := by
    cases call <;> cases calls <;> rfl
  have goes : (call.after (execute statement (some row)).2).isSome = true ↔
      (execute statement (some row)).2 = .id := by
    cases call <;> cases calls <;> cases (execute _ (some row)).2 <;> simp_all [Call.after, Statement.marks]
  rw [goes, Statement.unopposed_of_marks marks]
  cases storable : statement.storable with
  | false => simp [execute_unstorable storable]
  | true =>
    rw [execute_marks marks accepted carries nonneg storable]
    cases statement.passes row.status <;> simp

namespace Pipeline
variable {validJSON : Str → Bool} {s t : State} {action : Action}

/-- Every call of the action reaches its server and brings its answer back. -/
def Action.answered : Action → Bool
  | .create _ _ fault | .mark _ _ fault | .store _ _ fault => fault.isNone
  | .settle _ sent => sent
  | _ => true

/-- The pipeline over a database and a broker that never fail. -/
def reliable (validJSON : Str → Bool) (s : State) (action : Action) : Option State :=
  if action.answered then step validJSON s action else none

/-- A status statement of a worker meets the row that it needs. -/
def Unopposed (s : State) : Action → Prop
  | .store worker now _ => ∀ execution envelope statement snapshot, s.executions worker = some execution →
    execution.handling.body = some envelope →
    execution.handling.next.statement envelope execution.handling.attempt now = some statement →
    execution.view = some snapshot → statement.Unopposed snapshot (s.table envelope.id)
  | _ => True

theorem reliable_step (stepped : reliable validJSON s action = some t) :
    action.answered = true ∧ step validJSON s action = some t := by
  simp only [reliable] at stepped
  split at stepped
  · exact ⟨‹_›, stepped⟩
  · contradiction

structure Settled (s : State) : Prop where
  staged : Staged s
  admitted : Admitted s
  accepted : ∀ id row, s.table id = some row → row.accepted = true

theorem start_settled : Settled (.start fun _ => none) where
  staged := start_staged _
  admitted _ _ busy := nomatch busy
  accepted _ _ found := nomatch found

theorem reliable_settled (settled : Settled s) (stepped : reliable validJSON s action = some t) : Settled t where
  staged := step_staged settled.staged (reliable_step stepped).2
  admitted := step_admitted settled.admitted (reliable_step stepped).2
  accepted := step_accepted settled.accepted (reliable_step stepped).2

theorem Settled.goes_on (settled : Settled s) {worker : Nat} {now : Time} {execution : Execution}
    {envelope : Envelope} {statement : Statement} {snapshot : Option JobRow}
    (busy : s.executions worker = some execution) (body : execution.handling.body = some envelope)
    (calls : execution.handling.next.statement envelope execution.handling.attempt now = some statement) :
    (execution.handling.next.after (replyIn snapshot statement (s.table envelope.id))).isSome = true ↔
      statement.Unopposed snapshot (s.table envelope.id) := by
  have marked (works : execution.handling.next.works = true) (marks : statement.marks = true) :
      (execution.handling.next.after (execute statement (s.table envelope.id)).2).isSome = true ↔
        statement.Unopposed snapshot (s.table envelope.id) := by
    obtain ⟨row, found, _⟩ := settled.staged worker execution envelope busy body works
    rw [found]
    exact mark_goes_on marks calls (settled.admitted worker execution busy works)
      (settled.accepted _ row found) snapshot
  cases next : execution.handling.next with
  | prepareAttempt =>
    rw [next] at calls
    cases calls
    exact prepareAttempt_goes_on (settled.accepted envelope.id)
  | markSucceeded _ | markFailed _ | markRetrying _ =>
    rw [next] at calls marked
    cases calls
    exact marked rfl rfl
  | process | ack | reject _ =>
    rw [next] at calls
    contradiction

theorem reliable_errors (settled : Settled s) (stepped : reliable validJSON s action = some t) :
    t.errors = [] ↔ s.errors = [] ∧ Unopposed s action := by
  obtain ⟨answered, stepped⟩ := reliable_step stepped
  cases step_effect stepped with
  | store worker now fault execution envelope statement snapshot busy body calls viewed =>
    cases fault with
    | some fault => contradiction
    | none =>
      have condition : Unopposed s (.store worker now none) ↔
          statement.Unopposed snapshot (s.table envelope.id) := by
        constructor
        · intro met
          exact met execution envelope statement snapshot busy body calls viewed
        · intro met _ _ _ _ there known issues seen
          cases busy.symm.trans there
          cases body.symm.trans known
          cases calls.symm.trans issues
          cases viewed.symm.trans seen
          exact met
      rw [condition, ← settled.goes_on busy body calls]
      simp only [State.store]
      split <;> rename_i goes <;> simp [goes, State.fail, State.write, State.setExecution]
  | create caller now fault submitting busy calls =>
    rw [(s.create_frame caller submitting now fault).errors]
    simp [Unopposed]
  | mark caller now fault submitting statement busy calls =>
    rw [(s.mark_frame caller submitting statement fault).errors]
    simp [Unopposed]
  | settle worker sent execution busy calls =>
    cases sent with
    | false => contradiction
    | true => simp [Unopposed, State.setExecution]
  | submit _ _ _ | publish _ _ _ _ _ _ _ | abandon _ | deliver _ _ _ _ | begin _ _ _ _ _ _
  | process _ _ _ _ _ _ _ | crash _ =>
    simp [Unopposed, State.setExecution, State.setSubmit, State.publish]

/-- Over a database and a broker that never fail, in every interleaving, no
`handleDelivery` has returned an error exactly when every status statement of a worker
met the row it needs: an update a row that its guard admits, `PrepareAttempt` no final
row that was entered after it began, and both values that fit the columns. -/
theorem deliveries_settle_iff_unopposed {actions : List Action}
    (path : run (reliable validJSON) (.start fun _ => none) actions = some s) :
    s.errors = [] ↔ Along (reliable validJSON) Unopposed (.start fun _ => none) actions := by
  have exact_run := run_iff_along (P := fun u => u.errors = []) reliable_settled reliable_errors path
    start_settled
  simpa [State.start] using exact_run

/-- The second worker takes its delivery up after the first one has finished the job. -/
def takenInTurn : List Action :=
  [.submit 0 reportJob, .create 0 1000000 none, .publish 0 true true [], .mark 0 2000000 none,
    .deliver 0 [] (some reportJob), .deliver 1 (redelivered 1) (some reportJob), .begin 0,
    .store 0 3000000 none, .process 0 (.done ⟨lit "report generated", [], 0⟩), .store 0 4000000 none,
    .settle 0 true, .begin 1, .store 1 5000000 none, .settle 1 true]

theorem later_delivery_is_acknowledged :
    ∃ s, run (reliable emptyObject) (.start fun _ => none) takenInTurn = some s ∧ s.errors = [] ∧
      s.executions 1 = none ∧ Along (reliable emptyObject) Unopposed (.start fun _ => none) takenInTurn := by
  have ran : (run (reliable emptyObject) (.start fun _ => none) takenInTurn).map
      (fun s => (s.errors, s.executions 1)) = some ([], none) := by
    decide +kernel
  obtain ⟨s, path, known⟩ := Option.map_eq_some_iff.mp ran
  obtain ⟨errors, idle⟩ := Prod.mk.inj known
  exact ⟨s, path, errors, idle, (deliveries_settle_iff_unopposed path).mp errors⟩

/-- Both workers have prepared the job; the first success leaves the second no row, and
a `PrepareAttempt` that began before the job was entered and finished finds none either. -/
theorem rival_worker_returns_error :
    ((run (reliable emptyObject) (.start fun _ => none)
        (preparedTwice ++ [.process 0 (.done ⟨lit "report generated", [], 0⟩),
          .process 1 (.done ⟨lit "report generated", [], 0⟩), .store 0 5000000 none, .settle 0 true,
          .store 1 6000000 none])).map (·.errors) =
      some [⟨some reportJob, 2, .markSucceeded ⟨lit "report generated", [], 0⟩⟩]) ∧
    ((run (reliable emptyObject) (.start fun _ => none)
        [.deliver 0 [] (some reportJob), .deliver 1 (redelivered 1) (some reportJob), .begin 0, .begin 1,
          .store 0 3000000 none, .process 0 (.done ⟨lit "report generated", [], 0⟩),
          .store 0 4000000 none, .settle 0 true, .store 1 5000000 none]).map (·.errors) =
      some [⟨some reportJob, 2, .prepareAttempt⟩]) := by
  decide +kernel

end Pipeline
end EdgeGuard.Jobs
