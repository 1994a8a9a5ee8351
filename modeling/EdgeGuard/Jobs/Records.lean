import EdgeGuard.Jobs.Pipeline
import EdgeGuard.Jobs.Settlement

/-! The columns of a job's row over whole runs. Final rows are left alone by every
statement but `MarkFailed`, whose guard lets a failed row through; and the columns
agree with the status as long as no attempt starts on a row that `publish` failed
for, because `PrepareAttempt` does not clear `completed_at`. -/
namespace EdgeGuard.Jobs
open Go Postgres Transition

/-- The statement may find the row final and still not write it. -/
def Statement.Spares (row : JobRow) : Statement → Prop
  | .markFailed _ _ _ => row.status ≠ .failed
  | _ => True

instance (row : JobRow) : (statement : Statement) → Decidable (statement.Spares row)
  | .markFailed _ _ _ => inferInstanceAs (Decidable (row.status ≠ .failed))
  | .createJob _ _ | .markQueued _ | .markSubmissionFailed _ _ | .prepareAttempt _ _ _
  | .markRetrying _ _ _ | .markSucceeded _ _ _ => isTrue trivial

theorem execute_final {row : JobRow} (final : row.status.final = true) {statement : Statement}
    (spares : statement.Spares row) : (execute statement (some row)).1 = some row := by
  rcases execute_written statement (some row) with same | ⟨after, _, _, written⟩
  · exact same
  · exfalso
    cases written with
    | next _ _ _ _ unfinished | retrying _ _ _ _ unfinished | succeeded _ _ _ _ unfinished =>
      rw [unfinished] at final
      contradiction
    | queued _ _ publishing | submissionFailed _ _ _ publishing =>
      rw [publishing] at final
      contradiction
    | failed _ _ _ _ unsuccessful =>
      cases status : row.status with
      | failed => exact spares status
      | succeeded => exact unsuccessful status
      | publishing | publishFailed | queued | processing | retrying =>
        rw [status] at final
        contradiction

structure JobRow.Sound (row : JobRow) : Prop where
  completed : row.completedAt.isSome = true ↔
    row.status = .publishFailed ∨ row.status = .succeeded ∨ row.status = .failed
  started : row.status = .processing ∨ row.status = .retrying ∨ row.status = .succeeded ∨
    row.status = .failed → row.startedAt.isSome = true
  result : row.status ≠ .succeeded →
    row.resultMessage = [] ∧ row.outputPath = [] ∧ row.affectedRows = 0
  attempts : 0 ≤ row.currentAttempt ∧ row.currentAttempt ≤ row.maxAttempts

theorem JobRow.accepted_attempts {row : JobRow} (accepted : row.accepted = true) :
    0 ≤ row.currentAttempt ∧ row.currentAttempt ≤ row.maxAttempts := by
  simp only [JobRow.accepted, Bool.and_eq_true, decide_eq_true_eq] at accepted
  exact ⟨accepted.1.1.2, accepted.2⟩

/-- The statements of a worker after its `PrepareAttempt`. -/
def Statement.marks : Statement → Bool
  | .markRetrying _ _ _ | .markSucceeded _ _ _ | .markFailed _ _ _ => true
  | _ => false

/-- The statement starts no attempt on a row whose publication failed. -/
def Statement.Published (row : JobRow) : Statement → Prop
  | .prepareAttempt _ _ _ => row.status ≠ .publishFailed
  | _ => True

instance (row : JobRow) : (statement : Statement) → Decidable (statement.Published row)
  | .prepareAttempt _ _ _ => inferInstanceAs (Decidable (row.status ≠ .publishFailed))
  | .createJob _ _ | .markQueued _ | .markSubmissionFailed _ _ | .markRetrying _ _ _ | .markSucceeded _ _ _
  | .markFailed _ _ _ => isTrue trivial

theorem JobRow.Sound.started_of_begun {row : JobRow} (sound : row.Sound) (begun : row.status.begun = true) :
    row.startedAt.isSome = true := by
  apply sound.started
  cases status : row.status <;> rw [status] at begun <;> first | contradiction | simp

theorem publishingRow_sound {envelope : Envelope} {now : Time}
    (accepted : (publishingRow envelope now).accepted = true) : (publishingRow envelope now).Sound where
  completed := by simp [publishingRow]
  started := by simp [publishingRow]
  result _ := ⟨rfl, rfl, rfl⟩
  attempts := JobRow.accepted_attempts accepted

theorem nextAttemptRow_sound {attempt : Int} {now : Time} {row : JobRow} (sound : row.Sound)
    (unfinished : row.status.final = false) (published : row.status ≠ .publishFailed)
    (accepted : (nextAttemptRow attempt now row).accepted = true) :
    (nextAttemptRow attempt now row).Sound where
  completed := by
    have open_row : ¬ row.completedAt.isSome = true := by
      rw [sound.completed]
      rintro (failed | succeeded | failed)
      · exact published failed
      · simp [succeeded, Status.final] at unfinished
      · simp [failed, Status.final] at unfinished
    simp [nextAttemptRow, open_row]
  started _ := by cases started : row.startedAt <;> simp [nextAttemptRow, started]
  result _ := by
    apply sound.result
    intro succeeded
    simp [succeeded, Status.final] at unfinished
  attempts := JobRow.accepted_attempts accepted

/-- Every statement keeps the columns in agreement with the status, provided a worker
marks only what it began and no attempt starts after a failed publication. -/
theorem execute_sound {statement : Statement} {row : Option JobRow}
    (sound : ∀ before, row = some before → before.Sound) (begun : statement.marks = true → Begun row)
    (published : ∀ before, row = some before → statement.Published before) :
    ∀ after, (execute statement row).1 = some after → after.Sound := by
  intro after left
  rcases execute_written statement row with same | ⟨_, wrote, accepted, written⟩
  · exact sound after (same ▸ left)
  · cases Option.some.inj (wrote.symm.trans left)
    have attempts := JobRow.accepted_attempts accepted
    have running (marks : statement.marks = true) (before : JobRow) (found : row = some before) :
        before.status.begun = true := by
      obtain ⟨same, found', status⟩ := begun marks
      cases found.symm.trans found'
      exact status
    cases written with
    | created envelope now => exact publishingRow_sound accepted
    | first envelope attempt now =>
      exact ⟨by simp [firstAttemptRow, publishingRow], fun _ => rfl, fun _ => ⟨rfl, rfl, rfl⟩, attempts⟩
    | next envelope attempt now before unfinished =>
      exact nextAttemptRow_sound (sound before rfl) unfinished (published before rfl) accepted
    | queued now before publishing =>
      refine ⟨?_, by simp, ?_, attempts⟩
      · simp [(sound before rfl).completed, publishing]
      · exact fun _ => (sound before rfl).result (by simp [publishing])
    | submissionFailed failure now before publishing =>
      refine ⟨by simp, by simp, ?_, attempts⟩
      exact fun _ => (sound before rfl).result (by simp [publishing])
    | retrying attempt failure now before unfinished =>
      have begun := running rfl before rfl
      have started := (sound before rfl).started_of_begun begun
      refine ⟨?_, fun _ => started, ?_, attempts⟩
      · cases status : before.status <;> rw [status] at begun unfinished <;>
          first | contradiction | simp [(sound before rfl).completed, status]
      · refine fun _ => (sound before rfl).result ?_
        intro succeeded
        simp [succeeded, Status.final] at unfinished
    | succeeded attempt result now before unfinished =>
      have started := (sound before rfl).started_of_begun (running rfl before rfl)
      exact ⟨by simp, fun _ => started, by simp, attempts⟩
    | failed attempt failure now before unsuccessful =>
      have started := (sound before rfl).started_of_begun (running rfl before rfl)
      exact ⟨by simp, fun _ => started, fun _ => (sound before rfl).result unsuccessful, attempts⟩

theorem execute_accepted (statement : Statement) {row : Option JobRow}
    (accepted : ∀ before, row = some before → before.accepted = true) :
    ∀ after, (execute statement row).1 = some after → after.accepted = true := by
  intro after left
  rcases execute_written statement row with same | ⟨_, wrote, fits, _⟩
  · exact accepted after (same ▸ left)
  · cases Option.some.inj (wrote.symm.trans left)
    exact fits

theorem proposable_nonneg {envelope : Envelope} {attempt : Int} {now : Time}
    (proposed : proposable envelope attempt now = true) : 0 ≤ attempt := by
  simp only [proposable, Bool.and_eq_true] at proposed
  have range := JobRow.accepted_attempts proposed.2
  simp only [firstAttemptRow] at range
  omega

/-- The texts and the count that a worker reports fit their columns. -/
def Statement.storable : Statement → Bool
  | .markRetrying _ failure _ | .markFailed _ failure _ => textOk (normalizeFailureMessage failure)
  | .markSucceeded _ result _ =>
    textOk result.message && textOk result.outputPath && int8Ok result.affectedRows
  | _ => true

def Statement.passes (status : Status) : Statement → Bool
  | .markRetrying _ _ _ | .markSucceeded _ _ _ => !status.final
  | .markFailed _ _ _ => status != .succeeded
  | _ => true

theorem int4Ok_min {attempt bound : Int} (nonneg : 0 ≤ attempt) (positive : 1 ≤ bound)
    (fits : int4Ok bound = true) : int4Ok (min attempt bound) = true ∧ 0 ≤ min attempt bound := by
  simp only [int4Ok, Bool.and_eq_true, decide_eq_true_eq] at fits ⊢
  omega

/-- A worker's update of a row that passes its guard is only refused for what the
worker reports. -/
theorem execute_marks {statement : Statement} {row : JobRow} {attempt : Int}
    (marks : statement.marks = true) (accepted : row.accepted = true)
    (carries : statement.attempt = some attempt) (nonneg : 0 ≤ attempt)
    (storable : statement.storable = true) :
    (execute statement (some row)).2 = if statement.passes row.status then .id else .noRows := by
  have replied (guarded : Status → Bool) (change : JobRow → JobRow) (fits : (change row).accepted = true) :
      (update guarded change (some row)).2 = if guarded row.status then .id else .noRows := by
    by_cases passed : guarded row.status = true <;> simp [update, passed, fits]
  simp only [JobRow.accepted, Bool.and_eq_true, decide_eq_true_eq] at accepted
  obtain ⟨⟨⟨⟨⟨⟨⟨⟨⟨type, error⟩, message⟩, path⟩, current⟩, bound⟩, rows⟩, _⟩, positive⟩, _⟩ := accepted
  obtain ⟨fits, least⟩ := int4Ok_min nonneg positive bound
  cases statement with
  | markRetrying _ failure now | markFailed _ failure now =>
    cases carries
    refine replied _ _ ?_
    simp only [JobRow.accepted, Bool.and_eq_true, decide_eq_true_eq]
    exact ⟨⟨⟨⟨⟨⟨⟨⟨⟨type, storable⟩, message⟩, path⟩, fits⟩, bound⟩, rows⟩, least⟩, positive⟩, min_le_right _ _⟩
  | markSucceeded _ result now =>
    cases carries
    simp only [Statement.storable, Bool.and_eq_true] at storable
    refine replied _ _ ?_
    simp only [JobRow.accepted, Bool.and_eq_true, decide_eq_true_eq]
    exact ⟨⟨⟨⟨⟨⟨⟨⟨⟨type, rfl⟩, storable.1.1⟩, storable.1.2⟩, fits⟩, bound⟩, storable.2⟩, least⟩, positive⟩,
      min_le_right _ _⟩
  | createJob _ _ | markQueued _ | markSubmissionFailed _ _ | prepareAttempt _ _ _ => contradiction

namespace Pipeline
variable {validJSON : Str → Bool} {s t : State} {action : Action}

def Unfailed (s : State) (id : Str) (statement : Statement) : Prop :=
  ∀ row, s.table id = some row → statement.Spares row

instance (s : State) (id : Str) (statement : Statement) : Decidable (Unfailed s id statement) :=
  inferInstanceAs (Decidable (∀ row ∈ s.table id, statement.Spares row))

/-- In every run that marks no failed job failed again, from whatever state, a final
row keeps all its columns. -/
theorem final_record_is_immutable {later : List Action}
    (continues : run (step validJSON) s later = some t)
    (condition : Along (step validJSON) (Issuing Unfailed) s later) :
    ∀ id row, s.table id = some row → row.status.final = true → t.table id = some row := by
  intro id row found final
  refine run_rows (P := Unfailed) (Q := fun _ before after => before = some row → after = some row)
    (fun _ _ same => same) (fun earlier later same => later (earlier same)) ?_ continues condition id found
  intro u other statement unfailed same
  rw [same]
  exact execute_final final (unfailed row same)

/-- The job is published and prepared by two workers, the second of which has it
redelivered. -/
def preparedTwice : List Action :=
  [.submit 0 reportJob, .create 0 1000000 none, .publish 0 true true [], .mark 0 2000000 none,
    .deliver 0 [] (some reportJob), .begin 0, .store 0 3000000 none,
    .deliver 1 (redelivered 1) (some reportJob), .begin 1, .store 1 4000000 none]

/-- Both attempts have failed for good, and the first one is marked. -/
def failedOnce : List Action :=
  preparedTwice ++ [.process 0 (.failed true (lit "blocked address")),
    .process 1 (.failed true (lit "invalid method")), .store 0 5000000 none]

def rowAfter (actions : List Action) : Option JobRow :=
  (run (step emptyObject) (.start fun _ => none) actions).bind (fun s => s.table reportJob.id)

theorem second_success_leaves_failed_record :
    ∃ s t row, run (step emptyObject) (.start fun _ => none)
        (preparedTwice ++ [.process 0 (.failed true (lit "blocked address")), .store 0 5000000 none,
          .process 1 (.done ⟨lit "report generated", [], 0⟩)]) = some s ∧
      run (step emptyObject) s [.store 1 6000000 none] = some t ∧
      s.table reportJob.id = some row ∧ row.status.final = true ∧ t.table reportJob.id = some row := by
  have ran : (run (step emptyObject) (.start fun _ => none)
      (preparedTwice ++ [.process 0 (.failed true (lit "blocked address")), .store 0 5000000 none,
        .process 1 (.done ⟨lit "report generated", [], 0⟩)])).map (fun s =>
        ((s.table reportJob.id).map (·.status.final),
          (step emptyObject s (.store 1 6000000 none)).isSome,
          decide (Along (step emptyObject) (Issuing Unfailed) s [.store 1 6000000 none]))) =
      some (some true, true, true) := by
    decide +kernel
  obtain ⟨s, path, known⟩ := Option.map_eq_some_iff.mp ran
  obtain ⟨status, known⟩ := Prod.mk.inj known
  obtain ⟨enabled, condition⟩ := Prod.mk.inj known
  obtain ⟨row, found, final⟩ := Option.map_eq_some_iff.mp status
  obtain ⟨t, stepped⟩ := Option.isSome_iff_exists.mp enabled
  have continues : run (step emptyObject) s [.store 1 6000000 none] = some t := by
    simp [run, stepped]
  exact ⟨s, t, row, path, continues, found, final,
    final_record_is_immutable continues (of_decide_eq_true condition) _ row found final⟩

/-- The second worker's `MarkFailed` takes the failed row for its own. -/
theorem failed_record_is_rewritten :
    (rowAfter failedOnce).map (fun row => (row.status, row.currentAttempt, row.completedAt, row.lastError)) =
      some (.failed, 1, some 5000000, lit "blocked address") ∧
    (rowAfter (failedOnce ++ [.store 1 6000000 none])).map
        (fun row => (row.status, row.currentAttempt, row.completedAt, row.lastError)) =
      some (.failed, 2, some 6000000, lit "invalid method") := by
  decide +kernel

theorem step_accepted (accepted : ∀ id row, s.table id = some row → row.accepted = true)
    (stepped : step validJSON s action = some t) : ∀ id row, t.table id = some row → row.accepted = true := by
  intro id
  rcases step_writes stepped with ⟨same, _⟩ | ⟨other, statement, _, wrote, _⟩
  · rw [same]
    exact accepted id
  · rw [wrote]
    exact s.table.execute_keeps (P := fun row => ∀ found, row = some found → found.accepted = true) other
      statement (execute_accepted statement) (accepted id)

/-- The attempt of a worker past its `PrepareAttempt` went into the proposed row. -/
def Admitted (s : State) : Prop := ∀ worker execution, s.executions worker = some execution →
  execution.handling.next.works = true → 0 ≤ execution.handling.attempt

theorem step_admitted (admitted : Admitted s) (stepped : step validJSON s action = some t) : Admitted t := by
  intro worker execution found works
  cases step_moved stepped found with
  | same _ busy _ => exact admitted worker execution busy works
  | delivered headers received took =>
    rw [firstCall_works] at works
    contradiction
  | began before other took busy _ calls =>
    simp only [calls] at works
    contradiction
  | replied before envelope now statement snapshot next took busy body calls viewed goes wrote =>
    cases call : before.handling.next with
    | prepareAttempt =>
      rw [call] at calls goes
      cases calls
      have proposed : proposable envelope before.handling.attempt now = true := by
        by_contra refused
        rw [Bool.not_eq_true] at refused
        simp [replyIn, prepareAttempt, refused, Call.after] at goes
      exact proposable_nonneg proposed
    | markSucceeded _ | markFailed _ | markRetrying _ =>
      exact admitted worker before busy (by rw [call]; rfl)
    | process | ack | reject _ =>
      rw [call] at calls
      contradiction
  | processed before envelope outcome took busy body calls =>
    exact admitted worker before busy (by rw [calls]; rfl)

def Published (s : State) (id : Str) (statement : Statement) : Prop :=
  ∀ row, s.table id = some row → statement.Published row

instance (s : State) (id : Str) (statement : Statement) : Decidable (Published s id statement) :=
  match found : s.table id with
  | none => isTrue (fun row exists_ => by simp [exists_] at found)
  | some row => decidable_of_iff (statement.Published row) (by simp [Published, found])

theorem issues_begun (staged : Staged s) {id : Str} {statement : Statement}
    (issued : Issues s action id statement) (marks : statement.marks = true) : Begun (s.table id) := by
  cases issued with
  | create _ _ _ _ _ _ _ => contradiction
  | mark caller now fault submitting _ busy calls _ =>
    simp only [Submitting.late] at calls
    split at calls <;> cases calls <;> contradiction
  | store worker now fault execution envelope _ busy body calls _ =>
    refine staged worker execution envelope busy body ?_
    cases next : execution.handling.next <;> rw [next] at calls <;> cases calls <;>
      first | rfl | contradiction

theorem step_sound (staged : Staged s) (sound : ∀ id row, s.table id = some row → row.Sound)
    (condition : Issuing Published s action) (stepped : step validJSON s action = some t) :
    ∀ id row, t.table id = some row → row.Sound := by
  intro id
  rcases step_writes stepped with ⟨same, _⟩ | ⟨other, statement, issued, wrote, _⟩
  · rw [same]
    exact sound id
  · rw [wrote]
    by_cases here : id = other
    · subst here
      rw [Table.execute_self]
      exact execute_sound (sound id) (issues_begun staged issued) (condition id statement issued)
    · rw [Table.execute_other here]
      exact sound id

/-- In every run from the empty table in which no attempt starts on a job whose
publication failed, every row of every state has columns that agree with its status. -/
theorem columns_agree_with_status {actions : List Action}
    (path : run (step validJSON) (.start fun _ => none) actions = some t)
    (condition : Along (step validJSON) (Issuing Published) (.start fun _ => none) actions) :
    ∀ id row, t.table id = some row → row.Sound := by
  have kept := run_invariant_along
    (P := fun u => Staged u ∧ ∀ id row, u.table id = some row → row.Sound)
    (fun met before stepped => ⟨step_staged before.1 stepped, step_sound before.1 before.2 met stepped⟩)
    path condition ⟨start_staged _, fun _ _ found => nomatch found⟩
  exact kept.2

theorem columns_of_succeeded_report :
    ∃ row, rowAfter (preparedTwice ++ [.process 1 (.done ⟨lit "report generated", [], 0⟩),
      .store 1 5000000 none]) = some row ∧ row.status = .succeeded ∧ row.Sound := by
  have ran : (rowAfter (preparedTwice ++ [.process 1 (.done ⟨lit "report generated", [], 0⟩),
      .store 1 5000000 none])).map (·.status) = some .succeeded := by
    decide +kernel
  obtain ⟨row, found, succeeded⟩ := Option.map_eq_some_iff.mp ran
  obtain ⟨t, path, there⟩ := Option.bind_eq_some_iff.mp found
  exact ⟨row, found, succeeded, columns_agree_with_status path (by decide +kernel) _ row there⟩

/-- The broker has the message although `Publish` reported an error: the first attempt
starts on a `publish_failed` row and leaves its `completed_at` in place. -/
theorem processing_job_is_completed :
    (rowAfter [.submit 0 reportJob, .create 0 1000000 none, .publish 0 true false (lit "timeout"),
      .mark 0 2000000 none, .deliver 0 [] (some reportJob), .begin 0, .store 0 3000000 none]).map
        (fun row => (row.status, row.startedAt, row.completedAt)) =
      some (.processing, some 3000000, some 2000000) := by
  decide +kernel

end Pipeline
end EdgeGuard.Jobs
