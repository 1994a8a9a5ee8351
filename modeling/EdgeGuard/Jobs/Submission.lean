import EdgeGuard.Jobs.Pipeline
import EdgeGuard.Jobs.Settlement

/-! `submit` against the workers: the message follows the row, a worker that has
prepared the row makes the late status write of `submit` void, and the receipt is
given exactly for a confirmed publication. -/
namespace EdgeGuard.Jobs
open Go Transition

/-- What stays true of the row after a statement took effect on it. -/
def Statement.Lasts (row : Option JobRow) : Statement → Prop
  | .prepareAttempt _ _ _ => Begun row
  | _ => ∃ found, row = some found

theorem execute_lasts {statement : Statement} (other : Statement) {row : Option JobRow}
    (lasts : statement.Lasts row) : statement.Lasts (execute other row).1 := by
  cases statement with
  | prepareAttempt _ _ _ => exact execute_begun other lasts
  | _ =>
    obtain ⟨found, rfl⟩ := lasts
    obtain ⟨next, left, _⟩ := execute_succeeds other (some found) found rfl
    exact ⟨next, left⟩

theorem update_took {guarded : Status → Bool} {change : JobRow → JobRow} {row : Option JobRow}
    (took : (update guarded change row).2.took = true) : ∃ found, (update guarded change row).1 = some found := by
  cases row with
  | none => contradiction
  | some row =>
    rcases update_cases guarded change row with ⟨_, done⟩ | done | ⟨_, done⟩ <;> rw [done] at took ⊢
    · contradiction
    · contradiction
    · exact ⟨change row, rfl⟩

theorem effective_lasts {statement : Statement} {row : Option JobRow}
    (took : effective statement row = true) : statement.Lasts (execute statement row).1 := by
  cases statement with
  | createJob envelope now =>
    cases row with
    | some row => contradiction
    | none =>
      simp only [effective, execute] at took ⊢
      split at took
      · contradiction
      · rename_i checked
        exact ⟨publishingRow envelope now, by rw [if_neg checked]⟩
  | prepareAttempt envelope attempt now =>
    have prepared := prepareAttempt_prepared envelope attempt now row row
    simp only [effective, execute] at took ⊢
    generalize prepareAttempt envelope attempt now row row = outcome at prepared took ⊢
    cases prepared with
    | refused => contradiction
    | inserted => exact ⟨firstAttemptRow envelope attempt now, rfl, rfl⟩
    | updated _ row _ => exact ⟨nextAttemptRow attempt now row, rfl, rfl⟩
    | stale row _ final => exact ⟨row, rfl, Status.begun_of_final final⟩
  | markQueued _ | markSubmissionFailed _ _ | markRetrying _ _ _ | markSucceeded _ _ _ | markFailed _ _ _ =>
    exact update_took took

namespace Pipeline
variable {validJSON : Str → Bool} {s t : State} {action : Action}

theorem step_logged (logged : ∀ id statement, (id, statement) ∈ s.written → statement.Lasts (s.table id))
    (stepped : step validJSON s action = some t) :
    ∀ id statement, (id, statement) ∈ t.written → statement.Lasts (t.table id) := by
  intro id statement member
  rcases step_writes stepped with ⟨same, log⟩ | ⟨other, wrote, _, table, log⟩
  · rw [log] at member
    rw [same]
    exact logged id statement member
  · have earlier (before : (id, statement) ∈ s.written) : statement.Lasts (t.table id) := by
      rw [table]
      exact s.table.execute_keeps (P := (Statement.Lasts · statement)) other wrote (execute_lasts wrote)
        (logged id statement before)
    rw [log, State.write] at member
    by_cases took : effective wrote (s.table other) = true
    · simp only [took, if_true, List.mem_append, List.mem_singleton] at member
      rcases member with before | ⟨⟨⟩⟩
      · exact earlier before
      · rw [table, Table.execute_self]
        exact effective_lasts took
    · simp only [took] at member
      exact earlier member

/-- How a caller comes to the `submit` it is in after an action. -/
inductive SubmitMoved (validJSON : Str → Bool) (s t : State) (caller : Nat) : Submitting → Prop
  | same (submitting : Submitting) (busy : s.submits caller = some submitting) :
      SubmitMoved validJSON s t caller submitting
  | called (envelope : Envelope) : SubmitMoved validJSON s t caller ⟨envelope, none, .createJob⟩
  | created (submitting : Submitting) (now : Time) (busy : s.submits caller = some submitting)
      (calls : submitting.next = .createJob)
      (wrote : (submitting.envelope.id, .createJob submitting.envelope now) ∈ t.written) :
      SubmitMoved validJSON s t caller { submitting with next := .publish }
  | published (submitting : Submitting) (confirmed : Bool) (failure : Str)
      (busy : s.submits caller = some submitting) (calls : submitting.next = .publish) :
      SubmitMoved validJSON s t caller (submitting.published validJSON confirmed failure)

theorem step_submitMoved {caller : Nat} {submitting : Submitting} (stepped : step validJSON s action = some t)
    (found : t.submits caller = some submitting) : SubmitMoved validJSON s t caller submitting := by
  have ended {other : Nat} (found : Function.update s.submits other none caller = some submitting) :
      SubmitMoved validJSON s t caller submitting := by
    rcases update_found found with ⟨earlier, _⟩ | ⟨_, ⟨⟩⟩
    exact .same submitting earlier
  cases step_effect stepped with
  | submit _ envelope _ =>
    rcases update_found found with ⟨before, _⟩ | ⟨rfl, ⟨⟩⟩
    · exact .same submitting before
    · exact .called envelope
  | create _ now fault before busy calls =>
    cases fault with
    | some fault => cases fault <;> exact ended found
    | none =>
      simp only [State.create] at found
      split at found
      · rename_i replied
        rcases update_found found with ⟨earlier, _⟩ | ⟨rfl, ⟨⟩⟩
        · exact .same submitting earlier
        · refine .created before now busy calls ?_
          simp [State.create, replied, State.setSubmit, State.write, effective, Reply.took]
      · exact ended found
  | publish _ accepted confirmed failure before busy calls =>
    rcases update_found found with ⟨earlier, _⟩ | ⟨rfl, ⟨⟩⟩
    · exact .same submitting earlier
    · exact .published before confirmed failure busy calls
  | mark _ _ fault _ _ _ _ =>
    cases fault with
    | none => exact ended found
    | some fault => cases fault <;> exact ended found
  | abandon _ => exact ended found
  | store worker _ fault execution envelope statement snapshot _ _ _ _ =>
    rw [(s.store_frame worker execution.handling envelope.id statement snapshot fault).submits] at found
    exact .same submitting found
  | settle worker sent execution _ _ =>
    rw [(s.settle_frame worker execution.handling sent).submits] at found
    exact .same submitting found
  | _ => exact .same submitting found

theorem step_broker (stepped : step validJSON s action = some t) {envelope : Envelope}
    (sent : envelope ∈ t.broker) : envelope ∈ s.broker ∨ ∃ caller submitting,
      s.submits caller = some submitting ∧ submitting.next = .publish ∧ submitting.envelope = envelope := by
  cases step_effect stepped with
  | publish caller accepted confirmed failure submitting busy calls =>
    simp only [State.publish] at sent
    split at sent
    · rcases List.mem_append.mp sent with before | new
      · exact .inl before
      · exact .inr ⟨caller, submitting, busy, calls, (List.mem_singleton.mp new).symm⟩
    · exact .inl sent
  | create caller now fault submitting _ _ =>
    rw [(s.create_frame caller submitting now fault).broker] at sent
    exact .inl sent
  | mark caller _ fault submitting statement _ _ =>
    rw [(s.mark_frame caller submitting statement fault).broker] at sent
    exact .inl sent
  | store worker _ fault execution other statement snapshot _ _ _ _ =>
    rw [(s.store_frame worker execution.handling other.id statement snapshot fault).broker] at sent
    exact .inl sent
  | settle worker confirmed execution _ _ =>
    rw [(s.settle_frame worker execution.handling confirmed).broker] at sent
    exact .inl sent
  | _ => exact .inl sent

theorem step_answers (stepped : step validJSON s action = some t) {answer : Answer}
    (given : answer ∈ t.answers) : answer ∈ s.answers ∨ ∃ caller submitting,
      s.submits caller = some submitting ∧ answer = submitting.answer := by
  have appended {caller : Nat} {submitting : Submitting} (busy : s.submits caller = some submitting)
      (given : answer ∈ s.answers ++ [submitting.answer]) : answer ∈ s.answers ∨ ∃ caller submitting,
        s.submits caller = some submitting ∧ answer = submitting.answer := by
    rcases List.mem_append.mp given with before | new
    · exact .inl before
    · exact .inr ⟨caller, submitting, busy, List.mem_singleton.mp new⟩
  cases step_effect stepped with
  | create caller _ fault submitting busy _ =>
    cases fault with
    | some fault => cases fault <;> exact appended busy given
    | none =>
      simp only [State.create] at given
      split at given
      · exact .inl given
      · exact appended busy given
  | mark caller _ fault submitting _ busy _ =>
    cases fault with
    | none => exact appended busy given
    | some fault => cases fault <;> exact appended busy given
  | store worker _ fault execution envelope statement snapshot _ _ _ _ =>
    rw [(s.store_frame worker execution.handling envelope.id statement snapshot fault).answers] at given
    exact .inl given
  | settle worker sent execution _ _ =>
    rw [(s.settle_frame worker execution.handling sent).answers] at given
    exact .inl given
  | _ => exact .inl given

theorem step_log (stepped : step validJSON s action = some t) {entry : Str × Statement}
    (member : entry ∈ s.written) : entry ∈ t.written := by
  rcases step_writes stepped with ⟨_, log⟩ | ⟨id, statement, _, _, log⟩
  · rwa [log]
  · rw [log, State.write]
    dsimp only
    split
    · exact List.mem_append_left _ member
    · exact member

/-- The next call of a `submit` says what its `Publish` reported. -/
def Submitting.Consistent (submitting : Submitting) : Prop :=
  match submitting.next with
  | .createJob | .publish => submitting.confirmed = none
  | .markQueued => submitting.confirmed = some true
  | .markSubmissionFailed _ => submitting.confirmed = some false

theorem Submitting.published_consistent (submitting : Submitting) (confirmed : Bool) (failure : Str) :
    (submitting.published validJSON confirmed failure).Consistent := by
  simp only [Submitting.published]
  split
  · cases confirmed <;> rfl
  · rfl

theorem Submitting.Consistent.receipt {submitting : Submitting} (consistent : submitting.Consistent) :
    submitting.answer.receipt.isSome = true ↔ submitting.confirmed = some true := by
  simp only [Submitting.Consistent] at consistent
  simp only [Submitting.answer]
  cases next : submitting.next <;> rw [next] at consistent <;> simp [consistent]

/-- The job of the envelope was entered by a `CreateJob` of its own. -/
def Created (s : State) (envelope : Envelope) : Prop :=
  ∃ now, (envelope.id, .createJob envelope now) ∈ s.written

theorem Created.step {envelope : Envelope} (created : Created s envelope)
    (stepped : step validJSON s action = some t) : Created t envelope := by
  obtain ⟨now, member⟩ := created
  exact ⟨now, step_log stepped member⟩

structure Orderly (s : State) : Prop where
  logged : ∀ id statement, (id, statement) ∈ s.written → statement.Lasts (s.table id)
  consistent : ∀ caller submitting, s.submits caller = some submitting → submitting.Consistent
  created : ∀ caller submitting, s.submits caller = some submitting → submitting.next ≠ .createJob →
    Created s submitting.envelope
  sent : ∀ envelope ∈ s.broker, Created s envelope
  answered : ∀ answer ∈ s.answers, answer.receipt.isSome = true ↔ answer.submitting.confirmed = some true

theorem start_orderly (table : Table) : Orderly (.start table) where
  logged _ _ member := nomatch member
  consistent _ _ busy := nomatch busy
  created _ _ busy := nomatch busy
  sent _ member := nomatch member
  answered _ member := nomatch member

theorem step_orderly (orderly : Orderly s) (stepped : step validJSON s action = some t) : Orderly t where
  logged := step_logged orderly.logged stepped
  consistent := by
    intro caller submitting found
    cases step_submitMoved stepped found with
    | same _ busy => exact orderly.consistent caller submitting busy
    | called envelope => rfl
    | created before now busy calls wrote =>
      have unpublished := orderly.consistent caller before busy
      simp only [Submitting.Consistent, calls] at unpublished
      exact unpublished
    | published before confirmed failure busy calls => exact before.published_consistent confirmed failure
  created := by
    intro caller submitting found later
    cases step_submitMoved stepped found with
    | same _ busy => exact (orderly.created caller submitting busy later).step stepped
    | called envelope => exact absurd rfl later
    | created before now busy calls wrote => exact ⟨now, wrote⟩
    | published before confirmed failure busy calls =>
      have created := orderly.created caller before busy (by simp [calls])
      simp only [Submitting.published]
      split <;> exact created.step stepped
  sent := by
    intro envelope member
    rcases step_broker stepped member with before | ⟨caller, submitting, busy, calls, rfl⟩
    · exact (orderly.sent envelope before).step stepped
    · exact (orderly.created caller submitting busy (by simp [calls])).step stepped
  answered := by
    intro answer member
    rcases step_answers stepped member with before | ⟨caller, submitting, busy, rfl⟩
    · exact orderly.answered answer before
    · exact (orderly.consistent caller submitting busy).receipt

/-- The status write of `submit` finds no row of a job that a worker has prepared. -/
theorem mark_void {caller : Nat} {submitting : Submitting} {now : Time} {fault : Option Fault}
    (busy : s.submits caller = some submitting) (begun : Begun (s.table submitting.envelope.id))
    (stepped : step validJSON s (.mark caller now fault) = some t) :
    t.table = s.table ∧ t.written = s.written := by
  rcases step_writes stepped with same | ⟨id, statement, issued, wrote, log⟩
  · exact same
  · cases issued with
    | mark _ _ _ other _ there calls _ =>
      cases busy.symm.trans there
      obtain ⟨same, ignored⟩ := execute_submitted (Submitting.late_attempt calls) begun
      refine ⟨?_, by simp [log, State.write, ignored]⟩
      rw [wrote, Table.execute, same, Function.update_eq_self]

theorem mark_answers {caller : Nat} {submitting : Submitting} (consistent : submitting.Consistent)
    {confirmed : Bool} (busy : s.submits caller = some submitting)
    (reported : submitting.confirmed = some confirmed) (now : Time) (fault : Option Fault) :
    ∃ t, step validJSON s (.mark caller now fault) = some t ∧
      t.answers = s.answers ++ [submitting.answer] := by
  have late : ∃ statement, submitting.late now = some statement := by
    simp only [Submitting.Consistent] at consistent
    cases next : submitting.next <;> rw [next] at consistent <;>
      simp_all [Submitting.late]
  obtain ⟨statement, calls⟩ := late
  refine ⟨s.mark caller submitting statement fault, by simp [step, busy, calls], ?_⟩
  cases fault with
  | none => rfl
  | some fault => cases fault <;> rfl

/-- In every state of every run: a message in the broker has a row, which its own
`CreateJob` entered before; once a `PrepareAttempt` took effect on a job, its status is
none of those that `submit` writes and the late write of `submit` changes nothing; and a
`submit` that returns gives a receipt exactly when its `Publish` was confirmed, which it
does after every confirmed `Publish` that it lives to see. -/
theorem submission_is_orderly {table : Table} {actions : List Action}
    (path : run (step validJSON) (.start table) actions = some s) :
    (∀ envelope ∈ s.broker, (∃ row, s.table envelope.id = some row) ∧ Created s envelope) ∧
    (∀ id envelope attempt now, (id, .prepareAttempt envelope attempt now) ∈ s.written →
      (∃ row, s.table id = some row ∧
        row.status ≠ .publishing ∧ row.status ≠ .queued ∧ row.status ≠ .publishFailed) ∧
      ∀ caller submitting at_ fault t, s.submits caller = some submitting → submitting.envelope.id = id →
        step validJSON s (.mark caller at_ fault) = some t → t.table = s.table) ∧
    (∀ answer ∈ s.answers, answer.receipt.isSome = true ↔ answer.submitting.confirmed = some true) ∧
    ∀ caller submitting confirmed, s.submits caller = some submitting →
      submitting.confirmed = some confirmed → ∀ now fault, ∃ t answer,
        step validJSON s (.mark caller now fault) = some t ∧ t.answers = s.answers ++ [answer] ∧
        answer.submitting = submitting ∧ (answer.receipt.isSome = true ↔ confirmed = true) := by
  have orderly := run_invariant step_orderly path (start_orderly table)
  refine ⟨?_, ?_, orderly.answered, ?_⟩
  · intro envelope member
    obtain ⟨now, entered⟩ := orderly.sent envelope member
    exact ⟨orderly.logged _ _ entered, now, entered⟩
  · intro id envelope attempt now member
    have begun : Begun (s.table id) := orderly.logged _ _ member
    refine ⟨?_, ?_⟩
    · obtain ⟨row, found, status⟩ := begun
      refine ⟨row, found, ?_⟩
      cases left : row.status <;> rw [left] at status <;> first | contradiction | simp
    · rintro caller submitting at_ fault t busy rfl stepped
      exact (mark_void busy begun stepped).1
  · intro caller submitting confirmed busy reported now fault
    have consistent := orderly.consistent caller submitting busy
    obtain ⟨t, stepped, answers⟩ := mark_answers consistent busy reported now fault
    refine ⟨t, submitting.answer, stepped, answers, rfl, ?_⟩
    rw [consistent.receipt, reported, Option.some.injEq]

/-- The broker takes the message, the confirmation is lost, and a worker prepares the
job before `submit` marks it. -/
def unconfirmed : List Action :=
  [.submit 0 reportJob, .create 0 1000000 none, .publish 0 true false (lit "timeout"),
    .deliver 0 [] (some reportJob), .begin 0, .store 0 3000000 none]

theorem late_failure_spares_prepared_report :
    ∃ s t row answer, run (step emptyObject) (.start fun _ => none) unconfirmed = some s ∧
      reportJob ∈ s.broker ∧ s.table reportJob.id = some row ∧ row.status ≠ .publishing ∧
      step emptyObject s (.mark 0 4000000 none) = some t ∧ t.table = s.table ∧
      t.answers = s.answers ++ [answer] ∧ answer.receipt.isSome = false := by
  have ran : (run (step emptyObject) (.start fun _ => none) unconfirmed).map
      (fun s => (s.broker, s.submits 0, s.written)) =
      some ([reportJob], some ⟨reportJob, some false, .markSubmissionFailed (lit "timeout")⟩,
        [(reportJob.id, .createJob reportJob 1000000),
          (reportJob.id, .prepareAttempt reportJob 1 3000000)]) := by
    decide +kernel
  obtain ⟨s, path, known⟩ := Option.map_eq_some_iff.mp ran
  obtain ⟨broker, known⟩ := Prod.mk.inj known
  obtain ⟨busy, log⟩ := Prod.mk.inj known
  obtain ⟨_, prepared, _, answers⟩ := submission_is_orderly path
  obtain ⟨⟨row, found, status, _⟩, void⟩ :=
    prepared reportJob.id reportJob 1 3000000 (by rw [log]; simp)
  obtain ⟨t, answer, stepped, given, _, receipt⟩ := answers 0 _ false busy rfl 4000000 none
  exact ⟨s, t, row, answer, path, by rw [broker]; simp, found, status, stepped,
    void 0 _ 4000000 none t busy rfl stepped, given, by simpa using receipt⟩

end Pipeline
end EdgeGuard.Jobs
