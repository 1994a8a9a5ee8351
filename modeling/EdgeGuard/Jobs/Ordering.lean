import EdgeGuard.Jobs.Records

/-! The attempts of one job. No guard of a status statement names the attempt, so
two executions of one job write its row in any order. The writes follow the attempts
in every interleaving in which no write takes effect after a higher attempt was
prepared and no `Process` starts over a failed row. -/
namespace EdgeGuard.Jobs
open Go Transition

/-- How a statement comes to the attempt columns of the row it leaves. -/
inductive Attempted (statement : Statement) : Option JobRow → JobRow → Prop
  | kept (before after : JobRow) (attempt : after.currentAttempt = before.currentAttempt)
      (bound : after.maxAttempts = before.maxAttempts) : Attempted statement (some before) after
  | entered (after : JobRow) (first : after.currentAttempt = 0) : Attempted statement none after
  | set (row : Option JobRow) (after : JobRow) (attempt : Int)
      (carries : statement.attempt = some attempt)
      (sets : after.currentAttempt = min attempt after.maxAttempts)
      (bound : ∀ before, row = some before → after.maxAttempts = before.maxAttempts) :
      Attempted statement row after

theorem execute_attempted (statement : Statement) (row : Option JobRow) :
    ∀ after, (execute statement row).1 = some after → Attempted statement row after := by
  intro after left
  rcases execute_written statement row with same | ⟨_, wrote, _, written⟩
  · rw [same] at left
    subst left
    exact .kept after after rfl rfl
  · cases Option.some.inj (wrote.symm.trans left)
    cases written with
    | created envelope now => exact .entered _ rfl
    | first _ attempt _ => exact .set none _ attempt rfl rfl (by simp)
    | queued _ before _ | submissionFailed _ _ before _ => exact .kept before _ rfl rfl
    | next _ attempt _ _ _ | retrying attempt _ _ _ _ | succeeded attempt _ _ _ _
    | failed attempt _ _ _ _ =>
      refine .set _ _ attempt rfl rfl ?_
      rintro before ⟨⟩
      rfl

theorem execute_effective (statement : Statement) (row : Option JobRow) :
    (execute statement row).1 = row ∨ effective statement row = true := by
  have updated (guarded : Status → Bool) (change : JobRow → JobRow) :
      (update guarded change row).1 = row ∨ (update guarded change row).2.took = true := by
    cases row with
    | none => exact .inl rfl
    | some before =>
      rcases update_cases guarded change before with ⟨_, done⟩ | done | ⟨_, done⟩ <;> rw [done]
      · exact .inl rfl
      · exact .inl rfl
      · exact .inr rfl
  cases statement with
  | createJob envelope now =>
    cases row with
    | some before => exact .inl rfl
    | none =>
      simp only [execute, effective]
      split
      · exact .inl rfl
      · exact .inr rfl
  | prepareAttempt envelope attempt now =>
    simp only [execute, effective]
    have prepared := prepareAttempt_prepared envelope attempt now row row
    generalize prepareAttempt envelope attempt now row row = outcome at prepared ⊢
    cases prepared with
    | refused | stale _ _ _ => exact .inl rfl
    | inserted | updated _ _ _ => exact .inr rfl
  | markQueued _ | markSubmissionFailed _ _ | markRetrying _ _ _ | markSucceeded _ _ _ | markFailed _ _ _ =>
    exact updated _ _

theorem effective_guard {statement : Statement} {row : JobRow} (took : effective statement (some row) = true) :
    row.status.final = false ∨ ∃ attempt failure now, statement = .markFailed attempt failure now ∧
      row.status ≠ .succeeded := by
  have updated {guarded : Status → Bool} {change : JobRow → JobRow}
      (took : (update guarded change (some row)).2.took = true) : guarded row.status = true := by
    rcases update_cases guarded change row with ⟨_, done⟩ | done | ⟨passed, done⟩
    · rw [done] at took
      contradiction
    · rw [done] at took
      contradiction
    · exact passed
  cases statement with
  | createJob _ _ => contradiction
  | prepareAttempt envelope attempt now =>
    simp only [effective, execute] at took
    have prepared := prepareAttempt_prepared envelope attempt now (some row) (some row)
    generalize prepareAttempt envelope attempt now (some row) (some row) = outcome at prepared took
    cases prepared with
    | refused => contradiction
    | updated _ _ unfinished => exact .inl unfinished
    | stale _ _ final =>
      simp only [Reply.took, beq_iff_eq] at took
      rw [took] at final
      contradiction
  | markQueued _ | markSubmissionFailed _ _ =>
    have publishing : row.status = .publishing := by simpa using updated took
    rw [publishing]
    exact .inl rfl
  | markRetrying _ _ _ | markSucceeded _ _ _ => exact .inl (by simpa using updated took)
  | markFailed attempt failure now =>
    exact .inr ⟨attempt, failure, now, rfl, by simpa using updated took⟩

theorem succeeded_ineffective {statement : Statement} {row : JobRow} (succeeded : row.status = .succeeded) :
    effective statement (some row) = false := by
  by_contra took
  rcases effective_guard (Bool.not_eq_false _ ▸ took) with unfinished | ⟨_, _, _, _, unsuccessful⟩
  · rw [succeeded] at unfinished
    contradiction
  · exact unsuccessful succeeded

/-- Only `MarkFailed` makes a row failed. -/
theorem execute_failed {statement : Statement} {row : Option JobRow} {after : JobRow}
    (left : (execute statement row).1 = some after) (failed : after.status = .failed) :
    row = some after ∨ ∃ attempt failure now, statement = .markFailed attempt failure now := by
  rcases execute_written statement row with same | ⟨_, wrote, _, written⟩
  · exact .inl (same.symm.trans left)
  · cases Option.some.inj (wrote.symm.trans left)
    cases written with
    | failed attempt failure now _ _ => exact .inr ⟨attempt, failure, now, rfl⟩
    | created _ _ | first _ _ _ | next _ _ _ _ _ | queued _ _ _ | submissionFailed _ _ _ _
    | retrying _ _ _ _ _ | succeeded _ _ _ _ _ => contradiction

theorem markFailed_fails {attempt : Int} {failure : Str} {now : Time} {row : Option JobRow}
    (took : effective (.markFailed attempt failure now) row = true) :
    ∃ after, (execute (.markFailed attempt failure now) row).1 = some after ∧ after.status = .failed := by
  cases row with
  | none => contradiction
  | some before =>
    simp only [effective, execute] at took ⊢
    rcases update_cases (· != .succeeded) _ before with ⟨_, done⟩ | done | ⟨_, done⟩
    · rw [done] at took
      contradiction
    · rw [done] at took
      contradiction
    · exact ⟨_, by rw [done], rfl⟩

def Statement.prepares : Statement → Option Int
  | .prepareAttempt _ attempt _ => some attempt
  | _ => none

theorem after_works {reply : Reply} {next : Call} (goes : Call.after .prepareAttempt reply = some next)
    (works : next.works = true) : ∃ status, reply = .status status ∧ status.final = false := by
  cases reply with
  | status status =>
    cases goes
    refine ⟨status, rfl, ?_⟩
    cases status <;> first | rfl | contradiction
  | _ => contradiction

namespace Pipeline
variable {validJSON : Str → Bool} {s t : State} {action : Action}

/-- The attempts whose `PrepareAttempt` took effect on a job. -/
def State.prepared (s : State) (id : Str) : List Int :=
  (s.written.filter (·.1 == id)).filterMap (·.2.prepares)

/-- A write that takes effect carries no lower attempt than was prepared before it. -/
def Unsurpassed (s : State) (id : Str) (statement : Statement) : Prop :=
  effective statement (s.table id) = true →
    ∀ attempt ∈ statement.attempt, ∀ earlier ∈ s.prepared id, earlier ≤ attempt

instance (s : State) (id : Str) (statement : Statement) : Decidable (Unsurpassed s id statement) := by
  unfold Unsurpassed
  infer_instance

/-- A `PrepareAttempt` that locks a failed row reports a final status: its snapshot
shows one. -/
def Sighted (s : State) : Action → Prop
  | .store worker _ none => ∀ execution ∈ s.executions worker, ∀ envelope ∈ execution.handling.body,
      execution.handling.next = .prepareAttempt → ∀ row ∈ s.table envelope.id, row.status = .failed →
        ∀ old ∈ execution.snapshot.join, old.status.final = true
  | _ => True

instance (s : State) (action : Action) : Decidable (Sighted s action) := by
  unfold Sighted
  split <;> infer_instance

/-- What is asked of the statements of several executions of one job. -/
def Fenced (s : State) (action : Action) : Prop := Issuing Unsurpassed s action ∧ Sighted s action

instance (s : State) (action : Action) : Decidable (Fenced s action) := by
  unfold Fenced
  infer_instance

theorem mem_prepared {id : Str} {attempt : Int} :
    attempt ∈ s.prepared id ↔ ∃ statement, (id, statement) ∈ s.written ∧ statement.prepares = some attempt := by
  simp only [State.prepared, List.mem_filterMap, List.mem_filter, beq_iff_eq]
  constructor
  · rintro ⟨⟨_, statement⟩, ⟨member, rfl⟩, prepares⟩
    exact ⟨statement, member, prepares⟩
  · rintro ⟨statement, member, prepares⟩
    exact ⟨(id, statement), ⟨member, rfl⟩, prepares⟩

/-- A row is left alone, or written by a statement that the log gains. -/
theorem step_row (stepped : step validJSON s action = some t) (id : Str) :
    t.table id = s.table id ∨ ∃ statement, Issues s action id statement ∧
      effective statement (s.table id) = true ∧ t.table id = (execute statement (s.table id)).1 ∧
      t.written = s.written ++ [(id, statement)] := by
  rcases step_writes stepped with ⟨same, _⟩ | ⟨other, statement, issued, wrote, log⟩
  · exact .inl (by rw [same])
  · rw [wrote]
    by_cases here : id = other
    · subst here
      rw [Table.execute_self]
      refine (execute_effective statement (s.table id)).imp_right ?_
      intro took
      exact ⟨statement, issued, took, rfl, log.trans (if_pos took)⟩
    · exact .inl (Table.execute_other here)

theorem step_written_mono (stepped : step validJSON s action = some t) {entry : Str × Statement}
    (member : entry ∈ s.written) : entry ∈ t.written := by
  rcases step_gains stepped with same | ⟨_, _, _, _, more⟩
  · rwa [same]
  · rw [more]
    exact List.mem_append_left _ member

theorem step_prepared_mono (stepped : step validJSON s action = some t) {id : Str} {attempt : Int}
    (member : attempt ∈ s.prepared id) : attempt ∈ t.prepared id := by
  obtain ⟨statement, logged, prepares⟩ := mem_prepared.mp member
  exact mem_prepared.mpr ⟨statement, step_written_mono stepped logged, prepares⟩

theorem issues_attempt {id : Str} {statement : Statement} {attempt : Int}
    (issued : Issues s action id statement) (carries : statement.attempt = some attempt) :
    ∃ worker execution envelope, s.executions worker = some execution ∧
      execution.handling.body = some envelope ∧ envelope.id = id ∧ execution.handling.attempt = attempt ∧
      (statement.prepares = some attempt ∨ execution.handling.next.works = true) := by
  cases issued with
  | create _ _ _ _ _ _ _ => contradiction
  | mark _ _ _ _ _ _ calls _ =>
    rw [Submitting.late_attempt calls] at carries
    contradiction
  | store worker now fault execution envelope _ busy body calls _ =>
    refine ⟨worker, execution, envelope, busy, body, rfl, ?_⟩
    cases next : execution.handling.next with
    | prepareAttempt =>
      rw [next] at calls
      cases calls
      cases carries
      exact ⟨rfl, .inl rfl⟩
    | markSucceeded _ | markFailed _ | markRetrying _ =>
      rw [next] at calls
      cases calls
      cases carries
      exact ⟨rfl, .inr rfl⟩
    | process | ack | reject _ =>
      rw [next] at calls
      contradiction

/-- An earlier write of a job carries no larger attempt than a later one. -/
def InOrder (earlier later : Str × Statement) : Prop :=
  earlier.1 = later.1 → ∀ first second, earlier.2.attempt = some first →
    later.2.attempt = some second → first ≤ second

structure Following (s : State) : Prop where
  accepted : ∀ id row, s.table id = some row → row.accepted = true
  working : ∀ worker execution envelope, s.executions worker = some execution →
    execution.handling.body = some envelope → execution.handling.next.works = true →
    execution.handling.attempt ∈ s.prepared envelope.id ∨ s.table.Holds envelope.id .succeeded
  current : ∀ id row, s.table id = some row → row.currentAttempt = 0 ∨
    ∃ attempt ∈ s.prepared id, row.currentAttempt ≤ attempt
  logged : ∀ id statement attempt, (id, statement) ∈ s.written → statement.attempt = some attempt →
    attempt ∈ s.prepared id
  sorted : s.written.Pairwise InOrder
  marked : ∀ id attempt failure now, (id, .markFailed attempt failure now) ∈ s.written →
    s.table.Holds id .failed
  failed : ∀ id, s.table.Holds id .failed →
    ∃ attempt failure now, (id, .markFailed attempt failure now) ∈ s.written
  later : ∀ worker execution envelope, s.executions worker = some execution →
    execution.handling.body = some envelope → execution.handling.next.works = true →
    ∀ attempt failure now, (envelope.id, .markFailed attempt failure now) ∈ s.written →
      execution.handling.attempt ≤ attempt

theorem start_following : Following (.start fun _ => none) where
  accepted _ _ found := nomatch found
  working _ _ _ busy := nomatch busy
  current _ _ found := nomatch found
  logged _ _ _ member := nomatch member
  sorted := .nil
  marked _ _ _ _ member := nomatch member
  failed _ held := by
    obtain ⟨_, found, _⟩ := held
    contradiction
  later _ _ _ busy := nomatch busy

theorem Following.gains (following : Following s) (stepped : step validJSON s action = some t) {id : Str}
    {statement : Statement} (issued : Issues s action id statement)
    (took : effective statement (s.table id) = true) (more : t.written = s.written ++ [(id, statement)]) :
    ∀ attempt, statement.attempt = some attempt → attempt ∈ t.prepared id := by
  intro attempt carries
  obtain ⟨worker, execution, envelope, busy, body, rfl, rfl, prepares | works⟩ := issues_attempt issued carries
  · refine mem_prepared.mpr ⟨statement, ?_, prepares⟩
    rw [more]
    exact List.mem_append_right _ (List.mem_singleton.mpr rfl)
  · rcases following.working worker execution envelope busy body works with prepared | ⟨row, found, succeeded⟩
    · exact step_prepared_mono stepped prepared
    · rw [found, succeeded_ineffective succeeded] at took
      contradiction

/-- What a `PrepareAttempt` that starts the work found. -/
theorem Sighted.started {worker : Nat} {now : Time} {execution : Execution} {envelope : Envelope}
    {snapshot : Option JobRow} {next : Call} (sighted : Sighted s (.store worker now none))
    (busy : s.executions worker = some execution) (body : execution.handling.body = some envelope)
    (calls : execution.handling.next = .prepareAttempt) (viewed : execution.view = some snapshot)
    (goes : Call.after .prepareAttempt (prepareAttempt envelope execution.handling.attempt now snapshot
      (s.table envelope.id)).2 = some next) (works : next.works = true) :
    effective (.prepareAttempt envelope execution.handling.attempt now) (s.table envelope.id) = true ∨
      s.table.Holds envelope.id .succeeded := by
  simp only [Execution.view, calls] at viewed
  obtain ⟨status, replied, unfinished⟩ := after_works goes works
  rcases prepareAttempt_works replied unfinished with ⟨took, _⟩ | ⟨old, row, rfl, still, found, final⟩
  · exact .inl took
  · refine .inr ⟨row, found, ?_⟩
    have seen := sighted execution busy envelope body calls row found
    cases status : row.status with
    | succeeded => rfl
    | failed =>
      rw [seen status old (by rw [viewed]; rfl)] at still
      contradiction
    | publishing | publishFailed | queued | processing | retrying =>
      rw [status] at final
      contradiction

theorem step_at_work (sighted : Sighted s action) (stepped : step validJSON s action = some t) {worker : Nat}
    {execution : Execution} {envelope : Envelope} (found : t.executions worker = some execution)
    (body : execution.handling.body = some envelope) (works : execution.handling.next.works = true) :
    (∃ before, s.executions worker = some before ∧ before.handling.body = some envelope ∧
      before.handling.next.works = true ∧ before.handling.attempt = execution.handling.attempt) ∨
    s.table.Holds envelope.id .succeeded ∨
    ∃ now, effective (.prepareAttempt envelope execution.handling.attempt now) (s.table envelope.id) = true ∧
      t.written = s.written ++ [(envelope.id, .prepareAttempt envelope execution.handling.attempt now)] := by
  cases step_moved stepped found with
  | same _ busy _ => exact .inl ⟨execution, busy, body, works, rfl⟩
  | delivered headers received took =>
    rw [firstCall_works] at works
    contradiction
  | began before other took busy _ calls =>
    simp only [calls] at works
    contradiction
  | replied before other now statement snapshot next took busy known calls viewed goes wrote =>
    cases known.symm.trans body
    subst took
    cases call : before.handling.next with
    | prepareAttempt =>
      have ran := calls
      rw [call] at calls goes
      cases calls
      rcases sighted.started busy known call viewed goes works with took | succeeded
      · exact .inr (.inr ⟨now, took, store_written stepped busy known ran took⟩)
      · exact .inr (.inl succeeded)
    | markSucceeded _ | markFailed _ | markRetrying _ =>
      rw [call] at goes
      cases replied : replyIn snapshot statement (s.table envelope.id) with
      | id =>
        rw [replied] at goes
        cases goes
        contradiction
      | noRows | status _ | refused =>
        rw [replied] at goes
        contradiction
    | process | ack | reject _ =>
      rw [call] at calls
      contradiction
  | processed before other outcome took busy known calls =>
    exact .inl ⟨before, busy, body, by rw [calls]; rfl, rfl⟩

theorem step_working (following : Following s) (sighted : Sighted s action)
    (stepped : step validJSON s action = some t) {worker : Nat} {execution : Execution} {envelope : Envelope}
    (found : t.executions worker = some execution) (body : execution.handling.body = some envelope)
    (works : execution.handling.next.works = true) :
    execution.handling.attempt ∈ t.prepared envelope.id ∨ t.table.Holds envelope.id .succeeded := by
  have kept (succeeded : s.table.Holds envelope.id .succeeded) : t.table.Holds envelope.id .succeeded :=
    (step_kept stepped).holds rfl succeeded
  rcases step_at_work sighted stepped found body works with
    ⟨before, busy, known, working, attempt⟩ | succeeded | ⟨now, _, more⟩
  · rw [← attempt]
    exact (following.working worker before envelope busy known working).imp (step_prepared_mono stepped) kept
  · exact .inr (kept succeeded)
  · refine .inl (mem_prepared.mpr ⟨.prepareAttempt envelope execution.handling.attempt now, ?_, rfl⟩)
    rw [more]
    exact List.mem_append_right _ (List.mem_singleton.mpr rfl)

theorem step_current (following : Following s) (stepped : step validJSON s action = some t) {id : Str}
    {row : JobRow} (found : t.table id = some row) :
    row.currentAttempt = 0 ∨ ∃ attempt ∈ t.prepared id, row.currentAttempt ≤ attempt := by
  have earlier {before : JobRow} (there : s.table id = some before) :
      before.currentAttempt = 0 ∨ ∃ attempt ∈ t.prepared id, before.currentAttempt ≤ attempt := by
    refine (following.current id before there).imp_right ?_
    rintro ⟨attempt, member, below⟩
    exact ⟨attempt, step_prepared_mono stepped member, below⟩
  rcases step_row stepped id with same | ⟨statement, issued, took, wrote, more⟩
  · exact earlier (same ▸ found)
  · have prepared := following.gains stepped issued took more
    rw [wrote] at found
    generalize hrow : s.table id = before at found
    cases execute_attempted statement before row found with
    | kept _ _ same _ => exact same ▸ earlier hrow
    | entered _ first => exact .inl first
    | set _ _ attempt carries sets _ => exact .inr ⟨attempt, prepared attempt carries, sets ▸ min_le_left _ _⟩

theorem step_carried (following : Following s) (stepped : step validJSON s action = some t) {id : Str}
    {statement : Statement} {attempt : Int} (member : (id, statement) ∈ t.written)
    (carries : statement.attempt = some attempt) : attempt ∈ t.prepared id := by
  rcases step_gains stepped with same | ⟨other, wrote, issued, took, more⟩
  · exact step_prepared_mono stepped (following.logged id statement attempt (same ▸ member) carries)
  · have prepared := following.gains stepped issued took more
    rw [more, List.mem_append, List.mem_singleton] at member
    rcases member with member | ⟨⟨⟩⟩
    · exact step_prepared_mono stepped (following.logged id statement attempt member carries)
    · exact prepared attempt carries

theorem step_sorted (following : Following s) (unsurpassed : Issuing Unsurpassed s action)
    (stepped : step validJSON s action = some t) : t.written.Pairwise InOrder := by
  rcases step_gains stepped with same | ⟨other, wrote, issued, took, more⟩
  · rw [same]
    exact following.sorted
  · rw [more, List.pairwise_append]
    refine ⟨following.sorted, List.pairwise_singleton _ _, ?_⟩
    rintro ⟨id, statement⟩ earlier later last same first second carried carries
    rw [List.mem_singleton.mp last] at same carries
    cases same
    exact unsurpassed _ wrote issued took second carries first (following.logged _ statement first earlier carried)

theorem step_marked (following : Following s) (stepped : step validJSON s action = some t) {id : Str}
    {attempt : Int} {failure : Str} {now : Time} (member : (id, .markFailed attempt failure now) ∈ t.written) :
    t.table.Holds id .failed := by
  have kept (failed : s.table.Holds id .failed) : t.table.Holds id .failed :=
    (step_kept stepped).holds rfl failed
  rcases step_writes stepped with ⟨_, log⟩ | ⟨other, statement, issued, wrote, log⟩
  · exact kept (following.marked id attempt failure now (log ▸ member))
  · rw [log, State.write] at member
    dsimp only at member
    split at member
    · rename_i took
      rw [List.mem_append, List.mem_singleton] at member
      rcases member with member | ⟨⟨⟩⟩
      · exact kept (following.marked id attempt failure now member)
      · rw [Table.Holds, wrote, Table.execute_self]
        exact markFailed_fails took
    · exact kept (following.marked id attempt failure now member)

theorem step_failed (following : Following s) (stepped : step validJSON s action = some t) {id : Str}
    (failed : t.table.Holds id .failed) :
    ∃ attempt failure now, (id, .markFailed attempt failure now) ∈ t.written := by
  have earlier (failed : s.table.Holds id .failed) :
      ∃ attempt failure now, (id, .markFailed attempt failure now) ∈ t.written := by
    obtain ⟨attempt, failure, now, member⟩ := following.failed id failed
    exact ⟨attempt, failure, now, step_written_mono stepped member⟩
  obtain ⟨row, found, status⟩ := failed
  rcases step_row stepped id with same | ⟨statement, _, _, wrote, more⟩
  · exact earlier ⟨row, same ▸ found, status⟩
  · rcases execute_failed (wrote ▸ found) status with same | ⟨attempt, failure, now, rfl⟩
    · exact earlier ⟨row, same, status⟩
    · refine ⟨attempt, failure, now, ?_⟩
      rw [more]
      exact List.mem_append_right _ (List.mem_singleton.mpr rfl)

theorem step_later (following : Following s) (fenced : Fenced s action)
    (stepped : step validJSON s action = some t) {worker : Nat} {execution : Execution} {envelope : Envelope}
    (found : t.executions worker = some execution) (body : execution.handling.body = some envelope)
    (works : execution.handling.next.works = true) {attempt : Int} {failure : Str} {now : Time}
    (member : (envelope.id, .markFailed attempt failure now) ∈ t.written) :
    execution.handling.attempt ≤ attempt := by
  have failed := step_marked following stepped member
  rcases step_at_work fenced.2 stepped found body works with
    ⟨before, busy, known, working, same⟩ | succeeded | ⟨time, took, more⟩
  · rw [← same]
    rcases step_gains stepped with unchanged | ⟨other, statement, issued, took, more⟩
    · exact following.later worker before envelope busy known working attempt failure now (unchanged ▸ member)
    · rw [more, List.mem_append, List.mem_singleton] at member
      rcases member with member | ⟨⟨⟩⟩
      · exact following.later worker before envelope busy known working attempt failure now member
      · rcases following.working worker before envelope busy known working with prepared | ⟨row, there, succeeded⟩
        · exact fenced.1 _ _ issued took attempt rfl _ prepared
        · rw [there, succeeded_ineffective succeeded] at took
          contradiction
  · exact nomatch failed.unique ((step_kept stepped).holds rfl succeeded)
  · -- a `PrepareAttempt` has no effect on the row that a logged failure has left
    rw [more, List.mem_append, List.mem_singleton] at member
    rcases member with member | ⟨⟨⟩⟩
    obtain ⟨row, there, status⟩ := following.marked _ attempt failure now member
    rw [there] at took
    rcases effective_guard took with unfinished | ⟨_, _, _, other, _⟩
    · rw [status] at unfinished
      contradiction
    · contradiction

theorem step_following (fenced : Fenced s action) (following : Following s)
    (stepped : step validJSON s action = some t) : Following t where
  accepted := step_accepted following.accepted stepped
  working _ _ _ found body works := step_working following fenced.2 stepped found body works
  current _ _ found := step_current following stepped found
  logged _ _ _ member carries := step_carried following stepped member carries
  sorted := step_sorted following fenced.1 stepped
  marked _ _ _ _ member := step_marked following stepped member
  failed _ failed := step_failed following stepped failed
  later _ _ _ found body works _ _ _ member := step_later following fenced stepped found body works member

theorem step_attempt_le (following : Following s) (unsurpassed : Issuing Unsurpassed s action)
    (stepped : step validJSON s action = some t) {id : Str} {row : JobRow} (found : s.table id = some row) :
    ∃ after, t.table id = some after ∧ row.currentAttempt ≤ after.currentAttempt := by
  rcases step_row stepped id with same | ⟨statement, issued, took, wrote, _⟩
  · exact ⟨row, same ▸ found, Int.le_refl _⟩
  · obtain ⟨after, left, _⟩ := execute_succeeds statement (s.table id) row found
    have reached : t.table id = some after := wrote.trans left
    refine ⟨after, reached, ?_⟩
    rw [found] at left
    have range := JobRow.accepted_attempts (following.accepted id row found)
    have later := JobRow.accepted_attempts (step_accepted following.accepted stepped id after reached)
    cases execute_attempted statement (some row) after left with
    | kept _ _ same _ => omega
    | set _ _ attempt carries sets bound =>
      have bound := bound row rfl
      rcases following.current id row found with zero | ⟨earlier, member, below⟩
      · omega
      · have above := unsurpassed id statement issued took attempt carries earlier member
        omega

theorem Following.run_attempt_le (start : Following s) {later : List Action}
    (continues : run (step validJSON) s later = some t) (condition : Along (step validJSON) Fenced s later)
    {id : Str} {row : JobRow} (found : s.table id = some row) :
    ∃ after, t.table id = some after ∧ row.currentAttempt ≤ after.currentAttempt := by
  refine (run_invariant_along (P := fun u => Following u ∧
    ∃ after, u.table id = some after ∧ row.currentAttempt ≤ after.currentAttempt) ?_ continues condition
    ⟨start, row, found, Int.le_refl _⟩).2
  rintro u v action met ⟨before, after, there, below⟩ stepped
  refine ⟨step_following met before stepped, ?_⟩
  obtain ⟨next, reached, above⟩ := step_attempt_le before met.1 stepped there
  exact ⟨next, reached, Int.le_trans below above⟩

theorem run_holds {later : List Action} (continues : run (step validJSON) s later = some t) {id : Str}
    {status : Status} (final : status.final = true) (held : s.table.Holds id status) :
    t.table.Holds id status :=
  run_invariant (P := fun u => u.table.Holds id status)
    (fun before stepped => (step_kept stepped).holds final before) continues held

/-- The status write of a success ends the job, if it was not ended before. -/
theorem success_ends (accepted : ∀ id row, s.table id = some row → row.accepted = true) (staged : Staged s)
    (admitted : Admitted s) {worker : Nat} {execution : Execution} {envelope : Envelope}
    {result : ExecutionResult} (busy : s.executions worker = some execution)
    (body : execution.handling.body = some envelope)
    (calls : execution.handling.next = .markSucceeded result) {now : Time}
    (storable : (Statement.markSucceeded execution.handling.attempt result now).storable = true) :
    ∃ t, step validJSON s (.store worker now none) = some t ∧ (t.table.Holds envelope.id .succeeded ∨
      s.table.Holds envelope.id .failed ∧ t.table.Holds envelope.id .failed) := by
  have works : execution.handling.next.works = true := by
    rw [calls]
    rfl
  have stepped : step validJSON s (.store worker now none) = some (s.store worker execution.handling
      envelope.id (.markSucceeded execution.handling.attempt result now) none none) := by
    simp [step, busy, body, calls, Call.statement, Execution.view]
  refine ⟨_, stepped, ?_⟩
  obtain ⟨row, found, begun⟩ := staged worker execution envelope busy body works
  have kept {status : Status} (final : status.final = true) (same : row.status = status) :=
    (step_kept stepped).holds final ⟨row, found, same⟩
  cases status : row.status with
  | succeeded => exact .inl (kept rfl status)
  | failed => exact .inr ⟨⟨row, found, status⟩, kept rfl status⟩
  | publishing | publishFailed | queued =>
    rw [status] at begun
    contradiction
  | processing | retrying =>
    have replied := execute_marks rfl (accepted _ row found) rfl (admitted worker execution busy works) storable
    simp only [Statement.passes, status, Status.final, Bool.not_false, if_true] at replied
    have wrote : ∃ after, (execute (.markSucceeded execution.handling.attempt result now) (some row)).1 =
        some after ∧ after.status = .succeeded := by
      obtain ⟨before, left⟩ := update_id replied
      exact ⟨_, left, rfl⟩
    rw [Table.Holds, State.store_table, Table.execute_self, found]
    exact .inl wrote

/-- Both executions have called `Process`, and the older one has failed for good. -/
def processedTwice : List Action :=
  preparedTwice ++ [.process 0 (.failed true (lit "blocked address")),
    .process 1 (.done ⟨lit "report generated", [], 0⟩)]

def fails : Statement → Bool
  | .markFailed _ _ _ => true
  | _ => false

end Pipeline
end EdgeGuard.Jobs
