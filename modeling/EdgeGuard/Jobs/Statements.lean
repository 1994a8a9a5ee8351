import EdgeGuard.Postgres

/-! The status statements on one row of `background_jobs`. A statement either
finds its guard satisfied and changes the row, or leaves it alone; a final status
is never left again. -/
namespace EdgeGuard.Jobs
open Go Postgres

inductive Status where
  | publishing | publishFailed | queued | processing | retrying | succeeded | failed
  deriving DecidableEq, Repr

def Status.final : Status → Bool
  | .succeeded | .failed => true
  | _ => false

def schemaVersion : Int := 1

def jobTypes : List Str :=
  [lit "jobs.webhook.deliver", lit "jobs.report.generate", lit "jobs.cleanup.expired_tokens"]

structure Envelope where
  schemaVersion : Int
  id : Str
  type : Str
  createdAt : Time
  attempt : Int
  maxAttempts : Int
  payload : Str
  deriving DecidableEq, Repr

inductive EnvelopeError where
  | invalidID | invalidType | invalidCreatedAt | invalidAttempt | invalidMaxAttempts | invalidPayload
  deriving DecidableEq, Repr

/-- `Envelope.Validate`, over `json.Valid`. -/
def Envelope.validate (validJSON : Str → Bool) (e : Envelope) : Except EnvelopeError Unit :=
  if e.schemaVersion ≠ Jobs.schemaVersion then .error .invalidPayload
  else if trimSpace e.id = [] then .error .invalidID
  else if e.type ∉ jobTypes then .error .invalidType
  else if e.createdAt = zeroTime then .error .invalidCreatedAt
  else if e.attempt < 1 then .error .invalidAttempt
  else if e.maxAttempts < e.attempt then .error .invalidMaxAttempts
  else if e.payload = [] ∨ validJSON e.payload = false then .error .invalidPayload
  else .ok ()

theorem validate_ok_iff {validJSON : Str → Bool} {e : Envelope} :
    e.validate validJSON = .ok () ↔
      e.schemaVersion = schemaVersion ∧ trimSpace e.id ≠ [] ∧ e.type ∈ jobTypes ∧
        e.createdAt ≠ zeroTime ∧ 1 ≤ e.attempt ∧ e.attempt ≤ e.maxAttempts ∧
        e.payload ≠ [] ∧ validJSON e.payload = true := by
  simp only [Envelope.validate, check_ok_iff, not_not, not_or, not_lt, Bool.not_eq_false, and_true, ne_eq]

theorem validate_maxAttempts {validJSON : Str → Bool} {e : Envelope}
    (valid : e.validate validJSON = .ok ()) : 1 ≤ e.maxAttempts := by
  obtain ⟨_, _, _, _, attempt, maximum, _⟩ := validate_ok_iff.mp valid
  omega

structure JobRow where
  type : Str
  status : Status
  currentAttempt : Int
  maxAttempts : Int
  createdAt : Time
  queuedAt : Option Time
  startedAt : Option Time
  completedAt : Option Time
  updatedAt : Time
  lastError : Str
  resultMessage : Str
  outputPath : Str
  affectedRows : Int
  deriving DecidableEq, Repr

structure ExecutionResult where
  message : Str
  outputPath : Str
  affectedRows : Int
  deriving DecidableEq, Repr

def normalizeFailureMessage (value : Str) : Str := trimSpace value

/-- The column types and `background_jobs_attempt_check`. -/
def JobRow.accepted (row : JobRow) : Bool :=
  textOk row.type && textOk row.lastError && textOk row.resultMessage && textOk row.outputPath &&
    int4Ok row.currentAttempt && int4Ok row.maxAttempts && int8Ok row.affectedRows &&
    0 ≤ row.currentAttempt && 1 ≤ row.maxAttempts && row.currentAttempt ≤ row.maxAttempts

/-- A statement on the row of one job, with the clock reading it is given. -/
inductive Statement where
  | createJob (envelope : Envelope) (now : Time)
  | markQueued (now : Time)
  | markSubmissionFailed (failure : Str) (now : Time)
  | prepareAttempt (envelope : Envelope) (attempt : Int) (now : Time)
  | markRetrying (attempt : Int) (failure : Str) (now : Time)
  | markSucceeded (attempt : Int) (result : ExecutionResult) (now : Time)
  | markFailed (attempt : Int) (failure : Str) (now : Time)
  deriving DecidableEq, Repr

/-- What the database answers: the identifier of the row that was written, no
row, the status that `PrepareAttempt` scans, or an error. -/
inductive Reply where
  | id
  | noRows
  | status (value : Status)
  | refused
  deriving DecidableEq, Repr

/-- `UPDATE .. WHERE id = $1 AND guard RETURNING id`. -/
def update (guarded : Status → Bool) (change : JobRow → JobRow) : Option JobRow → Option JobRow × Reply
  | none => (none, .noRows)
  | some row =>
    if guarded row.status = false then (some row, .noRows)
    else if (change row).accepted = false then (some row, .refused)
    else (some (change row), .id)

/-- `NewPublishingJob` inserted by `createJobQuery`. -/
def publishingRow (envelope : Envelope) (now : Time) : JobRow where
  type := envelope.type
  status := .publishing
  currentAttempt := 0
  maxAttempts := envelope.maxAttempts
  createdAt := timestamp envelope.createdAt
  queuedAt := none
  startedAt := none
  completedAt := none
  updatedAt := timestamp now
  lastError := []
  resultMessage := []
  outputPath := []
  affectedRows := 0

/-- The `VALUES` of `prepareAttemptQuery`. -/
def firstAttemptRow (envelope : Envelope) (attempt : Int) (now : Time) : JobRow :=
  { publishingRow envelope now with
    status := .processing
    currentAttempt := min attempt envelope.maxAttempts
    startedAt := some (timestamp now) }

/-- Its `DO UPDATE SET`. -/
def nextAttemptRow (attempt : Int) (now : Time) (row : JobRow) : JobRow :=
  { row with
    status := .processing
    currentAttempt := min attempt row.maxAttempts
    startedAt := row.startedAt.or (some (timestamp now))
    updatedAt := timestamp now
    lastError := [] }

/-- What the proposed row of `prepareAttemptQuery` has to pass, before a conflict
is looked for. -/
def proposable (envelope : Envelope) (attempt : Int) (now : Time) : Bool :=
  textOk envelope.id && int4Ok attempt && (firstAttemptRow envelope attempt now).accepted

/-- `prepareAttemptQuery`. The conflict clause sees the locked row, the second
branch of the union the statement's snapshot. -/
def prepareAttempt (envelope : Envelope) (attempt : Int) (now : Time) (snapshot locked : Option JobRow) :
    Option JobRow × Reply :=
  if proposable envelope attempt now = false then (locked, .refused)
  else match locked with
    | none => (some (firstAttemptRow envelope attempt now), .status .processing)
    | some row =>
      if row.status.final = false then
        let next := nextAttemptRow attempt now row
        if next.accepted = false then (some row, .refused) else (some next, .status next.status)
      else match snapshot with
        | none => (some row, .noRows)
        | some old => (some row, .status old.status)

def execute : Statement → Option JobRow → Option JobRow × Reply
  | .createJob envelope now, row => match row with
    | some row => (some row, .refused)
    | none =>
      if textOk envelope.id = false ∨ (publishingRow envelope now).accepted = false then (none, .refused)
      else (some (publishingRow envelope now), .id)
  | .markQueued now, row => update (· == .publishing) (fun row =>
      { row with status := .queued, queuedAt := row.queuedAt.or (some (timestamp now)),
                 updatedAt := timestamp now, lastError := [] }) row
  | .markSubmissionFailed failure now, row => update (· == .publishing) (fun row =>
      { row with status := .publishFailed, completedAt := some (timestamp now),
                 updatedAt := timestamp now, lastError := normalizeFailureMessage failure }) row
  | .prepareAttempt envelope attempt now, row => prepareAttempt envelope attempt now row row
  | .markRetrying attempt failure now, row => update (fun status => !status.final) (fun row =>
      { row with status := .retrying, currentAttempt := min attempt row.maxAttempts,
                 updatedAt := timestamp now, lastError := normalizeFailureMessage failure }) row
  | .markSucceeded attempt result now, row => update (fun status => !status.final) (fun row =>
      { row with status := .succeeded, currentAttempt := min attempt row.maxAttempts,
                 completedAt := some (timestamp now), updatedAt := timestamp now, lastError := [],
                 resultMessage := result.message, outputPath := result.outputPath,
                 affectedRows := result.affectedRows }) row
  | .markFailed attempt failure now, row => update (· != .succeeded) (fun row =>
      { row with status := .failed, currentAttempt := min attempt row.maxAttempts,
                 completedAt := some (timestamp now), updatedAt := timestamp now,
                 lastError := normalizeFailureMessage failure }) row

/-- The row still is there later, with the same status if that was final. -/
def Succeeds (before after : Option JobRow) : Prop :=
  ∀ row, before = some row →
    ∃ next, after = some next ∧ (row.status.final = true → next.status = row.status)

theorem Succeeds.refl (row : Option JobRow) : Succeeds row row :=
  fun row found => ⟨row, found, fun _ => rfl⟩

theorem Succeeds.trans {first middle last : Option JobRow} (earlier : Succeeds first middle)
    (later : Succeeds middle last) : Succeeds first last := by
  intro row found
  obtain ⟨between, found, same⟩ := earlier row found
  obtain ⟨next, found, still⟩ := later between found
  refine ⟨next, found, fun final => ?_⟩
  rw [still (by rwa [same final]), same final]

theorem update_cases (guarded : Status → Bool) (change : JobRow → JobRow) (row : JobRow) :
    (guarded row.status = false ∧ update guarded change (some row) = (some row, .noRows)) ∨
    update guarded change (some row) = (some row, .refused) ∨
    (guarded row.status = true ∧ update guarded change (some row) = (some (change row), .id)) := by
  by_cases passed : guarded row.status = false
  · exact .inl ⟨passed, by simp [update, passed]⟩
  · rw [Bool.not_eq_false] at passed
    by_cases accepted : (change row).accepted = false
    · exact .inr (.inl (by simp [update, passed, accepted]))
    · exact .inr (.inr ⟨passed, by simp [update, passed, accepted]⟩)

/-- Everything `PrepareAttempt` can do, over its two views of the row. -/
inductive Prepared (envelope : Envelope) (attempt : Int) (now : Time) :
    Option JobRow → Option JobRow → Option JobRow × Reply → Prop
  | refused (snapshot locked : Option JobRow) :
      Prepared envelope attempt now snapshot locked (locked, .refused)
  | inserted (snapshot : Option JobRow) : Prepared envelope attempt now snapshot none
      (some (firstAttemptRow envelope attempt now), .status .processing)
  | updated (snapshot : Option JobRow) (row : JobRow) (unfinished : row.status.final = false) :
      Prepared envelope attempt now snapshot (some row)
        (some (nextAttemptRow attempt now row), .status .processing)
  | unseen (row : JobRow) (final : row.status.final = true) :
      Prepared envelope attempt now none (some row) (some row, .noRows)
  | stale (old row : JobRow) (final : row.status.final = true) :
      Prepared envelope attempt now (some old) (some row) (some row, .status old.status)

theorem prepareAttempt_prepared (envelope : Envelope) (attempt : Int) (now : Time)
    (snapshot locked : Option JobRow) : Prepared envelope attempt now snapshot locked
      (prepareAttempt envelope attempt now snapshot locked) := by
  unfold prepareAttempt
  split
  · exact .refused snapshot locked
  · cases locked with
    | none => exact .inserted snapshot
    | some row =>
      dsimp only
      split
      · rename_i unfinished
        split
        · exact .refused snapshot (some row)
        · exact .updated snapshot row unfinished
      · rename_i final
        rw [Bool.not_eq_false] at final
        cases snapshot with
        | none => exact .unseen row final
        | some old => exact .stale old row final

theorem update_written (guarded : Status → Bool) (change : JobRow → JobRow) (row : Option JobRow) :
    (update guarded change row).1 = row ∨ ∃ before, row = some before ∧ guarded before.status = true ∧
      (change before).accepted = true ∧ (update guarded change row).1 = some (change before) := by
  cases row with
  | none => exact .inl rfl
  | some row =>
    by_cases passed : guarded row.status = false
    · exact .inl (by simp [update, passed])
    · by_cases accepted : (change row).accepted = false
      · exact .inl (by simp [update, passed, accepted])
      · rw [Bool.not_eq_false] at passed accepted
        exact .inr ⟨row, rfl, passed, accepted, by simp [update, passed, accepted]⟩

theorem prepareAttempt_written (envelope : Envelope) (attempt : Int) (now : Time) (row : Option JobRow) :
    (execute (.prepareAttempt envelope attempt now) row).1 = row ∨
    (row = none ∧ (firstAttemptRow envelope attempt now).accepted = true ∧
      (execute (.prepareAttempt envelope attempt now) row).1 = some (firstAttemptRow envelope attempt now)) ∨
    ∃ before, row = some before ∧ before.status.final = false ∧
      (nextAttemptRow attempt now before).accepted = true ∧
      (execute (.prepareAttempt envelope attempt now) row).1 = some (nextAttemptRow attempt now before) := by
  simp only [execute, prepareAttempt]
  by_cases proposed : proposable envelope attempt now = false
  · exact .inl (by simp [proposed])
  · have fits : (firstAttemptRow envelope attempt now).accepted = true := by
      simp only [proposable, Bool.and_eq_true, Bool.not_eq_false] at proposed
      exact proposed.2
    cases row with
    | none => exact .inr (.inl ⟨rfl, fits, by simp [proposed]⟩)
    | some row =>
      by_cases unfinished : row.status.final = false
      · by_cases accepted : (nextAttemptRow attempt now row).accepted = false
        · exact .inl (by simp [proposed, unfinished, accepted])
        · rw [Bool.not_eq_false] at accepted
          exact .inr (.inr ⟨row, rfl, unfinished, accepted, by simp [proposed, unfinished, accepted]⟩)
      · exact .inl (by simp [proposed, unfinished])

/-- Everything a statement writes, with the guard that the row met. -/
inductive Written : Statement → Option JobRow → JobRow → Prop
  | created (envelope : Envelope) (now : Time) :
      Written (.createJob envelope now) none (publishingRow envelope now)
  | first (envelope : Envelope) (attempt : Int) (now : Time) :
      Written (.prepareAttempt envelope attempt now) none (firstAttemptRow envelope attempt now)
  | next (envelope : Envelope) (attempt : Int) (now : Time) (row : JobRow)
      (unfinished : row.status.final = false) :
      Written (.prepareAttempt envelope attempt now) (some row) (nextAttemptRow attempt now row)
  | queued (now : Time) (row : JobRow) (publishing : row.status = .publishing) :
      Written (.markQueued now) (some row)
        { row with status := .queued, queuedAt := row.queuedAt.or (some (timestamp now)),
                   updatedAt := timestamp now, lastError := [] }
  | submissionFailed (failure : Str) (now : Time) (row : JobRow)
      (publishing : row.status = .publishing) : Written (.markSubmissionFailed failure now) (some row)
        { row with status := .publishFailed, completedAt := some (timestamp now),
                   updatedAt := timestamp now, lastError := normalizeFailureMessage failure }
  | retrying (attempt : Int) (failure : Str) (now : Time) (row : JobRow)
      (unfinished : row.status.final = false) : Written (.markRetrying attempt failure now) (some row)
        { row with status := .retrying, currentAttempt := min attempt row.maxAttempts,
                   updatedAt := timestamp now, lastError := normalizeFailureMessage failure }
  | succeeded (attempt : Int) (result : ExecutionResult) (now : Time) (row : JobRow)
      (unfinished : row.status.final = false) : Written (.markSucceeded attempt result now) (some row)
        { row with status := .succeeded, currentAttempt := min attempt row.maxAttempts,
                   completedAt := some (timestamp now), updatedAt := timestamp now, lastError := [],
                   resultMessage := result.message, outputPath := result.outputPath,
                   affectedRows := result.affectedRows }
  | failed (attempt : Int) (failure : Str) (now : Time) (row : JobRow)
      (unsuccessful : row.status ≠ .succeeded) : Written (.markFailed attempt failure now) (some row)
        { row with status := .failed, currentAttempt := min attempt row.maxAttempts,
                   completedAt := some (timestamp now), updatedAt := timestamp now,
                   lastError := normalizeFailureMessage failure }

theorem execute_written (statement : Statement) (row : Option JobRow) :
    (execute statement row).1 = row ∨ ∃ after, (execute statement row).1 = some after ∧
      after.accepted = true ∧ Written statement row after := by
  have updated {guarded : Status → Bool} {change : JobRow → JobRow}
      (writes : ∀ before, row = some before → guarded before.status = true →
        Written statement row (change before)) :
      (update guarded change row).1 = row ∨ ∃ after, (update guarded change row).1 = some after ∧
        after.accepted = true ∧ Written statement row after := by
    rcases update_written guarded change row with same | ⟨before, found, passed, accepted, wrote⟩
    · exact .inl same
    · exact .inr ⟨change before, wrote, accepted, writes before found passed⟩
  cases statement with
  | createJob envelope now =>
    cases row with
    | some before => exact .inl rfl
    | none =>
      simp only [execute]
      split
      · exact .inl rfl
      · rename_i checked
        simp only [not_or, Bool.not_eq_false] at checked
        exact .inr ⟨_, rfl, checked.2, .created envelope now⟩
  | prepareAttempt envelope attempt now =>
    rcases prepareAttempt_written envelope attempt now row with
      same | ⟨rfl, accepted, wrote⟩ | ⟨before, rfl, unfinished, accepted, wrote⟩
    · exact .inl same
    · exact .inr ⟨_, wrote, accepted, .first envelope attempt now⟩
    · exact .inr ⟨_, wrote, accepted, .next envelope attempt now before unfinished⟩
  | markQueued now =>
    apply updated
    rintro before rfl passed
    exact .queued now before (beq_iff_eq.mp passed)
  | markSubmissionFailed failure now =>
    apply updated
    rintro before rfl passed
    exact .submissionFailed failure now before (beq_iff_eq.mp passed)
  | markRetrying attempt failure now =>
    apply updated
    rintro before rfl passed
    exact .retrying attempt failure now before (by simpa using passed)
  | markSucceeded attempt result now =>
    apply updated
    rintro before rfl passed
    exact .succeeded attempt result now before (by simpa using passed)
  | markFailed attempt failure now =>
    apply updated
    rintro before rfl passed
    exact .failed attempt failure now before (by simpa using passed)

theorem execute_succeeds (statement : Statement) (row : Option JobRow) :
    Succeeds row (execute statement row).1 := by
  rcases execute_written statement row with same | ⟨after, wrote, _, written⟩
  · rw [same]
    exact .refl row
  · rw [wrote]
    rintro before rfl
    refine ⟨after, rfl, ?_⟩
    intro final
    cases written with
    | next _ _ _ _ unfinished | retrying _ _ _ _ unfinished | succeeded _ _ _ _ unfinished =>
      rw [unfinished] at final
      contradiction
    | queued _ _ publishing | submissionFailed _ _ _ publishing =>
      rw [publishing] at final
      contradiction
    | failed _ _ _ _ unsuccessful =>
      cases status : before.status with
      | failed => rfl
      | succeeded => exact absurd status unsuccessful
      | publishing | publishFailed | queued | processing | retrying =>
        rw [status] at final
        contradiction

theorem prepareAttempt_row (envelope : Envelope) (attempt : Int) (now : Time)
    (snapshot locked : Option JobRow) : (prepareAttempt envelope attempt now snapshot locked).1 =
      (execute (.prepareAttempt envelope attempt now) locked).1 := by
  simp only [execute, prepareAttempt]
  split
  · rfl
  · cases locked with
    | none => rfl
    | some row =>
      dsimp only
      split
      · rfl
      · cases snapshot <;> rfl

theorem prepareAttempt_succeeds (envelope : Envelope) (attempt : Int) (now : Time)
    (snapshot locked : Option JobRow) :
    Succeeds locked (prepareAttempt envelope attempt now snapshot locked).1 := by
  rw [prepareAttempt_row]
  exact execute_succeeds _ locked

theorem update_id {guarded : Status → Bool} {change : JobRow → JobRow} {row : Option JobRow}
    (written : (update guarded change row).2 = .id) :
    ∃ before, (update guarded change row).1 = some (change before) := by
  cases row with
  | none => contradiction
  | some row =>
    rcases update_cases guarded change row with ⟨_, done⟩ | done | ⟨_, done⟩ <;> rw [done] at written ⊢
    · contradiction
    · contradiction
    · exact ⟨row, rfl⟩

theorem prepareAttempt_status {envelope : Envelope} {attempt : Int} {now : Time} {row : Option JobRow}
    {status : Status} (replied : (prepareAttempt envelope attempt now row row).2 = .status status) :
    ∃ left, (prepareAttempt envelope attempt now row row).1 = some left ∧ left.status = status := by
  have prepared := prepareAttempt_prepared envelope attempt now row row
  generalize prepareAttempt envelope attempt now row row = outcome at prepared replied ⊢
  cases prepared with
  | refused => contradiction
  | inserted | updated _ _ | stale _ _ =>
    cases replied
    exact ⟨_, rfl, rfl⟩

end EdgeGuard.Jobs
