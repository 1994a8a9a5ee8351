import EdgeGuard.Jobs.Pipeline
import EdgeGuard.Jobs.Settlement
import Mathlib.Data.Int.Interval

/-! How often a job is processed. Deliveries are numbered by the broker, so two of
them never share an attempt; below `MaxAttempts` that alone bounds the calls. From
`MaxAttempts` on, the bound needs the outcome of a call to reach the table before
the job is prepared again, and a `PrepareAttempt` whose snapshot shows that outcome. -/
namespace EdgeGuard.Jobs
open Go Transition
variable {validJSON : Str → Bool} {envelope : Envelope}

/-- How far a delivery has come. -/
def Call.stage : Call → Nat
  | .prepareAttempt => 0
  | .process => 1
  | .markSucceeded _ | .markFailed _ | .markRetrying _ => 2
  | .ack | .reject _ => 3

theorem afterPrepare_stage (status : Status) : 0 < (afterPrepare status).stage := by
  cases status <;> decide

theorem afterProcess_stage (envelope : Envelope) (attempt : Int) (outcome : Outcome) :
    (afterProcess envelope attempt outcome).stage = 2 := by
  cases outcome with
  | done result => rfl
  | failed permanent failure =>
    simp only [afterProcess]
    split <;> rfl

theorem after_stage {call next : Call} {reply : Reply} (goes : call.after reply = some next) :
    call.stage < next.stage := by
  cases call with
  | prepareAttempt =>
    cases reply with
    | status status =>
      cases goes
      exact afterPrepare_stage status
    | _ => contradiction
  | markSucceeded _ | markFailed _ | markRetrying _ =>
    cases reply with
    | id =>
      cases goes
      exact Nat.lt_succ_self 2
    | _ => contradiction
  | process | ack | reject _ => contradiction

def Call.marksFinal : Call → Bool
  | .markSucceeded _ | .markFailed _ => true
  | _ => false

theorem Call.works_of_marksFinal {call : Call} (marks : call.marksFinal = true) : call.works = true := by
  cases call <;> first | rfl | contradiction

def Table.Final (table : Table) (id : Str) : Prop :=
  ∃ row, table id = some row ∧ row.status.final = true

theorem Kept.final {before after : Table} (kept : Kept before after) {id : Str}
    (final : before.Final id) : after.Final id := by
  obtain ⟨row, found, final⟩ := final
  obtain ⟨next, found, same⟩ := kept id row found
  exact ⟨next, found, by rw [same final, final]⟩

theorem after_process {call : Call} {reply : Reply} (goes : call.after reply = some .process) :
    call = .prepareAttempt ∧ ∃ status, reply = .status status ∧ status.final = false := by
  cases call with
  | prepareAttempt =>
    cases reply with
    | status status => exact ⟨rfl, status, rfl, by cases status <;> first | rfl | contradiction⟩
    | _ => contradiction
  | _ => cases reply <;> simp [Call.after] at goes

theorem marksFinal_final {row : JobRow} {call : Call} {attempt : Int} {now : Time} {statement : Statement}
    (marks : call.marksFinal = true) (calls : call.statement envelope attempt now = some statement)
    (taken : (execute statement (some row)).2 ≠ .refused) :
    ∃ next, (execute statement (some row)).1 = some next ∧ next.status.final = true := by
  cases call with
  | markSucceeded result =>
    cases calls
    simp only [execute] at taken ⊢
    rcases update_cases (fun status => !status.final) _ row with ⟨final, done⟩ | done | ⟨_, done⟩
    · exact ⟨row, by rw [done], by simpa using final⟩
    · exact absurd (by rw [done]) taken
    · exact ⟨_, by rw [done], rfl⟩
  | markFailed failure =>
    cases calls
    simp only [execute] at taken ⊢
    rcases update_cases (· != .succeeded) _ row with ⟨final, done⟩ | done | ⟨_, done⟩
    · exact ⟨row, by rw [done], by simp_all [Status.final]⟩
    · exact absurd (by rw [done]) taken
    · exact ⟨_, by rw [done], rfl⟩
  | _ => contradiction

theorem afterProcess_late {attempt : Int} (exhausts : envelope.maxAttempts ≤ attempt) (outcome : Outcome) :
    (afterProcess envelope attempt outcome).marksFinal = true := by
  cases outcome with
  | done result => rfl
  | failed permanent failure => simp [afterProcess, exhausts, Call.marksFinal]

/-- Distinct positive attempts, of which at most one reaches the limit. -/
theorem length_le_limit {attempts : List Int} {limit : Int} (positive : 1 ≤ limit) (nodup : attempts.Nodup)
    (range : ∀ attempt ∈ attempts, 1 ≤ attempt)
    (single : ∀ first ∈ attempts, ∀ second ∈ attempts, limit ≤ first → limit ≤ second → first = second) :
    (attempts.length : Int) ≤ limit := by
  have distinct : (attempts.map (min · limit)).Nodup := by
    refine nodup.map_on ?_
    intro first member second member' same
    rcases lt_or_ge first limit with below | above <;> rcases lt_or_ge second limit with below' | above'
    · omega
    · omega
    · omega
    · exact single first member second member' above above'
  have inside : (attempts.map (min · limit)).toFinset ⊆ Finset.Icc 1 limit := by
    intro value member
    obtain ⟨attempt, inList, rfl⟩ := List.mem_map.mp (List.mem_toFinset.mp member)
    have := range attempt inList
    rw [Finset.mem_Icc]
    omega
  have count := Finset.card_le_card inside
  rw [List.toFinset_card_of_nodup distinct, List.length_map, Int.card_Icc] at count
  omega

namespace Pipeline
variable {s t : State} {action : Action}

def State.deliveries (s : State) (id : Str) : Nat := s.delivered.countP (·.1 == id)

/-- The attempts under which `Process` was called for a job. -/
def State.attempts (s : State) (id : Str) : List Int := (s.processed.filter (·.1 == id)).map (·.2)

def State.Handles (s : State) (envelope : Envelope) (worker : Nat) (execution : Execution) : Prop :=
  s.executions worker = some execution ∧ execution.handling.body = some envelope

/-- The job has one message, and each delivery of it counts the earlier ones. -/
def Counted (envelope : Envelope) (s : State) : Action → Prop
  | .deliver _ headers (some body) => body.id = envelope.id →
      body = envelope ∧ deliveryAttempt headers = s.deliveries envelope.id + 1
  | _ => True

/-- A worker has just taken its delivery, or has it from before and may have come further. -/
theorem step_origin {worker : Nat} {execution : Execution} (stepped : step validJSON s action = some t)
    (found : t.executions worker = some execution) :
    (∃ headers, action = .deliver worker headers execution.handling.body ∧
      execution.handling.attempt = deliveryAttempt headers) ∨
    ∃ before, s.executions worker = some before ∧ execution.handling.body = before.handling.body ∧
      execution.handling.attempt = before.handling.attempt ∧
      before.handling.next.stage ≤ execution.handling.next.stage := by
  cases step_moved stepped found with
  | same _ busy _ => exact .inr ⟨execution, busy, rfl, rfl, Nat.le_refl _⟩
  | delivered headers body took => exact .inl ⟨headers, took, rfl⟩
  | began before _ _ busy _ _ => exact .inr ⟨before, busy, rfl, rfl, Nat.le_refl _⟩
  | replied before _ _ _ _ _ _ busy _ _ _ goes _ =>
    exact .inr ⟨before, busy, rfl, rfl, Nat.le_of_lt (after_stage goes)⟩
  | processed before _ _ _ busy _ calls =>
    refine .inr ⟨before, busy, rfl, rfl, ?_⟩
    simp only [calls, afterProcess_stage]
    decide

theorem step_deliveries (stepped : step validJSON s action = some t) (id : Str) :
    s.deliveries id ≤ t.deliveries id := by
  unfold State.deliveries
  rcases step_delivered stepped with same | ⟨_, _, _, _, more⟩
  · rw [same]
  · rw [more, List.countP_append]
    omega

theorem process_moves {worker : Nat} {outcome : Outcome} {execution : Execution}
    (stepped : step validJSON s (.process worker outcome) = some t)
    (found : t.executions worker = some execution) : execution.handling.next.stage = 2 := by
  cases step_effect stepped with
  | process _ _ before body _ _ _ =>
    have moved := found
    simp only [State.setExecution, Function.update_self, Option.some.injEq] at moved
    rw [← moved]
    exact afterProcess_stage body before.handling.attempt outcome

structure Numbered (envelope : Envelope) (s : State) : Prop where
  handled : ∀ worker execution other, s.Handles other worker execution → other.id = envelope.id →
    other = envelope ∧ 1 ≤ execution.handling.attempt ∧
      execution.handling.attempt ≤ s.deliveries envelope.id
  distinct : ∀ {worker worker' execution execution'}, s.Handles envelope worker execution →
    s.Handles envelope worker' execution' →
    execution.handling.attempt = execution'.handling.attempt → worker = worker'
  processed : ∀ attempt ∈ s.attempts envelope.id, 1 ≤ attempt ∧ attempt ≤ s.deliveries envelope.id
  nodup : (s.attempts envelope.id).Nodup
  fresh : ∀ {worker execution}, s.Handles envelope worker execution → execution.handling.next.stage ≤ 1 →
    execution.handling.attempt ∉ s.attempts envelope.id

theorem start_numbered (table : Table) : Numbered envelope (.start table) where
  handled _ _ _ handles := nomatch handles.1
  distinct handles := nomatch handles.1
  processed := nofun
  nodup := .nil
  fresh handles := nomatch handles.1

/-- Either no attempt was added, or that of a worker which was about to call `Process`. -/
theorem step_attempts (numbered : Numbered envelope s) (stepped : step validJSON s action = some t) :
    t.attempts envelope.id = s.attempts envelope.id ∨
    ∃ worker execution, s.Handles envelope worker execution ∧ execution.handling.next = .process ∧
      t.attempts envelope.id = s.attempts envelope.id ++ [execution.handling.attempt] ∧
      ∀ after, t.executions worker = some after → after.handling.next.stage = 2 := by
  unfold State.attempts
  rcases step_processed stepped with same | ⟨worker, outcome, execution, other, took, busy, body, calls, more⟩
  · exact .inl (by rw [same])
  · by_cases same : other.id = envelope.id
    · obtain ⟨rfl, _, _⟩ := numbered.handled worker execution other ⟨busy, body⟩ same
      subst took
      refine .inr ⟨worker, execution, ⟨busy, body⟩, calls, by simp [more], ?_⟩
      exact fun after found => process_moves stepped found
    · exact .inl (by simp [more, same])

/-- A delivery that a worker handles is a new one, which counts all the others, or
was handled by the same worker before. -/
theorem step_handles (counted : Counted envelope s action) {worker : Nat} {execution : Execution}
    {other : Envelope} (stepped : step validJSON s action = some t)
    (handles : t.Handles other worker execution) (same : other.id = envelope.id) :
    (other = envelope ∧ execution.handling.attempt = s.deliveries envelope.id + 1 ∧
      t.deliveries envelope.id = s.deliveries envelope.id + 1 ∧
      ∃ headers, action = .deliver worker headers (some envelope)) ∨
    ∃ before, s.Handles other worker before ∧ execution.handling.attempt = before.handling.attempt ∧
      before.handling.next.stage ≤ execution.handling.next.stage := by
  rcases step_origin stepped handles.1 with ⟨headers, took, attempt⟩ | ⟨before, busy, body, attempt, further⟩
  · rw [handles.2] at took
    subst took
    obtain ⟨rfl, count⟩ := counted same
    refine .inl ⟨rfl, attempt.trans count, ?_, headers, rfl⟩
    simp [State.deliveries, deliver_delivered stepped]
  · exact .inr ⟨before, ⟨busy, body ▸ handles.2⟩, attempt, further⟩

theorem step_numbered (counted : Counted envelope s action) (numbered : Numbered envelope s)
    (stepped : step validJSON s action = some t) : Numbered envelope t where
  handled worker execution other handles same := by
    rcases step_handles counted stepped handles same with ⟨rfl, attempt, more, _⟩ | ⟨before, earlier, attempt, _⟩
    · refine ⟨rfl, ?_⟩
      omega
    · obtain ⟨rfl, positive, bounded⟩ := numbered.handled worker before other earlier same
      have more := step_deliveries stepped other.id
      refine ⟨rfl, ?_⟩
      omega
  distinct {worker worker' execution execution'} handles handles' same := by
    rcases step_handles counted stepped handles rfl with ⟨_, attempt, _, headers, took⟩ |
      ⟨before, earlier, attempt, _⟩ <;>
    rcases step_handles counted stepped handles' rfl with ⟨_, attempt', _, headers', took'⟩ |
      ⟨before', earlier', attempt', _⟩
    · cases took.symm.trans took'
      rfl
    · have bounded := (numbered.handled worker' before' envelope earlier' rfl).2.2
      omega
    · have bounded := (numbered.handled worker before envelope earlier rfl).2.2
      omega
    · exact numbered.distinct earlier earlier' (by omega)
  processed attempt member := by
    have more := step_deliveries stepped envelope.id
    have range : 1 ≤ attempt ∧ attempt ≤ s.deliveries envelope.id := by
      rcases step_attempts numbered stepped with same | ⟨worker, execution, handles, _, added, _⟩
      · exact numbered.processed attempt (same ▸ member)
      · rw [added, List.mem_append, List.mem_singleton] at member
        rcases member with earlier | rfl
        · exact numbered.processed attempt earlier
        · exact (numbered.handled worker execution envelope handles rfl).2
    omega
  nodup := by
    rcases step_attempts numbered stepped with same | ⟨worker, execution, handles, calls, added, _⟩
    · exact same ▸ numbered.nodup
    · rw [added, List.nodup_append]
      refine ⟨numbered.nodup, List.nodup_singleton _, ?_⟩
      rintro attempt member _ (_ | ⟨_, ⟨⟩⟩) rfl
      exact numbered.fresh handles (by rw [calls]; decide) member
  fresh {worker execution} handles early member := by
    rcases step_handles counted stepped handles rfl with ⟨_, attempt, _, _⟩ | ⟨before, earlier, attempt, further⟩
    · rcases step_attempts numbered stepped with same | ⟨other, calling, calls, _, added, _⟩
      · have bounded := (numbered.processed _ (same ▸ member)).2
        omega
      · rw [added, List.mem_append, List.mem_singleton] at member
        rcases member with old | same
        · have bounded := (numbered.processed _ old).2
          omega
        · have bounded := (numbered.handled other calling envelope calls rfl).2.2
          omega
    · have unprocessed := numbered.fresh earlier (Nat.le_trans further early)
      rw [attempt] at member
      rcases step_attempts numbered stepped with same | ⟨other, calling, calls, _, added, later⟩
      · exact unprocessed (same ▸ member)
      · rw [added, List.mem_append, List.mem_singleton] at member
        rcases member with old | same
        · exact unprocessed old
        · -- the attempt belongs to this worker, which has left `Process` behind
          cases numbered.distinct earlier calls same
          rw [later execution handles.1] at early
          contradiction

/-- A delivery that may still call `Process` or has not stored its outcome, at an
attempt that exhausts the job. -/
structure Execution.Late (envelope : Envelope) (execution : Execution) : Prop where
  exhausts : envelope.maxAttempts ≤ execution.handling.attempt
  pending : execution.handling.next = .process ∨ execution.handling.next.marksFinal = true

/-- What is asked of the statements at an exhausting attempt. A `PrepareAttempt` that
gets its answer shows a final status where the row is final, and finds no other late
delivery where it is not. The final status is stored: no crash before the statement,
which reaches the table and is not refused. -/
def Persisted (envelope : Envelope) (s : State) : Action → Prop
  | .store worker now fault => ∀ execution, s.Handles envelope worker execution →
      envelope.maxAttempts ≤ execution.handling.attempt →
      (execution.handling.next = .prepareAttempt → fault = none →
        (s.table.Final envelope.id → ∀ old, execution.snapshot = some (some old) → old.status.final = true) ∧
        (¬ s.table.Final envelope.id →
          ∀ other late, s.Handles envelope other late → ¬ late.Late envelope)) ∧
      (execution.handling.next.marksFinal = true → fault ≠ some .unreached ∧
        ∀ statement, execution.handling.next.statement envelope execution.handling.attempt now = some statement →
          (execute statement (s.table envelope.id)).2 ≠ .refused)
  | .crash worker => ∀ execution, s.Handles envelope worker execution →
      envelope.maxAttempts ≤ execution.handling.attempt → execution.handling.next.marksFinal = false
  | _ => True

/-- `Process` was called at this attempt, or is about to be. -/
def State.Claimed (s : State) (envelope : Envelope) (attempt : Int) : Prop :=
  attempt ∈ s.attempts envelope.id ∨
    ∃ worker execution, s.Handles envelope worker execution ∧ execution.handling.next = .process ∧
      execution.handling.attempt = attempt

theorem step_called (numbered : Numbered envelope s) (stepped : step validJSON s action = some t)
    {attempt : Int} (called : attempt ∈ t.attempts envelope.id) : s.Claimed envelope attempt := by
  rcases step_attempts numbered stepped with same | ⟨worker, execution, handles, calls, added, _⟩
  · exact .inl (same ▸ called)
  · rw [added, List.mem_append, List.mem_singleton] at called
    rcases called with earlier | rfl
    · exact .inl earlier
    · exact .inr ⟨worker, execution, handles, calls, rfl⟩

/-- A new claim is made by a `PrepareAttempt`, over an unfinished row if that exhausts the job. -/
theorem step_claimed (numbered : Numbered envelope s) (persisted : Persisted envelope s action)
    (stepped : step validJSON s action = some t) {attempt : Int} (claimed : t.Claimed envelope attempt)
    (exhausts : envelope.maxAttempts ≤ attempt) :
    s.Claimed envelope attempt ∨
    ∃ worker execution now, action = .store worker now none ∧ s.Handles envelope worker execution ∧
      execution.handling.next = .prepareAttempt ∧ execution.handling.attempt = attempt ∧
      ¬ s.table.Final envelope.id := by
  rcases claimed with called | ⟨worker, execution, ⟨busy, body⟩, calls, rfl⟩
  · exact .inl (step_called numbered stepped called)
  · cases step_moved stepped busy with
    | same _ before _ => exact .inl (.inr ⟨worker, execution, ⟨before, body⟩, calls, rfl⟩)
    | delivered headers received took =>
      have early := firstCall_works validJSON received
      dsimp only at calls
      rw [calls] at early
      contradiction
    | began before _ _ _ _ prepares =>
      dsimp only at calls
      rw [prepares] at calls
      contradiction
    | replied before other now statement snapshot next took earlier found prepares viewed goes _ =>
      cases found.symm.trans body
      cases calls
      obtain ⟨call, status, replied, unfinished⟩ := after_process goes
      refine .inr ⟨worker, before, now, took, ⟨earlier, found⟩, call, rfl, ?_⟩
      intro final
      subst took
      have seen := ((persisted before ⟨earlier, found⟩ exhausts).1 call rfl).1 final
      rw [call] at prepares
      cases prepares
      simp only [Execution.view, call] at viewed
      rcases prepareAttempt_works replied unfinished with ⟨_, still⟩ | ⟨old, _, rfl, still, _⟩
      · obtain ⟨row, there, final⟩ := final
        rw [still row there] at final
        contradiction
      · rw [seen old viewed] at still
        contradiction
    | processed before other outcome _ _ _ _ =>
      have later := afterProcess_stage other before.handling.attempt outcome
      dsimp only at calls
      rw [calls] at later
      contradiction

structure Limited (envelope : Envelope) (s : State) : Prop where
  single : ∀ {first second}, s.Claimed envelope first → s.Claimed envelope second →
    envelope.maxAttempts ≤ first → envelope.maxAttempts ≤ second → first = second
  covered : ∀ {attempt}, s.Claimed envelope attempt → envelope.maxAttempts ≤ attempt →
    s.table.Final envelope.id ∨
      ∃ worker execution, s.Handles envelope worker execution ∧ execution.handling.attempt = attempt ∧
        execution.Late envelope

theorem store_ends (staged : Staged s) {worker : Nat} {now : Time} {fault : Option Fault}
    {execution : Execution} (persisted : Persisted envelope s (.store worker now fault))
    (stepped : step validJSON s (.store worker now fault) = some t)
    (handles : s.Handles envelope worker execution) (late : execution.Late envelope) :
    t.table.Final envelope.id := by
  cases step_effect stepped with
  | store _ _ _ before body statement snapshot busy found calls viewed =>
    cases busy.symm.trans handles.1
    cases found.symm.trans handles.2
    rcases late.pending with calling | marks
    · rw [calling] at calls
      contradiction
    · obtain ⟨reached, taken⟩ := (persisted execution handles late.exhausts).2 marks
      obtain ⟨row, present, _⟩ := staged worker execution envelope busy found (Call.works_of_marksFinal marks)
      have final : (s.table.execute envelope.id statement).Final envelope.id := by
        rw [Table.Final, Table.execute_self, present]
        exact marksFinal_final marks calls (present ▸ taken statement calls)
      match fault with
      | some .lost => exact final
      | some .unreached => contradiction
      | none =>
        rw [State.store_table]
        exact final

theorem step_late (staged : Staged s) (persisted : Persisted envelope s action)
    (stepped : step validJSON s action = some t) {worker : Nat} {execution : Execution}
    (handles : s.Handles envelope worker execution) (late : execution.Late envelope) :
    t.table.Final envelope.id ∨
    (∃ after, t.Handles envelope worker after ∧ after.handling.attempt = execution.handling.attempt ∧
      after.Late envelope) ∨
    (execution.handling.next = .process ∧ t.processed = s.processed) := by
  by_cases acts : action.worker = some worker
  · cases step_effect stepped with
    | submit _ _ _ | create _ _ _ _ _ _ | publish _ _ _ _ _ _ _ | mark _ _ _ _ _ _ _ | abandon _ =>
      contradiction
    | deliver _ _ _ idle =>
      cases acts
      exact nomatch idle.symm.trans handles.1
    | begin _ before _ busy _ calls =>
      cases acts
      cases busy.symm.trans handles.1
      rcases late.pending with pending | pending <;> rw [calls] at pending <;> contradiction
    | store _ _ _ _ _ _ _ _ _ _ _ =>
      cases acts
      exact .inl (store_ends staged persisted stepped handles late)
    | process _ outcome before body busy found calls =>
      cases acts
      cases busy.symm.trans handles.1
      cases found.symm.trans handles.2
      refine .inr (.inl ⟨_, ⟨Function.update_self .., found⟩, rfl, late.exhausts, .inr ?_⟩)
      exact afterProcess_late late.exhausts outcome
    | settle _ sent before busy calls =>
      cases acts
      cases busy.symm.trans handles.1
      rcases calls with calls | ⟨_, calls⟩ <;>
      · rcases late.pending with pending | pending <;> rw [calls] at pending <;> contradiction
    | crash _ =>
      cases acts
      rcases late.pending with calling | marks
      · exact .inr (.inr ⟨calling, rfl⟩)
      · rw [persisted execution handles late.exhausts] at marks
        contradiction
  · exact .inr (.inl ⟨execution, ⟨(step_other stepped acts).trans handles.1, handles.2⟩, rfl, late⟩)

theorem step_limited (numbered : Numbered envelope s) (staged : Staged s)
    (persisted : Persisted envelope s action) (limited : Limited envelope s)
    (stepped : step validJSON s action = some t) : Limited envelope t where
  single {first second} claimed claimed' exhausts exhausts' := by
    -- a new claim is made over an unfinished row, with no other late delivery about
    have alone {attempt attempt' : Int} {worker now execution} (took : action = .store worker now none)
        (handles : s.Handles envelope worker execution) (prepares : execution.handling.next = .prepareAttempt)
        (same : execution.handling.attempt = attempt) (exhausts : envelope.maxAttempts ≤ attempt)
        (unfinished : ¬ s.table.Final envelope.id) (claimed : s.Claimed envelope attempt')
        (exhausts' : envelope.maxAttempts ≤ attempt') : False := by
      subst took same
      rcases limited.covered claimed exhausts' with final | ⟨other, pending, busy, _, late⟩
      · exact unfinished final
      · exact ((persisted execution handles exhausts).1 prepares rfl).2 unfinished other pending busy late
    rcases step_claimed numbered persisted stepped claimed exhausts with
      earlier | ⟨worker, execution, now, took, handles, prepares, same, unfinished⟩ <;>
    rcases step_claimed numbered persisted stepped claimed' exhausts' with
      earlier' | ⟨worker', execution', now', took', handles', prepares', same', unfinished'⟩
    · exact limited.single earlier earlier' exhausts exhausts'
    · exact (alone took' handles' prepares' same' exhausts' unfinished' earlier exhausts).elim
    · exact (alone took handles prepares same exhausts unfinished earlier' exhausts').elim
    · cases took.symm.trans took'
      cases handles.1.symm.trans handles'.1
      exact same.symm.trans same'
  covered {attempt} claimed exhausts := by
    rcases claimed with called | ⟨worker, execution, handles, calls, same⟩
    · rcases limited.covered (step_called numbered stepped called) exhausts with
        final | ⟨worker, execution, handles, rfl, late⟩
      · exact .inl ((step_kept stepped).final final)
      · rcases step_late staged persisted stepped handles late with final | after | ⟨calls, unchanged⟩
        · exact .inl final
        · obtain ⟨after, still, same, late⟩ := after
          exact .inr ⟨worker, after, still, same, late⟩
        · refine absurd ?_ (numbered.fresh handles (by rw [calls]; decide))
          rwa [State.attempts, unchanged] at called
    · subst same
      exact .inr ⟨worker, execution, handles, rfl, exhausts, .inl calls⟩

theorem start_limited (table : Table) : Limited envelope (.start table) := by
  have unclaimed (attempt : Int) : ¬ (State.start table).Claimed envelope attempt := by
    rintro (called | ⟨_, _, ⟨busy, _⟩, _⟩) <;> contradiction
  exact ⟨fun claimed => absurd claimed (unclaimed _), fun claimed => absurd claimed (unclaimed _)⟩

/-- `Process` is called at most `MaxAttempts` times for a job, in every run in which
the outcome of an exhausting attempt is stored before the job is prepared again and is
seen by the `PrepareAttempt` that follows. -/
theorem process_calls_le_maxAttempts (valid : envelope.validate validJSON = .ok ()) {table : Table}
    {actions : List Action} (path : run (step validJSON) (.start table) actions = some s)
    (condition : Along (step validJSON) (fun s action => Counted envelope s action ∧ Persisted envelope s action)
      (.start table) actions) :
    ((s.attempts envelope.id).length : Int) ≤ envelope.maxAttempts := by
  obtain ⟨numbered, _, limited⟩ := run_invariant_along
    (P := fun s => Numbered envelope s ∧ Staged s ∧ Limited envelope s)
    (fun met before stepped => ⟨step_numbered met.1 before.1 stepped, step_staged before.2.1 stepped,
      step_limited before.1 before.2.1 met.2 before.2.2 stepped⟩)
    path condition ⟨start_numbered table, start_staged table, start_limited table⟩
  apply length_le_limit (validate_maxAttempts valid) numbered.nodup
  · exact fun attempt member => (numbered.processed attempt member).1
  · exact fun first member second member' => limited.single (.inl member) (.inl member')

def twiceJob : Envelope := { reportJob with maxAttempts := 2 }

/-- The first worker crashes with its outcome not stored; the second one stores it. -/
def crashBelowLimit : List Action :=
  [.deliver 0 [] (some twiceJob), .begin 0, .store 0 1 none, .process 0 (.failed false (lit "timeout")),
    .crash 0, .deliver 1 (redelivered 1) (some twiceJob), .begin 1, .store 1 2 none,
    .process 1 (.done ⟨lit "report generated", [], 0⟩), .store 1 3 none]

theorem crash_below_limit_is_absorbed :
    ∃ s, run (step emptyObject) (.start fun _ => none) crashBelowLimit = some s ∧
      s.attempts twiceJob.id = [1, 2] ∧ ((s.attempts twiceJob.id).length : Int) ≤ 2 := by
  have ran : (run (step emptyObject) (.start fun _ => none) crashBelowLimit).map
      (·.attempts twiceJob.id) = some [1, 2] := by decide +kernel
  obtain ⟨s, path, attempts⟩ := Option.map_eq_some_iff.mp ran
  refine ⟨s, path, attempts, process_calls_le_maxAttempts (by decide) path ?_⟩
  refine along_cons ⟨fun _ => ⟨rfl, by decide⟩, trivial⟩ rfl (along_cons ⟨trivial, trivial⟩ rfl ?_)
  refine along_cons ⟨trivial, ?_⟩ rfl (along_cons ⟨trivial, trivial⟩ rfl (along_cons ⟨trivial, ?_⟩ rfl ?_))
  · rintro execution ⟨⟨⟩, _⟩ exhausts
    exact absurd exhausts (by decide)
  · rintro execution ⟨⟨⟩, _⟩ exhausts
    exact absurd exhausts (by decide)
  refine along_cons ⟨fun _ => ⟨rfl, by decide⟩, trivial⟩ rfl (along_cons ⟨trivial, trivial⟩ rfl ?_)
  refine along_cons ⟨trivial, ?_⟩ rfl (along_cons ⟨trivial, trivial⟩ rfl (along_cons ⟨trivial, ?_⟩ rfl trivial))
  · -- the row is unfinished, and the only worker with the job is the one that prepares it
    rintro execution ⟨⟨⟩, _⟩ _
    refine ⟨fun _ _ => ⟨?_, ?_⟩, by decide⟩
    · rintro ⟨_, ⟨⟩, final⟩
      contradiction
    · rintro _ other late ⟨busy, _⟩ ⟨_, pending⟩
      match other with
      | 0 | _ + 2 => cases busy
      | 1 =>
        cases busy
        rcases pending with pending | pending <;> contradiction
  · rintro execution ⟨⟨⟩, _⟩ _
    refine ⟨?_, fun _ => ⟨?_, ?_⟩⟩
    · intro call
      contradiction
    · intro failed
      contradiction
    · rintro statement ⟨⟩
      decide

def onceJob : Envelope := { reportJob with maxAttempts := 1 }

/-- `Process` has run for the only attempt when the worker crashes. -/
def crashAtLimit : List Action :=
  [.deliver 0 [] (some onceJob), .begin 0, .store 0 1 none,
    .process 0 (.done ⟨lit "report generated", [], 0⟩), .crash 0,
    .deliver 1 (redelivered 1) (some onceJob), .begin 1, .store 1 2 none,
    .process 1 (.done ⟨lit "report generated", [], 0⟩)]

theorem crash_at_limit_processes_again :
    onceJob.validate emptyObject = .ok () ∧
    Along (step emptyObject) (Counted onceJob) (.start fun _ => none) crashAtLimit ∧
    ∃ s, run (step emptyObject) (.start fun _ => none) crashAtLimit = some s ∧
      onceJob.maxAttempts < (s.attempts onceJob.id).length := by
  refine ⟨by decide, ?_, ?_⟩
  · refine along_cons (fun _ => ⟨rfl, by decide⟩) rfl (along_cons trivial rfl ?_)
    refine along_cons trivial rfl (along_cons trivial rfl (along_cons trivial rfl ?_))
    refine along_cons (fun _ => ⟨rfl, by decide⟩) rfl (along_cons trivial rfl ?_)
    exact along_cons trivial rfl (along_cons trivial rfl trivial)
  · have ran : (run (step emptyObject) (.start fun _ => none) crashAtLimit).map
        (·.attempts onceJob.id) = some [1, 2] := by decide +kernel
    obtain ⟨s, path, attempts⟩ := Option.map_eq_some_iff.mp ran
    refine ⟨s, path, ?_⟩
    rw [attempts]
    decide

end Pipeline
end EdgeGuard.Jobs
