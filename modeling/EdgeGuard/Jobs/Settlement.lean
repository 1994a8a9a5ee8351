import EdgeGuard.Jobs.Worker

/-! What the workers tell the broker agrees with the table: a delivery is
acknowledged over a succeeded row and dead-lettered over a failed one. The guards
of the status statements make these rows permanent, so the agreement survives
every later delivery of the same message. -/
namespace EdgeGuard.Jobs
open Go Transition
variable {validJSON : Str → Bool} {s t : System}

/-- The row that the next call relies on. -/
structure Backed (validJSON : Str → Bool) (table : Table) (handling : Handling) : Prop where
  acks : handling.next = .ack → ∀ envelope, handling.body = some envelope →
    table.Holds envelope.id .succeeded
  rejects : handling.next = .reject false → ∀ envelope, handling.body = some envelope →
    envelope.validate validJSON = .ok () → table.Holds envelope.id .failed

theorem Backed.kept {before after : Table} {handling : Handling} (backed : Backed validJSON before handling)
    (kept : Kept before after) : Backed validJSON after handling :=
  ⟨fun next envelope body => kept.holds rfl (backed.acks next envelope body),
    fun next envelope body valid => kept.holds rfl (backed.rejects next envelope body valid)⟩

theorem firstCall_backed (table : Table) (body : Option Envelope) (attempt : Int) :
    Backed validJSON table ⟨body, attempt, firstCall validJSON body⟩ := by
  constructor
  · intro next envelope found
    cases found
    simp only [firstCall] at next
    split at next <;> contradiction
  · intro next envelope found valid
    cases found
    simp only [firstCall, valid] at next
    contradiction

theorem afterProcess_backed (table : Table) (envelope : Envelope) (body : Option Envelope) (attempt : Int)
    (outcome : Outcome) : Backed validJSON table ⟨body, attempt, afterProcess envelope attempt outcome⟩ := by
  cases outcome with
  | done result => constructor <;> intro next <;> contradiction
  | failed permanent failure =>
    simp only [afterProcess]
    split <;> constructor <;> intro next <;> contradiction

/-- A reply that leads on to the broker comes with the status it announces. -/
theorem after_announces {call next : Call} {envelope : Envelope} {attempt : Int} {now : Time}
    {statement : Statement} {row : Option JobRow}
    (calls : call.statement envelope attempt now = some statement)
    (goes : call.after (execute statement row).2 = some next) :
    (next = .ack → ∃ left, (execute statement row).1 = some left ∧ left.status = .succeeded) ∧
    (next = .reject false → ∃ left, (execute statement row).1 = some left ∧ left.status = .failed) := by
  cases call with
  | prepareAttempt =>
    cases calls
    cases replied : (execute (.prepareAttempt envelope attempt now) row).2 with
    | status status =>
      rw [replied] at goes
      obtain ⟨left, row, found⟩ := prepareAttempt_status replied
      cases goes
      constructor <;> intro same <;> refine ⟨left, row, ?_⟩ <;> rw [found] <;>
        cases status <;> first | rfl | contradiction
    | _ =>
      rw [replied] at goes
      contradiction
  | markSucceeded result =>
    cases calls
    cases replied : (execute (.markSucceeded attempt result now) row).2 with
    | id =>
      rw [replied] at goes
      cases goes
      obtain ⟨before, written⟩ := update_id replied
      exact ⟨fun _ => ⟨_, written, rfl⟩, nofun⟩
    | _ =>
      rw [replied] at goes
      contradiction
  | markFailed failure =>
    cases calls
    cases replied : (execute (.markFailed attempt failure now) row).2 with
    | id =>
      rw [replied] at goes
      cases goes
      obtain ⟨before, written⟩ := update_id replied
      exact ⟨nofun, fun _ => ⟨_, written, rfl⟩⟩
    | _ =>
      rw [replied] at goes
      contradiction
  | markRetrying failure =>
    cases calls
    cases replied : (execute (.markRetrying attempt failure now) row).2 with
    | id =>
      rw [replied] at goes
      cases goes
      exact ⟨nofun, nofun⟩
    | _ =>
      rw [replied] at goes
      contradiction
  | process | ack | reject _ => contradiction

theorem after_backed {table : Table} {handling : Handling} {envelope : Envelope} {now : Time}
    {statement : Statement} {next : Call} (body : handling.body = some envelope)
    (calls : handling.next.statement envelope handling.attempt now = some statement)
    (goes : handling.next.after (execute statement (table envelope.id)).2 = some next) :
    Backed validJSON (table.execute envelope.id statement) { handling with next } := by
  have reads {status : Status} (left : ∃ row, (execute statement (table envelope.id)).1 = some row ∧
      row.status = status) : (table.execute envelope.id statement).Holds envelope.id status := by
    rwa [Table.Holds, Table.execute_self]
  obtain ⟨acks, rejects⟩ := after_announces calls goes
  constructor
  · intro same other found
    cases body.symm.trans found
    exact reads (acks same)
  · intro same other found _
    cases body.symm.trans found
    exact reads (rejects same)

/-- A worker that has moved is backed by the table it left. -/
theorem step_backed {action : Action} {worker : Nat} {handling : Handling}
    (stepped : step validJSON s action = some t) (found : t.workers worker = some handling) :
    s.workers worker = some handling ∨ Backed validJSON t.table handling := by
  cases step_moved stepped found with
  | same _ busy => exact .inl busy
  | delivered headers body => exact .inr (firstCall_backed t.table body _)
  | replied before envelope now statement next _ _ body calls goes wrote =>
    rw [wrote]
    exact .inr (after_backed body calls goes)
  | processed before envelope outcome => exact .inr (afterProcess_backed t.table envelope _ _ outcome)

theorem step_acked {action : Action} {body : Option Envelope}
    (stepped : step validJSON s action = some t) (member : body ∈ t.acked) :
    body ∈ s.acked ∨
      ∃ worker handling, s.workers worker = some handling ∧ handling.next = .ack ∧
        handling.body = body := by
  cases step_effect stepped with
  | ack worker sent handling busy calls =>
    cases sent with
    | false => exact .inl member
    | true =>
      refine (List.mem_append.mp member).imp_right ?_
      intro last
      exact ⟨worker, handling, busy, calls, (List.mem_singleton.mp last).symm⟩
  | store _ _ fault => rcases fault with _ | _ | _ <;> exact .inl member
  | _ => exact .inl member

theorem step_deadLettered {action : Action} {body : Option Envelope}
    (stepped : step validJSON s action = some t) (member : body ∈ t.deadLettered) :
    body ∈ s.deadLettered ∨
      ∃ worker handling, s.workers worker = some handling ∧ handling.next = .reject false ∧
        handling.body = body := by
  cases step_effect stepped with
  | reject worker sent requeue handling busy calls =>
    cases sent with
    | false => exact .inl member
    | true =>
      cases requeue with
      | true => exact .inl member
      | false =>
        refine (List.mem_append.mp member).imp_right ?_
        intro last
        exact ⟨worker, handling, busy, calls, (List.mem_singleton.mp last).symm⟩
  | store _ _ fault => rcases fault with _ | _ | _ <;> exact .inl member
  | _ => exact .inl member

structure Consistent (validJSON : Str → Bool) (s : System) : Prop where
  handled : ∀ worker handling, s.workers worker = some handling → Backed validJSON s.table handling
  acked : ∀ envelope, some envelope ∈ s.acked → s.table.Holds envelope.id .succeeded
  deadLettered : ∀ envelope, some envelope ∈ s.deadLettered → envelope.validate validJSON = .ok () →
    s.table.Holds envelope.id .failed

theorem start_consistent (table : Table) : Consistent validJSON (.start table) :=
  ⟨nofun, nofun, nofun⟩

theorem step_consistent {action : Action} (consistent : Consistent validJSON s)
    (stepped : step validJSON s action = some t) : Consistent validJSON t := by
  have kept := step_kept stepped
  refine ⟨?_, ?_, ?_⟩
  · intro worker handling found
    rcases step_backed stepped found with before | backed
    · exact (consistent.handled worker handling before).kept kept
    · exact backed
  · intro envelope member
    apply kept.holds rfl
    rcases step_acked stepped member with before | ⟨worker, handling, busy, calls, body⟩
    · exact consistent.acked envelope before
    · exact (consistent.handled worker handling busy).acks calls envelope body
  · intro envelope member valid
    apply kept.holds rfl
    rcases step_deadLettered stepped member with before | ⟨worker, handling, busy, calls, body⟩
    · exact consistent.deadLettered envelope before valid
    · exact (consistent.handled worker handling busy).rejects calls envelope body valid

theorem run_consistent {table : Table} {actions : List Action}
    (path : run (step validJSON) (.start table) actions = some s) : Consistent validJSON s :=
  run_invariant step_consistent path (start_consistent table)

/-- In every reachable state, and in all that follow it, the row of an acknowledged
job is succeeded, that of a dead-lettered one is failed, and no job is both. -/
theorem settled_deliveries_have_final_rows {table : Table} {actions later : List Action}
    (path : run (step validJSON) (.start table) actions = some s)
    (continues : run (step validJSON) s later = some t) :
    (∀ envelope, envelope.validate validJSON = .ok () → some envelope ∈ s.acked →
      s.table.Holds envelope.id .succeeded ∧ t.table.Holds envelope.id .succeeded) ∧
    (∀ envelope, envelope.validate validJSON = .ok () → some envelope ∈ s.deadLettered →
      s.table.Holds envelope.id .failed ∧ t.table.Holds envelope.id .failed) ∧
    ∀ acknowledged rejected, acknowledged.validate validJSON = .ok () →
      rejected.validate validJSON = .ok () → some acknowledged ∈ s.acked →
      some rejected ∈ s.deadLettered → acknowledged.id ≠ rejected.id := by
  have consistent := run_consistent path
  have kept := run_kept continues
  refine ⟨?_, ?_, ?_⟩
  · intro envelope _ member
    have held := consistent.acked envelope member
    exact ⟨held, kept.holds rfl held⟩
  · intro envelope valid member
    have held := consistent.deadLettered envelope member valid
    exact ⟨held, kept.holds rfl held⟩
  · intro acknowledged rejected _ valid acked dead same
    have succeeded := consistent.acked acknowledged acked
    have failed := consistent.deadLettered rejected dead valid
    rw [same] at succeeded
    exact nomatch succeeded.unique failed

def reportJob : Envelope where
  schemaVersion := 1
  id := lit "4ebff7b3"
  type := lit "jobs.report.generate"
  createdAt := 0
  attempt := 1
  maxAttempts := 3
  payload := lit "\x7b\x7d"

def webhookJob : Envelope :=
  { reportJob with id := lit "9889f870", type := lit "jobs.webhook.deliver" }

def emptyObject (payload : Str) : Bool := payload == lit "\x7b\x7d"

def redelivered (count : Int64) : Headers := [(lit "x-delivery-count", .signed count)]

/-- The first acknowledgement of the report job is lost and its second delivery
finds it succeeded; the webhook job fails for good. -/
def twoJobs : List Action :=
  [.deliver 0 [] (some reportJob), .store 0 1 none, .deliver 1 [] (some webhookJob),
    .process 0 (.done ⟨lit "report generated", lit "reports/4ebff7b3.json", 2⟩), .store 1 2 none,
    .store 0 3 none, .settle 0 false, .process 1 (.failed true (lit "blocked address")),
    .deliver 0 (redelivered 1) (some reportJob), .store 0 4 none, .store 1 5 none,
    .settle 1 true, .settle 0 true]

theorem two_jobs_settle :
    ∃ s, run (step emptyObject) (.start fun _ => none) twoJobs = some s ∧
      (s.table.Holds reportJob.id .succeeded ∧ s.table.Holds webhookJob.id .failed) ∧
      some reportJob ∈ s.acked ∧ some webhookJob ∈ s.deadLettered := by
  have ran : (run (step emptyObject) (.start fun _ => none) twoJobs).map
      (fun s => (s.acked, s.deadLettered)) = some ([some reportJob], [some webhookJob]) := by
    decide +kernel
  obtain ⟨s, path, settled⟩ := Option.map_eq_some_iff.mp ran
  obtain ⟨acked, dead⟩ := Prod.mk.inj settled
  have inAcked : some reportJob ∈ s.acked := by simp [acked]
  have inDead : some webhookJob ∈ s.deadLettered := by simp [dead]
  have here : run (step emptyObject) s [] = some s := rfl
  obtain ⟨succeeded, failed, _⟩ := settled_deliveries_have_final_rows path here
  exact ⟨s, path, ⟨(succeeded reportJob (by decide) inAcked).1, (failed webhookJob (by decide) inDead).1⟩,
    inAcked, inDead⟩

end EdgeGuard.Jobs
