import EdgeGuard.Jobs.Settlement

/-! `PrepareAttempt` is one statement with two views of its row: the conflict clause
locks the latest version, the second branch of the union reads the snapshot taken
when the statement began. Other statements may commit in between. -/
namespace EdgeGuard.Jobs
open Go Transition

/-- The row of one job, and the snapshots of the `PrepareAttempt` statements that
have begun and not yet locked it. -/
structure Views where
  row : Option JobRow
  snapshots : Nat → Option (Option JobRow)

def Views.start (row : Option JobRow) : Views := ⟨row, fun _ => none⟩

inductive ViewAction where
  | commits (statement : Statement)
  | begins (caller : Nat)
  | locks (caller : Nat) (envelope : Envelope) (attempt : Int) (now : Time)
  deriving DecidableEq, Repr

def viewStep (s : Views) : ViewAction → Option Views
  | .commits statement => some { s with row := (execute statement s.row).1 }
  | .begins caller => some { s with snapshots := Function.update s.snapshots caller (some s.row) }
  | .locks caller envelope attempt now => match s.snapshots caller with
    | none => none
    | some snapshot => some
        { row := (prepareAttempt envelope attempt now snapshot s.row).1
          snapshots := Function.update s.snapshots caller none }

theorem viewStep_succeeds {s t : Views} {action : ViewAction} (stepped : viewStep s action = some t) :
    Succeeds s.row t.row := by
  cases action with
  | commits statement =>
    cases stepped
    exact execute_succeeds statement s.row
  | begins caller =>
    cases stepped
    exact .refl _
  | locks caller envelope attempt now =>
    simp only [viewStep] at stepped
    split at stepped
    · contradiction
    · cases stepped
      exact prepareAttempt_succeeds envelope attempt now _ s.row

theorem viewStep_snapshots {s t : Views} {action : ViewAction} (stepped : viewStep s action = some t)
    {caller : Nat} {snapshot : Option JobRow} (found : t.snapshots caller = some snapshot) :
    s.snapshots caller = some snapshot ∨ snapshot = t.row := by
  cases action with
  | commits statement =>
    cases stepped
    exact .inl found
  | begins other =>
    cases stepped
    by_cases same : caller = other
    · subst same
      exact .inr (by simpa using found.symm)
    · exact .inl (by simpa [same] using found)
  | locks other envelope attempt now =>
    simp only [viewStep] at stepped
    split at stepped
    · contradiction
    · cases stepped
      by_cases same : caller = other
      · subst same
        simp at found
      · exact .inl (by simpa [same] using found)

theorem run_snapshots {row : Option JobRow} {s : Views} {actions : List ViewAction}
    (path : run viewStep (.start row) actions = some s) :
    ∀ caller snapshot, s.snapshots caller = some snapshot → Succeeds snapshot s.row := by
  refine run_invariant (P := fun s => ∀ caller snapshot, s.snapshots caller = some snapshot →
    Succeeds snapshot s.row) ?_ path ?_
  · intro s t action before stepped caller snapshot found
    rcases viewStep_snapshots stepped found with earlier | rfl
    · exact (before caller snapshot earlier).trans (viewStep_succeeds stepped)
    · exact .refl _
  · intro caller snapshot found
    cases found

theorem prepareAttempt_stale {envelope : Envelope} {attempt : Int} {now : Time} {old row : JobRow}
    (proposed : proposable envelope attempt now = true) (final : row.status.final = true) :
    prepareAttempt envelope attempt now (some old) (some row) = (some row, .status old.status) := by
  simp [prepareAttempt, proposed, final]

/-- The status that `PrepareAttempt` returns is the one it leaves, and a final job is
not processed again, exactly when the job did not become final between the snapshot
and the lock. -/
theorem prepared_status_is_current_iff {start : Option JobRow} {s : Views} {actions : List ViewAction}
    (path : run viewStep (.start start) actions = some s) {caller : Nat} {snapshot : Option JobRow}
    (began : s.snapshots caller = some snapshot) (envelope : Envelope) (attempt : Int) (now : Time) :
    (∀ status, (prepareAttempt envelope attempt now snapshot s.row).2 = .status status →
      (∃ left, (prepareAttempt envelope attempt now snapshot s.row).1 = some left ∧ left.status = status) ∧
      ∀ row, s.row = some row → row.status.final = true → afterPrepare status ≠ .process) ↔
    (proposable envelope attempt now = true → ∀ old row, snapshot = some old → s.row = some row →
      row.status.final = true → old.status.final = true) := by
  constructor
  · rintro current proposed old row rfl found final
    rw [found, prepareAttempt_stale proposed final] at current
    obtain ⟨⟨left, same, status⟩, _⟩ := current old.status rfl
    cases same
    rwa [← status]
  · intro settled status replied
    have later := run_snapshots path caller snapshot began
    by_cases proposed : proposable envelope attempt now = true
    · have prepared := prepareAttempt_prepared envelope attempt now snapshot s.row
      generalize prepareAttempt envelope attempt now snapshot s.row = outcome at prepared replied ⊢
      generalize s.row = current at *
      cases prepared with
      | refused | unseen _ => contradiction
      | inserted =>
        cases replied
        exact ⟨⟨firstAttemptRow envelope attempt now, rfl, rfl⟩, fun row found => nomatch found⟩
      | updated _ row unfinished =>
        cases replied
        refine ⟨⟨nextAttemptRow attempt now row, rfl, rfl⟩, ?_⟩
        rintro _ ⟨⟩ final
        rw [unfinished] at final
        contradiction
      | stale old row final =>
        cases replied
        have finished := settled proposed old row rfl rfl final
        obtain ⟨next, same, still⟩ := later old rfl
        cases same
        refine ⟨⟨row, rfl, still finished⟩, ?_⟩
        intro _ _ _
        cases status : old.status <;> simp_all [Status.final, afterPrepare]
    · simp [prepareAttempt, proposed] at replied

/-- The status in the snapshot of a caller, the status its `PrepareAttempt` leaves,
and the reply. -/
def observed (actions : List ViewAction) (caller : Nat) (envelope : Envelope) (attempt : Int) (now : Time) :
    Option (Option Status × Option Status × Reply) := do
  let s ← run viewStep (.start none) actions
  let snapshot ← s.snapshots caller
  let (left, reply) := prepareAttempt envelope attempt now snapshot s.row
  some (snapshot.map JobRow.status, left.map JobRow.status, reply)

/-- The job is prepared and succeeds; a second delivery begins after that. -/
def beganAfterSuccess : List ViewAction :=
  [.begins 0, .locks 0 reportJob 1 1, .commits (.markSucceeded 1 ⟨lit "report generated", [], 0⟩ 2), .begins 1]

theorem success_seen_by_snapshot :
    ∃ s snapshot, run viewStep (.start none) beganAfterSuccess = some s ∧ s.snapshots 1 = some snapshot ∧
      (prepareAttempt reportJob 2 3 snapshot s.row).2 = .status .succeeded ∧
      ∃ left, (prepareAttempt reportJob 2 3 snapshot s.row).1 = some left ∧ left.status = .succeeded := by
  have ran : observed beganAfterSuccess 1 reportJob 2 3 =
      some (some .succeeded, some .succeeded, .status .succeeded) := by decide +kernel
  simp only [observed, Option.bind_eq_bind, Option.bind_eq_some_iff, Option.some.injEq, Prod.mk.injEq] at ran
  obtain ⟨s, path, snapshot, began, seen, _, replied⟩ := ran
  refine ⟨s, snapshot, path, began, replied, ?_⟩
  refine ((prepared_status_is_current_iff path began reportJob 2 3).mpr ?_ .succeeded replied).1
  rintro _ old row rfl _ _
  rw [Option.some.inj seen]
  rfl

/-- The job succeeds while the second delivery has its snapshot and not yet the lock. -/
def succeedsAfterSnapshot : List ViewAction :=
  [.begins 0, .locks 0 reportJob 1 1, .begins 1, .commits (.markSucceeded 1 ⟨lit "report generated", [], 0⟩ 2)]

theorem success_missed_by_snapshot :
    observed succeedsAfterSnapshot 1 reportJob 2 3 =
      some (some .processing, some .succeeded, .status .processing) ∧
    afterPrepare .processing = .process := by
  decide +kernel

end EdgeGuard.Jobs
