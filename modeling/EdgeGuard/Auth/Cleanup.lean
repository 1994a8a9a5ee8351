import EdgeGuard.Auth.Rotation
import EdgeGuard.Jobs.Payloads

/-! The cleanup job on the table of refresh tokens. One run deletes at most its batch,
and repeated runs delete everything the payload asks for. Neither the submission nor
the worker compares `Before` with the clock, so that a later instant takes tokens that
are still active. -/
namespace EdgeGuard.Auth
open Go Postgres Transition Jobs

/-- The instants of a row are values of the column type, and it was created before it
expires. -/
structure TokenRow.Stamped (row : TokenRow) : Prop where
  expires : timestamp row.expiresAt = row.expiresAt
  revoked : ∀ instant, row.revokedAt = some instant → timestamp instant = instant
  created : row.createdAt < row.expiresAt

/-- What the column types and constraints say of the rows of `refresh_tokens`. -/
structure Stored (rows : List TokenRow) : Prop where
  ids : (rows.map TokenRow.id).Nodup
  stamped : ∀ row ∈ rows, row.Stamped

/-- A run of `CleanupExpiredTokens` that the database executes, with the rows it
leaves and the count it reports. -/
def Cleans (payload : CleanupPayload) (rows after : List TokenRow) (affected : Nat) : Prop :=
  timestampOk payload.before = true ∧
  ∃ chosen, Candidates rows payload.before payload.batchSize.toNat chosen ∧
    after = rows.filter (·.id ∉ chosen) ∧ affected = rows.countP (·.id ∈ chosen)

/-- The job repeated until it reports no affected row. -/
inductive Repeated (payload : CleanupPayload) : List TokenRow → List TokenRow → Prop
  | done {rows after : List TokenRow} (ran : Cleans payload rows after 0) : Repeated payload rows after
  | again {rows middle after : List TokenRow} {affected : Nat} (ran : Cleans payload rows middle affected)
      (more : affected ≠ 0) (rest : Repeated payload middle after) : Repeated payload rows after

/-- Expired or revoked before the instant. -/
def TokenRow.outdated (row : TokenRow) (instant : Time) : Bool :=
  row.expiresAt < instant || row.revokedAt.any (· < instant)

theorem cleanable_eq_outdated (before : Time) (row : TokenRow) :
    cleanable before row = row.outdated (timestamp before) := rfl

section Ticks
variable (t : Int)

private theorem tick_tick : t / 1000 * 1000 / 1000 * 1000 = t / 1000 * 1000 := by omega

private theorem tick_le : t / 1000 * 1000 ≤ t := by omega

private theorem lt_next_tick : t < t / 1000 * 1000 + 1000 := by omega

private theorem tick_next : (t / 1000 * 1000 + 1000) / 1000 * 1000 = t / 1000 * 1000 + 1000 := by omega

private theorem tick_le_of_lt {instant : Int} (stored : instant / 1000 * 1000 = instant)
    (below : instant < t / 1000 * 1000 + 1000) : instant ≤ t := by omega

end Ticks

theorem timestamp_timestamp (t : Time) : timestamp (timestamp t) = timestamp t := tick_tick t

theorem timestamp_le (t : Time) : timestamp t ≤ t := tick_le t

theorem lt_next_timestamp (t : Time) : t < timestamp t + microsecond := lt_next_tick t

theorem timestamp_next (t : Time) : timestamp (timestamp t + microsecond) = timestamp t + microsecond :=
  tick_next t

theorem stored_le_of_lt {instant now : Time} (stored : timestamp instant = instant)
    (below : instant < timestamp now + microsecond) : instant ≤ now := tick_le_of_lt now stored below

section Run
variable {payload : CleanupPayload} {rows after : List TokenRow} {affected : Nat} {chosen : List Uuid}

/-- The choice that sorts the candidates by `created_at`. -/
def oldest (rows : List TokenRow) (before : Time) (batchSize : Nat) : List Uuid :=
  (((rows.filter (cleanable before)).mergeSort (fun a b => a.createdAt ≤ b.createdAt)).take batchSize).map
    TokenRow.id

theorem oldest_candidates (stored : Stored rows) (before : Time) (batchSize : Nat) :
    Candidates rows before batchSize (oldest rows before batchSize) := by
  generalize sorts : (rows.filter (cleanable before)).mergeSort (fun a b => a.createdAt ≤ b.createdAt) = sorted
  have permuted : sorted.Perm (rows.filter (cleanable before)) := sorts ▸ List.mergeSort_perm _ _
  have ordered : sorted.Pairwise (fun a b => a.createdAt ≤ b.createdAt) := by
    have sorted_by := @List.pairwise_mergeSort TokenRow (fun a b => decide (a.createdAt ≤ b.createdAt))
      (by simpa only [decide_eq_true_eq] using fun _ _ _ => Int.le_trans)
      (by simpa only [Bool.or_eq_true, decide_eq_true_eq] using fun _ _ => Int.le_total _ _)
      (rows.filter (cleanable before))
    rw [sorts] at sorted_by
    simpa using sorted_by
  have member {row : TokenRow} : row ∈ sorted ↔ row ∈ rows ∧ cleanable before row = true := by
    rw [permuted.mem_iff, List.mem_filter]
  have unique : (sorted.map TokenRow.id).Nodup :=
    (permuted.map TokenRow.id).nodup_iff.mpr (stored.ids.sublist (List.filter_sublist.map _))
  rw [oldest, sorts]
  refine ⟨unique.sublist ((List.take_sublist _ _).map _), ?_, ?_, ?_⟩
  · intro id taken
    obtain ⟨row, found, rfl⟩ := List.mem_map.mp taken
    obtain ⟨present, eligible⟩ := member.mp (List.mem_of_mem_take found)
    exact ⟨row, present, rfl, eligible⟩
  · simp [permuted.length_eq]
  · intro row present eligible left taken there chosen
    obtain ⟨first, found, same⟩ := List.mem_map.mp chosen
    obtain ⟨known, _⟩ := member.mp (List.mem_of_mem_take found)
    rw [← List.inj_on_of_nodup_map stored.ids known there same]
    have split : row ∈ sorted.take batchSize ++ sorted.drop batchSize := by
      rw [List.take_append_drop]
      exact member.mpr ⟨present, eligible⟩
    rcases List.mem_append.mp split with early | late
    · exact absurd (List.mem_map_of_mem early) left
    · rw [← List.take_append_drop batchSize sorted, List.pairwise_append] at ordered
      exact ordered.2.2 first found row late

theorem countP_chosen (stored : Stored rows)
    (candidates : Candidates rows payload.before payload.batchSize.toNat chosen) :
    rows.countP (·.id ∈ chosen) = chosen.length := by
  obtain ⟨unique, known, _, _⟩ := candidates
  have permuted : ((rows.filter (·.id ∈ chosen)).map TokenRow.id).Perm chosen := by
    rw [List.perm_ext_iff_of_nodup (stored.ids.sublist (List.filter_sublist.map _)) unique]
    intro id
    constructor
    · intro member
      obtain ⟨row, kept, rfl⟩ := List.mem_map.mp member
      simpa using (List.mem_filter.mp kept).2
    · intro member
      obtain ⟨row, present, rfl, _⟩ := known id member
      exact List.mem_map_of_mem (List.mem_filter.mpr ⟨present, by simpa using member⟩)
  rw [List.countP_eq_length_filter, ← permuted.length_eq, List.length_map]

theorem Cleans.bounded (stored : Stored rows) (ran : Cleans payload rows after affected) :
    affected ≤ payload.batchSize.toNat := by
  obtain ⟨_, chosen, candidates, _, rfl⟩ := ran
  rw [countP_chosen stored candidates, candidates.2.2.1]
  exact Nat.min_le_left _ _

theorem Cleans.deleted (stored : Stored rows) (ran : Cleans payload rows after affected) {row : TokenRow}
    (present : row ∈ rows) (gone : row ∉ after) : cleanable payload.before row = true := by
  obtain ⟨_, chosen, candidates, rfl, _⟩ := ran
  have taken : row.id ∈ chosen := by
    by_contra left
    exact gone (List.mem_filter.mpr ⟨present, by simpa using left⟩)
  obtain ⟨other, there, same, eligible⟩ := candidates.2.1 row.id taken
  cases List.inj_on_of_nodup_map stored.ids there present same
  exact eligible

theorem Cleans.stored (stored : Stored rows) (ran : Cleans payload rows after affected) : Stored after := by
  obtain ⟨_, chosen, _, rfl, _⟩ := ran
  have kept {row : TokenRow} (member : row ∈ rows.filter (·.id ∉ chosen)) : row ∈ rows :=
    (List.mem_filter.mp member).1
  exact ⟨stored.ids.sublist (List.filter_sublist.map _), fun row member => stored.stamped row (kept member)⟩

theorem Cleans.complete (stored : Stored rows) (batch : 1 ≤ payload.batchSize)
    (ran : Cleans payload rows after 0) : after = rows ∧ ∀ row ∈ rows, cleanable payload.before row = false := by
  obtain ⟨_, chosen, candidates, rfl, none⟩ := ran
  rw [countP_chosen stored candidates] at none
  have empty := List.eq_nil_of_length_eq_zero none.symm
  subst empty
  refine ⟨by simp, ?_⟩
  have length := candidates.2.2.1
  have none_left : rows.filter (cleanable payload.before) = [] := by
    apply List.eq_nil_of_length_eq_zero
    simp only [List.length_nil] at length
    omega
  simpa using none_left

theorem Cleans.shrinks (ran : Cleans payload rows after affected) : after.length + affected = rows.length := by
  obtain ⟨_, chosen, _, rfl, rfl⟩ := ran
  rw [← List.countP_eq_length_filter, List.length_eq_countP_add_countP (fun row => decide (row.id ∈ chosen)),
    Nat.add_comm]
  simp

theorem Repeated.complete (stored : Stored rows) (batch : 1 ≤ payload.batchSize)
    (repeated : Repeated payload rows after) : ∀ row ∈ after, cleanable payload.before row = false := by
  induction repeated with
  | done ran =>
    obtain ⟨rfl, none⟩ := ran.complete stored batch
    exact none
  | again ran _ _ ih => exact ih (ran.stored stored)

theorem exists_repeated (stored : Stored rows) (storable : timestampOk payload.before = true) :
    ∃ after, Repeated payload rows after := by
  induction size : rows.length using Nat.strong_induction_on generalizing rows with
  | _ size ih =>
    have candidates := oldest_candidates stored payload.before payload.batchSize.toNat
    have ran : Cleans payload rows _ _ := ⟨storable, _, candidates, rfl, rfl⟩
    by_cases none : rows.countP (·.id ∈ oldest rows payload.before payload.batchSize.toNat) = 0
    · rw [none] at ran
      exact ⟨_, .done ran⟩
    · have smaller := ran.shrinks
      obtain ⟨after, rest⟩ := ih _ (by omega) (ran.stored stored) rfl
      exact ⟨after, .again ran none rest⟩

end Run

/-- The claims of the cleanup on one table, for the instant at which a run executes:
it deletes at most the batch and no active token, and repeated it leaves no token that
was expired or revoked before the payload's instant. -/
structure Tidies (payload : CleanupPayload) (now : Time) (rows : List TokenRow) : Prop where
  batch : ∀ after affected, Cleans payload rows after affected → (affected : Int) ≤ payload.batchSize
  active : ∀ after affected, Cleans payload rows after affected →
    ∀ row ∈ rows, row.isActive now = true → row ∈ after
  outdated : ∀ after, Repeated payload rows after →
    ∀ row ∈ rows, row.outdated payload.before = true → row ∉ after

section Instant
variable {payload : CleanupPayload} {now : Time}

theorem tidies_of_past {rows : List TokenRow} (passed : checkCleanup payload = .ok ()) (stored : Stored rows)
    (past : timestampOk payload.before = true → timestamp payload.before ≤ timestamp now + microsecond ∧
      timestamp payload.before = payload.before) : Tidies payload now rows where
  batch := by
    intro after affected ran
    have bound := ran.bounded stored
    have positive := checkCleanup_batch passed
    omega
  active := by
    intro after affected ran row present active
    by_contra gone
    have eligible := ran.deleted stored present gone
    simp only [cleanable, Bool.or_eq_true, decide_eq_true_eq] at eligible
    simp only [TokenRow.isActive, Bool.and_eq_true, decide_eq_true_eq, Option.isNone_iff_eq_none] at active
    rcases eligible with expired | revoked
    · have below := Int.lt_of_lt_of_le expired (past ran.1).1
      exact absurd active.2 (Int.not_lt.mpr (stored_le_of_lt (stored.stamped row present).expires below))
    · rw [active.1] at revoked
      contradiction
  outdated := by
    intro after repeated row _ outdated left
    have storable : timestampOk payload.before = true := by
      cases repeated with
      | done ran => exact ran.1
      | again ran _ _ => exact ran.1
    have none := repeated.complete stored (checkCleanup_batch passed) row left
    rw [cleanable_eq_outdated, (past storable).2, outdated] at none
    contradiction

/-- A token without a revocation. -/
def openToken (expiresAt : Time) : TokenRow :=
  ⟨tokenID 1, tokenID 1, [], expiresAt, none, expiresAt - microsecond⟩

theorem openToken_stored {expiresAt : Time} (aligned : timestamp expiresAt = expiresAt) :
    Stored [openToken expiresAt] where
  ids := by simp
  stamped := by
    simp only [List.mem_singleton, forall_eq]
    exact ⟨aligned, nofun, Int.sub_lt_self _ (by decide)⟩

theorem past_of_tidies (passed : checkCleanup payload = .ok ()) (storable : timestampOk payload.before = true)
    (tidies : ∀ rows, Stored rows → Tidies payload now rows) :
    timestamp payload.before ≤ timestamp now + microsecond ∧ timestamp payload.before = payload.before := by
  refine ⟨?_, ?_⟩
  · -- a token that expires at the next value of the column
    by_contra late
    have expires := Int.not_le.mp late
    have stored := openToken_stored (timestamp_next now)
    have ran : Cleans payload [openToken (timestamp now + microsecond)] [] 1 := by
      have eligible : cleanable payload.before (openToken (timestamp now + microsecond)) = true := by
        simp [cleanable, openToken, expires]
      have batch := checkCleanup_batch passed
      refine ⟨storable, [tokenID 1], ⟨by simp, ?_, ?_, ?_⟩, ?_, ?_⟩
      · simpa [openToken] using eligible
      · simp only [List.filter_cons, eligible, if_true, List.filter_nil, List.length_singleton]
        omega
      · simp [openToken]
      · simp [openToken]
      · simp [openToken]
    have kept := (tidies _ stored).active [] 1 ran _ (List.mem_singleton_self _)
      (by simpa [TokenRow.isActive, openToken] using lt_next_timestamp now)
    contradiction
  · -- a token that expires at the value that the instant is cut to
    by_contra cut
    have below : timestamp payload.before < payload.before := lt_of_le_of_ne (timestamp_le _) cut
    have stored := openToken_stored (timestamp_timestamp payload.before)
    have ran : Cleans payload [openToken (timestamp payload.before)] [openToken (timestamp payload.before)] 0 := by
      have spared : cleanable payload.before (openToken (timestamp payload.before)) = false := by
        simp [cleanable, openToken]
      refine ⟨storable, [], ⟨.nil, by simp, ?_, by simp⟩, by simp, by simp⟩
      simp [spared]
    exact (tidies _ stored).outdated _ (.done ran) _ (List.mem_singleton_self _)
      (by simp [TokenRow.outdated, openToken, below]) (List.mem_singleton_self _)

/-- For every payload that `NewCleanupPayload` accepts, which the worker's check then
passes, and every execution time: on all tables the job deletes at most its batch and no
active token, and repeated until it reports no row leaves none that was expired or revoked
before the payload's instant, exactly when that instant is a value of the column type and
at most one tick after the execution time. The repetition ends on every table. -/
theorem cleanup_tidies_iff {before : Time} {batchSize : Int}
    (accepted : newCleanupPayload before batchSize = .ok payload) (now : Time) :
    checkCleanup payload = .ok () ∧
    ((∀ rows, Stored rows → Tidies payload now rows) ↔
      (timestampOk payload.before = true → timestamp payload.before ≤ timestamp now + microsecond ∧
        timestamp payload.before = payload.before)) ∧
    ∀ rows, Stored rows → timestampOk payload.before = true → ∃ after, Repeated payload rows after := by
  have passed := newCleanupPayload_checked accepted
  refine ⟨passed, ⟨?_, ?_⟩, ?_⟩
  · intro tidies storable
    exact past_of_tidies passed storable tidies
  · intro past rows stored
    exact tidies_of_past passed stored past
  · intro rows stored storable
    exact exists_repeated stored storable

end Instant

theorem cleanup_of_past_tidies :
    newCleanupPayload hour 0 = .ok ⟨hour, 500⟩ ∧ Tidies ⟨hour, 500⟩ hour [openToken microsecond] := by
  have accepted : newCleanupPayload hour 0 = .ok ⟨hour, 500⟩ := by decide
  obtain ⟨_, tidies, _⟩ := cleanup_tidies_iff accepted hour
  exact ⟨accepted, tidies.mpr (by decide) _ (openToken_stored (by decide))⟩

/-- A login at the epoch, with a token for 720 hours. -/
def loggedIn : List TokenAction :=
  [.login 0 (lit "user@example.com") (lit "abc123xyz") 1000 (List.replicate 32 1),
    .create 0 (tokenID 1) 1000 false]

/-- The job with an instant in 1000 hours is accepted, and takes the token at once. -/
theorem cleanup_of_future_deletes_active_token :
    newCleanupPayload (1000 * hour) 0 = .ok ⟨1000 * hour, 500⟩ ∧
    checkCleanup ⟨1000 * hour, 500⟩ = .ok () ∧
    (run (tokenStep sampleServices) (.start [sampleUser]) loggedIn).map
      (fun s => s.rows.map (fun row => (row.id, row.isActive 2000))) = some [(tokenID 1, true)] ∧
    (run (tokenStep sampleServices) (.start [sampleUser])
      (loggedIn ++ [.cleanup (1000 * hour) 500 [tokenID 1] false])).map (·.rows) = some [] := by
  decide +kernel

variable {services : Services} {s t : Sessions} {action : TokenAction}

theorem insertRefreshToken_stamped {users : List UserRow} {rows : List TokenRow} {id : Uuid}
    {createdAt : Time} {token : RefreshToken} {row : TokenRow}
    (inserted : insertRefreshToken users rows id createdAt token = some row) : row.Stamped := by
  simp only [insertRefreshToken, Option.bind_eq_bind, Option.bind_eq_some_iff] at inserted
  obtain ⟨userID, _, inserted⟩ := inserted
  split at inserted
  · rename_i checked
    cases inserted
    refine ⟨timestamp_timestamp _, ?_, checked.2.2.2.1⟩
    intro instant revoked
    contradiction
  · contradiction

theorem updateTokens_stamped {selected : TokenRow → Bool} {change : TokenRow → TokenRow}
    {rows after : List TokenRow} (updated : updateTokens selected change rows = some after)
    (stamps : ∀ row, row.Stamped → (change row).Stamped) (stamped : ∀ row ∈ rows, row.Stamped) :
    ∀ row ∈ after, row.Stamped := by
  rw [(updateTokens_map updated).1]
  intro row member
  obtain ⟨before, present, rfl⟩ := List.mem_map.mp member
  split
  · exact stamps before (stamped before present)
  · exact stamped before present

theorem rotateRefreshToken_stamped {users : List UserRow} {rows after : List TokenRow} {current : Str}
    {replacement : RefreshToken} {now createdAt : Time} {id : Uuid} {fault : Option RotationFault} {row : TokenRow}
    (rotated : rotateRefreshToken users rows current replacement now id createdAt fault = .ok (after, row))
    (stamped : ∀ row ∈ rows, row.Stamped) : ∀ row ∈ after, row.Stamped := by
  unfold rotateRefreshToken at rotated
  obtain ⟨_, rotated⟩ := check_passed rotated
  split at rotated
  · contradiction
  · split at rotated
    · contradiction
    · rename_i revoked revokes
      obtain ⟨_, rotated⟩ := check_passed rotated
      split at rotated
      · contradiction
      · rename_i created inserts
        obtain ⟨_, rotated⟩ := check_passed rotated
        cases rotated
        intro other member
        rcases List.mem_append.mp member with old | new
        · refine updateTokens_stamped revokes (fun row before => ?_) stamped other old
          exact ⟨before.expires, by simp [timestamp_timestamp], before.created⟩
        · cases List.mem_singleton.mp new
          exact insertRefreshToken_stamped inserts

theorem tokenStep_stamped (stamped : ∀ row ∈ s.rows, row.Stamped)
    (stepped : tokenStep services s action = some t) : ∀ row ∈ t.rows, row.Stamped := by
  cases action with
  | register user =>
    simp only [tokenStep] at stepped
    split at stepped <;> cases stepped
    exact stamped
  | login caller email password now random =>
    simp only [tokenStep] at stepped
    split at stepped
    · contradiction
    · split at stepped <;> cases stepped <;> exact stamped
  | create caller id createdAt failed =>
    simp only [tokenStep] at stepped
    split at stepped
    · split at stepped
      · contradiction
      · split at stepped
        · cases stepped
          exact stamped
        · split at stepped <;> cases stepped
          · exact stamped
          · intro row member
            rcases List.mem_append.mp member with old | new
            · exact stamped row old
            · cases List.mem_singleton.mp new
              exact insertRefreshToken_stamped ‹_›
    · contradiction
  | refresh caller input now failed =>
    simp only [tokenStep] at stepped
    split at stepped
    · contradiction
    · split at stepped <;> cases stepped <;> exact stamped
  | build caller random failed =>
    simp only [tokenStep] at stepped
    split at stepped
    · split at stepped <;> cases stepped <;> exact stamped
    · contradiction
  | rotate caller id createdAt fault =>
    simp only [tokenStep] at stepped
    split at stepped
    · split at stepped
      · contradiction
      · split at stepped <;> cases stepped
        · exact stamped
        · exact rotateRefreshToken_stamped ‹_› stamped
    · contradiction
  | logout input now failed =>
    simp only [tokenStep] at stepped
    split at stepped
    · cases stepped
      exact stamped
    · split at stepped <;> cases stepped
      · exact stamped
      · rename_i rows revokes
        refine updateTokens_stamped revokes (fun row before => ⟨before.expires, ?_, before.created⟩) stamped
        intro instant set
        cases earlier : row.revokedAt with
        | none =>
          simp only [earlier, Option.none_or, Option.some.injEq] at set
          rw [← set, timestamp_timestamp]
        | some revoked =>
          simp only [earlier, Option.some_or] at set
          exact before.revoked instant (earlier.trans set)
  | cleanup before batchSize chosen failed =>
    simp only [tokenStep] at stepped
    split at stepped
    · cases stepped
      exact stamped
    · split at stepped <;> cases stepped
      exact fun row member => stamped row (List.mem_filter.mp member).1

/-- The tables of the running system are among those that the job is judged on. -/
theorem run_stored {users : List UserRow} {actions : List TokenAction}
    (path : run (tokenStep services) (.start users) actions = some s) : Stored s.rows := by
  have stamped := run_invariant (P := fun u => ∀ row ∈ u.rows, row.Stamped)
    (fun before stepped => tokenStep_stamped before stepped) path nofun
  exact ⟨(run_linked path).ids, stamped⟩

/-- A run of the job is the cleanup of the running system. -/
theorem cleans_step {payload : CleanupPayload} {after : List TokenRow} {affected : Nat}
    (ran : Cleans payload s.rows after affected) : ∃ chosen,
      tokenStep services s (.cleanup payload.before payload.batchSize.toNat chosen false) =
        some { s with rows := after } := by
  obtain ⟨_, chosen, candidates, rfl, _⟩ := ran
  exact ⟨chosen, by simp [tokenStep, candidates]⟩

end EdgeGuard.Auth
