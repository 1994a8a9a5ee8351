import EdgeGuard.Auth.RefreshTokens
import Mathlib.Data.List.Nodup

/-! Rotation under interleaving. The activity check of a refresh is made on a row
that may be gone or revoked by the time of its transaction, so single use rests on
the guard of the update; the chain of replacements of a login then has at most its
last token unrevoked. -/
namespace EdgeGuard.Auth
open Go Postgres Transition
variable {services : Services} {s t : Sessions} {action : TokenAction}

/-- Everything an action can do. -/
inductive TokenEffect (services : Services) (s : Sessions) : TokenAction → Sessions → Prop
  | stays (action : TokenAction) (other : action.refreshes = false) : TokenEffect services s action s
  | registers (user : UserRow) :
      TokenEffect services s (.register user) { s with users := s.users ++ [user] }
  | logsIn (caller : Nat) (email password : Str) (now : Time) (random : List UInt8) (token : RefreshToken) :
      TokenEffect services s (.login caller email password now random)
        (s.goOn caller (some (.loggingIn token)))
  | drops (caller : Nat) (id : Uuid) (createdAt : Time) (failed : Bool) :
      TokenEffect services s (.create caller id createdAt failed) (s.goOn caller none)
  | creates (caller : Nat) (id : Uuid) (createdAt : Time) (failed : Bool) (token : RefreshToken)
      (row : TokenRow) (fresh : s.Fresh id) (inserted : Inserted id token row) :
      TokenEffect services s (.create caller id createdAt failed) (s.created caller row)
  | fails (action : TokenAction) (caller : Nat) (err : TokenError) :
      TokenEffect services s action (s.fails caller err)
  | reads (caller : Nat) (input : Str) (now : Time) (failed : Bool) (current : TokenRow)
      (found : current ∈ s.rows) :
      TokenEffect services s (.refresh caller input now failed) (s.goOn caller (some (.refreshing current now)))
  | builds (caller : Nat) (random : List UInt8) (failed : Bool) (current : TokenRow) (now : Time)
      (replacement : RefreshToken) (busy : s.calls caller = some (.refreshing current now))
      (user : Uuid.parse replacement.userID = some current.userID) :
      TokenEffect services s (.build caller random failed)
        (s.goOn caller (some (.rotating current replacement now)))
  | rotates (caller : Nat) (id : Uuid) (createdAt : Time) (fault : Option RotationFault)
      (current : TokenRow) (replacement : RefreshToken) (now : Time) (revoked : List TokenRow) (row : TokenRow)
      (busy : s.calls caller = some (.rotating current replacement now)) (fresh : s.Fresh id)
      (revokes : revokeRefreshTokenByID s.rows current.id now = some revoked)
      (inserted : Inserted id replacement row) :
      TokenEffect services s (.rotate caller id createdAt fault)
        (s.rotated caller current (revoked ++ [row]) row)
  | revokes (input : Str) (now : Time) (failed : Bool) (tokenHash : Str) (rows : List TokenRow)
      (revoked : revokeRefreshTokenByHash s.rows tokenHash now = some rows) :
      TokenEffect services s (.logout input now failed) { s with rows }
  | cleans (before : Time) (batchSize : Nat) (chosen : List Uuid) (failed : Bool) :
      TokenEffect services s (.cleanup before batchSize chosen failed)
        { s with rows := s.rows.filter (·.id ∉ chosen) }

theorem tokenStep_effect (stepped : tokenStep services s action = some t) :
    TokenEffect services s action t := by
  cases action with
  | register user =>
    simp only [tokenStep] at stepped
    split at stepped
    · cases stepped
      exact .registers user
    · contradiction
  | login caller email password now random =>
    simp only [tokenStep] at stepped
    split at stepped
    · contradiction
    · split at stepped <;> cases stepped
      · exact .stays _ rfl
      · exact .logsIn caller email password now random _
  | create caller id createdAt failed =>
    simp only [tokenStep] at stepped
    split at stepped
    · split at stepped
      · contradiction
      · rename_i fresh
        split at stepped
        · cases stepped
          exact .drops caller id createdAt failed
        · split at stepped <;> cases stepped
          · exact .drops caller id createdAt failed
          · exact .creates caller id createdAt failed _ _ (not_not.mp fresh)
              (insertRefreshToken_inserted ‹_›)
    · contradiction
  | refresh caller input now failed =>
    simp only [tokenStep] at stepped
    split at stepped
    · contradiction
    · split at stepped <;> cases stepped
      · exact .fails _ caller _
      · exact .reads caller input now failed _ (readCurrent_mem ‹_›)
  | build caller random failed =>
    simp only [tokenStep] at stepped
    split at stepped
    · split at stepped <;> cases stepped
      · exact .fails _ caller _
      · exact .builds caller random failed _ _ _ ‹_› (buildReplacement_userID ‹_›)
    · contradiction
  | rotate caller id createdAt fault =>
    simp only [tokenStep] at stepped
    split at stepped
    · split at stepped
      · contradiction
      · rename_i fresh
        split at stepped <;> cases stepped
        · exact .fails _ caller _
        · rename_i rotated
          obtain ⟨revoked, revokes, rfl, inserted⟩ := rotateRefreshToken_ok rotated
          exact .rotates caller id createdAt fault _ _ _ revoked _ ‹_› (not_not.mp fresh) revokes inserted
    · contradiction
  | logout input now failed =>
    simp only [tokenStep] at stepped
    split at stepped
    · cases stepped
      exact .stays _ rfl
    · split at stepped <;> cases stepped
      · exact .stays _ rfl
      · exact .revokes input now failed _ _ ‹_›
  | cleanup before batchSize chosen failed =>
    simp only [tokenStep] at stepped
    split at stepped
    · cases stepped
      exact .stays _ rfl
    · split at stepped
      · cases stepped
        exact .cleans before batchSize chosen failed
      · contradiction

/-- The same token later; a revocation that was set is kept. -/
structure Revises (row after : TokenRow) : Prop where
  id : after.id = row.id
  userID : after.userID = row.userID
  kept : row.revokedAt ≠ none → after.revokedAt = row.revokedAt

theorem Revises.refl (row : TokenRow) : Revises row row := ⟨rfl, rfl, fun _ => rfl⟩

theorem updateTokens_map {selected : TokenRow → Bool} {change : TokenRow → TokenRow}
    {rows after : List TokenRow} (updated : updateTokens selected change rows = some after) :
    after = rows.map (fun row => if selected row then change row else row) ∧
      ∃ row ∈ rows, selected row = true := by
  unfold updateTokens at updated
  split at updated
  · rename_i found
    cases updated
    exact ⟨rfl, List.any_eq_true.mp found⟩
  · contradiction

theorem updateTokens_revises {selected : TokenRow → Bool} {change : TokenRow → TokenRow}
    {rows after : List TokenRow} (updated : updateTokens selected change rows = some after)
    (revises : ∀ row, selected row = true → Revises row (change row)) {row : TokenRow} (member : row ∈ after) :
    ∃ before ∈ rows, Revises before row := by
  rw [(updateTokens_map updated).1] at member
  obtain ⟨before, present, rfl⟩ := List.mem_map.mp member
  refine ⟨before, present, ?_⟩
  split
  · exact revises before ‹_›
  · exact .refl before

theorem updateTokens_ids {selected : TokenRow → Bool} {change : TokenRow → TokenRow}
    {rows after : List TokenRow} (updated : updateTokens selected change rows = some after)
    (revises : ∀ row, selected row = true → Revises row (change row)) :
    after.map TokenRow.id = rows.map TokenRow.id := by
  rw [(updateTokens_map updated).1, List.map_map]
  apply List.map_congr_left
  intro row _
  simp only [Function.comp_apply]
  split
  · exact (revises row ‹_›).id
  · rfl

theorem revokeByID_revises (id : Uuid) (now : Time) (row : TokenRow)
    (selected : (row.id = id && row.revokedAt.isNone && timestamp now < row.expiresAt) = true) :
    Revises row { row with revokedAt := some (timestamp now) } := by
  simp only [Bool.and_eq_true, Option.isNone_iff_eq_none] at selected
  exact ⟨rfl, rfl, fun set => absurd selected.1.2 set⟩

theorem revokeByHash_revises (now : Time) (row : TokenRow) :
    Revises row { row with revokedAt := row.revokedAt.or (some (timestamp now)) } := by
  refine ⟨rfl, rfl, fun set => ?_⟩
  obtain ⟨instant, same⟩ := Option.ne_none_iff_exists'.mp set
  simp [same]

/-- A row after an action is one from before, or a new one. -/
theorem tokenStep_row (stepped : tokenStep services s action = some t) {after : TokenRow}
    (member : after ∈ t.rows) :
    (∃ row ∈ s.rows, Revises row after) ∨
      (s.Fresh after.id ∧ after.revokedAt = none ∧ (after.id, after.userID) ∈ t.issued) := by
  cases tokenStep_effect stepped with
  | creates _ id _ _ _ row fresh inserted =>
    rcases List.mem_append.mp member with old | new
    · exact .inl ⟨after, old, .refl after⟩
    · cases List.mem_singleton.mp new
      exact .inr ⟨inserted.id ▸ fresh, inserted.unrevoked, by simp [Sessions.created]⟩
  | rotates _ id _ _ current _ now revoked row _ fresh revokes inserted =>
    rcases List.mem_append.mp member with old | new
    · exact .inl (updateTokens_revises revokes (revokeByID_revises current.id now) old)
    · cases List.mem_singleton.mp new
      exact .inr ⟨inserted.id ▸ fresh, inserted.unrevoked, by simp [Sessions.rotated]⟩
  | revokes _ now _ tokenHash rows revoked =>
    exact .inl (updateTokens_revises revoked (fun row _ => revokeByHash_revises now row) member)
  | cleans _ _ _ _ => exact .inl ⟨after, (List.mem_filter.mp member).1, .refl after⟩
  | _ => exact .inl ⟨after, member, .refl after⟩

theorem tokenStep_issued (stepped : tokenStep services s action = some t) :
    t.issued = s.issued ∨ ∃ id user, s.Fresh id ∧ t.issued = s.issued ++ [(id, user)] := by
  cases tokenStep_effect stepped with
  | creates _ id _ _ _ row fresh inserted => exact .inr ⟨row.id, row.userID, inserted.id ▸ fresh, rfl⟩
  | rotates _ id _ _ _ _ _ _ row _ fresh _ inserted =>
    exact .inr ⟨row.id, row.userID, inserted.id ▸ fresh, rfl⟩
  | _ => exact .inl rfl

theorem tokenStep_issued_mem (stepped : tokenStep services s action = some t) {entry : Uuid × Uuid}
    (member : entry ∈ s.issued) : entry ∈ t.issued := by
  rcases tokenStep_issued stepped with same | ⟨id, user, _, more⟩
  · rwa [same]
  · rw [more]
    exact List.mem_append_left _ member

theorem goOn_calls {caller other : Nat} {moved : Option Work} {work : Work}
    (found : (s.goOn caller moved).calls other = some work) :
    s.calls other = some work ∨ caller = other ∧ moved = some work := by
  by_cases same : other = caller
  · subst same
    exact .inr ⟨rfl, by simpa [Sessions.goOn] using found⟩
  · exact .inl (by simpa [Sessions.goOn, same] using found)

/-- How a call comes to what it is about to do. -/
inductive Came (s : Sessions) (caller : Nat) : Work → Prop
  | same (work : Work) (busy : s.calls caller = some work) : Came s caller work
  | loggingIn (token : RefreshToken) : Came s caller (.loggingIn token)
  | refreshing (current : TokenRow) (now : Time) (found : current ∈ s.rows) :
      Came s caller (.refreshing current now)
  | rotating (current : TokenRow) (replacement : RefreshToken) (now : Time)
      (busy : s.calls caller = some (.refreshing current now))
      (user : Uuid.parse replacement.userID = some current.userID) :
      Came s caller (.rotating current replacement now)

theorem tokenStep_calls (stepped : tokenStep services s action = some t) {caller : Nat} {work : Work}
    (found : t.calls caller = some work) : Came s caller work := by
  cases tokenStep_effect stepped with
  | stays _ _ | registers _ | revokes _ _ _ _ _ _ | cleans _ _ _ _ => exact .same work found
  | logsIn _ _ _ _ _ token =>
    rcases goOn_calls found with before | ⟨rfl, ⟨⟩⟩
    · exact .same work before
    · exact .loggingIn token
  | drops _ _ _ _ | creates _ _ _ _ _ _ _ _ | fails _ _ _ | rotates _ _ _ _ _ _ _ _ _ _ _ _ _ =>
    rcases goOn_calls found with before | ⟨_, ⟨⟩⟩
    exact .same work before
  | reads _ _ now _ current known =>
    rcases goOn_calls found with before | ⟨rfl, ⟨⟩⟩
    · exact .same work before
    · exact .refreshing current now known
  | builds _ _ _ current now replacement busy user =>
    rcases goOn_calls found with before | ⟨rfl, ⟨⟩⟩
    · exact .same work before
    · exact .rotating current replacement now busy user

structure Linked (s : Sessions) : Prop where
  ids : (s.rows.map TokenRow.id).Nodup
  known : ∀ row ∈ s.rows, (row.id, row.userID) ∈ s.issued
  owners : (s.issued.map Prod.fst).Nodup
  reading : ∀ caller current now, s.calls caller = some (.refreshing current now) →
    (current.id, current.userID) ∈ s.issued
  rotating : ∀ caller current replacement now, s.calls caller = some (.rotating current replacement now) →
    (current.id, current.userID) ∈ s.issued ∧ Uuid.parse replacement.userID = some current.userID
  single : (s.replaced.map Prod.fst).Nodup
  consumed : ∀ pair ∈ s.replaced, ∀ row ∈ s.rows, row.id = pair.1 → row.revokedAt ≠ none
  users : ∀ pair ∈ s.replaced, ∃ user, (pair.1, user) ∈ s.issued ∧ (pair.2, user) ∈ s.issued

theorem start_linked (users : List UserRow) : Linked (.start users) where
  ids := .nil
  known := nofun
  owners := .nil
  reading _ _ _ busy := nomatch busy
  rotating _ _ _ _ busy := nomatch busy
  single := .nil
  consumed := nofun
  users := nofun

theorem step_ids (linked : Linked s) (stepped : tokenStep services s action = some t) :
    (t.rows.map TokenRow.id).Nodup := by
  cases tokenStep_effect stepped with
  | creates _ id _ _ _ row fresh inserted =>
    refine unique_insert.mpr ⟨linked.ids, fun other member => ?_⟩
    rw [inserted.id]
    exact fresh _ (linked.known other member)
  | rotates _ id _ _ current _ now revoked row _ fresh revokes inserted =>
    have revises := revokeByID_revises current.id now
    refine unique_insert.mpr ⟨?_, fun other member => ?_⟩
    · rw [updateTokens_ids revokes revises]
      exact linked.ids
    · obtain ⟨before, old, same⟩ := updateTokens_revises revokes revises member
      rw [inserted.id, same.id]
      exact fresh _ (linked.known before old)
  | revokes _ now _ tokenHash rows revoked =>
    rw [updateTokens_ids revoked (fun row _ => revokeByHash_revises now row)]
    exact linked.ids
  | cleans _ _ _ _ => exact linked.ids.sublist (List.filter_sublist.map _)
  | _ => exact linked.ids

theorem step_reading (linked : Linked s) (stepped : tokenStep services s action = some t)
    (caller : Nat) (current : TokenRow) (now : Time)
    (busy : t.calls caller = some (.refreshing current now)) : (current.id, current.userID) ∈ t.issued := by
  apply tokenStep_issued_mem stepped
  cases tokenStep_calls stepped busy with
  | same _ before => exact linked.reading caller current now before
  | refreshing _ _ found => exact linked.known current found

theorem step_rotating (linked : Linked s) (stepped : tokenStep services s action = some t)
    (caller : Nat) (current : TokenRow) (replacement : RefreshToken) (now : Time)
    (busy : t.calls caller = some (.rotating current replacement now)) :
    (current.id, current.userID) ∈ t.issued ∧ Uuid.parse replacement.userID = some current.userID := by
  cases tokenStep_calls stepped busy with
  | same _ before =>
    obtain ⟨known, user⟩ := linked.rotating caller current replacement now before
    exact ⟨tokenStep_issued_mem stepped known, user⟩
  | rotating _ _ _ before user =>
    exact ⟨tokenStep_issued_mem stepped (linked.reading caller current now before), user⟩

theorem step_known (linked : Linked s) (stepped : tokenStep services s action = some t)
    (row : TokenRow) (member : row ∈ t.rows) : (row.id, row.userID) ∈ t.issued := by
  rcases tokenStep_row stepped member with ⟨before, old, revises⟩ | ⟨_, _, issued⟩
  · rw [revises.id, revises.userID]
    exact tokenStep_issued_mem stepped (linked.known before old)
  · exact issued

theorem step_owners (linked : Linked s) (stepped : tokenStep services s action = some t) :
    (t.issued.map Prod.fst).Nodup := by
  rcases tokenStep_issued stepped with same | ⟨id, user, fresh, more⟩
  · rw [same]
    exact linked.owners
  · rw [more]
    exact unique_insert.mpr ⟨linked.owners, fresh⟩

/-- The update of a rotation finds its token unrevoked, and no other row has the identifier. -/
theorem revoked_row (linked : Linked s) {current : TokenRow} {now : Time} {revoked : List TokenRow}
    (revokes : revokeRefreshTokenByID s.rows current.id now = some revoked) :
    (∃ row ∈ s.rows, row.id = current.id ∧ row.revokedAt = none) ∧
      ∀ row ∈ revoked, row.id = current.id → row.revokedAt ≠ none := by
  obtain ⟨mapped, row, present, selected⟩ := updateTokens_map revokes
  have guards : (row.id = current.id ∧ row.revokedAt = none) ∧ timestamp now < row.expiresAt := by
    simpa using selected
  refine ⟨⟨row, present, guards.1⟩, ?_⟩
  rw [mapped]
  intro after member same
  obtain ⟨before, old, rfl⟩ := List.mem_map.mp member
  have id : before.id = row.id := by
    rw [guards.1.1, ← same]
    split <;> rfl
  cases List.inj_on_of_nodup_map linked.ids old present id
  simp [selected]

theorem tokenStep_replaced (stepped : tokenStep services s action = some t) :
    t.replaced = s.replaced ∨
    ∃ caller current replacement now revoked row,
      s.calls caller = some (.rotating current replacement now) ∧
      revokeRefreshTokenByID s.rows current.id now = some revoked ∧ t.rows = revoked ++ [row] ∧
      t.replaced = s.replaced ++ [(current.id, row.id)] ∧
      Uuid.parse replacement.userID = some row.userID ∧ (row.id, row.userID) ∈ t.issued ∧ s.Fresh row.id := by
  cases tokenStep_effect stepped with
  | rotates caller id _ _ current replacement now revoked row busy fresh revokes inserted =>
    exact .inr ⟨caller, current, replacement, now, revoked, row, busy, revokes, rfl, rfl, inserted.user,
      by simp [Sessions.rotated], inserted.id ▸ fresh⟩
  | _ => exact .inl rfl

theorem step_single (linked : Linked s) (stepped : tokenStep services s action = some t) :
    (t.replaced.map Prod.fst).Nodup := by
  rcases tokenStep_replaced stepped with same | ⟨_, current, _, now, revoked, row, _, revokes, _, more, _⟩
  · rw [same]
    exact linked.single
  · rw [more]
    refine unique_insert.mpr ⟨linked.single, fun pair member same => ?_⟩
    obtain ⟨⟨found, present, id, unrevoked⟩, _⟩ := revoked_row linked revokes
    exact linked.consumed pair member found present (id.trans same.symm) unrevoked

theorem step_consumed (linked : Linked s) (stepped : tokenStep services s action = some t)
    (pair : Uuid × Uuid) (member : pair ∈ t.replaced) (row : TokenRow) (present : row ∈ t.rows)
    (same : row.id = pair.1) : row.revokedAt ≠ none := by
  have earlier (old : pair ∈ s.replaced) : row.revokedAt ≠ none := by
    rcases tokenStep_row stepped present with ⟨before, known, revises⟩ | ⟨fresh, _⟩
    · have set := linked.consumed pair old before known (revises.id.symm.trans same)
      rwa [revises.kept set]
    · obtain ⟨user, issued, _⟩ := linked.users pair old
      exact (fresh _ issued same.symm).elim
  rcases tokenStep_replaced stepped with unchanged |
    ⟨caller, current, replacement, now, revoked, created, busy, revokes, rows, more, _, _, fresh⟩
  · exact earlier (unchanged ▸ member)
  · rw [more] at member
    rcases List.mem_append.mp member with old | new
    · exact earlier old
    · cases List.mem_singleton.mp new
      rw [rows] at present
      rcases List.mem_append.mp present with kept | last
      · exact (revoked_row linked revokes).2 row kept same
      · cases List.mem_singleton.mp last
        exact (fresh _ (linked.rotating caller current replacement now busy).1 same.symm).elim

theorem step_users (linked : Linked s) (stepped : tokenStep services s action = some t)
    (pair : Uuid × Uuid) (member : pair ∈ t.replaced) :
    ∃ user, (pair.1, user) ∈ t.issued ∧ (pair.2, user) ∈ t.issued := by
  have earlier (old : pair ∈ s.replaced) : ∃ user, (pair.1, user) ∈ t.issued ∧ (pair.2, user) ∈ t.issued := by
    obtain ⟨user, first, second⟩ := linked.users pair old
    exact ⟨user, tokenStep_issued_mem stepped first, tokenStep_issued_mem stepped second⟩
  rcases tokenStep_replaced stepped with unchanged |
    ⟨caller, current, replacement, now, revoked, created, busy, _, _, more, parsed, issued, _⟩
  · exact earlier (unchanged ▸ member)
  · rw [more] at member
    rcases List.mem_append.mp member with old | new
    · exact earlier old
    · cases List.mem_singleton.mp new
      obtain ⟨known, user⟩ := linked.rotating caller current replacement now busy
      have same : current.userID = created.userID := Option.some.inj (user.symm.trans parsed)
      exact ⟨current.userID, tokenStep_issued_mem stepped known, by rwa [same]⟩

theorem step_linked (linked : Linked s) (stepped : tokenStep services s action = some t) : Linked t where
  ids := step_ids linked stepped
  known := step_known linked stepped
  owners := step_owners linked stepped
  reading := step_reading linked stepped
  rotating := step_rotating linked stepped
  single := step_single linked stepped
  consumed := step_consumed linked stepped
  users := step_users linked stepped

theorem run_linked {users : List UserRow} {actions : List TokenAction}
    (path : run (tokenStep services) (.start users) actions = some s) : Linked s :=
  run_invariant step_linked path (start_linked users)

/-- The token came from the other one by rotations. -/
def Sessions.Chain (s : Sessions) : Uuid → Uuid → Prop :=
  Relation.ReflTransGen (fun old new => (old, new) ∈ s.replaced)

/-- The token that a login created and its successive replacements. -/
def Sessions.Lineage (s : Sessions) (login id : Uuid) : Prop := login ∈ s.logins ∧ s.Chain login id

/-- A chain of rotations has one end. -/
theorem Linked.chain_end (linked : Linked s) {login first second : Uuid} (firstIn : s.Chain login first)
    (secondIn : s.Chain login second) (firstEnd : ∀ new, (first, new) ∉ s.replaced)
    (secondEnd : ∀ new, (second, new) ∉ s.replaced) : first = second := by
  have functional : Relator.RightUnique (fun old new => (old, new) ∈ s.replaced) := by
    intro old new other left right
    exact congrArg Prod.snd (List.inj_on_of_nodup_map linked.single left right rfl)
  have last {start stop : Uuid} (ends : ∀ new, (start, new) ∉ s.replaced) (chain : s.Chain start stop) :
      start = stop := by
    rcases chain.cases_head with same | ⟨next, replaced, _⟩
    · exact same
    · exact absurd replaced (ends next)
  rcases Relation.ReflTransGen.total_of_right_unique functional firstIn secondIn with onwards | back
  · exact last firstEnd onwards
  · exact (last secondEnd back).symm

theorem Linked.unrevoked_end (linked : Linked s) {row : TokenRow} (present : row ∈ s.rows)
    (unrevoked : row.revokedAt = none) (new : Uuid) : (row.id, new) ∉ s.replaced :=
  fun replaced => linked.consumed _ replaced row present rfl unrevoked

theorem lineage_unrevoked (linked : Linked s) {login : Uuid} {first second : TokenRow}
    (firstRow : first ∈ s.rows) (secondRow : second ∈ s.rows) (firstIn : s.Lineage login first.id)
    (secondIn : s.Lineage login second.id) (firstOpen : first.revokedAt = none)
    (secondOpen : second.revokedAt = none) : first = second :=
  List.inj_on_of_nodup_map linked.ids firstRow secondRow
    (linked.chain_end firstIn.2 secondIn.2 (linked.unrevoked_end firstRow firstOpen)
      (linked.unrevoked_end secondRow secondOpen))

theorem Revises.trans {first middle last : TokenRow} (earlier : Revises first middle)
    (later : Revises middle last) : Revises first last := by
  refine ⟨later.id.trans earlier.id, later.userID.trans earlier.userID, fun set => ?_⟩
  have kept := earlier.kept set
  rw [later.kept (by rwa [kept]), kept]

/-- An identifier is not given away again, so that a row found later under it is the
same token. -/
theorem run_revises (linked : Linked s) {later : List TokenAction}
    (continues : run (tokenStep services) s later = some t) :
    ∀ row ∈ s.rows, ∀ after ∈ t.rows, after.id = row.id → Revises row after := by
  have whole : (∀ entry ∈ s.issued, entry ∈ t.issued) ∧
      ∀ row ∈ s.rows, ∀ after ∈ t.rows, after.id = row.id → Revises row after := by
    refine run_invariant (P := fun u => (∀ entry ∈ s.issued, entry ∈ u.issued) ∧
      ∀ row ∈ s.rows, ∀ after ∈ u.rows, after.id = row.id → Revises row after) ?_ continues ?_
    · intro u v action before stepped
      refine ⟨fun entry member => tokenStep_issued_mem stepped (before.1 entry member), ?_⟩
      intro row present after member same
      rcases tokenStep_row stepped member with ⟨middle, old, revises⟩ | ⟨fresh, _⟩
      · exact (before.2 row present middle old (revises.id.symm.trans same)).trans revises
      · exact (fresh _ (before.1 _ (linked.known row present)) same.symm).elim
    · refine ⟨fun _ member => member, ?_⟩
      intro row present after member same
      cases List.inj_on_of_nodup_map linked.ids member present same
      exact .refl row
  exact whole.2

/-- A step of `Refresh` changes the table only by returning a new token pair. -/
theorem refresh_step (refreshes : action.refreshes = true) (stepped : tokenStep services s action = some t) :
    t.rows = s.rows ∨
      ∃ old new, t.returned = s.returned ++ [.ok new] ∧ t.replaced = s.replaced ++ [(old, new)] := by
  cases tokenStep_effect stepped with
  | rotates _ _ _ _ current _ _ _ row => exact .inr ⟨current.id, row.id, rfl, rfl⟩
  | stays _ other =>
    rw [other] at refreshes
    contradiction
  | fails _ _ _ | reads _ _ _ _ _ _ | builds _ _ _ _ _ _ _ _ => exact .inl rfl
  | registers _ | logsIn _ _ _ _ _ _ | drops _ _ _ _ | creates _ _ _ _ _ _ _ _ | revokes _ _ _ _ _ _
  | cleans _ _ _ _ => contradiction

/-- Over all interleavings of logins, refreshes, logouts and cleanups: a token is
consumed once; a lineage has at most one unrevoked token; a revocation is permanent;
a refresh without a result leaves the table alone; a replacement has the user of
the token it replaces. -/
theorem refresh_tokens_rotate {users : List UserRow} {actions later : List TokenAction}
    (path : run (tokenStep services) (.start users) actions = some s)
    (continues : run (tokenStep services) s later = some t) :
    (s.replaced.map Prod.fst).Nodup ∧
    (∀ login, ∀ first ∈ s.rows, ∀ second ∈ s.rows, s.Lineage login first.id → s.Lineage login second.id →
      first.revokedAt = none → second.revokedAt = none → first = second) ∧
    (∀ row ∈ s.rows, ∀ after ∈ t.rows, after.id = row.id → row.revokedAt ≠ none →
      after.revokedAt = row.revokedAt) ∧
    (∀ action u, action.refreshes = true → tokenStep services s action = some u → u.rows = s.rows ∨
      ∃ old new, u.returned = s.returned ++ [.ok new] ∧ u.replaced = s.replaced ++ [(old, new)]) ∧
    (∀ row ∈ s.rows, (row.id, row.userID) ∈ s.issued) ∧
    ∀ old new user, (old, new) ∈ s.replaced → (old, user) ∈ s.issued → (new, user) ∈ s.issued := by
  have linked := run_linked path
  refine ⟨linked.single, ?_, ?_, ?_, linked.known, ?_⟩
  · intro login first firstRow second secondRow firstIn secondIn firstOpen secondOpen
    exact lineage_unrevoked linked firstRow secondRow firstIn secondIn firstOpen secondOpen
  · intro row present after member same set
    exact (run_revises linked continues row present after member same).kept set
  · intro action u refreshes stepped
    exact refresh_step refreshes stepped
  · intro old new user pair owner
    obtain ⟨same, first, second⟩ := linked.users (old, new) pair
    cases List.inj_on_of_nodup_map linked.owners owner first rfl
    exact second

def tokenID (n : UInt8) : Uuid := .repeated n

def samplePasswordHash : Str := lit "$2a$12$R9h/cIPz0gi.URNNX3kh2OPST9/PgBkqquzi.Ss7KIUgO2t0jWMUW"

def sampleUser : UserRow := ⟨tokenID 1, lit "user@example.com", samplePasswordHash, .member, true⟩

/-- SHA-256 at the tokens of the sample. -/
def sampleSHA256 (raw : Str) : Str :=
  if raw = base64Encode (List.replicate 32 1) then
    (hexDecode (lit "56d5fa7333f6d747db42c239407e5da4c32f4c79f35d092b134fd35a402d9c5c")).getD []
  else if raw = base64Encode (List.replicate 32 2) then
    (hexDecode (lit "6c1d63bbdab437c54368cbbd8886a886a79ad977297e265eebf1f5f5f01533b9")).getD []
  else if raw = base64Encode (List.replicate 32 3) then
    (hexDecode (lit "83bee072fbd3423f7481fc163821636ad8cfb73faef0dd0581f3979ea0c731b9")).getD []
  else []

def sampleServices : Services :=
  ⟨sampleSHA256, .plain, id, fun hash password => hash == samplePasswordHash && password == lit "abc123xyz", 720 * hour⟩

/-- Two refreshes read the token of one login before either of them rotates it. -/
def racingRefreshes : List TokenAction :=
  let token := base64Encode (List.replicate 32 1)
  [.login 0 (lit "user@example.com") (lit "abc123xyz") 1000 (List.replicate 32 1), .create 0 (tokenID 1) 1000 false,
    .refresh 1 token 2000 false, .refresh 2 token 3000 false, .build 1 (List.replicate 32 2) false,
    .build 2 (List.replicate 32 3) false, .rotate 2 (tokenID 3) 4000 none, .rotate 1 (tokenID 2) 5000 none]

theorem racing_refreshes_rotate_once :
    ∃ s, run (tokenStep sampleServices) (.start [sampleUser]) racingRefreshes = some s ∧
      s.returned = [.ok (tokenID 3), .error .invalidRefreshToken] ∧
      s.replaced = [(tokenID 1, tokenID 3)] ∧ (tokenID 3, sampleUser.id) ∈ s.issued := by
  have ran : (run (tokenStep sampleServices) (.start [sampleUser]) racingRefreshes).map
      (fun s => (s.returned, s.replaced, s.issued)) =
      some ([.ok (tokenID 3), .error .invalidRefreshToken], [(tokenID 1, tokenID 3)],
        [(tokenID 1, sampleUser.id), (tokenID 3, sampleUser.id)]) := by decide +kernel
  obtain ⟨s, path, shape⟩ := Option.map_eq_some_iff.mp ran
  simp only [Prod.mk.injEq] at shape
  obtain ⟨returned, replaced, issued⟩ := shape
  have here : run (tokenStep sampleServices) s [] = some s := rfl
  obtain ⟨_, _, _, _, _, owners⟩ := refresh_tokens_rotate path here
  exact ⟨s, path, returned, replaced, owners (tokenID 1) (tokenID 3) sampleUser.id (by simp [replaced])
    (by simp [issued])⟩

end EdgeGuard.Auth
