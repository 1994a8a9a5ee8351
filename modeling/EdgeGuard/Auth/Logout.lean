import EdgeGuard.Auth.Rotation

/-! `Logout` revokes the row of the token it is given, and reports success for one
that was revoked before. It ends the lineage when that token has not been rotated
away: every refresh of the lineage then finds a revoked token, also one that read it
before the logout. -/
namespace EdgeGuard.Auth
open Go Postgres Transition
variable {services : Services} {s t : Sessions} {action : TokenAction}

/-- `Logout` with the rows it leaves. -/
def logout (services : Services) (rows : List TokenRow) (input : Str) (now : Time) (failed : Bool) :
    Except TokenError (List TokenRow) :=
  let rawRefreshToken := trimSpace input
  let tokenHash := hashRefreshToken services rawRefreshToken
  if rawRefreshToken = [] ∨ tokenHash = [] then .error .invalidRefreshToken
  else if failed then .error .database
  else match revokeRefreshTokenByHash rows tokenHash now with
    | none => .error .invalidRefreshToken
    | some rows => .ok rows

theorem logout_ok {rows after : List TokenRow} {input : Str} {now : Time} {failed : Bool}
    (succeeded : logout services rows input now failed = .ok after) :
    failed = false ∧ trimSpace input ≠ [] ∧
      revokeRefreshTokenByHash rows (hashRefreshToken services (trimSpace input)) now = some after := by
  unfold logout at succeeded
  obtain ⟨given, succeeded⟩ := check_passed succeeded
  obtain ⟨answered, succeeded⟩ := check_passed succeeded
  split at succeeded
  · contradiction
  · cases succeeded
    exact ⟨by simpa using answered, fun none => given (.inl none), ‹_›⟩

theorem logout_step {rows : List TokenRow} {input : Str} {now : Time} {failed : Bool}
    (succeeded : logout services s.rows input now failed = .ok rows) :
    tokenStep services s (.logout input now failed) = some { s with rows } := by
  obtain ⟨answered, given, revoked⟩ := logout_ok succeeded
  simp [tokenStep, answered, given, revoked]

/-- No token of the chain is open, and its rotations are the recorded ones. -/
structure Ended (login : Uuid) (replaced : List (Uuid × Uuid)) (s : Sessions) : Prop where
  entered : ∃ user, (login, user) ∈ s.issued
  revoked : ∀ row ∈ s.rows, s.Chain login row.id → row.revokedAt ≠ none
  rotated : ∀ pair ∈ s.replaced, s.Chain login pair.1 → pair ∈ replaced

theorem Linked.entered (linked : Linked s) {login : Uuid} {row : TokenRow} (present : row ∈ s.rows)
    (chain : s.Chain login row.id) : ∃ user, (login, user) ∈ s.issued := by
  rcases chain.cases_head with same | ⟨next, replaced, _⟩
  · exact ⟨row.userID, same ▸ linked.known row present⟩
  · obtain ⟨user, issued, _⟩ := linked.users _ replaced
    exact ⟨user, issued⟩

theorem Linked.issued_of_chain (linked : Linked s) {login id : Uuid} (entered : ∃ user, (login, user) ∈ s.issued)
    (chain : s.Chain login id) : ∃ user, (id, user) ∈ s.issued := by
  rcases chain.cases_tail with same | ⟨previous, _, replaced⟩
  · exact same ▸ entered
  · obtain ⟨user, _, issued⟩ := linked.users _ replaced
    exact ⟨user, issued⟩

theorem logout_ends (linked : Linked s) {login : Uuid} {row : TokenRow} {rows : List TokenRow} {input : Str}
    {now : Time} {failed : Bool} (present : row ∈ s.rows) (chain : s.Chain login row.id)
    (current : ∀ new, (row.id, new) ∉ s.replaced)
    (presented : row.tokenHash = hashRefreshToken services (trimSpace input))
    (succeeded : logout services s.rows input now failed = .ok rows) :
    Ended login s.replaced { s with rows } where
  entered := linked.entered present chain
  revoked := by
    intro after member chained
    obtain ⟨_, _, revoked⟩ := logout_ok succeeded
    rw [(updateTokens_map revoked).1] at member
    obtain ⟨before, there, rfl⟩ := List.mem_map.mp member
    by_cases selected : before.tokenHash = hashRefreshToken services (trimSpace input)
    · simp only [selected, decide_true, if_true, ne_eq]
      cases before.revokedAt <;> simp
    · simp only [selected, decide_false, Bool.false_eq_true, if_false] at chained ⊢
      intro unrevoked
      have same := linked.chain_end chained chain (linked.unrevoked_end there unrevoked) current
      cases List.inj_on_of_nodup_map linked.ids there present same
      exact selected presented
  rotated _ member _ := member

theorem chain_outside {login outside new id : Uuid} {replaced : List (Uuid × Uuid)}
    (apart : ¬ Relation.ReflTransGen (fun old new => (old, new) ∈ replaced) login outside)
    (chain : Relation.ReflTransGen (fun old next => (old, next) ∈ replaced ++ [(outside, new)]) login id) :
    Relation.ReflTransGen (fun old new => (old, new) ∈ replaced) login id := by
  induction chain with
  | refl => exact .refl
  | tail _ rotated ih =>
    rcases List.mem_append.mp rotated with known | added
    · exact ih.tail known
    · cases List.mem_singleton.mp added
      exact absurd ih apart

theorem Ended.apart {login : Uuid} {replaced : List (Uuid × Uuid)} (ended : Ended login replaced s)
    (linked : Linked s) {current : TokenRow} {now : Time} {revoked : List TokenRow}
    (revokes : revokeRefreshTokenByID s.rows current.id now = some revoked) : ¬ s.Chain login current.id := by
  intro chain
  obtain ⟨⟨row, present, same, unrevoked⟩, _⟩ := revoked_row linked revokes
  exact ended.revoked row present (same ▸ chain) unrevoked

theorem Ended.chain {login id : Uuid} {replaced : List (Uuid × Uuid)} (ended : Ended login replaced s)
    (linked : Linked s) (stepped : tokenStep services s action = some t) (chain : t.Chain login id) :
    s.Chain login id := by
  rcases tokenStep_replaced stepped with same | ⟨_, current, _, now, revoked, row, _, revokes, _, more, _⟩
  · rwa [Sessions.Chain, same] at chain
  · rw [Sessions.Chain, more] at chain
    exact chain_outside (ended.apart linked revokes) chain

theorem Ended.step {login : Uuid} {replaced : List (Uuid × Uuid)} (ended : Ended login replaced s)
    (linked : Linked s) (stepped : tokenStep services s action = some t) : Ended login replaced t where
  entered := by
    obtain ⟨user, issued⟩ := ended.entered
    exact ⟨user, tokenStep_issued_mem stepped issued⟩
  revoked := by
    intro after member chain
    have before := ended.chain linked stepped chain
    rcases tokenStep_row stepped member with ⟨row, present, revises⟩ | ⟨fresh, _⟩
    · have set := ended.revoked row present (revises.id ▸ before)
      rwa [revises.kept set]
    · obtain ⟨user, issued⟩ := linked.issued_of_chain ended.entered before
      exact absurd rfl (fresh _ issued)
  rotated := by
    intro pair member chain
    have before := ended.chain linked stepped chain
    rcases tokenStep_replaced stepped with same | ⟨_, current, _, now, revoked, row, _, revokes, _, more, _⟩
    · exact ended.rotated pair (same ▸ member) before
    · rw [more] at member
      rcases List.mem_append.mp member with known | added
      · exact ended.rotated pair known before
      · cases List.mem_singleton.mp added
        exact absurd before (ended.apart linked revokes)

/-- Over all interleavings: once a `Logout` with the token of a lineage that has not
been rotated away returned success, no token of the lineage is active at any time, and
no call of `Refresh` rotates one of them, whenever it began. -/
theorem logout_of_current_token_ends_lineage {users : List UserRow} {actions later : List TokenAction}
    {login : Uuid} {row : TokenRow} {rows : List TokenRow} {input : Str} {now : Time} {failed : Bool}
    (path : run (tokenStep services) (.start users) actions = some s)
    (present : row ∈ s.rows) (lineage : s.Lineage login row.id)
    (current : ∀ new, (row.id, new) ∉ s.replaced)
    (presented : row.tokenHash = hashRefreshToken services (trimSpace input))
    (succeeded : logout services s.rows input now failed = .ok rows)
    (continues : run (tokenStep services) s (.logout input now failed :: later) = some t) :
    (∀ token ∈ t.rows, t.Lineage login token.id → ∀ instant, token.isActive instant = false) ∧
    ∀ pair ∈ t.replaced, t.Lineage login pair.1 → pair ∈ s.replaced := by
  have linked := run_linked path
  obtain ⟨middle, stepped, continues⟩ := run_cons continues
  have out := (logout_step succeeded).symm.trans stepped
  cases out
  have ended := logout_ends linked present lineage.2 current presented succeeded
  have whole := run_invariant (P := fun u => Linked u ∧ Ended login s.replaced u)
    (fun before stepped => ⟨step_linked before.1 stepped, before.2.step before.1 stepped⟩) continues
    ⟨step_linked linked stepped, ended⟩
  refine ⟨?_, fun pair member found => whole.2.rotated pair member found.2⟩
  intro token member found instant
  have revoked := whole.2.revoked token member found.2
  simp only [TokenRow.isActive, Bool.and_eq_false_iff]
  exact .inl (by simpa [Option.isSome_iff_ne_none] using revoked)

def sampleToken (n : UInt8) : Str := base64Encode (List.replicate 32 n)

def rotatedOnce : List TokenAction :=
  [.login 0 (lit "user@example.com") (lit "abc123xyz") 1000 (List.replicate 32 1),
    .create 0 (tokenID 1) 1000 false, .refresh 1 (sampleToken 1) 2000 false,
    .build 1 (List.replicate 32 2) false, .rotate 1 (tokenID 2) 3000 none]

/-- A refresh has read and built before the logout of the same token, and rotates after it. -/
theorem logout_stops_refresh_in_flight :
    ∃ s t, run (tokenStep sampleServices) (.start [sampleUser])
        (rotatedOnce ++ [.refresh 2 (sampleToken 2) 4000 false, .build 2 (List.replicate 32 3) false]) = some s ∧
      run (tokenStep sampleServices) s
        [.logout (sampleToken 2) 5000 false, .rotate 2 (tokenID 3) 6000 none] = some t ∧
      t.returned = [.ok (tokenID 2), .error .invalidRefreshToken] ∧
      ∀ token ∈ t.rows, t.Lineage (tokenID 1) token.id → ∀ instant, token.isActive instant = false := by
  have ran : (run (tokenStep sampleServices) (.start [sampleUser])
      (rotatedOnce ++ [.refresh 2 (sampleToken 2) 4000 false, .build 2 (List.replicate 32 3) false])).map
      (fun s => (s.logins, s.replaced,
        s.rows.any (fun row => row.id = tokenID 2 &&
          row.tokenHash = hashRefreshToken sampleServices (trimSpace (sampleToken 2))),
        (logout sampleServices s.rows (sampleToken 2) 5000 false).toOption.isSome,
        (run (tokenStep sampleServices) s [.logout (sampleToken 2) 5000 false,
          .rotate 2 (tokenID 3) 6000 none]).any
            (·.returned = [.ok (tokenID 2), .error .invalidRefreshToken]))) =
      some ([tokenID 1], [(tokenID 1, tokenID 2)], true, true, true) := by
    decide +kernel
  obtain ⟨s, path, known⟩ := Option.map_eq_some_iff.mp ran
  simp only [Prod.mk.injEq] at known
  obtain ⟨logins, replaced, found, answered, goes⟩ := known
  obtain ⟨t, continues, returned⟩ := (Option.any_eq_true _ _).mp goes
  obtain ⟨row, present, matched⟩ := List.any_eq_true.mp found
  obtain ⟨id, presented⟩ : row.id = tokenID 2 ∧
      row.tokenHash = hashRefreshToken sampleServices (trimSpace (sampleToken 2)) := by
    simpa using matched
  have lineage : s.Lineage (tokenID 1) row.id := by
    refine ⟨by simp [logins], ?_⟩
    rw [id]
    exact .single (by simp [replaced])
  have current (new : Uuid) : (row.id, new) ∉ s.replaced := by
    have other : tokenID 2 ≠ tokenID 1 := by decide
    simp [replaced, id, other]
  cases succeeded : logout sampleServices s.rows (sampleToken 2) 5000 false with
  | error err =>
    rw [succeeded] at answered
    cases answered
  | ok rows =>
    have ends := logout_of_current_token_ends_lineage path present lineage current presented succeeded continues
    exact ⟨s, t, path, continues, of_decide_eq_true returned, ends.1⟩

/-- The logout with the rotated token succeeds, and its replacement is refreshed afterwards. -/
theorem logout_of_rotated_token_keeps_session :
    ((run (tokenStep sampleServices) (.start [sampleUser]) rotatedOnce).map
      (fun s => (logout sampleServices s.rows (sampleToken 1) 4000 false).toOption.isSome)) = some true ∧
    (run (tokenStep sampleServices) (.start [sampleUser])
      (rotatedOnce ++ [.logout (sampleToken 1) 4000 false, .refresh 2 (sampleToken 2) 5000 false,
        .build 2 (List.replicate 32 3) false, .rotate 2 (tokenID 3) 6000 none])).map
      (fun s => (s.logins, s.replaced, s.returned)) =
      some ([tokenID 1], [(tokenID 1, tokenID 2), (tokenID 2, tokenID 3)],
        [.ok (tokenID 2), .ok (tokenID 3)]) := by
  decide +kernel

end EdgeGuard.Auth
