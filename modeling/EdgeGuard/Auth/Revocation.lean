import EdgeGuard.Auth.APIKeys

/-! Validations and revocations of API keys at the same time. A validation reads the
row of its key at one step and records the use of the key at a later one; the row may
be stale by then, and only the guard of the recording statement keeps a revoked key
from being validated. -/
namespace EdgeGuard.Auth
open Go Postgres Transition

section Statements
variable (sha256 : Str → Str)

/-- `ValidateAPIKey` up to the check of the row that was read. -/
def lookupAPIKey (keys : Keys) (rawAPIKey : Str) (now : Time) : Except ValidateError APIKeyRow :=
  match parseAPIKey sha256 rawAPIKey with
  | none => .error .invalidAPIKey
  | some parsed => match keys.getAPIKeyByPrefix parsed.keyPrefix with
    | none => .error .invalidAPIKey
    | some key =>
      if matchAPIKeyHash parsed.hash key.keyHash = false ∨ key.isActive now = false then
        .error .invalidAPIKey
      else .ok key

/-- The rest, on the table as it is by then. -/
def recordUse (later : Keys) (key : APIKeyRow) (now : Time) : Except ValidateError Principal :=
  match later.updateAPIKeyLastUsedAt key.id now with
  | none => .error .invalidAPIKey
  | some _ => .ok ⟨key.id.text, key.projectID.text⟩

/-- The two parts make up a validation whose statements are answered. -/
theorem validateAPIKey_two_steps (keys later : Keys) (now : Time) (rawAPIKey : Str) :
    validateAPIKey sha256 ⟨true, some keys, some later, now⟩ rawAPIKey =
      (lookupAPIKey sha256 keys rawAPIKey now).bind (fun key => recordUse later key now) := by
  simp only [validateAPIKey, lookupAPIKey, Bool.true_eq_false, if_false]
  cases parseAPIKey sha256 rawAPIKey with
  | none => rfl
  | some parsed =>
    dsimp only
    cases keys.getAPIKeyByPrefix parsed.keyPrefix with
    | none => rfl
    | some key =>
      dsimp only
      split
      · rfl
      · rfl

end Statements

/-- A validation that has read its row. -/
structure PendingValidation where
  key : APIKeyRow
  now : Time

/-- What became of a statement: answered, executed without its answer arriving, or
not executed. -/
inductive Reply where
  | answered
  | lost
  | failed
  deriving DecidableEq, Repr

/-- What is decided, in the order in which the statements commit. -/
inductive AuthEvent where
  | revoked (apiKeyID : Uuid)
  | validated (caller : Nat) (apiKeyID : Uuid)
  | refused (caller : Nat) (err : ValidateError)
  deriving DecidableEq

structure AuthState where
  keys : Keys
  pending : Nat → Option PendingValidation
  log : List AuthEvent

def AuthState.initial : AuthState := ⟨.empty, fun _ => none, []⟩

inductive AuthAction where
  | operate (operation : KeyOperation)
  | lookup (caller : Nat) (rawAPIKey : Str) (now : Time)
  | record (caller : Nat) (reply : Reply)

/-- The event of a change of the table. -/
def KeyOperation.events : KeyOperation → List AuthEvent
  | .revokeAPIKey _ apiKeyID _ => (Uuid.parse (trimSpace apiKeyID)).toList.map .revoked
  | _ => []

def authStep (sha256 : Str → Str) (s : AuthState) : AuthAction → Option AuthState
  | .operate operation => (keyStep sha256 s.keys operation).map
      (fun keys => { s with keys, log := s.log ++ operation.events })
  | .lookup caller rawAPIKey now =>
    match s.pending caller, lookupAPIKey sha256 s.keys rawAPIKey now with
    | some _, _ => none
    | none, .error err => some { s with log := s.log ++ [.refused caller err] }
    | none, .ok key => some { s with pending := Function.update s.pending caller (some ⟨key, now⟩) }
  | .record caller reply =>
    match s.pending caller with
    | none => none
    | some validation =>
      let pending := Function.update s.pending caller none
      match reply, s.keys.updateAPIKeyLastUsedAt validation.key.id validation.now with
      | .failed, _ => some { s with pending, log := s.log ++ [.refused caller .database] }
      | .lost, none => some { s with pending, log := s.log ++ [.refused caller .database] }
      | .lost, some keys => some ⟨keys, pending, s.log ++ [.refused caller .database]⟩
      | .answered, none => some { s with pending, log := s.log ++ [.refused caller .invalidAPIKey] }
      | .answered, some keys => some ⟨keys, pending, s.log ++ [.validated caller validation.key.id]⟩

def Keys.Disabled (keys : Keys) (apiKeyID : Uuid) : Prop :=
  (∃ row ∈ keys.rows, row.id = apiKeyID) ∧ ∀ row ∈ keys.rows, row.id = apiKeyID → row.enabled = false

/-- No row goes away, and an enabled row was enabled before or is new. -/
structure Keys.Continues (keys next : Keys) : Prop where
  kept : ∀ row ∈ keys.rows, ∃ later ∈ next.rows, later.id = row.id
  switched : ∀ later ∈ next.rows, later.enabled = true →
    (∃ row ∈ keys.rows, row.id = later.id ∧ row.enabled = true) ∨ ∀ row ∈ keys.rows, row.id ≠ later.id
  distinct : (keys.rows.map (·.id)).Nodup → (next.rows.map (·.id)).Nodup

namespace Keys
variable {keys next : Keys}

theorem Continues.refl (keys : Keys) : keys.Continues keys :=
  ⟨fun row member => ⟨row, member, rfl⟩, fun row member on => .inl ⟨row, member, rfl, on⟩, id⟩

theorem Disabled.continues {apiKeyID : Uuid} (disabled : keys.Disabled apiKeyID)
    (continues : keys.Continues next) : next.Disabled apiKeyID := by
  obtain ⟨⟨row, member, same⟩, off⟩ := disabled
  obtain ⟨later, present, kept⟩ := continues.kept row member
  refine ⟨⟨later, present, kept.trans same⟩, ?_⟩
  intro other inNext equal
  by_contra on
  rcases continues.switched other inNext (by simpa using on) with ⟨before, inKeys, named, enabled⟩ | fresh
  · rw [off before inKeys (named.trans equal)] at enabled
    contradiction
  · exact fresh row member (same.trans equal.symm)

theorem update_continues {selected : APIKeyRow → Bool} {change : APIKeyRow → APIKeyRow}
    (same : ∀ row, (change row).id = row.id)
    (off : ∀ row, (change row).enabled = true → row.enabled = true)
    (updated : keys.update selected change = some next) : keys.Continues next := by
  simp only [update, Option.ite_none_right_eq_some, Option.some.injEq] at updated
  obtain ⟨_, rfl⟩ := updated
  have ids : ∀ row : APIKeyRow, (if selected row then change row else row).id = row.id := by
    intro row
    split
    · exact same row
    · rfl
  refine ⟨?_, ?_, ?_⟩
  · intro row member
    exact ⟨_, List.mem_map_of_mem member, ids row⟩
  · intro later member on
    obtain ⟨row, present, rfl⟩ := List.mem_map.mp member
    refine .inl ⟨row, present, (ids row).symm, ?_⟩
    split at on
    · exact off row on
    · exact on
  · intro distinct
    have kept : (keys.rows.map (fun row => if selected row then change row else row)).map (·.id) =
        keys.rows.map (·.id) := by
      rw [List.map_map]
      exact List.map_congr_left (fun row _ => ids row)
    rwa [kept]

end Keys

section Operations
variable {sha256 : Str → Str} {keys next : Keys}

theorem createAPIKey_continues {id : Uuid} {createdAt now : Time} {random : APIKeyEntropy}
    {input : CreateAPIKeyInput}
    (created : createAPIKey sha256 keys id createdAt now random input = some next) :
    keys.Continues next := by
  simp only [createAPIKey] at created
  split at created
  · contradiction
  split at created
  · contradiction
  rename_i key _
  simp only [Keys.insert, Option.bind_eq_bind, Option.map_bind, Option.bind_eq_some_iff,
    Function.comp_apply, Option.map_eq_some_iff, Option.ite_none_right_eq_some,
    Option.some.injEq] at created
  obtain ⟨projectID, _, rows, ⟨⟨_, _, _, _, _, _, fresh⟩, rfl⟩, rfl⟩ := created
  refine ⟨?_, ?_, ?_⟩
  · intro row member
    exact ⟨row, List.mem_append_left _ member, rfl⟩
  · intro later member on
    rcases List.mem_append.mp member with old | new
    · exact .inl ⟨later, old, rfl, on⟩
    · cases List.mem_singleton.mp new
      exact .inr (fun row present => (fresh row present).1)
  · intro distinct
    exact unique_insert.mpr ⟨distinct, fun other member => (fresh other member).1⟩

theorem disableAPIKey_continues {projectID apiKeyID : Uuid} {disabledAt : Time}
    (disabled : keys.disableAPIKey projectID apiKeyID disabledAt = some next) : keys.Continues next :=
  Keys.update_continues (by simp) (by simp) disabled

theorem updateAPIKeyLastUsedAt_continues {apiKeyID : Uuid} {usedAt : Time}
    (updated : keys.updateAPIKeyLastUsedAt apiKeyID usedAt = some next) : keys.Continues next :=
  Keys.update_continues (by simp) (by simp) updated

theorem keyStep_continues {operation : KeyOperation} (stepped : keyStep sha256 keys operation = some next) :
    keys.Continues next := by
  cases operation with
  | addProject id =>
    cases stepped
    exact ⟨(Keys.Continues.refl keys).kept, (Keys.Continues.refl keys).switched, fun distinct => distinct⟩
  | createAPIKey id createdAt now random input => exact createAPIKey_continues stepped
  | revokeAPIKey projectID apiKeyID now =>
    simp only [keyStep, revokeAPIKey, Option.bind_eq_bind, Option.bind_eq_some_iff] at stepped
    obtain ⟨project, _, key, _, disabled⟩ := stepped
    exact disableAPIKey_continues disabled
  | used apiKeyID usedAt => exact updateAPIKeyLastUsedAt_continues stepped

theorem disableAPIKey_disabled {projectID apiKeyID : Uuid} {disabledAt : Time}
    (distinct : (keys.rows.map (·.id)).Nodup)
    (disabled : keys.disableAPIKey projectID apiKeyID disabledAt = some next) :
    next.Disabled apiKeyID := by
  simp only [Keys.disableAPIKey, Keys.update, Option.ite_none_right_eq_some, Option.some.injEq,
    List.any_eq_true, Bool.and_eq_true, decide_eq_true_eq] at disabled
  obtain ⟨⟨row, member, named, owned⟩, rfl⟩ := disabled
  refine ⟨⟨_, List.mem_map_of_mem member, by simp [named, owned]⟩, ?_⟩
  intro later inNext same
  obtain ⟨before, present, rfl⟩ := List.mem_map.mp inNext
  by_cases chosen : before.id = apiKeyID ∧ before.projectID = projectID
  · simp [chosen]
  · -- No other row has the identifier.
    simp only [chosen, if_false] at same ⊢
    have equal := List.inj_on_of_nodup_map distinct present member (same.trans named.symm)
    exact absurd ⟨same, equal ▸ owned⟩ chosen

theorem updateAPIKeyLastUsedAt_enabled {apiKeyID : Uuid} {usedAt : Time}
    (updated : keys.updateAPIKeyLastUsedAt apiKeyID usedAt = some next) :
    ∃ row ∈ keys.rows, row.id = apiKeyID ∧ row.enabled = true := by
  simp only [Keys.updateAPIKeyLastUsedAt, Keys.update, Option.ite_none_right_eq_some,
    List.any_eq_true, Bool.and_eq_true, decide_eq_true_eq] at updated
  exact updated.1

private theorem filter_map_outside {R : Type} {seen : R → Bool} {change : R → R} {rows : List R}
    (inside : ∀ row, seen (change row) = seen row) (outside : ∀ row, seen row = true → change row = row) :
    (rows.map change).filter seen = rows.filter seen := by
  induction rows with
  | nil => rfl
  | cons row rows ih =>
    cases visible : seen row with
    | false => simp [inside, visible, ih]
    | true => simp [outside row visible, visible, ih]

theorem revokeAPIKey_other_projects {projectID apiKeyID : Str} {now : Time} {project : Uuid}
    (named : Uuid.parse (trimSpace projectID) = some project)
    (revoked : revokeAPIKey keys projectID apiKeyID now = some next) :
    next.rows.filter (fun row => row.projectID ≠ project) =
      keys.rows.filter (fun row => row.projectID ≠ project) ∧
      next.issued = keys.issued ∧ next.projects = keys.projects := by
  simp only [revokeAPIKey, named, Option.bind_eq_bind, Option.bind_some, Option.bind_eq_some_iff,
    Keys.disableAPIKey, Keys.update, Option.ite_none_right_eq_some, Option.some.injEq] at revoked
  obtain ⟨key, _, _, rfl⟩ := revoked
  refine ⟨filter_map_outside ?_ ?_, rfl, rfl⟩
  · intro row
    split
    · rfl
    · rfl
  · intro row other
    have elsewhere : row.projectID ≠ project := by simpa using other
    simp [elsewhere]

end Operations

section Steps
variable {sha256 : Str → Str} {s t : AuthState} {action : AuthAction}

/-- A step decides nothing, refuses a validation, commits a revocation, which leaves
the key disabled, or validates a key that is enabled. -/
inductive AuthEffect (s t : AuthState) : Prop
  | silent (log : t.log = s.log)
  | refused (caller : Nat) (err : ValidateError) (log : t.log = s.log ++ [.refused caller err])
  | revoked (apiKeyID : Uuid) (log : t.log = s.log ++ [.revoked apiKeyID])
      (disabled : t.keys.Disabled apiKeyID)
  | validated (caller : Nat) (apiKeyID : Uuid) (log : t.log = s.log ++ [.validated caller apiKeyID])
      (enabled : ∃ row ∈ s.keys.rows, row.id = apiKeyID ∧ row.enabled = true)

theorem operate_effect {operation : KeyOperation} {keys : Keys}
    (distinct : (s.keys.rows.map (·.id)).Nodup)
    (stepped : keyStep sha256 s.keys operation = some keys) :
    AuthEffect s { s with keys, log := s.log ++ operation.events } := by
  cases operation with
  | addProject id => exact .silent (List.append_nil _)
  | createAPIKey id createdAt now random input => exact .silent (List.append_nil _)
  | used apiKeyID usedAt => exact .silent (List.append_nil _)
  | revokeAPIKey projectID apiKeyID now =>
    simp only [keyStep, revokeAPIKey, Option.bind_eq_bind, Option.bind_eq_some_iff] at stepped
    obtain ⟨project, _, key, named, disabled⟩ := stepped
    refine .revoked key ?_ (disableAPIKey_disabled distinct disabled)
    simp [KeyOperation.events, named]

/-- What a step does to the table and to the log. -/
theorem authStep_effect (distinct : (s.keys.rows.map (·.id)).Nodup)
    (stepped : authStep sha256 s action = some t) : s.keys.Continues t.keys ∧ AuthEffect s t := by
  cases action with
  | operate operation =>
    simp only [authStep, Option.map_eq_some_iff] at stepped
    obtain ⟨keys, changed, rfl⟩ := stepped
    exact ⟨keyStep_continues changed, operate_effect distinct changed⟩
  | lookup caller rawAPIKey now =>
    simp only [authStep] at stepped
    split at stepped
    · contradiction
    · cases stepped
      exact ⟨.refl _, .refused caller _ rfl⟩
    · cases stepped
      exact ⟨.refl _, .silent rfl⟩
  | record caller reply =>
    simp only [authStep] at stepped
    split at stepped
    · contradiction
    rename_i validation _
    split at stepped
    · cases stepped
      exact ⟨.refl _, .refused caller _ rfl⟩
    · cases stepped
      exact ⟨.refl _, .refused caller _ rfl⟩
    · rename_i keys updated
      cases stepped
      exact ⟨updateAPIKeyLastUsedAt_continues updated, .refused caller _ rfl⟩
    · cases stepped
      exact ⟨.refl _, .refused caller _ rfl⟩
    · rename_i keys updated
      cases stepped
      exact ⟨updateAPIKeyLastUsedAt_continues updated, .validated caller _ rfl (updateAPIKeyLastUsedAt_enabled updated)⟩

/-- A later event is no validation of a key that an earlier one revoked. -/
def AuthEvent.Precedes (earlier later : AuthEvent) : Prop :=
  ∀ apiKeyID caller, earlier = .revoked apiKeyID → later ≠ .validated caller apiKeyID

/-- Identifiers are distinct, a revoked key is disabled, and no validation of a key
comes after its revocation. -/
structure AuthState.Sound (s : AuthState) : Prop where
  distinct : (s.keys.rows.map (·.id)).Nodup
  disabled : ∀ apiKeyID, .revoked apiKeyID ∈ s.log → s.keys.Disabled apiKeyID
  ordered : s.log.Pairwise AuthEvent.Precedes

theorem AuthState.sound_initial : AuthState.initial.Sound :=
  ⟨List.nodup_nil, fun _ member => absurd member List.not_mem_nil, List.Pairwise.nil⟩

theorem ordered_snoc {log : List AuthEvent} {event : AuthEvent} (ordered : log.Pairwise AuthEvent.Precedes)
    (allowed : ∀ apiKeyID caller, event = .validated caller apiKeyID → .revoked apiKeyID ∉ log) :
    (log ++ [event]).Pairwise AuthEvent.Precedes := by
  rw [List.pairwise_append]
  refine ⟨ordered, List.pairwise_singleton _ _, ?_⟩
  intro earlier member later last
  cases List.mem_singleton.mp last
  intro apiKeyID caller revoked validated
  exact allowed apiKeyID caller validated (revoked ▸ member)

theorem authStep_sound (sound : s.Sound) (stepped : authStep sha256 s action = some t) : t.Sound := by
  obtain ⟨continues, effect⟩ := authStep_effect sound.distinct stepped
  have distinct := continues.distinct sound.distinct
  have earlier : ∀ apiKeyID, .revoked apiKeyID ∈ s.log → t.keys.Disabled apiKeyID :=
    fun apiKeyID member => (sound.disabled apiKeyID member).continues continues
  cases effect with
  | silent log =>
    refine ⟨distinct, ?_, ?_⟩
    · rw [log]
      exact earlier
    · rw [log]
      exact sound.ordered
  | refused caller err log =>
    refine ⟨distinct, ?_, ?_⟩
    · intro apiKeyID member
      rw [log] at member
      exact earlier apiKeyID (by simpa using member)
    · rw [log]
      exact ordered_snoc sound.ordered (by simp)
  | revoked key log disabled =>
    refine ⟨distinct, ?_, ?_⟩
    · intro apiKeyID member
      rw [log, List.mem_append, List.mem_singleton] at member
      rcases member with before | now
      · exact earlier apiKeyID before
      · cases now
        exact disabled
    · rw [log]
      exact ordered_snoc sound.ordered (by simp)
  | validated caller key log enabled =>
    refine ⟨distinct, ?_, ?_⟩
    · intro apiKeyID member
      rw [log] at member
      exact earlier apiKeyID (by simpa using member)
    · rw [log]
      apply ordered_snoc sound.ordered
      intro apiKeyID other same revoked
      cases same
      obtain ⟨row, member, named, on⟩ := enabled
      rw [(sound.disabled key revoked).2 row member named] at on
      contradiction

theorem run_sound {actions : List AuthAction}
    (path : run (authStep sha256) .initial actions = some s) : s.Sound :=
  run_invariant authStep_sound path AuthState.sound_initial

theorem run_disabled {actions : List AuthAction} (sound : s.Sound) {apiKeyID : Uuid}
    (disabled : s.keys.Disabled apiKeyID) (path : run (authStep sha256) s actions = some t) :
    t.keys.Disabled apiKeyID := by
  have kept : ∀ {a b : AuthState} {action : AuthAction}, a.Sound ∧ a.keys.Disabled apiKeyID →
      authStep sha256 a action = some b → b.Sound ∧ b.keys.Disabled apiKeyID := by
    rintro a b action ⟨sound, disabled⟩ stepped
    exact ⟨authStep_sound sound stepped,
      disabled.continues (authStep_effect sound.distinct stepped).1⟩
  exact (run_invariant kept path ⟨sound, disabled⟩).2

theorem record_refused (sound : s.Sound) {caller : Nat} {reply : Reply} {validation : PendingValidation}
    (waiting : s.pending caller = some validation) (revoked : .revoked validation.key.id ∈ s.log) :
    ∃ t err, authStep sha256 s (.record caller reply) = some t ∧
      t.log = s.log ++ [.refused caller err] := by
  have missing : s.keys.updateAPIKeyLastUsedAt validation.key.id validation.now = none := by
    cases updated : s.keys.updateAPIKeyLastUsedAt validation.key.id validation.now with
    | none => rfl
    | some keys =>
      obtain ⟨row, member, named, on⟩ := updateAPIKeyLastUsedAt_enabled updated
      rw [(sound.disabled _ revoked).2 row member named] at on
      contradiction
  cases reply with
  | answered =>
    simp only [authStep, waiting, missing]
    exact ⟨_, .invalidAPIKey, rfl, rfl⟩
  | lost =>
    simp only [authStep, waiting, missing]
    exact ⟨_, .database, rfl, rfl⟩
  | failed =>
    simp only [authStep, waiting]
    exact ⟨_, .database, rfl, rfl⟩

end Steps

/-- In every interleaving of validations, revocations and the other operations on
API keys: a validation that records its use after the revocation of its key is
refused, so that every validation comes before the revocation; a disabled key stays
disabled; and a revocation leaves the keys of other projects as they are. -/
theorem revoked_keys_stay_out (sha256 : Str → Str) (actions : List AuthAction) (s : AuthState)
    (path : run (authStep sha256) .initial actions = some s) :
    (∀ caller reply validation, s.pending caller = some validation →
      .revoked validation.key.id ∈ s.log → ∃ t err,
        authStep sha256 s (.record caller reply) = some t ∧ t.log = s.log ++ [.refused caller err]) ∧
    s.log.Pairwise AuthEvent.Precedes ∧
    (∀ row ∈ s.keys.rows, row.enabled = false → ∀ later t,
      run (authStep sha256) s later = some t → t.keys.Disabled row.id) ∧
    ∀ projectID apiKeyID now project next, Uuid.parse (trimSpace projectID) = some project →
      revokeAPIKey s.keys projectID apiKeyID now = some next →
      next.rows.filter (fun row => row.projectID ≠ project) =
        s.keys.rows.filter (fun row => row.projectID ≠ project) ∧
      next.issued = s.keys.issued ∧ next.projects = s.keys.projects := by
  have sound := run_sound path
  refine ⟨?_, sound.ordered, ?_, ?_⟩
  · intro caller reply validation waiting revoked
    exact record_refused sound waiting revoked
  · intro row member off later t continued
    refine run_disabled sound ⟨⟨row, member, rfl⟩, ?_⟩ continued
    intro other present same
    rw [List.inj_on_of_nodup_map sound.distinct present member same]
    exact off
  · intro projectID apiKeyID now project next named revoked
    exact revokeAPIKey_other_projects named revoked

def partnerProject : Uuid := .repeated 3

def partnerKey : Uuid := .repeated 4

def partnerEntropy : APIKeyEntropy := .repeated 2 0

def partnerValue : Str := lit "eg_live_0202020202020202_AAAAAAAAAAAAAAAAAAAAAAAAAAAAAAAAAAAAAAAAAAA"

/-- SHA-256 at `partnerValue`. -/
def partnerHash (value : Str) : Str :=
  if value = partnerValue then
    (hexDecode (lit "70cc64dd96baa4cde40a2b0d8a9995195e7d5211e7458de30670bc4fa2ee5020")).getD []
  else value

/-- Two validations read their key before it is revoked; one of them records its use
in time. -/
def partnerActions : List AuthAction := [
  .operate (.addProject partnerProject),
  .operate (.createAPIKey partnerKey 0 0 partnerEntropy ⟨partnerProject.text, lit "partner", none⟩),
  .lookup 0 partnerValue 1000,
  .lookup 1 partnerValue 2000,
  .record 0 .answered,
  .operate (.revokeAPIKey partnerProject.text partnerKey.text 3000),
  .record 1 .answered]

theorem late_validation_is_refused :
    ∃ s, run (authStep partnerHash) .initial partnerActions = some s ∧
      s.log = [.validated 0 partnerKey, .revoked partnerKey, .refused 1 .invalidAPIKey] ∧
      s.log.Pairwise AuthEvent.Precedes := by
  have logged : (run (authStep partnerHash) .initial partnerActions).map AuthState.log =
      some [.validated 0 partnerKey, .revoked partnerKey, .refused 1 .invalidAPIKey] := by
    decide +kernel
  obtain ⟨s, path, log⟩ := Option.map_eq_some_iff.mp logged
  exact ⟨s, path, log, (revoked_keys_stay_out partnerHash partnerActions s path).2.1⟩

end EdgeGuard.Auth
