import EdgeGuard.Auth.Revocation
import Mathlib.Order.Basic

/-! The column `last_used_at` under concurrent validations. The clock is read before the
statement that records the use, and the statement assigns the reading whatever the row
holds: the column keeps the reading of the call whose statement comes last. -/
namespace EdgeGuard.Auth
open Go Postgres Transition

section Latest
variable {V : Type} [LinearOrder V]

/-- Not later, where nothing comes before everything. -/
def NotAfter (a b : Option V) : Prop := ∀ x, a = some x → ∃ y, b = some y ∧ x ≤ y

theorem getLast?_greatest {writes : List V} (sorted : writes.Pairwise (· ≤ ·)) {last : V}
    (ends : writes.getLast? = some last) : ∀ write ∈ writes, write ≤ last := by
  obtain ⟨front, rfl⟩ := List.getLast?_eq_some_iff.mp ends
  intro write member
  rcases List.mem_append.mp member with earlier | final
  · exact (List.pairwise_append.mp sorted).2.2 write earlier last List.mem_cons_self
  · rw [List.mem_singleton.mp final]

theorem getLast?_eq_max? {writes : List V} (sorted : writes.Pairwise (· ≤ ·)) :
    writes.getLast? = writes.max? := by
  cases ends : writes.getLast? with
  | none =>
    rw [List.getLast?_eq_none_iff.mp ends]
    rfl
  | some last =>
    symm
    rw [List.max?_eq_some_iff]
    exact ⟨List.mem_of_getLast? ends, getLast?_greatest sorted ends⟩

theorem max?_map {W : Type} [LinearOrder W] {f : V → W} (mono : ∀ {a b}, a ≤ b → f a ≤ f b) (writes : List V) :
    (writes.map f).max? = writes.max?.map f := by
  cases most : writes.max? with
  | none =>
    rw [List.max?_eq_none_iff.mp most]
    rfl
  | some greatest =>
    obtain ⟨member, above⟩ := List.max?_eq_some_iff.mp most
    rw [Option.map_some, List.max?_eq_some_iff]
    refine ⟨List.mem_map_of_mem member, ?_⟩
    intro value mapped
    obtain ⟨write, present, rfl⟩ := List.mem_map.mp mapped
    exact mono (above write present)

theorem notAfter_getLast? {first second : List V} (sorted : (first ++ second).Pairwise (· ≤ ·)) :
    NotAfter first.getLast? (first ++ second).getLast? := by
  intro x ends
  have present : x ∈ first ++ second := List.mem_append_left _ (List.mem_of_getLast? ends)
  obtain ⟨y, last⟩ := Option.ne_none_iff_exists'.mp
    (mt List.getLast?_eq_none_iff.mp (List.ne_nil_of_mem present))
  exact ⟨y, last, getLast?_greatest sorted last x present⟩

theorem pairwise_concat {writes : List V} {write : V} (sorted : writes.Pairwise (· ≤ ·))
    (follows : NotAfter writes.getLast? (some write)) : (writes ++ [write]).Pairwise (· ≤ ·) := by
  rw [List.pairwise_append]
  refine ⟨sorted, List.pairwise_singleton _ _, ?_⟩
  intro earlier member new last
  cases List.mem_singleton.mp last
  obtain ⟨x, ends⟩ := Option.ne_none_iff_exists'.mp
    (mt List.getLast?_eq_none_iff.mp (List.ne_nil_of_mem member))
  obtain ⟨y, same, below⟩ := follows x ends
  cases same
  exact (getLast?_greatest sorted ends earlier member).trans below

end Latest

namespace Keys
variable {keys next : Keys} {apiKeyID : Uuid}

def row (keys : Keys) (apiKeyID : Uuid) : Option APIKeyRow := keys.rows.find? (·.id = apiKeyID)

/-- `last_used_at` of a key. -/
def lastUsedAt (keys : Keys) (apiKeyID : Uuid) : Option Time :=
  (keys.row apiKeyID).bind APIKeyRow.lastUsedAt

theorem update_row {selected : APIKeyRow → Bool} {change : APIKeyRow → APIKeyRow}
    (updated : keys.update selected change = some next) (same : ∀ row, (change row).id = row.id) :
    next.row apiKeyID = (keys.row apiKeyID).map (fun row => if selected row then change row else row) := by
  simp only [update, Option.ite_none_right_eq_some, Option.some.injEq] at updated
  obtain ⟨_, rfl⟩ := updated
  have ids : ∀ row : APIKeyRow, (if selected row then change row else row).id = row.id := by
    intro row
    split
    · exact same row
    · rfl
  simp only [row, List.find?_map, Function.comp_def, ids]

theorem insert_lastUsedAt {id : Uuid} {createdAt : Time} {key : APIKey} {rows : List APIKeyRow}
    {issued : List (Uuid × Str)} (inserted : keys.insert id createdAt key = some rows) :
    ({ keys with rows, issued } : Keys).lastUsedAt apiKeyID = keys.lastUsedAt apiKeyID := by
  simp only [insert, Option.bind_eq_bind, Option.bind_eq_some_iff, Option.ite_none_right_eq_some,
    Option.some.injEq] at inserted
  obtain ⟨projectID, _, _, rfl⟩ := inserted
  simp only [lastUsedAt, row, List.find?_append]
  cases keys.rows.find? (·.id = apiKeyID) with
  | some old => rfl
  | none =>
    -- a new row has not been used
    by_cases new : id = apiKeyID
    · simp [new]
    · simp [new]

theorem disableAPIKey_lastUsedAt {projectID disabled : Uuid} {disabledAt : Time}
    (updated : keys.disableAPIKey projectID disabled disabledAt = some next) :
    next.lastUsedAt apiKeyID = keys.lastUsedAt apiKeyID := by
  have changed := @update_row keys next apiKeyID _ _ updated (fun _ => rfl)
  rw [lastUsedAt, changed, lastUsedAt]
  cases keys.row apiKeyID with
  | none => rfl
  | some row =>
    simp only [Option.map_some, Option.bind_some]
    split
    · rfl
    · rfl

theorem updateAPIKeyLastUsedAt_lastUsedAt (distinct : (keys.rows.map (·.id)).Nodup) {used : Uuid}
    {usedAt : Time} (updated : keys.updateAPIKeyLastUsedAt used usedAt = some next) :
    next.lastUsedAt apiKeyID =
      if used = apiKeyID then some (timestamp usedAt) else keys.lastUsedAt apiKeyID := by
  obtain ⟨enabled, member, named, on⟩ := updateAPIKeyLastUsedAt_enabled updated
  have changed := @update_row keys next apiKeyID _ _ updated (fun _ => rfl)
  rw [lastUsedAt, changed, lastUsedAt]
  cases found : keys.row apiKeyID with
  | none =>
    have missing := List.find?_eq_none.mp found enabled member
    have other : used ≠ apiKeyID := by
      rintro rfl
      simp [named] at missing
    simp [other]
  | some row =>
    have present := List.mem_of_find?_eq_some found
    have same : row.id = apiKeyID := by simpa using List.find?_some found
    by_cases mine : used = apiKeyID
    · -- the row with the identifier is the enabled one
      have equal := List.inj_on_of_nodup_map distinct present member (same.trans (mine ▸ named.symm))
      simp only [Option.map_some, Option.bind_some, equal, named, on, decide_true, Bool.and_self,
        if_true, if_pos mine]
    · have other : row.id ≠ used := fun equal => mine (equal.symm.trans same)
      simp [mine, other]

end Keys

section Uses
variable {sha256 : Str → Str} {s t : AuthState} {action : AuthAction} {apiKeyID : Uuid}

/-- The clock reading that an action writes for the key: that of a validation whose
recording statement is executed and finds its row. -/
def AuthState.reading (apiKeyID : Uuid) (s : AuthState) : AuthAction → List Time
  | .operate (.used used usedAt) => if used = apiKeyID then [usedAt] else []
  | .record caller reply =>
    match s.pending caller with
    | none => []
    | some validation =>
      match reply, s.keys.updateAPIKeyLastUsedAt validation.key.id validation.now with
      | .failed, _ | _, none => []
      | _, some _ => if validation.key.id = apiKeyID then [validation.now] else []
  | _ => []

/-- The instants that the column keeps of them. -/
def AuthState.recorded (apiKeyID : Uuid) (s : AuthState) (action : AuthAction) : List Time :=
  (s.reading apiKeyID action).map timestamp

theorem keyStep_lastUsedAt {keys next : Keys} {operation : KeyOperation}
    (distinct : (keys.rows.map (·.id)).Nodup) (stepped : keyStep sha256 keys operation = some next) :
    next.lastUsedAt apiKeyID = (AuthState.recorded apiKeyID ⟨keys, s.pending, s.log⟩
      (.operate operation)).getLast?.or (keys.lastUsedAt apiKeyID) := by
  cases operation with
  | addProject id =>
    cases stepped
    rfl
  | createAPIKey id createdAt now random input =>
    simp only [keyStep, createAPIKey] at stepped
    split at stepped
    · contradiction
    split at stepped
    · contradiction
    obtain ⟨rows, inserted, rfl⟩ := Option.map_eq_some_iff.mp stepped
    exact Keys.insert_lastUsedAt inserted
  | revokeAPIKey projectID disabled now =>
    simp only [keyStep, revokeAPIKey, Option.bind_eq_bind, Option.bind_eq_some_iff] at stepped
    obtain ⟨project, _, key, _, updated⟩ := stepped
    exact Keys.disableAPIKey_lastUsedAt updated
  | used used usedAt =>
    rw [Keys.updateAPIKeyLastUsedAt_lastUsedAt distinct stepped]
    simp only [AuthState.recorded, AuthState.reading]
    split
    · rfl
    · rfl

theorem authStep_lastUsedAt (sound : s.Sound) (stepped : authStep sha256 s action = some t) :
    t.keys.lastUsedAt apiKeyID =
      (s.recorded apiKeyID action).getLast?.or (s.keys.lastUsedAt apiKeyID) := by
  cases action with
  | operate operation =>
    simp only [authStep, Option.map_eq_some_iff] at stepped
    obtain ⟨keys, changed, rfl⟩ := stepped
    exact keyStep_lastUsedAt sound.distinct changed
  | lookup caller rawAPIKey now =>
    simp only [authStep] at stepped
    split at stepped
    · contradiction
    · cases stepped
      rfl
    · cases stepped
      rfl
  | record caller reply =>
    simp only [authStep] at stepped
    split at stepped
    · contradiction
    next validation waiting =>
    have assigned {keys : Keys}
        (updated : s.keys.updateAPIKeyLastUsedAt validation.key.id validation.now = some keys) :=
      @Keys.updateAPIKeyLastUsedAt_lastUsedAt s.keys keys apiKeyID sound.distinct _ _ updated
    split at stepped
    · cases stepped
      simp [AuthState.recorded, AuthState.reading, waiting]
    · next missing =>
      cases stepped
      simp [AuthState.recorded, AuthState.reading, waiting, missing]
    · next keys updated =>
      cases stepped
      simp only [assigned updated, AuthState.recorded, AuthState.reading, waiting, updated]
      split
      · rfl
      · rfl
    · next missing =>
      cases stepped
      simp [AuthState.recorded, AuthState.reading, waiting, missing]
    · next keys updated =>
      cases stepped
      simp only [assigned updated, AuthState.recorded, AuthState.reading, waiting, updated]
      split
      · rfl
      · rfl

theorem recorded_cases (s : AuthState) (action : AuthAction) :
    s.recorded apiKeyID action = [] ∨ ∃ instant, s.recorded apiKeyID action = [instant] := by
  have single (condition : Prop) [Decidable condition] (usedAt : Time) :
      (if condition then [usedAt] else []).map timestamp = [] ∨
        ∃ instant, (if condition then [usedAt] else []).map timestamp = [instant] := by
    split
    · exact .inr ⟨_, rfl⟩
    · exact .inl rfl
  unfold AuthState.recorded AuthState.reading
  split
  · exact single _ _
  · split
    · exact .inl rfl
    · split
      · exact .inl rfl
      · exact .inl rfl
      · exact single _ _
  · exact .inl rfl

theorem run_lastUsedAt {actions : List AuthAction} (path : run (authStep sha256) .initial actions = some s) :
    s.keys.lastUsedAt apiKeyID =
      (writes (authStep sha256) (AuthState.recorded apiKeyID) .initial actions).getLast? := by
  have register := @run_register _ _ _ (authStep sha256) (AuthState.recorded apiKeyID) AuthState.Sound
    (fun s => s.keys.lastUsedAt apiKeyID) authStep_sound authStep_lastUsedAt _ _ _
    AuthState.sound_initial path
  rw [register]
  exact Option.or_none

end Uses

/-- In no later state of the run does the column hold an earlier instant. -/
def NeverDecreases (sha256 : Str → Str) (apiKeyID : Uuid) (actions : List AuthAction) : Prop :=
  ∀ earlier later rest, actions = earlier ++ (later ++ rest) → ∀ s t,
    run (authStep sha256) .initial earlier = some s → run (authStep sha256) s later = some t →
    NotAfter (s.keys.lastUsedAt apiKeyID) (t.keys.lastUsedAt apiKeyID)

section Runs
variable {sha256 : Str → Str} {apiKeyID : Uuid} {s : AuthState} {actions : List AuthAction}

theorem neverDecreases_of_sorted (path : run (authStep sha256) .initial actions = some s)
    (sorted : (writes (authStep sha256) (AuthState.recorded apiKeyID) .initial actions).Pairwise (· ≤ ·)) :
    NeverDecreases sha256 apiKeyID actions := by
  rintro earlier later rest rfl t u first second
  have both := run_append first later
  rw [second] at both
  rw [← List.append_assoc, writes_append both] at sorted
  have reached := (List.pairwise_append.mp sorted).1
  rw [writes_append first] at reached
  rw [run_lastUsedAt first, run_lastUsedAt both, writes_append first]
  exact notAfter_getLast? reached

theorem sorted_of_neverDecreases (path : run (authStep sha256) .initial actions = some s)
    (monotone : NeverDecreases sha256 apiKeyID actions) :
    (writes (authStep sha256) (AuthState.recorded apiKeyID) .initial actions).Pairwise (· ≤ ·) := by
  -- by induction on the run from its end: an action writes one instant at most
  induction actions using List.reverseRecOn generalizing s with
  | nil => exact .nil
  | append_singleton actions action ih =>
    obtain ⟨t, before, last⟩ := run_split path
    have sorted := ih before (fun earlier later rest split =>
      monotone earlier later (rest ++ [action]) (by rw [split]; simp))
    obtain ⟨u, stepped, done⟩ := run_cons last
    cases done
    have grown := monotone actions [action] [] rfl t s before last
    rw [run_lastUsedAt before, run_lastUsedAt path] at grown
    have added : writes (authStep sha256) (AuthState.recorded apiKeyID) t [action] =
        t.recorded apiKeyID action := by
      simp only [writes, stepped, List.append_nil]
    rw [writes_append before, added] at grown ⊢
    rcases @recorded_cases apiKeyID t action with none | ⟨instant, one⟩
    · rw [none, List.append_nil]
      exact sorted
    · rw [one, List.getLast?_concat] at grown
      rw [one]
      exact pairwise_concat sorted grown

end Runs

/-- In every interleaving of validations and the other operations on API keys, the
column never decreases and ends as the latest of the clock readings recorded for the
key, as far as it can hold it, exactly when these are recorded in the order of the clock,
to the microsecond. It ends as that reading itself exactly when the reading is also a
whole number of microseconds. -/
theorem last_used_at_is_latest_iff (sha256 : Str → Str) (apiKeyID : Uuid) (actions : List AuthAction)
    (s : AuthState) (path : run (authStep sha256) .initial actions = some s) :
    let readings := writes (authStep sha256) (AuthState.reading apiKeyID) .initial actions
    ((NeverDecreases sha256 apiKeyID actions ∧ s.keys.lastUsedAt apiKeyID = readings.max?.map timestamp) ↔
      readings.Pairwise (fun earlier later => timestamp earlier ≤ timestamp later)) ∧
    ((NeverDecreases sha256 apiKeyID actions ∧ s.keys.lastUsedAt apiKeyID = readings.max?) ↔
      readings.Pairwise (fun earlier later => timestamp earlier ≤ timestamp later) ∧
        ∀ latest, readings.max? = some latest → timestamp latest = latest) := by
  intro readings
  have kept : writes (authStep sha256) (AuthState.recorded apiKeyID) .initial actions = readings.map timestamp :=
    writes_map _ _
  have order : readings.Pairwise (fun earlier later => timestamp earlier ≤ timestamp later) ↔
      (writes (authStep sha256) (AuthState.recorded apiKeyID) .initial actions).Pairwise (· ≤ ·) := by
    rw [kept, List.pairwise_map]
  have stored (sorted : readings.Pairwise (fun earlier later => timestamp earlier ≤ timestamp later)) :
      s.keys.lastUsedAt apiKeyID = readings.max?.map timestamp := by
    rw [run_lastUsedAt path, getLast?_eq_max? (order.mp sorted), kept, max?_map timestamp_mono]
  have whole_iff : readings.max?.map timestamp = readings.max? ↔
      ∀ latest, readings.max? = some latest → timestamp latest = latest := by
    cases readings.max? <;> simp
  refine ⟨⟨?_, ?_⟩, ⟨?_, ?_⟩⟩
  · rintro ⟨monotone, _⟩
    exact order.mpr (sorted_of_neverDecreases path monotone)
  · intro sorted
    exact ⟨neverDecreases_of_sorted path (order.mp sorted), stored sorted⟩
  · rintro ⟨monotone, ends⟩
    have sorted := order.mpr (sorted_of_neverDecreases path monotone)
    exact ⟨sorted, whole_iff.mp ((stored sorted).symm.trans ends)⟩
  · rintro ⟨sorted, whole⟩
    exact ⟨neverDecreases_of_sorted path (order.mp sorted), (stored sorted).trans (whole_iff.mpr whole)⟩

/-- Two validations whose statements commit in the order of their clock readings. -/
def orderedUses : List AuthAction := [
  .operate (.addProject partnerProject),
  .operate (.createAPIKey partnerKey 0 0 partnerEntropy ⟨partnerProject.text, lit "partner", none⟩),
  .lookup 0 partnerValue 1000, .lookup 1 partnerValue 2000, .record 0 .answered, .record 1 .answered]

theorem ordered_uses_keep_the_latest :
    ∃ s, run (authStep partnerHash) .initial orderedUses = some s ∧
      s.keys.lastUsedAt partnerKey = some 2000 ∧ NeverDecreases partnerHash partnerKey orderedUses := by
  have used : (run (authStep partnerHash) .initial orderedUses).map (·.keys.lastUsedAt partnerKey) =
      some (some 2000) := by
    decide +kernel
  obtain ⟨s, path, stored⟩ := Option.map_eq_some_iff.mp used
  have read : writes (authStep partnerHash) (AuthState.reading partnerKey) .initial orderedUses =
      [1000, 2000] := by
    decide +kernel
  refine ⟨s, path, stored, ((last_used_at_is_latest_iff _ _ _ s path).2.mpr ?_).1⟩
  rw [read]
  refine ⟨by decide, ?_⟩
  intro latest most
  cases most
  decide

/-- The same two validations, the later reading recorded first. -/
def crossedUses : List AuthAction := [
  .operate (.addProject partnerProject),
  .operate (.createAPIKey partnerKey 0 0 partnerEntropy ⟨partnerProject.text, lit "partner", none⟩),
  .lookup 0 partnerValue 1000, .lookup 1 partnerValue 2000, .record 1 .answered, .record 0 .answered]

/-- Both validations succeed, the column goes back from 2000 to 1000 and stays there. -/
theorem crossed_uses_lose_the_latest :
    ∃ s t, run (authStep partnerHash) .initial (crossedUses.take 5) = some s ∧
      run (authStep partnerHash) .initial crossedUses = some t ∧
      t.log = [.validated 1 partnerKey, .validated 0 partnerKey] ∧
      writes (authStep partnerHash) (AuthState.reading partnerKey) .initial crossedUses = [2000, 1000] ∧
      s.keys.lastUsedAt partnerKey = some 2000 ∧ t.keys.lastUsedAt partnerKey = some 1000 ∧
      ¬ NeverDecreases partnerHash partnerKey crossedUses ∧
      t.keys.lastUsedAt partnerKey ≠
        (writes (authStep partnerHash) (AuthState.reading partnerKey) .initial crossedUses).max? := by
  have early : (run (authStep partnerHash) .initial (crossedUses.take 5)).map
      (·.keys.lastUsedAt partnerKey) = some (some 2000) := by
    decide +kernel
  have late : (run (authStep partnerHash) .initial crossedUses).map
      (fun s => (s.log, s.keys.lastUsedAt partnerKey)) =
      some ([.validated 1 partnerKey, .validated 0 partnerKey], some 1000) := by
    decide +kernel
  have read : writes (authStep partnerHash) (AuthState.reading partnerKey) .initial crossedUses =
      [2000, 1000] := by
    decide +kernel
  obtain ⟨s, first, held⟩ := Option.map_eq_some_iff.mp early
  obtain ⟨t, second, found⟩ := Option.map_eq_some_iff.mp late
  obtain ⟨logged, stored⟩ := Prod.mk.inj found
  refine ⟨s, t, first, second, logged, read, held, stored, ?_, ?_⟩
  · intro monotone
    have rest := run_append first (crossedUses.drop 5)
    rw [List.take_append_drop, second] at rest
    obtain ⟨_, same, below⟩ := monotone (crossedUses.take 5) (crossedUses.drop 5) [] rfl s t first
      rest.symm 2000 held
    rw [stored] at same
    cases same
    contradiction
  · rw [stored, read]
    decide

end EdgeGuard.Auth
