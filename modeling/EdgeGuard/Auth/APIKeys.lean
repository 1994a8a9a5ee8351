import EdgeGuard.Postgres
import EdgeGuard.Transition
import Mathlib.Data.List.Nodup

/-! API keys: their text form, the table that keeps a prefix and a hash of each,
and validation of a presented key. The hash function is a parameter. -/
namespace EdgeGuard.Auth
open Go Postgres

def apiKeyEnvironment : Str := lit "live"
def apiKeyPrefixSize : Nat := 8
def apiKeySecretSize : Nat := 32

/-- What `GenerateAPIKey` reads from the random source. -/
structure APIKeyEntropy where
  prefixBytes : List UInt8
  secretBytes : List UInt8
  prefix_size : prefixBytes.length = apiKeyPrefixSize
  secret_size : secretBytes.length = apiKeySecretSize

def APIKeyEntropy.repeated (first second : UInt8) : APIKeyEntropy :=
  ⟨List.replicate 8 first, List.replicate 32 second, List.length_replicate, List.length_replicate⟩

structure GeneratedAPIKey where
  value : Str
  keyPrefix : Str
  hash : Str
  deriving DecidableEq, Repr

structure ParsedAPIKey where
  keyPrefix : Str
  hash : Str
  deriving DecidableEq, Repr

/-- `fmt.Sprintf("eg_%s_%s_%s", apiKeyEnvironment, prefix, secret)`. -/
def apiKeyValue (keyPrefix secret : Str) : Str :=
  lit "eg" ++ 95 :: (apiKeyEnvironment ++ 95 :: (keyPrefix ++ 95 :: secret))

section Hashing
variable (sha256 : Str → Str)

def hashAPIKey (rawAPIKey : Str) : Str := hexEncode (sha256 rawAPIKey)

def generateAPIKey (random : APIKeyEntropy) : GeneratedAPIKey :=
  let keyPrefix := hexEncode random.prefixBytes
  let secret := base64Encode random.secretBytes
  let value := apiKeyValue keyPrefix secret
  ⟨value, keyPrefix, hashAPIKey sha256 value⟩

def parseAPIKey (rawAPIKey : Str) : Option ParsedAPIKey :=
  let rawAPIKey := trimSpace rawAPIKey
  match splitN 95 4 rawAPIKey with
  | [product, environment, keyPrefix, secret] =>
    if product ≠ lit "eg" ∨ environment ≠ apiKeyEnvironment then none
    else match hexDecode keyPrefix with
      | none => none
      | some prefixBytes =>
        if prefixBytes.length ≠ apiKeyPrefixSize then none
        else match base64Decode secret with
          | none => none
          | some secretBytes =>
            if secretBytes.length ≠ apiKeySecretSize then none
            else some ⟨keyPrefix, hashAPIKey sha256 rawAPIKey⟩
  | _ => none

def matchAPIKeyHash (actualHash expectedHash : Str) : Bool :=
  match hexDecode actualHash, hexDecode expectedHash with
  | some actual, some expected => actual.length == expected.length && actual == expected
  | _, _ => false

end Hashing

theorem underscore_not_mem_hexEncode (bytes : List UInt8) : 95 ∉ hexEncode bytes := by
  intro member
  exact absurd (hexEncode_digits bytes 95 member) (by decide)

variable {sha256 : Str → Str}

theorem splitN_apiKeyValue (keyPrefix secret : Str) (plain : 95 ∉ keyPrefix) :
    splitN 95 4 (apiKeyValue keyPrefix secret) = [lit "eg", apiKeyEnvironment, keyPrefix, secret] := by
  rw [apiKeyValue, splitN_cons 2 (by decide), splitN_cons 1 (by decide), splitN_cons 0 plain]
  rfl

theorem parseAPIKey_generated {raw : Str} (random : APIKeyEntropy)
    (presented : trimSpace raw = (generateAPIKey sha256 random).value) :
    parseAPIKey sha256 raw =
      some ⟨(generateAPIKey sha256 random).keyPrefix, (generateAPIKey sha256 random).hash⟩ := by
  simp only [parseAPIKey, presented]
  rw [generateAPIKey, splitN_apiKeyValue _ _ (underscore_not_mem_hexEncode _)]
  simp only [hexDecode_hexEncode, base64Decode_base64Encode, random.prefix_size, random.secret_size,
    ne_eq, not_true_eq_false, or_self, if_false]

theorem parseAPIKey_hash {raw : Str} {parsed : ParsedAPIKey}
    (accepted : parseAPIKey sha256 raw = some parsed) :
    parsed.hash = hashAPIKey sha256 (trimSpace raw) := by
  simp only [parseAPIKey] at accepted
  split at accepted
  · repeat' split at accepted
    all_goals first | contradiction | (cases accepted; rfl)
  · contradiction

theorem generated_hash {random : APIKeyEntropy} {value keyPrefix hash : Str}
    (generated : generateAPIKey sha256 random = ⟨value, keyPrefix, hash⟩) :
    hash = hashAPIKey sha256 value := by
  cases generated
  rfl

theorem generated_nonempty {random : APIKeyEntropy} {value keyPrefix hash : Str}
    (generated : generateAPIKey sha256 random = ⟨value, keyPrefix, hash⟩) : value ≠ [] := by
  cases generated
  simp [apiKeyValue]

theorem matchAPIKeyHash_iff (a b : Str) :
    matchAPIKeyHash (hashAPIKey sha256 a) (hashAPIKey sha256 b) = true ↔ sha256 a = sha256 b := by
  simp only [matchAPIKeyHash, hashAPIKey, hexDecode_hexEncode, Bool.and_eq_true, beq_iff_eq]
  constructor
  · rintro ⟨_, same⟩
    exact same
  · intro same
    rw [same]
    exact ⟨rfl, rfl⟩

inductive DomainError where
  | invalidProjectID
  | invalidName
  | invalidKeyPrefix
  | invalidKeyHash
  | invalidExpiration
  deriving DecidableEq, Repr

structure APIKey where
  projectID : Str
  name : Str
  keyPrefix : Str
  keyHash : Str
  enabled : Bool
  expiresAt : Option Time
  deriving DecidableEq, Repr

/-- `expiresAt != nil && !expiresAt.After(now)`. -/
def expiredAt (expiresAt : Option Time) (now : Time) : Bool :=
  match expiresAt with
  | none => false
  | some instant => instant ≤ now

def newAPIKey (projectID name keyPrefix keyHash : Str) (expiresAt : Option Time) (now : Time) :
    Except DomainError APIKey :=
  let projectID := trimSpace projectID
  let name := trimSpace name
  let keyPrefix := trimSpace keyPrefix
  let keyHash := trimSpace keyHash
  if projectID = [] then .error .invalidProjectID
  else if name = [] then .error .invalidName
  else if keyPrefix = [] then .error .invalidKeyPrefix
  else if keyHash = [] then .error .invalidKeyHash
  else if expiredAt expiresAt now = true then .error .invalidExpiration
  else .ok ⟨projectID, name, keyPrefix, keyHash, true, expiresAt⟩

structure APIKeyRow where
  id : Uuid
  projectID : Uuid
  name : Str
  keyPrefix : Str
  keyHash : Str
  enabled : Bool
  expiresAt : Option Time
  lastUsedAt : Option Time
  createdAt : Time
  updatedAt : Time
  deriving DecidableEq

/-- `IsActive`. -/
def APIKeyRow.isActive (key : APIKeyRow) (now : Time) : Bool :=
  if key.enabled = false then false
  else match key.expiresAt with
    | none => true
    | some expiresAt => now < expiresAt

/-- The table `api_keys` with the projects it refers to, and the record of which
value `CreateAPIKey` returned for which row: the value itself is not stored. -/
structure Keys where
  projects : List Uuid
  rows : List APIKeyRow
  issued : List (Uuid × Str)
  deriving DecidableEq

namespace Keys

def empty : Keys := ⟨[], [], []⟩

/-- `createAPIKeyQuery`, with the identifier and the time of the transaction that
the database supplies. -/
def insert (keys : Keys) (id : Uuid) (createdAt : Time) (key : APIKey) : Option (List APIKeyRow) := do
  let projectID ← Uuid.parse key.projectID
  let expiresAt := key.expiresAt.map timestamp
  if projectID ∈ keys.projects ∧ textOk key.name = true ∧ textOk key.keyPrefix = true ∧
      textOk key.keyHash = true ∧ (∀ instant ∈ key.expiresAt, timestampOk instant = true) ∧
      (∀ instant ∈ expiresAt, createdAt < instant) ∧
      (∀ row ∈ keys.rows, row.id ≠ id ∧ row.keyPrefix ≠ key.keyPrefix ∧ row.keyHash ≠ key.keyHash ∧
        ¬ (row.projectID = projectID ∧ row.name = key.name)) then
    some (keys.rows ++ [⟨id, projectID, key.name, key.keyPrefix, key.keyHash, key.enabled, expiresAt,
      none, createdAt, createdAt⟩])
  else none

/-- `getAPIKeyByPrefixQuery`. -/
def getAPIKeyByPrefix (keys : Keys) (keyPrefix : Str) : Option APIKeyRow :=
  keys.rows.find? (·.keyPrefix = keyPrefix)

/-- An `UPDATE .. WHERE .. RETURNING id` on at most one row; `none` is
`ErrAPIKeyNotFound`. -/
def update (keys : Keys) (selected : APIKeyRow → Bool) (change : APIKeyRow → APIKeyRow) :
    Option Keys :=
  if keys.rows.any selected then
    some { keys with rows := keys.rows.map (fun row => if selected row then change row else row) }
  else none

/-- `disableAPIKeyQuery`. -/
def disableAPIKey (keys : Keys) (projectID apiKeyID : Uuid) (disabledAt : Time) : Option Keys :=
  keys.update (fun row => row.id = apiKeyID && row.projectID = projectID)
    (fun row => { row with enabled := false, updatedAt := timestamp disabledAt })

/-- `updateAPIKeyLastUsedAtQuery`. -/
def updateAPIKeyLastUsedAt (keys : Keys) (apiKeyID : Uuid) (usedAt : Time) : Option Keys :=
  keys.update (fun row => row.id = apiKeyID && row.enabled)
    (fun row => { row with lastUsedAt := some (timestamp usedAt) })

end Keys

structure CreateAPIKeyInput where
  projectID : Str
  name : Str
  expiresAt : Option Time

/-- A change of the table, with the clock readings, random bytes and identifiers
it draws. `used` is the second statement of a validation. -/
inductive KeyOperation where
  | addProject (id : Uuid)
  | createAPIKey (id : Uuid) (createdAt now : Time) (random : APIKeyEntropy) (input : CreateAPIKeyInput)
  | revokeAPIKey (projectID apiKeyID : Str) (now : Time)
  | used (apiKeyID : Uuid) (usedAt : Time)

section Operations
variable (sha256 : Str → Str)

/-- `CreateAPIKey`; the value is returned to the caller and not kept elsewhere. -/
def createAPIKey (keys : Keys) (id : Uuid) (createdAt now : Time) (random : APIKeyEntropy)
    (input : CreateAPIKeyInput) : Option Keys :=
  let projectID := trimSpace input.projectID
  let name := trimSpace input.name
  if projectID = [] ∨ name = [] ∨ expiredAt input.expiresAt now = true then none
  else
    let generated := generateAPIKey sha256 random
    match newAPIKey projectID name generated.keyPrefix generated.hash input.expiresAt now with
    | .error _ => none
    | .ok key => (keys.insert id createdAt key).map
        (fun rows => { keys with rows, issued := keys.issued ++ [(id, generated.value)] })

/-- `RevokeAPIKey`. -/
def revokeAPIKey (keys : Keys) (projectID apiKeyID : Str) (now : Time) : Option Keys := do
  let project ← Uuid.parse (trimSpace projectID)
  let key ← Uuid.parse (trimSpace apiKeyID)
  keys.disableAPIKey project key now

def keyStep (keys : Keys) : KeyOperation → Option Keys
  | .addProject id => some { keys with projects := id :: keys.projects }
  | .createAPIKey id createdAt now random input => createAPIKey sha256 keys id createdAt now random input
  | .revokeAPIKey projectID apiKeyID now => revokeAPIKey keys projectID apiKeyID now
  | .used apiKeyID usedAt => keys.updateAPIKeyLastUsedAt apiKeyID usedAt

end Operations

/-- Every row keeps the prefix and the hash of the one value issued for it. -/
structure Keys.Valid (sha256 : Str → Str) (keys : Keys) : Prop where
  owner : ∀ row ∈ keys.rows, ∃ value, (row.id, value) ∈ keys.issued
  derived : ∀ row ∈ keys.rows, ∀ value, (row.id, value) ∈ keys.issued →
    ∃ random, generateAPIKey sha256 random = ⟨value, row.keyPrefix, row.keyHash⟩
  known : ∀ entry ∈ keys.issued, ∃ row ∈ keys.rows, row.id = entry.1
  prefixes : (keys.rows.map (·.keyPrefix)).Nodup

theorem Keys.valid_empty (sha256 : Str → Str) : Keys.empty.Valid sha256 :=
  ⟨by simp [empty], by simp [empty], by simp [empty], by simp [empty]⟩

variable {keys next : Keys}

/-- Everything a change can do: add a key with a fresh identifier and prefix, or
change columns of rows that do not identify the key. -/
inductive KeyEffect (sha256 : Str → Str) (keys : Keys) : Keys → Prop
  | project (id : Uuid) : KeyEffect sha256 keys { keys with projects := id :: keys.projects }
  | create (random : APIKeyEntropy) (row : APIKeyRow)
      (prefixed : row.keyPrefix = (generateAPIKey sha256 random).keyPrefix)
      (hashed : row.keyHash = (generateAPIKey sha256 random).hash)
      (fresh : ∀ other ∈ keys.rows, other.id ≠ row.id ∧ other.keyPrefix ≠ row.keyPrefix) :
      KeyEffect sha256 keys { keys with
        rows := keys.rows ++ [row]
        issued := keys.issued ++ [(row.id, (generateAPIKey sha256 random).value)] }
  | change (modify : APIKeyRow → APIKeyRow)
      (same : ∀ row, (modify row).id = row.id ∧ (modify row).keyPrefix = row.keyPrefix ∧
        (modify row).keyHash = row.keyHash) :
      KeyEffect sha256 keys { keys with rows := keys.rows.map modify }

theorem update_effect {selected : APIKeyRow → Bool} {change : APIKeyRow → APIKeyRow}
    (same : ∀ row, (change row).id = row.id ∧ (change row).keyPrefix = row.keyPrefix ∧
      (change row).keyHash = row.keyHash)
    (updated : keys.update selected change = some next) : KeyEffect sha256 keys next := by
  simp only [Keys.update, Option.ite_none_right_eq_some, Option.some.injEq] at updated
  obtain ⟨_, rfl⟩ := updated
  apply KeyEffect.change
  intro row
  split
  · exact same row
  · exact ⟨rfl, rfl, rfl⟩

theorem newAPIKey_spec {projectID name keyPrefix keyHash : Str} {expiresAt : Option Time}
    {now : Time} {key : APIKey}
    (created : newAPIKey projectID name keyPrefix keyHash expiresAt now = .ok key) :
    key = ⟨trimSpace projectID, trimSpace name, trimSpace keyPrefix, trimSpace keyHash, true,
      expiresAt⟩ := by
  simp only [newAPIKey] at created
  repeat' split at created
  all_goals first | contradiction | (cases created; rfl)

theorem createAPIKey_effect {id : Uuid} {createdAt now : Time} {random : APIKeyEntropy}
    {input : CreateAPIKeyInput}
    (created : createAPIKey sha256 keys id createdAt now random input = some next) :
    KeyEffect sha256 keys next := by
  simp only [createAPIKey] at created
  split at created
  · contradiction
  · split at created
    · contradiction
    · rename_i key accepted
      cases newAPIKey_spec accepted
      simp only [Keys.insert, Option.bind_eq_bind, Option.map_bind, Option.bind_eq_some_iff,
        Function.comp_apply, Option.map_eq_some_iff, Option.ite_none_right_eq_some,
        Option.some.injEq] at created
      obtain ⟨projectID, _, rows, ⟨⟨_, _, _, _, _, _, fresh⟩, rfl⟩, rfl⟩ := created
      have prefixed : trimSpace (generateAPIKey sha256 random).keyPrefix =
          (generateAPIKey sha256 random).keyPrefix := trimSpace_hexEncode _
      have hashed : trimSpace (generateAPIKey sha256 random).hash =
          (generateAPIKey sha256 random).hash := trimSpace_hexEncode _
      refine .create random ⟨id, projectID, _, _, _, _, _, _, _, _⟩ prefixed hashed ?_
      intro other member
      exact ⟨(fresh other member).1, (fresh other member).2.1⟩

theorem keyStep_effect {operation : KeyOperation}
    (stepped : keyStep sha256 keys operation = some next) : KeyEffect sha256 keys next := by
  cases operation with
  | addProject id =>
    cases stepped
    exact .project id
  | createAPIKey id createdAt now random input => exact createAPIKey_effect stepped
  | revokeAPIKey projectID apiKeyID now =>
    simp only [keyStep, revokeAPIKey, Option.bind_eq_bind, Option.bind_eq_some_iff] at stepped
    obtain ⟨project, _, key, _, disabled⟩ := stepped
    exact update_effect (by simp) disabled
  | used apiKeyID usedAt => exact update_effect (by simp) stepped

theorem keyEffect_valid (valid : keys.Valid sha256) (effect : KeyEffect sha256 keys next) :
    next.Valid sha256 := by
  cases effect with
  | project id => exact ⟨valid.owner, valid.derived, valid.known, valid.prefixes⟩
  | create random row prefixed hashed fresh =>
    -- A row that is present has an identifier other than the new one, and an
    -- issued value belongs to a row that is present.
    have unissued : ∀ value, (row.id, value) ∉ keys.issued := by
      intro value member
      obtain ⟨other, present, same⟩ := valid.known _ member
      exact (fresh other present).1 same
    refine ⟨?_, ?_, ?_, ?_⟩
    · intro other member
      rcases List.mem_append.mp member with old | new
      · obtain ⟨value, issued⟩ := valid.owner other old
        exact ⟨value, List.mem_append_left _ issued⟩
      · cases List.mem_singleton.mp new
        exact ⟨_, List.mem_append_right _ (List.mem_singleton.mpr rfl)⟩
    · intro other member value issued
      rcases List.mem_append.mp member with old | new
      · rcases List.mem_append.mp issued with before | now
        · exact valid.derived other old value before
        · have same := congrArg Prod.fst (List.mem_singleton.mp now)
          exact absurd same (fresh other old).1
      · cases List.mem_singleton.mp new
        rcases List.mem_append.mp issued with before | now
        · exact absurd before (unissued value)
        · have same := congrArg Prod.snd (List.mem_singleton.mp now)
          refine ⟨random, ?_⟩
          rw [prefixed, hashed, show value = _ from same]
    · intro entry member
      rcases List.mem_append.mp member with old | new
      · obtain ⟨other, present, same⟩ := valid.known entry old
        exact ⟨other, List.mem_append_left _ present, same⟩
      · cases List.mem_singleton.mp new
        exact ⟨row, List.mem_append_right _ (List.mem_singleton.mpr rfl), rfl⟩
    · exact unique_insert.mpr ⟨valid.prefixes, fun other member => (fresh other member).2⟩
  | change modify same =>
    refine ⟨?_, ?_, ?_, ?_⟩
    · intro row member
      obtain ⟨before, present, rfl⟩ := List.mem_map.mp member
      exact (same before).1.symm ▸ valid.owner before present
    · intro row member value issued
      obtain ⟨before, present, rfl⟩ := List.mem_map.mp member
      obtain ⟨id, prefixed, hashed⟩ := same before
      rw [id] at issued
      rw [prefixed, hashed]
      exact valid.derived before present value issued
    · intro entry member
      obtain ⟨row, present, id⟩ := valid.known entry member
      exact ⟨modify row, List.mem_map_of_mem present, (same row).1.trans id⟩
    · have kept : (keys.rows.map modify).map (·.keyPrefix) = keys.rows.map (·.keyPrefix) := by
        simp only [List.map_map]
        exact List.map_congr_left (fun row _ => (same row).2.1)
      exact kept ▸ valid.prefixes

theorem keyStep_valid {operation : KeyOperation} (valid : keys.Valid sha256)
    (stepped : keyStep sha256 keys operation = some next) : next.Valid sha256 :=
  keyEffect_valid valid (keyStep_effect stepped)

inductive ValidateError where
  | dependenciesMissing
  | invalidAPIKey
  | database
  deriving DecidableEq, Repr

structure Principal where
  apiKeyID : Str
  projectID : Str
  deriving DecidableEq, Repr

/-- What one validation meets: the table when the key is looked up and the table
when its use is recorded, `none` where the database does not answer, and the
clock reading in between. -/
structure Validation where
  configured : Bool
  lookup : Option Keys
  update : Option Keys
  now : Time

section Validate
variable (sha256 : Str → Str)

def validateAPIKey (env : Validation) (rawAPIKey : Str) : Except ValidateError Principal :=
  if env.configured = false then .error .dependenciesMissing
  else match parseAPIKey sha256 rawAPIKey with
    | none => .error .invalidAPIKey
    | some parsed => match env.lookup with
      | none => .error .database
      | some keys => match keys.getAPIKeyByPrefix parsed.keyPrefix with
        | none => .error .invalidAPIKey
        | some key =>
          if matchAPIKeyHash parsed.hash key.keyHash = false ∨ key.isActive env.now = false then
            .error .invalidAPIKey
          else match env.update with
            | none => .error .database
            | some later => match later.updateAPIKeyLastUsedAt key.id env.now with
              | none => .error .invalidAPIKey
              | some _ => .ok ⟨key.id.text, key.projectID.text⟩

/-- No issued value other than the presented text has its hash. -/
def CollisionFree (presented : Str) (keys : Keys) : Prop :=
  ∀ entry ∈ keys.issued, sha256 presented = sha256 entry.2 → presented = entry.2

end Validate

/-- The text is the value issued for a row that is enabled and not expired. -/
structure Presents (keys : Keys) (now : Time) (presented : Str) (row : APIKeyRow) : Prop where
  stored : row ∈ keys.rows
  value : (row.id, presented) ∈ keys.issued
  enabled : row.enabled = true
  unexpired : ∀ expiresAt, row.expiresAt = some expiresAt → now < expiresAt

/-- The row is still there and enabled when the use is recorded. -/
def StillEnabled (keys : Keys) (row : APIKeyRow) : Prop :=
  ∃ later ∈ keys.rows, later.id = row.id ∧ later.enabled = true

theorem isActive_iff {row : APIKeyRow} {now : Time} : row.isActive now = true ↔
    row.enabled = true ∧ ∀ expiresAt, row.expiresAt = some expiresAt → now < expiresAt := by
  unfold APIKeyRow.isActive
  cases row.enabled with
  | false => simp
  | true =>
    cases row.expiresAt with
    | none => simp
    | some expiresAt => simp

theorem updateAPIKeyLastUsedAt_isSome (row : APIKeyRow) (usedAt : Time) :
    (∃ later, keys.updateAPIKeyLastUsedAt row.id usedAt = some later) ↔ StillEnabled keys row := by
  simp only [Keys.updateAPIKeyLastUsedAt, Keys.update, Option.ite_none_right_eq_some, exists_and_left,
    Option.some.injEq, exists_eq', and_true, List.any_eq_true, StillEnabled, Bool.and_eq_true,
    decide_eq_true_eq]

theorem getAPIKeyByPrefix_of_mem {row : APIKeyRow} (distinct : (keys.rows.map (·.keyPrefix)).Nodup)
    (member : row ∈ keys.rows) : keys.getAPIKeyByPrefix row.keyPrefix = some row := by
  unfold Keys.getAPIKeyByPrefix
  cases found : keys.rows.find? (fun other => other.keyPrefix = row.keyPrefix) with
  | none =>
    have absent := List.find?_eq_none.mp found row member
    simp at absent
  | some other =>
    have same : other.keyPrefix = row.keyPrefix := by simpa using List.find?_some found
    rw [List.inj_on_of_nodup_map distinct (List.mem_of_find?_eq_some found) member same]

/-- A validation succeeds exactly when the service is configured, both statements
are answered and the trimmed text is the value of an active row that is still
enabled when its use is recorded. -/
theorem validateAPIKey_ok_iff {env : Validation} {raw : Str} {principal : Principal}
    (valid : ∀ keys, env.lookup = some keys → keys.Valid sha256)
    (collisionFree : ∀ keys, env.lookup = some keys → CollisionFree sha256 (trimSpace raw) keys) :
    validateAPIKey sha256 env raw = .ok principal ↔
      env.configured = true ∧ ∃ keys later row, env.lookup = some keys ∧ env.update = some later ∧
        Presents keys env.now (trimSpace raw) row ∧ StillEnabled later row ∧
        principal = ⟨row.id.text, row.projectID.text⟩ := by
  constructor
  · intro validated
    simp only [validateAPIKey] at validated
    split at validated
    · contradiction
    rename_i configured
    split at validated
    · contradiction
    rename_i parsed accepted
    split at validated
    · contradiction
    rename_i keys looked
    split at validated
    · contradiction
    rename_i row found
    split at validated
    · contradiction
    rename_i passed
    split at validated
    · contradiction
    rename_i later updated
    split at validated
    · contradiction
    rename_i after recorded
    cases validated
    simp only [not_or, Bool.not_eq_false] at passed configured
    obtain ⟨hashes, active⟩ := passed
    have member := List.mem_of_find?_eq_some found
    obtain ⟨value, issued⟩ := (valid keys looked).owner row member
    obtain ⟨random, generated⟩ := (valid keys looked).derived row member value issued
    rw [parseAPIKey_hash accepted, generated_hash generated, matchAPIKeyHash_iff] at hashes
    have same : trimSpace raw = value := collisionFree keys looked _ issued hashes
    obtain ⟨enabled, unexpired⟩ := isActive_iff.mp active
    exact ⟨configured, keys, later, row, looked, updated,
      ⟨member, same.symm ▸ issued, enabled, unexpired⟩,
      (updateAPIKeyLastUsedAt_isSome row env.now).mp ⟨after, recorded⟩, rfl⟩
  · rintro ⟨configured, keys, later, row, looked, updated, presents, still, rfl⟩
    obtain ⟨random, generated⟩ :=
      (valid keys looked).derived row presents.stored _ presents.value
    have parsed : parseAPIKey sha256 raw = some ⟨row.keyPrefix, row.keyHash⟩ := by
      rw [parseAPIKey_generated random (by rw [generated]), generated]
    obtain ⟨after, recorded⟩ := (updateAPIKeyLastUsedAt_isSome row env.now).mpr still
    have active := isActive_iff.mpr ⟨presents.enabled, presents.unexpired⟩
    have matched : matchAPIKeyHash row.keyHash row.keyHash = true := by
      rw [generated_hash generated, matchAPIKeyHash_iff]
    simp only [validateAPIKey, configured, parsed, looked, updated, recorded, matched, active,
      getAPIKeyByPrefix_of_mem (valid keys looked).prefixes presents.stored, Bool.true_eq_false,
      or_self, if_false]

end EdgeGuard.Auth
