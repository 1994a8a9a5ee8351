import EdgeGuard.Go.Case
import EdgeGuard.Postgres
import EdgeGuard.Transition
import Mathlib.Logic.Relation
import Mathlib.Logic.Function.Basic

/-! Refresh tokens: login, rotation, logout and cleanup over one table. A refresh
reads its token in one statement and rotates it in a later transaction, so that any
number of other calls come between. -/
namespace EdgeGuard.Auth
open Go Postgres Transition

inductive Role where
  | admin
  | member
  deriving DecidableEq, Repr

structure UserRow where
  id : Uuid
  email : Str
  passwordHash : Str
  role : Role
  enabled : Bool
  deriving DecidableEq

structure TokenRow where
  id : Uuid
  userID : Uuid
  tokenHash : Str
  expiresAt : Time
  revokedAt : Option Time
  createdAt : Time
  deriving DecidableEq

structure RefreshToken where
  userID : Str
  tokenHash : Str
  expiresAt : Time
  deriving DecidableEq, Repr

inductive TokenError where
  | invalidUserID
  | invalidTokenHash
  | invalidExpiration
  | invalidTokenUser
  | invalidCredentials
  | userDisabled
  | invalidRefreshToken
  | database
  deriving DecidableEq, Repr

def newRefreshToken (userID tokenHash : Str) (expiresAt now : Time) : Except TokenError RefreshToken :=
  let userID := trimSpace userID
  let tokenHash := trimSpace tokenHash
  if userID = [] then .error .invalidUserID
  else if tokenHash = [] then .error .invalidTokenHash
  else if ¬ now < expiresAt then .error .invalidExpiration
  else .ok ⟨userID, tokenHash, expiresAt⟩

def TokenRow.isActive (token : TokenRow) (now : Time) : Bool :=
  token.revokedAt.isNone && now < token.expiresAt

/-- The libraries behind the usecase, `LOWER` of the database and the configured lifetime
of a token. -/
structure Services where
  sha256 : Str → Str
  unicode : CaseTable
  lower : Str → Str
  passwordMatches : Str → Str → Bool
  refreshTokenTTL : Duration

section Usecase
variable (services : Services)

def hashRefreshToken (rawToken : Str) : Str := hexEncode (services.sha256 rawToken)

/-- What `IssueAccessToken` asks of the user; the signed text itself is not modelled. -/
def checkTokenUser (user : UserRow) (now : Time) : Except TokenError Unit :=
  if trimSpace user.id.text = [] ∨ user.enabled = false ∨ now = zeroTime then .error .invalidTokenUser
  else .ok ()

/-- `buildTokens`, with the bytes `GenerateRefreshToken` reads from the random source. -/
def buildTokens (user : UserRow) (now : Time) (random : List UInt8) : Except TokenError RefreshToken := do
  checkTokenUser user now
  newRefreshToken user.id.text (hashRefreshToken services (base64Encode random))
    (now + services.refreshTokenTTL) now

/-- `createRefreshTokenQuery` with its constraints, for the identifier and the
transaction time the database supplies. -/
def insertRefreshToken (users : List UserRow) (rows : List TokenRow) (id : Uuid) (createdAt : Time)
    (token : RefreshToken) : Option TokenRow := do
  let userID ← Uuid.parse token.userID
  let expiresAt := timestamp token.expiresAt
  if (∃ user ∈ users, user.id = userID) ∧ textOk token.tokenHash = true ∧
      timestampOk token.expiresAt = true ∧ createdAt < expiresAt ∧
      ∀ row ∈ rows, row.id ≠ id ∧ row.tokenHash ≠ token.tokenHash then
    some ⟨id, userID, token.tokenHash, expiresAt, none, createdAt⟩
  else none

def getRefreshTokenByHash (rows : List TokenRow) (tokenHash : Str) : Option TokenRow :=
  rows.find? (·.tokenHash = tokenHash)

/-- `UPDATE refresh_tokens .. WHERE .. RETURNING id`; `none` is `pgx.ErrNoRows`. -/
def updateTokens (selected : TokenRow → Bool) (change : TokenRow → TokenRow) (rows : List TokenRow) :
    Option (List TokenRow) :=
  if rows.any selected then some (rows.map (fun row => if selected row then change row else row)) else none

def revokeRefreshTokenByID (rows : List TokenRow) (id : Uuid) (revokedAt : Time) : Option (List TokenRow) :=
  updateTokens (fun row => row.id = id && row.revokedAt.isNone && timestamp revokedAt < row.expiresAt)
    (fun row => { row with revokedAt := some (timestamp revokedAt) }) rows

def revokeRefreshTokenByHash (rows : List TokenRow) (tokenHash : Str) (revokedAt : Time) :
    Option (List TokenRow) :=
  updateTokens (·.tokenHash = tokenHash)
    (fun row => { row with revokedAt := row.revokedAt.or (some (timestamp revokedAt)) }) rows

/-- The statement of `RotateRefreshToken` that the database fails. -/
inductive RotationFault where
  | begins
  | revoke
  | insert
  | commit
  deriving DecidableEq, Repr

/-- `RotateRefreshToken`: the rows after a commit and the created one. With an error
the transaction is rolled back. -/
def rotateRefreshToken (users : List UserRow) (rows : List TokenRow) (currentTokenID : Str)
    (replacement : RefreshToken) (revokedAt : Time) (id : Uuid) (createdAt : Time)
    (fault : Option RotationFault) : Except TokenError (List TokenRow × TokenRow) :=
  if fault = some .begins ∨ fault = some .revoke ∨ timestampOk revokedAt = false then .error .database
  else match Uuid.parse currentTokenID with
    | none => .error .database
    | some current => match revokeRefreshTokenByID rows current revokedAt with
      | none => .error .invalidRefreshToken
      | some revoked =>
        if fault = some .insert then .error .database
        else match insertRefreshToken users revoked id createdAt replacement with
          | none => .error .database
          | some created =>
            if fault = some .commit then .error .database else .ok (revoked ++ [created], created)

/-- The `candidates` of `CleanupExpiredTokens`. -/
def cleanable (before : Time) (row : TokenRow) : Bool :=
  row.expiresAt < timestamp before || row.revokedAt.any (· < timestamp before)

/-- A result of its `ORDER BY created_at LIMIT`: rows created at the same time may
be taken in any order. -/
def Candidates (rows : List TokenRow) (before : Time) (batchSize : Nat) (chosen : List Uuid) : Prop :=
  chosen.Nodup ∧ (∀ id ∈ chosen, ∃ row ∈ rows, row.id = id ∧ cleanable before row = true) ∧
    chosen.length = min batchSize (rows.filter (cleanable before)).length ∧
    ∀ row ∈ rows, cleanable before row = true → row.id ∉ chosen →
      ∀ taken ∈ rows, taken.id ∈ chosen → taken.createdAt ≤ row.createdAt

instance (rows : List TokenRow) (before : Time) (batchSize : Nat) (chosen : List Uuid) :
    Decidable (Candidates rows before batchSize chosen) := inferInstanceAs (Decidable (_ ∧ _))

/-- The part of `Login` before its insert. -/
def prepareLogin (users : List UserRow) (email password : Str) (now : Time) (random : List UInt8) :
    Except TokenError RefreshToken :=
  let email := services.unicode.toLower (trimSpace email)
  match users.find? (fun user => services.lower user.email = services.lower email) with
  | none => .error .invalidCredentials
  | some user =>
    if user.enabled = false then .error .userDisabled
    else if services.passwordMatches user.passwordHash password = false then .error .invalidCredentials
    else buildTokens services user now random

/-- `Refresh` up to the activity check. -/
def readCurrent (rows : List TokenRow) (input : Str) (now : Time) (failed : Bool) : Except TokenError TokenRow :=
  let rawRefreshToken := trimSpace input
  let tokenHash := hashRefreshToken services rawRefreshToken
  if rawRefreshToken = [] ∨ tokenHash = [] then .error .invalidRefreshToken
  else if failed then .error .database
  else match getRefreshTokenByHash rows tokenHash with
    | none => .error .invalidRefreshToken
    | some token => if token.isActive now then .ok token else .error .invalidRefreshToken

/-- `Refresh` from the user lookup to `buildTokens`. -/
def buildReplacement (users : List UserRow) (current : TokenRow) (now : Time) (random : List UInt8)
    (failed : Bool) : Except TokenError RefreshToken :=
  if failed then .error .database
  else match Uuid.parse current.userID.text with
    | none => .error .database
    | some id => match users.find? (·.id = id) with
      | none => .error .invalidRefreshToken
      | some user =>
        if user.enabled = false then .error .userDisabled else buildTokens services user now random

end Usecase

inductive Work where
  | loggingIn (token : RefreshToken)
  | refreshing (current : TokenRow) (now : Time)
  | rotating (current : TokenRow) (replacement : RefreshToken) (now : Time)
  deriving DecidableEq

/-- The lists record every row that was created with its user, the rows that logins
created, the pairs of a consumed row and its replacement, and what the calls of
`Refresh` returned. -/
structure Sessions where
  users : List UserRow
  rows : List TokenRow
  calls : Nat → Option Work
  issued : List (Uuid × Uuid)
  logins : List Uuid
  replaced : List (Uuid × Uuid)
  returned : List (Except TokenError Uuid)

def Sessions.start (users : List UserRow) : Sessions := ⟨users, [], fun _ => none, [], [], [], []⟩

inductive TokenAction where
  | register (user : UserRow)
  | login (caller : Nat) (email password : Str) (now : Time) (random : List UInt8)
  | create (caller : Nat) (id : Uuid) (createdAt : Time) (failed : Bool)
  | refresh (caller : Nat) (input : Str) (now : Time) (failed : Bool)
  | build (caller : Nat) (random : List UInt8) (failed : Bool)
  | rotate (caller : Nat) (id : Uuid) (createdAt : Time) (fault : Option RotationFault)
  | logout (input : Str) (now : Time) (failed : Bool)
  | cleanup (before : Time) (batchSize : Nat) (chosen : List Uuid) (failed : Bool)
  deriving DecidableEq

/-- The steps of a call of `Refresh`. -/
def TokenAction.refreshes : TokenAction → Bool
  | .refresh .. | .build .. | .rotate .. => true
  | _ => false

namespace Sessions

def goOn (s : Sessions) (caller : Nat) (work : Option Work) : Sessions :=
  { s with calls := Function.update s.calls caller work }

def fails (s : Sessions) (caller : Nat) (err : TokenError) : Sessions :=
  { s.goOn caller none with returned := s.returned ++ [.error err] }

/-- `gen_random_uuid` does not give an identifier twice. -/
def Fresh (s : Sessions) (id : Uuid) : Prop := ∀ row ∈ s.issued, row.1 ≠ id

instance (s : Sessions) (id : Uuid) : Decidable (s.Fresh id) :=
  inferInstanceAs (Decidable (∀ row ∈ s.issued, row.1 ≠ id))

def created (s : Sessions) (caller : Nat) (row : TokenRow) : Sessions :=
  { s.goOn caller none with
    rows := s.rows ++ [row]
    issued := s.issued ++ [(row.id, row.userID)]
    logins := s.logins ++ [row.id] }

def rotated (s : Sessions) (caller : Nat) (current : TokenRow) (rows : List TokenRow) (row : TokenRow) :
    Sessions :=
  { s.goOn caller none with
    rows
    issued := s.issued ++ [(row.id, row.userID)]
    replaced := s.replaced ++ [(current.id, row.id)]
    returned := s.returned ++ [.ok row.id] }

end Sessions

def tokenStep (services : Services) (s : Sessions) : TokenAction → Option Sessions
  | .register user =>
    if ∀ other ∈ s.users, other.id ≠ user.id ∧ services.lower other.email ≠ services.lower user.email then
      some { s with users := s.users ++ [user] }
    else none
  | .login caller email password now random => match s.calls caller with
    | some _ => none
    | none => match prepareLogin services s.users email password now random with
      | .error _ => some s
      | .ok token => some (s.goOn caller (some (.loggingIn token)))
  | .create caller id createdAt failed => match s.calls caller with
    | some (.loggingIn token) =>
      if ¬ s.Fresh id then none
      else if failed then some (s.goOn caller none)
      else match insertRefreshToken s.users s.rows id createdAt token with
        | none => some (s.goOn caller none)
        | some row => some (s.created caller row)
    | _ => none
  | .refresh caller input now failed => match s.calls caller with
    | some _ => none
    | none => match readCurrent services s.rows input now failed with
      | .error err => some (s.fails caller err)
      | .ok current => some (s.goOn caller (some (.refreshing current now)))
  | .build caller random failed => match s.calls caller with
    | some (.refreshing current now) => match buildReplacement services s.users current now random failed with
      | .error err => some (s.fails caller err)
      | .ok replacement => some (s.goOn caller (some (.rotating current replacement now)))
    | _ => none
  | .rotate caller id createdAt fault => match s.calls caller with
    | some (.rotating current replacement now) =>
      if ¬ s.Fresh id then none
      else match rotateRefreshToken s.users s.rows current.id.text replacement now id createdAt fault with
        | .error err => some (s.fails caller err)
        | .ok (rows, row) => some (s.rotated caller current rows row)
    | _ => none
  | .logout input now failed =>
    if failed ∨ trimSpace input = [] then some s
    else match revokeRefreshTokenByHash s.rows (hashRefreshToken services (trimSpace input)) now with
      | none => some s
      | some rows => some { s with rows }
  | .cleanup before batchSize chosen failed =>
    if failed then some s
    else if Candidates s.rows before batchSize chosen then
      some { s with rows := s.rows.filter (·.id ∉ chosen) }
    else none

variable {services : Services}

theorem newRefreshToken_userID {userID tokenHash : Str} {expiresAt now : Time} {token : RefreshToken}
    (built : newRefreshToken userID tokenHash expiresAt now = .ok token) :
    token.userID = trimSpace userID := by
  unfold newRefreshToken at built
  obtain ⟨_, built⟩ := check_passed built
  obtain ⟨_, built⟩ := check_passed built
  obtain ⟨_, built⟩ := check_passed built
  cases built
  rfl

theorem buildReplacement_userID {users : List UserRow} {current : TokenRow} {now : Time}
    {random : List UInt8} {failed : Bool} {replacement : RefreshToken}
    (built : buildReplacement services users current now random failed = .ok replacement) :
    Uuid.parse replacement.userID = some current.userID := by
  unfold buildReplacement at built
  obtain ⟨_, built⟩ := check_passed built
  rw [Uuid.parse_text] at built
  cases found : users.find? (·.id = current.userID) with
  | none => simp [found] at built
  | some user =>
    simp only [found] at built
    obtain ⟨_, built⟩ := check_passed built
    have same : user.id = current.userID := by simpa using List.find?_some found
    unfold buildTokens checkTokenUser at built
    split at built
    · contradiction
    · rw [newRefreshToken_userID built, Uuid.trimSpace_text, Uuid.parse_text, same]

theorem readCurrent_mem {rows : List TokenRow} {input : Str} {now : Time} {failed : Bool} {current : TokenRow}
    (read : readCurrent services rows input now failed = .ok current) : current ∈ rows := by
  unfold readCurrent getRefreshTokenByHash at read
  obtain ⟨_, read⟩ := check_passed read
  obtain ⟨_, read⟩ := check_passed read
  split at read
  · contradiction
  · rename_i token found
    split at read
    · cases read
      exact List.mem_of_find?_eq_some found
    · contradiction

structure Inserted (id : Uuid) (token : RefreshToken) (row : TokenRow) : Prop where
  id : row.id = id
  unrevoked : row.revokedAt = none
  user : Uuid.parse token.userID = some row.userID

theorem insertRefreshToken_inserted {users : List UserRow} {rows : List TokenRow} {id : Uuid}
    {createdAt : Time} {token : RefreshToken} {row : TokenRow}
    (inserted : insertRefreshToken users rows id createdAt token = some row) : Inserted id token row := by
  simp only [insertRefreshToken, Option.bind_eq_bind, Option.bind_eq_some_iff] at inserted
  obtain ⟨userID, parsed, inserted⟩ := inserted
  split at inserted
  · cases inserted
    exact ⟨rfl, rfl, parsed⟩
  · contradiction

theorem rotateRefreshToken_ok {users : List UserRow} {rows after : List TokenRow} {current : TokenRow}
    {replacement : RefreshToken} {now createdAt : Time} {id : Uuid} {fault : Option RotationFault}
    {row : TokenRow}
    (rotated : rotateRefreshToken users rows current.id.text replacement now id createdAt fault =
      .ok (after, row)) :
    ∃ revoked, revokeRefreshTokenByID rows current.id now = some revoked ∧ after = revoked ++ [row] ∧
      Inserted id replacement row := by
  unfold rotateRefreshToken at rotated
  obtain ⟨_, rotated⟩ := check_passed rotated
  rw [Uuid.parse_text] at rotated
  cases revokes : revokeRefreshTokenByID rows current.id now with
  | none => simp [revokes] at rotated
  | some revoked =>
    simp only [revokes] at rotated
    obtain ⟨_, rotated⟩ := check_passed rotated
    cases inserts : insertRefreshToken users revoked id createdAt replacement with
    | none => simp [inserts] at rotated
    | some created =>
      simp only [inserts] at rotated
      obtain ⟨_, rotated⟩ := check_passed rotated
      cases rotated
      exact ⟨revoked, rfl, rfl, insertRefreshToken_inserted inserts⟩

end EdgeGuard.Auth
