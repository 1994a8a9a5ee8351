import EdgeGuard.Auth.Rotation
import EdgeGuard.Go.Bcrypt

/-! Accounts. `Register` is the only call that creates one; `Login` finds it again by the
lower-case form of its email and compares the password with the stored digest. Any number
of registrations, logins, refreshes and logouts come in any order. -/
namespace EdgeGuard.Auth
open Go Postgres Transition

def minPasswordLength : Nat := 8
def maxPasswordLength : Nat := 72

/-- The libraries and the database behind the calls. -/
structure AccountPlatform where
  bcrypt : Bcrypt.Hasher
  cost : Nat
  parseAddress : Str → Option Str
  unicode : CaseTable
  lower : Str → Str
  indexRowFits : Str → Bool
  sha256 : Str → Str
  refreshTokenTTL : Duration

inductive RegisterError where
  | invalidPassword
  | hash
  | invalidEmail
  | invalidPasswordHash
  | emailAlreadyExists
  | database
  deriving DecidableEq, Repr

/-- `domain.User` before it is stored. -/
structure NewUser where
  email : Str
  passwordHash : Str
  role : Role
  enabled : Bool
  deriving DecidableEq, Repr

def isValidPassword (password : Str) : Bool :=
  minPasswordLength ≤ password.length && password.length ≤ maxPasswordLength

section Register
variable (platform : AccountPlatform)

def normalizeEmail (value : Str) : Str := platform.unicode.toLower (trimSpace value)

/-- The address that `mail.ParseAddress` reads is the whole text. -/
def isValidEmail (value : Str) : Bool := platform.parseAddress value == some value

/-- `domain.NewUser`. -/
def newUser (email passwordHash : Str) (role : Role) : Except RegisterError NewUser :=
  let email := normalizeEmail platform email
  let passwordHash := trimSpace passwordHash
  if isValidEmail platform email = false then .error .invalidEmail
  else if passwordHash = [] then .error .invalidPasswordHash
  else .ok ⟨email, passwordHash, role, true⟩

/-- `createUserQuery`, for the identifier that the database draws. Every unique violation is
reported as a known email. -/
def createUser (users : List UserRow) (id : Uuid) (user : NewUser) : Except RegisterError UserRow :=
  if textOk user.email = false ∨ textOk user.passwordHash = false ∨ user.passwordHash = [] ∨
      platform.indexRowFits (platform.lower user.email) = false then .error .database
  else if ∃ other ∈ users, other.id = id ∨ platform.lower other.email = platform.lower user.email then
    .error .emailAlreadyExists
  else .ok ⟨id, user.email, user.passwordHash, user.role, user.enabled⟩

def register (users : List UserRow) (id : Uuid) (salt email password : Str) : Except RegisterError UserRow :=
  if isValidPassword password = false then .error .invalidPassword
  else match platform.bcrypt.generateFromPassword platform.cost salt password with
    | none => .error .hash
    | some passwordHash => match newUser platform email passwordHash .member with
      | .error err => .error err
      | .ok user => createUser platform users id user

end Register

/-- The services of the sessions, with passwords compared by `bcrypt`. -/
def AccountPlatform.services (platform : AccountPlatform) : Services where
  sha256 := platform.sha256
  unicode := platform.unicode
  lower := platform.lower
  passwordMatches := platform.bcrypt.compareHashAndPassword
  refreshTokenTTL := platform.refreshTokenTTL

/-- A call of `Register` that has succeeded. -/
structure Registration where
  id : Uuid
  salt : Str
  email : Str
  password : Str
  deriving DecidableEq

structure Accounts where
  sessions : Sessions
  registered : List Registration

def Accounts.start : Accounts := ⟨.start [], []⟩

inductive AccountAction where
  | register (id : Uuid) (salt email password : Str)
  | session (action : TokenAction)

/-- Users come from `Register` only. -/
def TokenAction.isRegister : TokenAction → Bool
  | .register _ => true
  | _ => false

def accountStep (platform : AccountPlatform) (s : Accounts) : AccountAction → Option Accounts
  | .register id salt email password => match register platform s.sessions.users id salt email password with
    | .error _ => some s
    | .ok row => some {
        sessions := { s.sessions with users := s.sessions.users ++ [row] }
        registered := s.registered ++ [⟨id, salt, email, password⟩] }
  | .session action =>
    if action.isRegister then none
    else (tokenStep platform.services s.sessions action).map (fun sessions => { s with sessions })

variable {platform : AccountPlatform} {s t : Accounts}

/-- The digest of the registered password. -/
def Registration.stored (platform : AccountPlatform) (r : Registration) : Str :=
  (platform.bcrypt.generateFromPassword platform.cost r.salt r.password).getD []

/-- A password that is taken for the registered one. -/
def Registration.Accepts (platform : AccountPlatform) (r : Registration) (password : Str) : Prop :=
  platform.bcrypt.compareHashAndPassword (r.stored platform) password = true

def Registration.row (platform : AccountPlatform) (r : Registration) : UserRow where
  id := r.id
  email := normalizeEmail platform r.email
  passwordHash := r.stored platform
  role := .member
  enabled := true

theorem register_ok (laws : platform.bcrypt.Documented) {users : List UserRow} {id : Uuid}
    {salt email password : Str} {row : UserRow}
    (registered : register platform users id salt email password = .ok row) :
    row = Registration.row platform ⟨id, salt, email, password⟩ ∧
      (platform.bcrypt.generateFromPassword platform.cost salt password).isSome = true ∧
      isValidPassword password = true ∧ isValidEmail platform (normalizeEmail platform email) = true ∧
      ∀ other ∈ users, other.id ≠ id ∧ platform.lower other.email ≠ platform.lower row.email := by
  unfold register at registered
  obtain ⟨valid, registered⟩ := check_passed registered
  cases hashed : platform.bcrypt.generateFromPassword platform.cost salt password with
  | none =>
    rw [hashed] at registered
    cases registered
  | some stored =>
    have trimmed : trimSpace stored = stored := by
      refine trimSpace_of_visible ?_ ?_
      · intro c first
        exact laws.shown hashed c (List.mem_of_mem_head? first)
      · intro c last
        exact laws.shown hashed c (List.mem_of_getLast? last)
    simp only [hashed, newUser, trimmed] at registered
    split at registered
    · cases registered
    · rename_i user made
      obtain ⟨address, made⟩ := check_passed made
      obtain ⟨_, ⟨⟩⟩ := check_passed made
      obtain ⟨_, registered⟩ := check_passed registered
      obtain ⟨fresh, ⟨⟩⟩ := check_passed registered
      refine ⟨?_, rfl, Bool.not_eq_false _ ▸ valid, Bool.not_eq_false _ ▸ address, ?_⟩
      · simp only [Registration.row, Registration.stored, hashed, Option.getD_some]
      · intro other member
        exact not_or.mp (fun same => fresh ⟨other, member, same⟩)

theorem session_users {services : Services} {before after : Sessions} {action : TokenAction}
    (other : action.isRegister = false) (stepped : tokenStep services before action = some after) :
    after.users = before.users := by
  cases tokenStep_effect stepped with
  | registers => cases other
  | _ => rfl

/-- The users are the registrations, in their order and with different emails. -/
structure Accounts.Sound (platform : AccountPlatform) (s : Accounts) : Prop where
  users : s.sessions.users = s.registered.map (Registration.row platform)
  valid : ∀ r ∈ s.registered, (platform.bcrypt.generateFromPassword platform.cost r.salt r.password).isSome = true ∧
    isValidPassword r.password = true ∧ isValidEmail platform (normalizeEmail platform r.email) = true
  distinct : s.registered.Pairwise (fun a b => a.id ≠ b.id ∧
    platform.lower (normalizeEmail platform a.email) ≠ platform.lower (normalizeEmail platform b.email))

theorem start_sound : Accounts.start.Sound platform := ⟨rfl, nofun, .nil⟩

theorem accountStep_sound (laws : platform.bcrypt.Documented) {action : AccountAction} (sound : s.Sound platform)
    (stepped : accountStep platform s action = some t) : t.Sound platform := by
  cases action with
  | register id salt email password =>
    simp only [accountStep] at stepped
    split at stepped
    · cases stepped
      exact sound
    · rename_i row registered
      cases stepped
      obtain ⟨rfl, hashed, password, address, fresh⟩ := register_ok laws registered
      refine ⟨?_, ?_, ?_⟩
      · rw [List.map_append, ← sound.users]
        rfl
      · intro r member
        rcases List.mem_append.mp member with old | new
        · exact sound.valid r old
        · cases List.mem_singleton.mp new
          exact ⟨hashed, password, address⟩
      · refine List.pairwise_append.mpr ⟨sound.distinct, List.pairwise_singleton _ _, ?_⟩
        intro old member new last
        cases List.mem_singleton.mp last
        refine fresh (old.row platform) ?_
        rw [sound.users]
        exact List.mem_map_of_mem member
  | session action =>
    simp only [accountStep, Option.ite_none_left_eq_some] at stepped
    obtain ⟨other, stepped⟩ := stepped
    obtain ⟨sessions, moved, rfl⟩ := Option.map_eq_some_iff.mp stepped
    exact ⟨(session_users (Bool.not_eq_true _ ▸ other) moved).trans sound.users, sound.valid, sound.distinct⟩

theorem run_accounts (laws : platform.bcrypt.Documented) {actions : List AccountAction}
    (path : run (accountStep platform) .start actions = some s) : s.Sound platform :=
  run_invariant (accountStep_sound laws) path start_sound

theorem Accounts.Sound.same (sound : s.Sound platform) {a b : Registration} (first : a ∈ s.registered)
    (second : b ∈ s.registered) (email : platform.lower (normalizeEmail platform a.email) =
      platform.lower (normalizeEmail platform b.email)) : a = b := by
  have emails : (s.registered.map (fun r => platform.lower (normalizeEmail platform r.email))).Nodup :=
    List.pairwise_map.mpr (sound.distinct.imp And.right)
  exact List.inj_on_of_nodup_map emails first second email

theorem Accounts.Sound.find (sound : s.Sound platform) {email : Str} {user : UserRow} :
    s.sessions.users.find? (fun user => platform.lower user.email = platform.lower email) = some user ↔
      ∃ r ∈ s.registered, r.row platform = user ∧
        platform.lower (normalizeEmail platform r.email) = platform.lower email := by
  rw [sound.users]
  have distinct := sound.distinct
  generalize s.registered = registered at distinct ⊢
  induction registered with
  | nil => simp
  | cons first rest ih =>
    obtain ⟨others, distinct⟩ := List.pairwise_cons.mp distinct
    rw [List.map_cons, List.find?_cons]
    by_cases here : platform.lower (normalizeEmail platform first.email) = platform.lower email
    · rw [show decide (platform.lower (first.row platform).email = platform.lower email) = true from
        decide_eq_true here]
      constructor
      · rintro ⟨⟩
        exact ⟨first, List.mem_cons_self, rfl, here⟩
      · rintro ⟨r, member, rfl, same⟩
        rcases List.mem_cons.mp member with rfl | later
        · rfl
        · exact absurd (here.trans same.symm) (others r later).2
    · rw [show decide (platform.lower (first.row platform).email = platform.lower email) = false from
        decide_eq_false here]
      refine (ih distinct).trans ?_
      constructor
      · rintro ⟨r, member, fields⟩
        exact ⟨r, List.mem_cons_of_mem _ member, fields⟩
      · rintro ⟨r, member, row, same⟩
        rcases List.mem_cons.mp member with rfl | later
        · exact absurd same here
        · exact ⟨r, later, row, same⟩

section Login

variable (services : Services) {users : List UserRow} {email password : Str} {now : Time} {random : List UInt8}

theorem prepareLogin_of_none
    (looked : users.find? (fun user => services.lower user.email =
      services.lower (services.unicode.toLower (trimSpace email))) = none) :
    prepareLogin services users email password now random = .error .invalidCredentials := by
  simp only [prepareLogin, looked]

theorem prepareLogin_of_found {user : UserRow}
    (looked : users.find? (fun user => services.lower user.email =
      services.lower (services.unicode.toLower (trimSpace email))) = some user) :
    prepareLogin services users email password now random =
      if user.enabled = false then .error .userDisabled
      else if services.passwordMatches user.passwordHash password = false then .error .invalidCredentials
      else buildTokens services user now random := by
  simp only [prepareLogin, looked]

end Login

theorem prepareLogin_ok_iff (sound : s.Sound platform) {email password : Str} {now : Time} {random : List UInt8}
    {token : RefreshToken} :
    prepareLogin platform.services s.sessions.users email password now random = .ok token ↔
      ∃ r ∈ s.registered,
        platform.lower (normalizeEmail platform r.email) = platform.lower (normalizeEmail platform email) ∧
        r.Accepts platform password ∧ buildTokens platform.services (r.row platform) now random = .ok token := by
  have found := @Accounts.Sound.find platform s sound (normalizeEmail platform email)
  cases looked : s.sessions.users.find?
      (fun user => platform.lower user.email = platform.lower (normalizeEmail platform email)) with
  | none =>
    rw [prepareLogin_of_none platform.services looked]
    constructor
    · intro failed
      cases failed
    · rintro ⟨r, member, same, _⟩
      cases (found.mpr ⟨r, member, rfl, same⟩).symm.trans looked
  | some user =>
    obtain ⟨r, member, rfl, same⟩ := found.mp looked
    have only {other : Registration} (listed : other ∈ s.registered)
        (again : platform.lower (normalizeEmail platform other.email) =
          platform.lower (normalizeEmail platform email)) : other.row platform = r.row platform :=
      Option.some.inj ((found.mpr ⟨other, listed, rfl, again⟩).symm.trans looked)
    rw [prepareLogin_of_found platform.services looked]
    simp only [check_ok_iff, Bool.not_eq_false]
    constructor
    · rintro ⟨_, agrees, built⟩
      exact ⟨r, member, same, agrees, built⟩
    · rintro ⟨other, listed, again, agrees, built⟩
      have row := only listed again
      have stored : other.stored platform = r.stored platform := congrArg UserRow.passwordHash row
      refine ⟨rfl, ?_, row ▸ built⟩
      rw [Registration.Accepts, stored] at agrees
      exact agrees

theorem buildTokens_ok (size : ∀ text, (platform.sha256 text).length = 32) (lives : 0 < platform.refreshTokenTTL)
    (r : Registration) {now : Time} (started : now ≠ zeroTime) (random : List UInt8) :
    ∃ token, buildTokens platform.services (r.row platform) now random = .ok token := by
  have user : checkTokenUser (r.row platform) now = .ok () := by
    refine if_neg ?_
    rintro (blank | disabled | zero)
    · rw [Uuid.trimSpace_text] at blank
      exact r.id.text_ends.2.2 blank
    · cases disabled
    · exact started zero
  have hash (raw : Str) : trimSpace (hashRefreshToken platform.services raw) ≠ [] := by
    rw [hashRefreshToken, trimSpace_hexEncode]
    intro empty
    have length := hexEncode_length (platform.sha256 raw)
    rw [size raw, show hexEncode (platform.sha256 raw) = [] from empty] at length
    cases length
  have later : now < now + platform.refreshTokenTTL := Int.lt_add_of_pos_right now lives
  refine ⟨⟨r.id.text, trimSpace (hashRefreshToken platform.services (base64Encode random)),
    now + platform.refreshTokenTTL⟩, ?_⟩
  rw [buildTokens, user]
  change newRefreshToken r.id.text _ (now + platform.refreshTokenTTL) now = _
  rw [newRefreshToken, Uuid.trimSpace_text, if_neg r.id.text_ends.2.2, if_neg (hash _), if_neg (not_not.mpr later)]

/-- The password has no collision with that of an account: where it is accepted, the
schedules are the same. -/
def CollisionFreePassword (platform : AccountPlatform) (registered : List Registration) (password : Str) : Prop :=
  ∀ r ∈ registered, r.Accepts platform password → Bcrypt.keyOf password = Bcrypt.keyOf r.password

/-- A digest that shows the salt and the key. -/
def openHasher : Bcrypt.Hasher where
  generateFromPassword := fun _ salt password =>
    if Bcrypt.keySize < password.length then none
    else some (hexEncode salt ++ 36 :: hexEncode (Bcrypt.keyOf password))
  compareHashAndPassword := fun stored password =>
    stored.dropWhile (· != 36) == 36 :: hexEncode (Bcrypt.keyOf password)

theorem openHasher_compare (salt key password : Str) :
    openHasher.compareHashAndPassword (hexEncode salt ++ 36 :: hexEncode key) password = true ↔
      Bcrypt.keyOf password = key := by
  have digits : ∀ c ∈ hexEncode salt, (c != 36) = true := by
    have plain : ∀ c ∈ hexDigits, (c != 36) = true := List.all_eq_true.mp (by decide)
    intro c member
    exact plain c (hexEncode_digits salt c member)
  have stops : (36 :: hexEncode key).dropWhile (· != 36) = 36 :: hexEncode key := rfl
  simp only [openHasher, List.dropWhile_append_of_pos digits, stops, beq_iff_eq, List.cons.injEq, true_and]
  exact ⟨fun same => (hexEncode_injective same).symm, fun same => by rw [same]⟩

theorem openHasher_documented : openHasher.Documented where
  agrees := by
    intro cost salt password stored other hashed same
    obtain ⟨_, ⟨⟩⟩ := Option.ite_none_left_eq_some.mp hashed
    exact (openHasher_compare salt _ other).mpr same
  shown := by
    intro cost salt password stored hashed c member
    obtain ⟨_, ⟨⟩⟩ := Option.ite_none_left_eq_some.mp hashed
    rcases List.mem_append.mp member with first | last
    · exact hexEncode_visible salt c first
    · rcases List.mem_cons.mp last with rfl | later
      · decide
      · exact hexEncode_visible _ c later

def openPlatform : AccountPlatform where
  bcrypt := openHasher
  cost := 12
  parseAddress := some
  unicode := .plain
  lower := List.map lowerASCII
  indexRowFits := fun _ => true
  sha256 := fun _ => List.replicate 32 7
  refreshTokenTTL := 720 * hour

/-- The second registration has the email of the first one in other letters. -/
def twoRegistrations : List AccountAction := [
  .register (tokenID 1) [1] (lit " User@Example.com") (lit "abc123xyz"),
  .register (tokenID 2) [2] (lit "user@example.COM") (lit "xyz123abc")]

end EdgeGuard.Auth
