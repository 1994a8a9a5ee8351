import EdgeGuard.Auth.RefreshTokens
import EdgeGuard.Go.Jwt
import Mathlib.Logic.Equiv.List
import Mathlib.Tactic.DeriveEncodable

/-! Access tokens. The expiry that the client is told is an instant; the one in the token
is a date of whole seconds, and it is the date that `ParseAccessToken` checks and returns. -/
namespace EdgeGuard.Auth
open Go

/-- `domain.User`, as far as a token is about it. -/
structure User where
  id : Str
  role : Str
  enabled : Bool
  deriving DecidableEq, Repr

def Role.text : Role → Str
  | .admin => lit "admin"
  | .member => lit "member"

/-- `Role.IsValid`. -/
def roleIsValid (role : Str) : Bool := role == Role.text .admin || role == Role.text .member

def UserRow.user (row : UserRow) : User := ⟨row.id.text, row.role.text, row.enabled⟩

inductive TokenServiceError where
  | jwtSecretTooShort
  | invalidAccessTokenTTL
  | invalidRefreshTokenSize
  | invalidTokenUser
  | signAccessToken
  | invalidAccessToken
  deriving DecidableEq, Repr

structure TokenServiceConfig where
  jwtSecret : Str
  jwtIssuer : Str
  jwtAudience : Str
  accessTokenTTL : Duration
  refreshTokenSize : Int
  deriving DecidableEq, Repr

structure TokenService where
  secret : Str
  issuer : Str
  audience : Str
  accessTokenTTL : Duration
  refreshTokenSize : Int
  deriving DecidableEq, Repr

def defaultAccessTokenTTL : Duration := 15 * 60 * second

/-- A trimmed text, or what stands for a blank one. -/
def textOr (fallback text : Str) : Str :=
  let text := trimSpace text
  if text = [] then fallback else text

def newTokenService (config : TokenServiceConfig) : Except TokenServiceError TokenService :=
  if config.jwtSecret.length < 32 then .error .jwtSecretTooShort
  else
    let accessTokenTTL := if config.accessTokenTTL = 0 then defaultAccessTokenTTL else config.accessTokenTTL
    if accessTokenTTL < 0 then .error .invalidAccessTokenTTL
    else
      let refreshTokenSize := if config.refreshTokenSize = 0 then 32 else config.refreshTokenSize
      if refreshTokenSize < 16 ∨ 128 < refreshTokenSize then .error .invalidRefreshTokenSize
      else .ok {
        secret := config.jwtSecret
        issuer := textOr (lit "edgeguard-auth") config.jwtIssuer
        audience := textOr (lit "edgeguard") config.jwtAudience
        accessTokenTTL, refreshTokenSize }

structure IssuedAccessToken where
  value : Str
  expiresAt : Time
  deriving DecidableEq, Repr

structure AccessTokenPrincipal where
  userID : Str
  role : Str
  expiresAt : Time
  deriving DecidableEq, Repr

def hs256 : Str := lit "HS256"

section Service
variable (codec : Jwt.Codec Str) (s : TokenService)

/-- The claims of a token, with the role next to the registered ones. -/
def accessToken (user : User) (now : Time) : Jwt.Token Str where
  alg := hs256
  registered :=
    { issuer := s.issuer
      subject := trimSpace user.id
      audience := [s.audience]
      expiresAt := some (Jwt.newNumericDate (now + s.accessTokenTTL))
      notBefore := some (Jwt.newNumericDate now)
      issuedAt := some (Jwt.newNumericDate now) }
  custom := user.role

def issueAccessToken (user : User) (now : Time) : Except TokenServiceError IssuedAccessToken :=
  if trimSpace user.id = [] ∨ roleIsValid user.role = false ∨ user.enabled = false ∨ now = zeroTime then
    .error .invalidTokenUser
  else match codec.signedString (accessToken s user now) s.secret with
    | none => .error .signAccessToken
    | some rawToken => .ok ⟨rawToken, now + s.accessTokenTTL⟩

def accessTokenParser (now : Time) : Jwt.Parser where
  validMethods := [hs256]
  expectedIssuer := s.issuer
  expectedAudience := [s.audience]
  requireExp := true
  requireNbf := true
  verifyIat := true
  now

def parseAccessToken (rawToken : Str) (now : Time) : Except TokenServiceError AccessTokenPrincipal :=
  let rawToken := trimSpace rawToken
  if rawToken = [] ∨ now = zeroTime then .error .invalidAccessToken
  else
    let keyFunc (token : Jwt.Token Str) : Option Str := if token.alg ≠ hs256 then none else some s.secret
    match (accessTokenParser s now).parseWithClaims codec keyFunc rawToken with
    | none => .error .invalidAccessToken
    | some token =>
      let userID := trimSpace token.registered.subject
      match token.registered.expiresAt with
      | none => .error .invalidAccessToken
      | some expiresAt =>
        if userID = [] ∨ roleIsValid token.custom = false then .error .invalidAccessToken
        else .ok ⟨userID, token.custom, expiresAt.time⟩

end Service

/-- What is returned to the client after a login or a refresh. -/
structure TokenPair where
  tokenType : Str
  accessToken : Str
  accessTokenExpiresAt : Time
  refreshToken : Str
  refreshTokenExpiresAt : Time
  deriving DecidableEq, Repr

def tokenPair (accessToken : IssuedAccessToken) (rawRefreshToken : Str) (refreshTokenExpiresAt : Time) :
    TokenPair where
  tokenType := lit "Bearer"
  accessToken := accessToken.value
  accessTokenExpiresAt := accessToken.expiresAt
  refreshToken := rawRefreshToken
  refreshTokenExpiresAt

/-- `buildTokens` and `tokenPair`, for the row that the refresh token is stored in. -/
def buildTokenPair (services : Services) (codec : Jwt.Codec Str) (s : TokenService) (row : UserRow) (now : Time)
    (random : List UInt8) : Except TokenError TokenPair :=
  match issueAccessToken codec s row.user now with
  | .error _ => .error .invalidTokenUser
  | .ok accessToken => do
    let rawRefreshToken := base64Encode random
    let refreshToken ← newRefreshToken row.id.text (hashRefreshToken services rawRefreshToken)
      (now + services.refreshTokenTTL) now
    .ok (tokenPair accessToken rawRefreshToken refreshToken.expiresAt)

section Issued
variable {codec : Jwt.Codec Str} {s : TokenService} {user : User} {now : Time}

theorem textOr_ne_nil {fallback : Str} (some : fallback ≠ []) (text : Str) : textOr fallback text ≠ [] := by
  unfold textOr
  dsimp only
  split
  · exact some
  · assumption

/-- What `NewTokenService` makes sure of. -/
structure TokenService.Sound (s : TokenService) : Prop where
  issuer : s.issuer ≠ []
  audience : s.audience ≠ []
  lives : 0 < s.accessTokenTTL

private theorem positive_of_default {ttl fallback : Int} (positive : 0 < fallback)
    (nonneg : ¬ (if ttl = 0 then fallback else ttl) < 0) : 0 < if ttl = 0 then fallback else ttl := by
  split at nonneg <;> omega

theorem newTokenService_sound {config : TokenServiceConfig} (accepted : newTokenService config = .ok s) :
    s.Sound := by
  unfold newTokenService at accepted
  obtain ⟨_, accepted⟩ := check_passed accepted
  obtain ⟨nonneg, accepted⟩ := check_passed accepted
  obtain ⟨_, accepted⟩ := check_passed accepted
  cases accepted
  exact ⟨textOr_ne_nil (by decide) _, textOr_ne_nil (by decide) _, positive_of_default (by decide) nonneg⟩

/-- A user that a token can be made out to. -/
structure User.Issuable (user : User) : Prop where
  named : trimSpace user.id ≠ []
  valid : roleIsValid user.role = true
  enabled : user.enabled = true

theorem issueAccessToken_ok (laws : codec.Documented) (issuable : user.Issuable) (started : now ≠ zeroTime) :
    ∃ raw, issueAccessToken codec s user now = .ok ⟨raw, now + s.accessTokenTTL⟩ ∧
      codec.parseUnverified raw = some (accessToken s user now) ∧ codec.verifies s.secret raw = true ∧
      trimSpace raw = raw ∧ raw ≠ [] := by
  obtain ⟨raw, signed, reads, verifies, nonempty, shown⟩ := laws.signs (accessToken s user now) s.secret
  refine ⟨raw, ?_, reads, verifies, ?_, nonempty⟩
  · simp [issueAccessToken, issuable.named, issuable.valid, issuable.enabled, started, signed]
  · apply trimSpace_of_visible
    · intro c first
      exact shown c (List.mem_of_mem_head? first)
    · intro c last
      exact shown c (List.mem_of_getLast? last)

theorem validate_accessToken (t : Time) :
    (accessTokenParser s t).validate (accessToken s user now).registered = true ↔
      truncate now second ≤ t ∧ t < truncate (now + s.accessTokenTTL) second := by
  rw [Jwt.validate_dated rfl rfl rfl]
  constructor
  · rintro ⟨expires, starts, _, _, _⟩
    exact ⟨starts, expires⟩
  · rintro ⟨starts, expires⟩
    exact ⟨expires, starts, fun _ => starts, .inr ⟨s.audience, by simp [accessTokenParser], by simp [accessToken]⟩,
      .inr rfl⟩

/-- The interval in which an issued token is accepted, to the second. -/
theorem parse_issued {raw : Str} (issuable : user.Issuable)
    (reads : codec.parseUnverified raw = some (accessToken s user now)) (verifies : codec.verifies s.secret raw = true)
    (trimmed : trimSpace raw = raw) (nonempty : raw ≠ []) (t : Time) :
    parseAccessToken codec s raw t =
      if t ≠ zeroTime ∧ truncate now second ≤ t ∧ t < truncate (now + s.accessTokenTTL) second then
        .ok ⟨trimSpace user.id, user.role, truncate (now + s.accessTokenTTL) second⟩
      else .error .invalidAccessToken := by
  by_cases zero : t = zeroTime
  · simp [parseAccessToken, zero]
  · have parsed := @Jwt.parseWithClaims_signed Str (accessTokenParser s t) codec
      (fun token => if token.alg ≠ hs256 then none else some s.secret) raw s.secret (accessToken s user now)
      reads verifies (if_neg (not_not.mpr rfl)) (List.mem_singleton.mpr rfl)
    have started : ¬ (raw = [] ∨ t = zeroTime) := by
      simp [nonempty, zero]
    unfold parseAccessToken
    simp only [trimmed, if_neg started, parsed]
    by_cases window : truncate now second ≤ t ∧ t < truncate (now + s.accessTokenTTL) second
    · rw [if_pos (validate_accessToken t |>.mpr window), if_pos ⟨zero, window⟩]
      simp [accessToken, trimSpace_idem, issuable.named, issuable.valid, Jwt.newNumericDate_time]
    · rw [if_neg (validate_accessToken t |>.not.mpr window), if_neg (fun inside => window inside.2)]

theorem issueAccessToken_started {issued : IssuedAccessToken}
    (made : issueAccessToken codec s user now = .ok issued) : now ≠ zeroTime := by
  unfold issueAccessToken at made
  obtain ⟨passed, _⟩ := check_passed made
  intro zero
  exact passed (.inr (.inr (.inr zero)))

/-- An issued token, and when it is accepted. -/
structure Issued (codec : Jwt.Codec Str) (s : TokenService) (user : User) (now : Time)
    (issued : IssuedAccessToken) : Prop where
  expiresAt : issued.expiresAt = now + s.accessTokenTTL
  parsed : ∀ t, parseAccessToken codec s issued.value t =
    if t ≠ zeroTime ∧ truncate now second ≤ t ∧ t < truncate issued.expiresAt second then
      .ok ⟨trimSpace user.id, user.role, truncate issued.expiresAt second⟩
    else .error .invalidAccessToken

theorem issueAccessToken_issued (laws : codec.Documented) (issuable : user.Issuable) {issued : IssuedAccessToken}
    (made : issueAccessToken codec s user now = .ok issued) : Issued codec s user now issued := by
  obtain ⟨raw, signed, reads, verifies, trimmed, nonempty⟩ :=
    @issueAccessToken_ok codec s user now laws issuable (issueAccessToken_started made)
  cases signed.symm.trans made
  exact ⟨rfl, parse_issued issuable reads verifies trimmed nonempty⟩

section Window
variable {issued : IssuedAccessToken} {t : Time}

theorem Issued.accepted (token : Issued codec s user now issued) (started : now ≤ t)
    (early : t < truncate issued.expiresAt second) (nonzero : t ≠ zeroTime) :
    parseAccessToken codec s issued.value t =
      .ok ⟨trimSpace user.id, user.role, truncate issued.expiresAt second⟩ := by
  rw [token.parsed, if_pos ⟨nonzero, (Jwt.newNumericDate_le now).trans started, early⟩]

theorem Issued.refused (token : Issued codec s user now issued) (late : issued.expiresAt ≤ t) :
    parseAccessToken codec s issued.value t = .error .invalidAccessToken := by
  rw [token.parsed, if_neg]
  rintro ⟨_, _, early⟩
  exact absurd (early.trans_le (Jwt.newNumericDate_le _)) (not_lt.mpr late)

theorem Issued.lives (token : Issued codec s user now issued) (sound : s.Sound) : now < issued.expiresAt := by
  rw [token.expiresAt]
  exact Int.lt_add_of_pos_right now sound.lives

theorem Issued.expiry (token : Issued codec s user now issued) {userID role : Str} {expiresAt : Time}
    (parsed : parseAccessToken codec s issued.value t = .ok ⟨userID, role, expiresAt⟩) :
    expiresAt = truncate issued.expiresAt second := by
  rw [token.parsed] at parsed
  split at parsed
  · cases parsed
    rfl
  · contradiction

end Window

theorem role_text_valid (role : Role) : roleIsValid role.text = true := by
  cases role <;> decide

/-- The check that the refresh tokens' model makes in place of `IssueAccessToken` is when it succeeds. -/
theorem issueAccessToken_row (laws : codec.Documented) (row : UserRow) :
    (∃ issued, issueAccessToken codec s row.user now = .ok issued) ↔ checkTokenUser row now = .ok () := by
  have valid := role_text_valid row.role
  constructor
  · rintro ⟨issued, made⟩
    unfold issueAccessToken at made
    obtain ⟨passed, _⟩ := check_passed made
    exact if_neg (fun failed => passed (failed.imp_right .inr))
  · intro checked
    obtain ⟨passed, _⟩ := check_passed checked
    simp only [not_or, Bool.not_eq_false] at passed
    obtain ⟨named, enabled, started⟩ := passed
    obtain ⟨raw, made, _⟩ :=
      @issueAccessToken_ok codec s row.user now laws ⟨named, valid, enabled⟩ started
    exact ⟨_, made⟩

/-- The pair that a client gets has the expiry of its access token, and exists whenever
the refresh token does. -/
theorem buildTokenPair_ok_iff (laws : codec.Documented) {services : Services} {row : UserRow}
    {random : List UInt8} {pair : TokenPair} :
    buildTokenPair services codec s row now random = .ok pair ↔
      ∃ issued refresh, issueAccessToken codec s row.user now = .ok issued ∧
        buildTokens services row now random = .ok refresh ∧
        pair = tokenPair issued (base64Encode random) refresh.expiresAt := by
  have checks := @issueAccessToken_row codec s now laws row
  unfold buildTokenPair buildTokens
  cases made : issueAccessToken codec s row.user now with
  | error err => simp
  | ok issued =>
    rw [checks.mp ⟨issued, made⟩]
    cases stored : newRefreshToken row.id.text (hashRefreshToken services (base64Encode random))
      (now + services.refreshTokenTTL) now with
    | error err => simp [stored, bind, Except.bind]
    | ok refresh => simp [stored, bind, Except.bind, @eq_comm _ pair]

/-- The token is good for its user up to the expiry that was returned with it, and not
from there on. -/
def KeepsPromise (codec : Jwt.Codec Str) (s : TokenService) (user : User) (now : Time) : Prop :=
  ∃ issued, issueAccessToken codec s user now = .ok issued ∧ ∀ t,
    (now ≤ t → t < issued.expiresAt →
      parseAccessToken codec s issued.value t = .ok ⟨trimSpace user.id, user.role, issued.expiresAt⟩) ∧
    (issued.expiresAt ≤ t → parseAccessToken codec s issued.value t = .error .invalidAccessToken)

/-- The promise is kept exactly when the expiry is on a whole second and `ParseAccessToken`,
which refuses the zero time, is not asked at it. Whatever the expiry, the token is accepted
up to the second it falls into and refused from the expiry on. -/
theorem access_token_window_iff (laws : codec.Documented) {config : TokenServiceConfig}
    (accepted : newTokenService config = .ok s) (issuable : user.Issuable) (now : Time) :
    (KeepsPromise codec s user now ↔ now ≠ zeroTime ∧ (now + s.accessTokenTTL) % second = 0 ∧
      ¬ (now < zeroTime ∧ zeroTime < now + s.accessTokenTTL)) ∧
    ∀ issued, issueAccessToken codec s user now = .ok issued → ∀ t,
      (now ≤ t → t < truncate issued.expiresAt second → t ≠ zeroTime →
        parseAccessToken codec s issued.value t =
          .ok ⟨trimSpace user.id, user.role, truncate issued.expiresAt second⟩) ∧
      (issued.expiresAt ≤ t → parseAccessToken codec s issued.value t = .error .invalidAccessToken) := by
  have sound := newTokenService_sound accepted
  refine ⟨⟨?_, ?_⟩, ?_⟩
  · rintro ⟨issued, made, promise⟩
    have token := issueAccessToken_issued laws issuable made
    have whole := token.expiry ((promise now).1 le_rfl (token.lives sound))
    rw [← token.expiresAt]
    refine ⟨issueAccessToken_started made, (Jwt.newNumericDate_eq_iff _).mp whole.symm, ?_⟩
    rintro ⟨before, after⟩
    have refused : parseAccessToken codec s issued.value zeroTime = .error .invalidAccessToken := by
      rw [token.parsed, if_neg (fun inside => inside.1 rfl)]
    rw [(promise zeroTime).1 before.le after] at refused
    contradiction
  · rintro ⟨started, whole, apart⟩
    obtain ⟨raw, made, _⟩ := @issueAccessToken_ok codec s user now laws issuable started
    have token := issueAccessToken_issued laws issuable made
    have exact_ : truncate (now + s.accessTokenTTL) second = now + s.accessTokenTTL :=
      (Jwt.newNumericDate_eq_iff _).mpr whole
    refine ⟨_, made, fun t => ⟨?_, token.refused⟩⟩
    intro after early
    have nonzero : t ≠ zeroTime := by
      rintro rfl
      exact apart ⟨lt_of_le_of_ne after started, early⟩
    rw [token.accepted after (early.trans_eq exact_.symm) nonzero, exact_]
  · intro issued made t
    have token := issueAccessToken_issued laws issuable made
    exact ⟨token.accepted, token.refused⟩

end Issued

def sampleConfig : TokenServiceConfig :=
  ⟨lit "0123456789abcdef0123456789abcdef", [], lit " ", 0, 0⟩

def sampleTokenService : TokenService :=
  ⟨lit "0123456789abcdef0123456789abcdef", lit "edgeguard-auth", lit "edgeguard", defaultAccessTokenTTL, 32⟩

def sampleMember : User := ⟨lit " user-1", lit "member", true⟩

/-- July 12, 2026, 10:00 UTC. -/
def sampleInstant : Time := 1783850400 * second

def sampleAccessToken : Jwt.Token Str := accessToken sampleTokenService sampleMember sampleInstant

def signedSample : Str := lit ("eyJhbGciOiJIUzI1NiIsInR5cCI6IkpXVCJ9.eyJyb2xlIjoibWVtYmVyIiwiaXNzIjoiZWRnZWd1YXJkLWF1dGgi" ++
  "LCJzdWIiOiJ1c2VyLTEiLCJhdWQiOlsiZWRnZWd1YXJkIl0sImV4cCI6MTc4Mzg1MTMwMCwibmJmIjoxNzgzODUwNDAwLCJpYXQiOjE3ODM4NTA0MDB9" ++
  ".5s-LmhZVvmlyWS8bIE_do3JCIEFCWXZW6ltxei916m4")

instance encodableUInt8 : Encodable UInt8 := .ofLeftInjection UInt8.toNat (fun n => some (.ofNat n)) (by simp)

deriving instance Encodable for Jwt.NumericDate, Jwt.RegisteredClaims, Jwt.Token

/-- A text that stands for a token and the key it is signed with. -/
def numbered (token : Jwt.Token Str) (key : Str) : Str := List.replicate (Encodable.encode (token, key) + 1) 49

def readNumbered (raw : Str) : Option (Jwt.Token Str × Str) := Encodable.decode (raw.length - 1)

theorem readNumbered_numbered (token : Jwt.Token Str) (key : Str) :
    readNumbered (numbered token key) = some (token, key) := by
  simp only [readNumbered, numbered, List.length_replicate, Nat.add_sub_cancel, Encodable.encodek]

theorem numbered_ne (token : Jwt.Token Str) (key : Str) : numbered token key ≠ signedSample := by
  intro same
  have first : signedSample.head? = some 49 := by rw [← same, numbered, List.replicate_succ, List.head?_cons]
  exact absurd first (by decide)

/-- The signed text of the sample, and numbers for all the others. -/
def sampleCodec : Jwt.Codec Str where
  signedString token key :=
    if token = sampleAccessToken ∧ key = sampleTokenService.secret then some signedSample
    else some (numbered token key)
  parseUnverified raw := if raw = signedSample then some sampleAccessToken else (readNumbered raw).map (·.1)
  verifies key raw :=
    if raw = signedSample then key == sampleTokenService.secret else (readNumbered raw).any (·.2 == key)

theorem sampleCodec_documented : sampleCodec.Documented where
  signs := by
    intro token key
    by_cases sample : token = sampleAccessToken ∧ key = sampleTokenService.secret
    · refine ⟨signedSample, ?_, ?_, ?_, by decide, List.all_eq_true.mp (by decide +kernel)⟩
      · simp only [sampleCodec, if_pos sample]
      · simp only [sampleCodec, if_true, sample.1]
      · simp only [sampleCodec, if_true, sample.2, beq_self_eq_true]
    · have other := numbered_ne token key
      refine ⟨numbered token key, ?_, ?_, ?_, List.cons_ne_nil _ _, ?_⟩
      · simp only [sampleCodec, if_neg sample]
      · simp only [sampleCodec, if_neg other, readNumbered_numbered, Option.map_some]
      · simp only [sampleCodec, if_neg other, readNumbered_numbered, Option.any_some, beq_self_eq_true]
      · intro c member
        rw [List.eq_of_mem_replicate member]
        decide

theorem whole_second_expiry_is_kept :
    newTokenService sampleConfig = .ok sampleTokenService ∧
    KeepsPromise sampleCodec sampleTokenService sampleMember sampleInstant ∧
    parseAccessToken sampleCodec sampleTokenService signedSample (sampleInstant + 899 * second + 999999999) =
      .ok ⟨lit "user-1", lit "member", sampleInstant + 900 * second⟩ := by
  have accepted : newTokenService sampleConfig = .ok sampleTokenService := by decide
  have issuable : sampleMember.Issuable := ⟨by decide, by decide, by decide⟩
  have window := access_token_window_iff sampleCodec_documented accepted issuable sampleInstant
  exact ⟨accepted, window.1.mpr (by decide), by decide +kernel⟩

/-- Half a second later the same token is signed. The client is told 10:15:00.5, the token
says 10:15:00, and from then on it is refused. -/
theorem fraction_of_the_expiry_is_lost :
    issueAccessToken sampleCodec sampleTokenService sampleMember (sampleInstant + 500 * millisecond) =
      .ok ⟨signedSample, sampleInstant + 900 * second + 500 * millisecond⟩ ∧
    parseAccessToken sampleCodec sampleTokenService signedSample (sampleInstant + 500 * millisecond) =
      .ok ⟨lit "user-1", lit "member", sampleInstant + 900 * second⟩ ∧
    parseAccessToken sampleCodec sampleTokenService signedSample (sampleInstant + 900 * second + 200 * millisecond) =
      .error .invalidAccessToken ∧
    ¬ KeepsPromise sampleCodec sampleTokenService sampleMember (sampleInstant + 500 * millisecond) := by
  have made : issueAccessToken sampleCodec sampleTokenService sampleMember (sampleInstant + 500 * millisecond) =
      .ok ⟨signedSample, sampleInstant + 900 * second + 500 * millisecond⟩ := by
    decide +kernel
  have refused : parseAccessToken sampleCodec sampleTokenService signedSample
      (sampleInstant + 900 * second + 200 * millisecond) = .error .invalidAccessToken := by
    decide +kernel
  refine ⟨made, by decide +kernel, refused, ?_⟩
  rintro ⟨issued, same, promise⟩
  cases made.symm.trans same
  have kept := (promise (sampleInstant + 900 * second + 200 * millisecond)).1 (by decide) (by decide)
  cases refused.symm.trans kept

end EdgeGuard.Auth
