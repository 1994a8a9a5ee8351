import EdgeGuard.Auth.AccessTokens
import EdgeGuard.Auth.Accounts
import EdgeGuard.Auth.Revocation

/-! Who can change the API keys. The routes of the projects are behind `requireAccessToken`;
accounts register and log in, tokens are signed, requests are authenticated and served in
any order. A request that has passed the middleware is served later, whatever happens to its
token in between. -/
namespace EdgeGuard.Auth
open Go Postgres Transition

/-- `bearerToken`. No letter beyond ASCII folds to one of the scheme. -/
def bearerToken (header : Str) : Option Str :=
  match fields header with
  | [scheme, token] =>
    if scheme.map lowerASCII ≠ lit "bearer" then none
    else
      let token := trimSpace token
      if token = [] then none else some token
  | _ => none

inductive AuthenticationError where
  | invalidAccessToken
  | userDisabled
  | database
  deriving DecidableEq, Repr

/-- `authError` and `handleError`: the status and the message of the answer. -/
def AuthenticationError.answer : AuthenticationError → Nat × Str
  | .invalidAccessToken => (401, lit "invalid access token")
  | .userDisabled => (403, lit "user disabled")
  | .database => (500, lit "internal error")

/-- What the routes need of their surroundings. -/
structure Deployment where
  platform : AccountPlatform
  codec : Jwt.Codec Str
  tokens : TokenService

section Middleware
variable (d : Deployment)

/-- `AuthenticateAccessToken`. The subject is cast to the type of the key column. -/
def authenticateAccessToken (users : List UserRow) (rawAccessToken : Str) (now : Time) (failed : Bool) :
    Except AuthenticationError AccessTokenPrincipal :=
  let rawAccessToken := trimSpace rawAccessToken
  if rawAccessToken = [] then .error .invalidAccessToken
  else match parseAccessToken d.codec d.tokens rawAccessToken now with
    | .error _ => .error .invalidAccessToken
    | .ok principal =>
      if failed then .error .database
      else match Uuid.parse principal.userID with
        | none => .error .database
        | some id => match users.find? (·.id = id) with
          | none => .error .invalidAccessToken
          | some user =>
            if user.enabled = false then .error .userDisabled
            else if user.role.text ≠ principal.role then .error .invalidAccessToken
            else .ok principal

def requireAccessToken (users : List UserRow) (header : Str) (now : Time) (failed : Bool) :
    Except AuthenticationError AccessTokenPrincipal :=
  match bearerToken header with
  | none => .error .invalidAccessToken
  | some rawToken => authenticateAccessToken d users rawToken now failed

end Middleware

structure APIKeyInfo where
  id : Str
  projectID : Str
  name : Str
  keyPrefix : Str
  enabled : Bool
  expiresAt : Option Time
  lastUsedAt : Option Time
  createdAt : Time
  updatedAt : Time
  deriving DecidableEq, Repr

/-- `apiKeyInfoFromDomain`, which leaves the hash out. -/
def APIKeyRow.info (key : APIKeyRow) : APIKeyInfo where
  id := key.id.text
  projectID := key.projectID.text
  name := key.name
  keyPrefix := key.keyPrefix
  enabled := key.enabled
  expiresAt := key.expiresAt
  lastUsedAt := key.lastUsedAt
  createdAt := key.createdAt
  updatedAt := key.updatedAt

/-- `ORDER BY created_at DESC, id DESC`. -/
def newestFirst (a b : APIKeyRow) : Bool :=
  b.createdAt < a.createdAt || (a.createdAt == b.createdAt && decide (b.id.bytes ≤ a.id.bytes))

/-- `ListAPIKeys` and `listAPIKeysByProjectIDQuery`; `none` is an error. -/
def listAPIKeys (keys : Keys) (projectID : Str) : Option (List APIKeyInfo) := do
  let project ← Uuid.parse (trimSpace projectID)
  some (((keys.rows.filter (·.projectID = project)).mergeSort newestFirst).map APIKeyRow.info)

/-- A request to one of the three routes. -/
inductive KeyCall where
  | create (id : Uuid) (createdAt now : Time) (random : APIKeyEntropy) (input : CreateAPIKeyInput)
  | list (projectID : Str)
  | revoke (projectID apiKeyID : Str) (now : Time)

/-- The table after a call; `none` is an error. -/
def KeyCall.changes (sha256 : Str → Str) (keys : Keys) : KeyCall → Option Keys
  | .create id createdAt now random input => createAPIKey sha256 keys id createdAt now random input
  | .list _ => some keys
  | .revoke projectID apiKeyID now => revokeAPIKey keys projectID apiKeyID now

/-- What a call shows of the table. -/
def KeyCall.shows (keys : Keys) : KeyCall → List APIKeyInfo
  | .list projectID => (listAPIKeys keys projectID).getD []
  | _ => []

/-- A signed access token, with its user and the time it was signed at. -/
structure SignedToken where
  value : Str
  user : Uuid
  signedAt : Time
  deriving DecidableEq

/-- A request that has passed the middleware. -/
structure Admission where
  token : Str
  admittedAt : Time
  principal : AccessTokenPrincipal
  deriving DecidableEq

/-- The lists record the tokens that were signed, the logins with the passwords they were
made with, the requests that were refused and whether the database failed, and those that
were served. -/
structure Service where
  accounts : Accounts
  keys : Keys
  admitted : Nat → Option Admission
  signed : List SignedToken
  logins : List (Uuid × Str)
  refused : List (Bool × Nat × Str)
  served : List (Admission × KeyCall)
  shown : List (Admission × List APIKeyInfo)

def Service.start : Service := ⟨.start, .empty, fun _ => none, [], [], [], [], []⟩

inductive ServiceAction where
  | account (action : AccountAction)
  | project (id : Uuid)
  | used (apiKeyID : Uuid) (usedAt : Time)
  | authenticate (caller : Nat) (header : Str) (now : Time) (failed : Bool)
  | serve (caller : Nat) (call : KeyCall) (failed : Bool)

section Machine
variable (d : Deployment)

/-- The user whose access token a step signs, and when. -/
def signing (s : Sessions) : AccountAction → Option (UserRow × Time)
  | .session (.login _ email password now random) =>
    match prepareLogin d.platform.services s.users email password now random with
    | .error _ => none
    | .ok _ => (s.users.find? (fun user =>
        d.platform.lower user.email = d.platform.lower (normalizeEmail d.platform email))).map (·, now)
  | .session (.build caller random failed) => match s.calls caller with
    | some (.refreshing current now) =>
      match buildReplacement d.platform.services s.users current now random failed with
      | .error _ => none
      | .ok _ => (s.users.find? (·.id = current.userID)).map (·, now)
    | _ => none
  | _ => none

def signedTokens : Option (UserRow × Time) → List SignedToken
  | none => []
  | some (user, now) => match issueAccessToken d.codec d.tokens user.user now with
    | .error _ => []
    | .ok issued => [⟨issued.value, user.id, now⟩]

/-- The password of a login. -/
def loginOf (action : AccountAction) : Option (UserRow × Time) → List (Uuid × Str)
  | none => []
  | some (user, _) => match action with
    | .session (.login _ _ password _ _) => [(user.id, password)]
    | _ => []

def serviceStep (s : Service) : ServiceAction → Option Service
  | .account action => (accountStep d.platform s.accounts action).map (fun accounts =>
      let signer := signing d s.accounts.sessions action
      { s with
        accounts
        signed := s.signed ++ signedTokens d signer
        logins := s.logins ++ loginOf action signer })
  | .project id => some { s with keys := { s.keys with projects := id :: s.keys.projects } }
  | .used apiKeyID usedAt => (s.keys.updateAPIKeyLastUsedAt apiKeyID usedAt).map (fun keys => { s with keys })
  | .authenticate caller header now failed => match s.admitted caller with
    | some _ => none
    | none => match requireAccessToken d s.accounts.sessions.users header now failed with
      | .error err => some { s with refused := s.refused ++ [(failed, err.answer)] }
      | .ok principal => some { s with
          admitted := Function.update s.admitted caller
            (some ⟨(bearerToken header).getD [], now, principal⟩) }
  | .serve caller call failed => match s.admitted caller with
    | none => none
    | some admission => some { s with
        keys := if failed then s.keys else (call.changes d.platform.sha256 s.keys).getD s.keys
        admitted := Function.update s.admitted caller none
        served := s.served ++ [(admission, call)]
        shown := s.shown ++ [(admission, if failed then [] else call.shows s.keys)] }

end Machine

/-- The user that a call works for. -/
def Work.user : Work → Option Uuid
  | .loggingIn token => Uuid.parse token.userID
  | .refreshing current _ => some current.userID
  | .rotating _ replacement _ => Uuid.parse replacement.userID

structure Sessions.Owned (P : Uuid → Prop) (s : Sessions) : Prop where
  rows : ∀ row ∈ s.rows, P row.userID
  calls : ∀ caller work, s.calls caller = some work → ∃ id, work.user = some id ∧ P id

section Owned
variable {P Q : Uuid → Prop} {services : Services} {s t : Sessions}

theorem Sessions.Owned.mono (owned : s.Owned P) (weaker : ∀ id, P id → Q id) : s.Owned Q where
  rows := fun row member => weaker _ (owned.rows row member)
  calls := by
    intro caller work busy
    obtain ⟨id, user, holds⟩ := owned.calls caller work busy
    exact ⟨id, user, weaker id holds⟩

theorem Sessions.Owned.goOn (owned : s.Owned P) (caller : Nat) {next : Option Work}
    (works : ∀ work, next = some work → ∃ id, work.user = some id ∧ P id) : (s.goOn caller next).Owned P where
  rows := owned.rows
  calls := by
    intro other work busy
    rcases update_found busy with ⟨before, _⟩ | ⟨_, moved⟩
    · exact owned.calls other work before
    · exact works work moved

theorem Sessions.Owned.drop (owned : s.Owned P) (caller : Nat) : (s.goOn caller none).Owned P := by
  refine owned.goOn caller ?_
  intro work none
  cases none

theorem Inserted.owned {id : Uuid} {token : RefreshToken} {row : TokenRow} (inserted : Inserted id token row)
    (user : ∃ id, Uuid.parse token.userID = some id ∧ P id) : P row.userID := by
  obtain ⟨id, parsed, holds⟩ := user
  cases parsed.symm.trans inserted.user
  exact holds

theorem updateTokens_owned {selected : TokenRow → Bool} {change : TokenRow → TokenRow} {rows next : List TokenRow}
    (same : ∀ row, (change row).userID = row.userID) (owned : ∀ row ∈ rows, P row.userID)
    (updated : updateTokens selected change rows = some next) : ∀ row ∈ next, P row.userID := by
  simp only [updateTokens, Option.ite_none_right_eq_some, Option.some.injEq] at updated
  obtain ⟨_, rfl⟩ := updated
  intro row member
  obtain ⟨before, present, rfl⟩ := List.mem_map.mp member
  split
  · rw [same]
    exact owned before present
  · exact owned before present

theorem tokenStep_owned {action : TokenAction} (owned : s.Owned P)
    (login : ∀ caller email password now random token, action = .login caller email password now random →
      prepareLogin services s.users email password now random = .ok token →
      ∃ id, Uuid.parse token.userID = some id ∧ P id)
    (stepped : tokenStep services s action = some t) : t.Owned P := by
  cases tokenStep_effect stepped with
  | stays => exact owned
  | registers => exact ⟨owned.rows, owned.calls⟩
  | logsIn caller email password now random token =>
    simp only [tokenStep] at stepped
    split at stepped
    · contradiction
    · split at stepped <;> rw [← Option.some.inj stepped]
      · exact owned
      · rename_i made logged
        refine owned.goOn caller ?_
        rintro work ⟨⟩
        exact login caller email password now random made rfl logged
  | drops caller => exact owned.drop caller
  | creates caller id createdAt failed =>
    -- The row is that of the waiting call.
    simp only [tokenStep] at stepped
    split at stepped
    · rename_i token busy
      split at stepped
      · contradiction
      · split at stepped
        · rw [← Option.some.inj stepped]
          exact owned.drop caller
        · split at stepped <;> rw [← Option.some.inj stepped]
          · exact owned.drop caller
          · rename_i row inserted
            refine ⟨?_, (owned.drop caller).calls⟩
            intro other member
            rcases List.mem_append.mp member with old | new
            · exact owned.rows other old
            · cases List.mem_singleton.mp new
              exact (insertRefreshToken_inserted inserted).owned (owned.calls caller _ busy)
    · contradiction
  | fails _ caller => exact ⟨owned.rows, (owned.drop caller).calls⟩
  | reads caller input now failed current found =>
    refine owned.goOn caller ?_
    rintro work ⟨⟩
    exact ⟨current.userID, rfl, owned.rows current found⟩
  | builds caller random failed current now replacement busy user =>
    obtain ⟨id, known, holds⟩ := owned.calls caller _ busy
    cases known
    refine owned.goOn caller ?_
    rintro work ⟨⟩
    exact ⟨current.userID, user, holds⟩
  | rotates caller id createdAt fault current replacement now revoked row busy fresh revokes inserted =>
    refine ⟨?_, (owned.drop caller).calls⟩
    intro other member
    rcases List.mem_append.mp member with old | new
    · exact updateTokens_owned (by simp) owned.rows revokes other old
    · cases List.mem_singleton.mp new
      exact inserted.owned (owned.calls caller _ busy)
  | revokes input now failed tokenHash rows revoked =>
    exact ⟨updateTokens_owned (by simp) owned.rows revoked, owned.calls⟩
  | cleans => exact ⟨fun row member => owned.rows row (List.mem_of_mem_filter member), owned.calls⟩

end Owned

variable {d : Deployment} {s t : Service}

theorem prepareLogin_account {accounts : Accounts} (sound : accounts.Sound d.platform) {email password : Str}
    {now : Time} {random : List UInt8} {token : RefreshToken}
    (logged : prepareLogin d.platform.services accounts.sessions.users email password now random = .ok token) :
    ∃ r ∈ accounts.registered,
      accounts.sessions.users.find? (fun user =>
        d.platform.lower user.email = d.platform.lower (normalizeEmail d.platform email)) =
          some (r.row d.platform) ∧
      r.Accepts d.platform password ∧ Uuid.parse token.userID = some r.id ∧
      checkTokenUser (r.row d.platform) now = .ok () := by
  obtain ⟨r, member, same, agrees, built⟩ := (prepareLogin_ok_iff sound).mp logged
  refine ⟨r, member, sound.find.mpr ⟨r, member, rfl, same⟩, agrees, ?_⟩
  unfold buildTokens at built
  cases checked : checkTokenUser (r.row d.platform) now with
  | error err =>
    rw [checked] at built
    cases built
  | ok _ =>
    rw [checked] at built
    have user : token.userID = trimSpace r.id.text := newRefreshToken_userID built
    rw [user, Uuid.trimSpace_text, Uuid.parse_text]
    exact ⟨rfl, rfl⟩

theorem buildReplacement_account {services : Services} {users : List UserRow} {current : TokenRow} {now : Time}
    {random : List UInt8} {failed : Bool} {replacement : RefreshToken}
    (built : buildReplacement services users current now random failed = .ok replacement) :
    ∃ user, users.find? (·.id = current.userID) = some user ∧ checkTokenUser user now = .ok () := by
  unfold buildReplacement at built
  obtain ⟨_, built⟩ := check_passed built
  rw [Uuid.parse_text] at built
  cases found : users.find? (·.id = current.userID) with
  | none => simp [found] at built
  | some user =>
    simp only [found] at built
    obtain ⟨_, built⟩ := check_passed built
    refine ⟨user, rfl, ?_⟩
    unfold buildTokens at built
    cases checked : checkTokenUser user now with
    | error err =>
      rw [checked] at built
      cases built
    | ok _ => rfl

theorem Accounts.Sound.byID {accounts : Accounts} (sound : accounts.Sound d.platform) {r : Registration}
    (member : r ∈ accounts.registered) :
    accounts.sessions.users.find? (·.id = r.id) = some (r.row d.platform) := by
  have ids : (accounts.registered.map Registration.id).Nodup :=
    List.pairwise_map.mpr (sound.distinct.imp And.left)
  rw [sound.users, List.find?_map]
  have found : accounts.registered.find?
      ((fun user : UserRow => decide (user.id = r.id)) ∘ Registration.row d.platform) =
      some r := by
    cases looked : accounts.registered.find?
        ((fun user : UserRow => decide (user.id = r.id)) ∘ Registration.row d.platform) with
    | none =>
      have missed := List.find?_eq_none.mp looked r member
      exact absurd (decide_eq_true_iff.mpr rfl) missed
    | some other =>
      have seen := List.find?_some looked
      have same : other.id = r.id := of_decide_eq_true seen
      rw [List.inj_on_of_nodup_map ids (List.mem_of_find?_eq_some looked) member same]
  rw [found]
  rfl

/-- When the token is accepted, to the second. -/
def SignedToken.ValidAt (tokens : TokenService) (token : SignedToken) (now : Time) : Prop :=
  now ≠ zeroTime ∧ truncate token.signedAt second ≤ now ∧
    now < truncate (token.signedAt + tokens.accessTokenTTL) second

instance SignedToken.decidableValidAt (tokens : TokenService) (token : SignedToken) (now : Time) :
    Decidable (token.ValidAt tokens now) := inferInstanceAs (Decidable (_ ∧ _))

/-- A token of a registered account. -/
def SignedToken.Of (d : Deployment) (token : SignedToken) (r : Registration) : Prop :=
  r.id = token.user ∧ issueAccessToken d.codec d.tokens (r.row d.platform).user token.signedAt =
    .ok ⟨token.value, token.signedAt + d.tokens.accessTokenTTL⟩

theorem row_issuable (r : Registration) : (r.row d.platform).user.Issuable where
  named := by
    change trimSpace r.id.text ≠ []
    rw [Uuid.trimSpace_text]
    exact r.id.text_ends.2.2
  valid := role_text_valid .member
  enabled := rfl

theorem issueAccessToken_shown {user : User} {now : Time} {issued : IssuedAccessToken} (laws : d.codec.Documented)
    (made : issueAccessToken d.codec d.tokens user now = .ok issued) :
    issued.value ≠ [] ∧ ∀ c ∈ issued.value, visible c = true := by
  unfold issueAccessToken at made
  obtain ⟨_, made⟩ := check_passed made
  obtain ⟨raw, signed, _, _, nonempty, shown⟩ := laws.signs (accessToken d.tokens user now) d.tokens.secret
  rw [signed] at made
  cases made
  exact ⟨nonempty, shown⟩

theorem parse_signed {token : SignedToken} {r : Registration} (laws : d.codec.Documented) (own : token.Of d r)
    (now : Time) : parseAccessToken d.codec d.tokens token.value now =
      if token.ValidAt d.tokens now then
        .ok ⟨r.id.text, Role.text .member, truncate (token.signedAt + d.tokens.accessTokenTTL) second⟩
      else .error .invalidAccessToken := by
  have parsed := (issueAccessToken_issued laws (row_issuable r) own.2).parsed now
  rw [show trimSpace (r.row d.platform).user.id = r.id.text from Uuid.trimSpace_text _] at parsed
  exact parsed

theorem bearerToken_shown {raw : Str} (nonempty : raw ≠ []) (shown : ∀ c ∈ raw, visible c = true) :
    bearerToken (lit "Bearer " ++ raw) = some raw := by
  have two := @fields_two (lit "Bearer") raw (List.all_eq_true.mp (by decide)) shown (by decide) nonempty
  have trimmed : trimSpace raw = raw := by
    apply trimSpace_of_visible
    · intro c first
      exact shown c (List.mem_of_mem_head? first)
    · intro c last
      exact shown c (List.mem_of_getLast? last)
  have split : lit "Bearer " ++ raw = lit "Bearer" ++ 32 :: raw := rfl
  rw [bearerToken, split, two]
  simp only [trimmed, if_neg nonempty]
  rw [if_neg (by decide)]

theorem bearerToken_trimmed {header raw : Str} (read : bearerToken header = some raw) :
    trimSpace raw = raw ∧ raw ≠ [] := by
  unfold bearerToken at read
  split at read
  · simp only [Option.ite_none_left_eq_some, Option.some.injEq] at read
    obtain ⟨_, nonempty, rfl⟩ := read
    exact ⟨trimSpace_idem _, nonempty⟩
  · contradiction

def Service.LoggedIn (s : Service) (id : Uuid) : Prop := ∃ password, (id, password) ∈ s.logins

/-- The request came with a token that was signed and had not expired. -/
def Service.Admits (d : Deployment) (s : Service) (admission : Admission) : Prop :=
  ∃ token ∈ s.signed, token.value = admission.token ∧ token.ValidAt d.tokens admission.admittedAt ∧
    admission.principal.userID = token.user.text

def KeyCall.Creates (call : KeyCall) (row : APIKeyRow) : Prop :=
  ∃ createdAt now random input, call = .create row.id createdAt now random input ∧
    Uuid.parse (trimSpace input.projectID) = some row.projectID

def KeyCall.Revokes (call : KeyCall) (row : APIKeyRow) : Prop :=
  ∃ projectID apiKeyID now, call = .revoke projectID apiKeyID now ∧
    Uuid.parse (trimSpace projectID) = some row.projectID ∧ Uuid.parse (trimSpace apiKeyID) = some row.id

/-- Every key was created, and every disabled one revoked, by a call that was served. -/
def Keys.Explained (served : List (Admission × KeyCall)) (keys : Keys) : Prop :=
  ∀ row ∈ keys.rows, (∃ entry ∈ served, entry.2.Creates row) ∧
    (row.enabled = false → ∃ entry ∈ served, entry.2.Revokes row)

section Explained
variable {served more : List (Admission × KeyCall)} {keys next : Keys}

theorem Keys.Explained.mono (explained : keys.Explained served) (kept : served ⊆ more) : keys.Explained more := by
  intro row member
  obtain ⟨⟨entry, listed, creates⟩, revoked⟩ := explained row member
  refine ⟨⟨entry, kept listed, creates⟩, ?_⟩
  intro disabled
  obtain ⟨other, listed, revokes⟩ := revoked disabled
  exact ⟨other, kept listed, revokes⟩

theorem Keys.Explained.used (explained : keys.Explained served) {apiKeyID : Uuid} {usedAt : Time}
    (updated : keys.updateAPIKeyLastUsedAt apiKeyID usedAt = some next) : next.Explained served := by
  simp only [updateAPIKeyLastUsedAt, update, Option.ite_none_right_eq_some, Option.some.injEq] at updated
  obtain ⟨_, rfl⟩ := updated
  intro row member
  obtain ⟨before, present, rfl⟩ := List.mem_map.mp member
  split
  · exact explained before present
  · exact explained before present

theorem Keys.Explained.created (explained : keys.Explained served) {sha256 : Str → Str} {id : Uuid}
    {createdAt now : Time} {random : APIKeyEntropy} {input : CreateAPIKeyInput} (admission : Admission)
    (created : createAPIKey sha256 keys id createdAt now random input = some next) :
    next.Explained (served ++ [(admission, .create id createdAt now random input)]) := by
  simp only [createAPIKey] at created
  split at created
  · contradiction
  · split at created
    · contradiction
    · rename_i key accepted
      cases newAPIKey_spec accepted
      simp only [Keys.insert, Option.bind_eq_bind, Option.map_bind, Option.bind_eq_some_iff,
        Function.comp_apply, Option.map_eq_some_iff, Option.ite_none_right_eq_some,
        Option.some.injEq, trimSpace_idem] at created
      obtain ⟨projectID, parsed, rows, ⟨_, rfl⟩, rfl⟩ := created
      intro row member
      rcases List.mem_append.mp member with old | new
      · exact explained.mono (List.subset_append_left _ _) row old
      · cases List.mem_singleton.mp new
        refine ⟨⟨_, List.mem_append_right _ List.mem_cons_self, _, _, _, _, rfl, parsed⟩, ?_⟩
        intro disabled
        cases disabled

theorem Keys.Explained.revoked (explained : keys.Explained served) {projectID apiKeyID : Str} {now : Time}
    (admission : Admission) (revoked : revokeAPIKey keys projectID apiKeyID now = some next) :
    next.Explained (served ++ [(admission, .revoke projectID apiKeyID now)]) := by
  simp only [revokeAPIKey, disableAPIKey, update, Option.bind_eq_bind, Option.bind_eq_some_iff,
    Option.ite_none_right_eq_some, Option.some.injEq] at revoked
  obtain ⟨project, owner, key, named, _, rfl⟩ := revoked
  intro row member
  obtain ⟨before, present, rfl⟩ := List.mem_map.mp member
  obtain ⟨creates, revokes⟩ := explained.mono (List.subset_append_left _ [_]) before present
  split
  · rename_i selected
    simp only [Bool.and_eq_true, decide_eq_true_eq] at selected
    obtain ⟨rfl, rfl⟩ := selected
    refine ⟨creates, ?_⟩
    intro _
    exact ⟨_, List.mem_append_right _ List.mem_cons_self, _, _, _, rfl, owner, named⟩
  · exact ⟨creates, revokes⟩

theorem Keys.Explained.serve (explained : keys.Explained served) (sha256 : Str → Str) (admission : Admission)
    (call : KeyCall) : ((call.changes sha256 keys).getD keys).Explained (served ++ [(admission, call)]) := by
  cases changed : call.changes sha256 keys with
  | none => exact explained.mono (List.subset_append_left _ _)
  | some next =>
    cases call with
    | create id createdAt now random input => exact explained.created admission changed
    | list projectID =>
      cases changed
      exact explained.mono (List.subset_append_left _ _)
    | revoke projectID apiKeyID now => exact explained.revoked admission changed

end Explained

structure Service.Sound (d : Deployment) (s : Service) : Prop where
  accounts : s.accounts.Sound d.platform
  logins : ∀ entry ∈ s.logins, ∃ r ∈ s.accounts.registered, r.id = entry.1 ∧ r.Accepts d.platform entry.2
  owned : s.accounts.sessions.Owned s.LoggedIn
  signed : ∀ token ∈ s.signed, s.LoggedIn token.user ∧ ∃ r ∈ s.accounts.registered, token.Of d r
  admitted : ∀ caller admission, s.admitted caller = some admission → s.Admits d admission
  refused : ∀ entry ∈ s.refused, entry.2 = AuthenticationError.invalidAccessToken.answer ∨
    entry.1 = true ∧ entry.2 = AuthenticationError.database.answer
  served : ∀ entry ∈ s.served, s.Admits d entry.1
  keys : s.keys.Explained s.served

theorem service_start_sound : Service.start.Sound d where
  accounts := start_sound
  logins := by simp [Service.start]
  owned := ⟨by simp [Service.start, Accounts.start, Sessions.start],
    by simp [Service.start, Accounts.start, Sessions.start]⟩
  signed := by simp [Service.start]
  admitted := by simp [Service.start]
  refused := by simp [Service.start]
  served := by simp [Service.start]
  keys := by simp [Keys.Explained, Service.start, Keys.empty]

/-- A token that is presented and verified was signed by the service. -/
def Unforged (d : Deployment) (s : Service) : ServiceAction → Prop
  | .authenticate _ header now _ => ∀ raw, bearerToken header = some raw →
      (∃ principal, parseAccessToken d.codec d.tokens raw now = .ok principal) → ∃ token ∈ s.signed, token.value = raw
  | _ => True

/-- The whole of the check, for a token that was signed: the account is there, enabled and
of the role that the token says. -/
theorem authenticate_signed (laws : d.codec.Documented) (sound : s.Sound d) {token : SignedToken}
    (member : token ∈ s.signed) (now : Time) (failed : Bool) :
    authenticateAccessToken d s.accounts.sessions.users token.value now failed =
      if ¬ token.ValidAt d.tokens now then .error .invalidAccessToken
      else if failed then .error .database
      else .ok ⟨token.user.text, Role.text .member,
        truncate (token.signedAt + d.tokens.accessTokenTTL) second⟩ := by
  obtain ⟨_, r, registered, own⟩ := sound.signed token member
  obtain ⟨nonempty, shown⟩ := issueAccessToken_shown laws own.2
  have trimmed : trimSpace token.value = token.value := by
    apply trimSpace_of_visible
    · intro c first
      exact shown c (List.mem_of_mem_head? first)
    · intro c last
      exact shown c (List.mem_of_getLast? last)
  unfold authenticateAccessToken
  simp only [trimmed, if_neg nonempty, parse_signed laws own]
  by_cases valid : token.ValidAt d.tokens now
  · rw [if_neg (not_not.mpr valid)]
    simp only [if_pos valid, ← own.1, Uuid.parse_text, sound.accounts.byID registered]
    rfl
  · rw [if_neg valid, if_pos valid]

theorem header_signed (laws : d.codec.Documented) (sound : s.Sound d) {token : SignedToken}
    (member : token ∈ s.signed) : bearerToken (lit "Bearer " ++ token.value) = some token.value := by
  obtain ⟨_, r, _, own⟩ := sound.signed token member
  obtain ⟨nonempty, shown⟩ := issueAccessToken_shown laws own.2
  exact bearerToken_shown nonempty shown

/-- A request is let in with a signed token that is valid. A refusal is an answer of 401,
or of 500 when the database has failed. -/
theorem requireAccessToken_spec (laws : d.codec.Documented) (sound : s.Sound d) {caller : Nat} {header : Str}
    {now : Time} {failed : Bool} (unforged : Unforged d s (.authenticate caller header now failed)) :
    (∃ token ∈ s.signed, bearerToken header = some token.value ∧ token.ValidAt d.tokens now ∧
      ∃ principal, requireAccessToken d s.accounts.sessions.users header now failed = .ok principal ∧
        principal.userID = token.user.text) ∨
    requireAccessToken d s.accounts.sessions.users header now failed = .error .invalidAccessToken ∨
    failed = true ∧ requireAccessToken d s.accounts.sessions.users header now failed = .error .database := by
  unfold requireAccessToken
  cases read : bearerToken header with
  | none => exact .inr (.inl rfl)
  | some raw =>
    obtain ⟨trimmed, nonempty⟩ := bearerToken_trimmed read
    cases parsed : parseAccessToken d.codec d.tokens raw now with
    | error err =>
      refine .inr (.inl ?_)
      simp only [authenticateAccessToken, trimmed, if_neg nonempty, parsed]
    | ok principal =>
      obtain ⟨token, member, rfl⟩ := unforged raw read ⟨principal, parsed⟩
      simp only [authenticate_signed laws sound member]
      by_cases valid : token.ValidAt d.tokens now
      · rw [if_neg (not_not.mpr valid)]
        cases failed with
        | true => exact .inr (.inr ⟨rfl, rfl⟩)
        | false => exact .inl ⟨token, member, rfl, valid, _, rfl, rfl⟩
      · rw [if_pos valid]
        exact .inr (.inl rfl)

theorem accountStep_registered {before after : Accounts} {action : AccountAction}
    (stepped : accountStep d.platform before action = some after) : before.registered ⊆ after.registered := by
  cases action with
  | register id salt email password =>
    simp only [accountStep] at stepped
    split at stepped <;> cases stepped
    · exact List.Subset.refl _
    · exact List.subset_append_left _ _
  | session action =>
    simp only [accountStep, Option.ite_none_left_eq_some] at stepped
    obtain ⟨_, stepped⟩ := stepped
    obtain ⟨sessions, _, rfl⟩ := Option.map_eq_some_iff.mp stepped
    exact List.Subset.refl _

theorem signing_spec (sound : s.Sound d) {action : AccountAction}
    {user : UserRow} {now : Time} (signs : signing d s.accounts.sessions action = some (user, now)) :
    ∃ r ∈ s.accounts.registered, user = r.row d.platform ∧ checkTokenUser user now = .ok () ∧
      ((loginOf action (some (user, now)) = [] ∧ s.LoggedIn r.id) ∨
        ∃ password, loginOf action (some (user, now)) = [(r.id, password)] ∧ r.Accepts d.platform password) := by
  unfold signing at signs
  split at signs
  · rename_i caller email password at_ random
    split at signs
    · contradiction
    · rename_i token logged
      obtain ⟨r, member, found, agrees, _, checked⟩ := prepareLogin_account sound.accounts logged
      rw [found] at signs
      cases signs
      exact ⟨r, member, rfl, checked, .inr ⟨password, rfl, agrees⟩⟩
  · rename_i caller random failed
    split at signs
    · rename_i current at_ busy
      split at signs
      · contradiction
      · rename_i replacement built
        obtain ⟨other, found, checked⟩ := buildReplacement_account built
        rw [found] at signs
        cases signs
        obtain ⟨id, known, logged⟩ := sound.owned.calls caller _ busy
        cases known
        have seen := List.find?_some found
        have same : user.id = current.userID := of_decide_eq_true seen
        have member := List.mem_of_find?_eq_some found
        rw [sound.accounts.users] at member
        obtain ⟨r, registered, rfl⟩ := List.mem_map.mp member
        refine ⟨r, registered, rfl, checked, .inl ⟨rfl, ?_⟩⟩
        rw [show r.id = current.userID from same]
        exact logged
    · contradiction
  · contradiction

theorem loginOf_sound (sound : s.Sound d) {action : AccountAction} :
    ∀ entry ∈ loginOf action (signing d s.accounts.sessions action),
      ∃ r ∈ s.accounts.registered, r.id = entry.1 ∧ r.Accepts d.platform entry.2 := by
  intro entry member
  cases signs : signing d s.accounts.sessions action with
  | none =>
    rw [signs] at member
    cases member
  | some signer =>
    rw [signs] at member
    obtain ⟨r, registered, _, _, ⟨none, _⟩ | ⟨password, one, accepts⟩⟩ := signing_spec sound signs
    · rw [none] at member
      cases member
    · rw [one] at member
      cases List.mem_singleton.mp member
      exact ⟨r, registered, rfl, accepts⟩

theorem signedTokens_sound (jwt : d.codec.Documented) (sound : s.Sound d)
    {action : AccountAction} : ∀ token ∈ signedTokens d (signing d s.accounts.sessions action),
      (∃ password, (token.user, password) ∈ s.logins ++ loginOf action (signing d s.accounts.sessions action)) ∧
        ∃ r ∈ s.accounts.registered, token.Of d r := by
  intro token member
  cases signs : signing d s.accounts.sessions action with
  | none =>
    rw [signs] at member
    cases member
  | some signer =>
    rw [signs] at member
    obtain ⟨r, registered, row, checked, login⟩ := signing_spec sound signs
    obtain ⟨issued, made⟩ := (@issueAccessToken_row d.codec d.tokens signer.2 jwt signer.1).mpr checked
    simp only [signedTokens, made] at member
    cases List.mem_singleton.mp member
    refine ⟨?_, r, registered, ?_, ?_⟩
    · rw [row]
      rcases login with ⟨_, password, earlier⟩ | ⟨password, one, _⟩
      · exact ⟨password, List.mem_append_left _ earlier⟩
      · refine ⟨password, List.mem_append_right _ ?_⟩
        change _ ∈ loginOf action (some (signer.1, signer.2))
        rw [one]
        exact List.mem_cons_self
    · rw [row]
      rfl
    · have expires := (issueAccessToken_issued jwt (row ▸ row_issuable r) made).expiresAt
      rw [← row, made, ← expires]

theorem account_owned (sound : s.Sound d) {action : AccountAction}
    {accounts : Accounts} (moved : accountStep d.platform s.accounts action = some accounts) :
    accounts.sessions.Owned (fun id => ∃ password,
      (id, password) ∈ s.logins ++ loginOf action (signing d s.accounts.sessions action)) := by
  have owned := sound.owned.mono (Q := fun id => ∃ password,
      (id, password) ∈ s.logins ++ loginOf action (signing d s.accounts.sessions action)) (by
    rintro id ⟨password, earlier⟩
    exact ⟨password, List.mem_append_left _ earlier⟩)
  cases action with
  | register id salt email password =>
    simp only [accountStep] at moved
    split at moved <;> cases moved
    · exact owned
    · exact ⟨owned.rows, owned.calls⟩
  | session action =>
    simp only [accountStep, Option.ite_none_left_eq_some] at moved
    obtain ⟨_, moved⟩ := moved
    obtain ⟨sessions, stepped, rfl⟩ := Option.map_eq_some_iff.mp moved
    refine tokenStep_owned owned ?_ stepped
    rintro caller email password now random token rfl logged
    obtain ⟨r, _, found, _, user, _⟩ := prepareLogin_account sound.accounts logged
    refine ⟨r.id, user, password, List.mem_append_right _ ?_⟩
    simp only [signing, logged, found, Option.map_some, loginOf]
    exact List.mem_cons_self

theorem Service.Admits.mono {admission : Admission} (admits : s.Admits d admission) (kept : s.signed ⊆ t.signed) :
    t.Admits d admission := by
  obtain ⟨token, member, fields⟩ := admits
  exact ⟨token, kept member, fields⟩

theorem account_sound (bcrypt : d.platform.bcrypt.Documented) (jwt : d.codec.Documented) (sound : s.Sound d)
    {action : AccountAction} (stepped : serviceStep d s (.account action) = some t) : t.Sound d := by
  simp only [serviceStep] at stepped
  obtain ⟨accounts, moved, rfl⟩ := Option.map_eq_some_iff.mp stepped
  have kept := accountStep_registered moved
  refine ⟨accountStep_sound bcrypt sound.accounts moved, ?_, account_owned sound moved, ?_, ?_, sound.refused,
    ?_, sound.keys⟩
  · intro entry member
    have known : ∃ r ∈ s.accounts.registered, r.id = entry.1 ∧ r.Accepts d.platform entry.2 := by
      rcases List.mem_append.mp member with old | new
      · exact sound.logins entry old
      · exact loginOf_sound sound entry new
    obtain ⟨r, registered, same, accepts⟩ := known
    exact ⟨r, kept registered, same, accepts⟩
  · intro token member
    rcases List.mem_append.mp member with old | new
    · obtain ⟨⟨password, logged⟩, r, registered, own⟩ := sound.signed token old
      exact ⟨⟨password, List.mem_append_left _ logged⟩, r, kept registered, own⟩
    · obtain ⟨logged, r, registered, own⟩ := signedTokens_sound jwt sound token new
      exact ⟨logged, r, kept registered, own⟩
  · intro caller admission waiting
    exact (sound.admitted caller admission waiting).mono (List.subset_append_left _ _)
  · intro entry member
    exact (sound.served entry member).mono (List.subset_append_left _ _)

theorem authenticate_sound (laws : d.codec.Documented) (sound : s.Sound d) {caller : Nat} {header : Str} {now : Time}
    {failed : Bool} (unforged : Unforged d s (.authenticate caller header now failed))
    (stepped : serviceStep d s (.authenticate caller header now failed) = some t) : t.Sound d := by
  simp only [serviceStep] at stepped
  split at stepped
  · contradiction
  · rcases requireAccessToken_spec laws sound unforged with
      ⟨token, member, read, valid, principal, passed, user⟩ | refused | ⟨broken, refused⟩
    · rw [passed] at stepped
      cases stepped
      refine { sound with admitted := ?_ }
      intro other admission waiting
      rcases update_found waiting with ⟨before, _⟩ | ⟨_, moved⟩
      · exact sound.admitted other admission before
      · cases moved
        rw [read]
        exact ⟨token, member, rfl, valid, user⟩
    · rw [refused] at stepped
      cases stepped
      refine { sound with refused := ?_ }
      intro entry member
      rcases List.mem_append.mp member with old | new
      · exact sound.refused entry old
      · cases List.mem_singleton.mp new
        exact .inl rfl
    · rw [refused] at stepped
      cases stepped
      refine { sound with refused := ?_ }
      intro entry member
      rcases List.mem_append.mp member with old | new
      · exact sound.refused entry old
      · cases List.mem_singleton.mp new
        exact .inr ⟨broken, rfl⟩

theorem serve_sound (sound : s.Sound d) {caller : Nat} {call : KeyCall} {failed : Bool}
    (stepped : serviceStep d s (.serve caller call failed) = some t) : t.Sound d := by
  simp only [serviceStep] at stepped
  split at stepped
  · contradiction
  · rename_i admission waiting
    cases stepped
    refine { sound with admitted := ?_, served := ?_, keys := ?_ }
    · intro other earlier found
      rcases update_found found with ⟨before, _⟩ | ⟨_, none⟩
      · exact sound.admitted other earlier before
      · cases none
    · intro entry member
      rcases List.mem_append.mp member with old | new
      · exact sound.served entry old
      · cases List.mem_singleton.mp new
        exact sound.admitted caller admission waiting
    · cases failed with
      | true => exact sound.keys.mono (List.subset_append_left _ _)
      | false => exact sound.keys.serve d.platform.sha256 admission call

theorem serviceStep_sound (bcrypt : d.platform.bcrypt.Documented) (jwt : d.codec.Documented) {action : ServiceAction}
    (unforged : Unforged d s action) (sound : s.Sound d) (stepped : serviceStep d s action = some t) : t.Sound d := by
  cases action with
  | account action => exact account_sound bcrypt jwt sound stepped
  | project id =>
    cases stepped
    exact { sound with keys := sound.keys }
  | used apiKeyID usedAt =>
    obtain ⟨keys, updated, rfl⟩ := Option.map_eq_some_iff.mp stepped
    exact { sound with keys := sound.keys.used updated }
  | authenticate caller header now failed => exact authenticate_sound jwt sound unforged stepped
  | serve caller call failed => exact serve_sound sound stepped

/-- A step changes the table of the keys by one of its operations, or not at all. -/
theorem serviceStep_keys {action : ServiceAction} (stepped : serviceStep d s action = some t) :
    t.keys = s.keys ∨ ∃ operation, keyStep d.platform.sha256 s.keys operation = some t.keys := by
  cases action with
  | account action =>
    obtain ⟨accounts, _, rfl⟩ := Option.map_eq_some_iff.mp stepped
    exact .inl rfl
  | project id =>
    cases stepped
    exact .inr ⟨.addProject id, rfl⟩
  | used apiKeyID usedAt =>
    obtain ⟨keys, updated, rfl⟩ := Option.map_eq_some_iff.mp stepped
    exact .inr ⟨.used apiKeyID usedAt, updated⟩
  | authenticate caller header now failed =>
    simp only [serviceStep] at stepped
    split at stepped
    · contradiction
    · split at stepped <;> cases stepped <;> exact .inl rfl
  | serve caller call failed =>
    simp only [serviceStep] at stepped
    split at stepped
    · contradiction
    · cases stepped
      cases failed with
      | true => exact .inl rfl
      | false =>
        cases changed : call.changes d.platform.sha256 s.keys with
        | none => exact .inl rfl
        | some next =>
          simp only [Bool.false_eq_true, if_false, Option.getD_some]
          cases call with
          | create id createdAt now random input => exact .inr ⟨.createAPIKey id createdAt now random input, changed⟩
          | list projectID =>
            cases changed
            exact .inl rfl
          | revoke projectID apiKeyID now => exact .inr ⟨.revokeAPIKey projectID apiKeyID now, changed⟩

theorem serviceStep_served {action : ServiceAction} (stepped : serviceStep d s action = some t) :
    s.served ⊆ t.served := by
  cases action with
  | account action =>
    obtain ⟨accounts, _, rfl⟩ := Option.map_eq_some_iff.mp stepped
    exact List.Subset.refl _
  | project id =>
    cases stepped
    exact List.Subset.refl _
  | used apiKeyID usedAt =>
    obtain ⟨keys, _, rfl⟩ := Option.map_eq_some_iff.mp stepped
    exact List.Subset.refl _
  | authenticate caller header now failed =>
    simp only [serviceStep] at stepped
    split at stepped
    · contradiction
    · split at stepped <;> cases stepped <;> exact List.Subset.refl _
  | serve caller call failed =>
    simp only [serviceStep] at stepped
    split at stepped
    · contradiction
    · cases stepped
      exact List.subset_append_left _ _

theorem run_service (bcrypt : d.platform.bcrypt.Documented) (jwt : d.codec.Documented) {actions : List ServiceAction}
    (path : run (serviceStep d) .start actions = some s)
    (unforged : Along (serviceStep d) (Unforged d) .start actions) : s.Sound d :=
  run_invariant_along (serviceStep_sound bcrypt jwt) path unforged service_start_sound

theorem run_signed (laws : d.codec.Documented) (sound : s.Sound d) {token : SignedToken} (member : token ∈ s.signed)
    {now : Time} (valid : token.ValidAt d.tokens now) {caller : Nat} (free : s.admitted caller = none)
    (call : KeyCall) :
    ∃ t, run (serviceStep d) s [.authenticate caller (lit "Bearer " ++ token.value) now false,
        .serve caller call false] = some t ∧
      t.keys = (call.changes d.platform.sha256 s.keys).getD s.keys ∧
      ∃ admission, admission.principal.userID = token.user.text ∧ t.served = s.served ++ [(admission, call)] ∧
        t.shown = s.shown ++ [(admission, call.shows s.keys)] := by
  have passed := authenticate_signed laws sound member now false
  rw [if_neg (not_not.mpr valid)] at passed
  simp only [run, serviceStep, free, requireAccessToken, header_signed laws sound member, passed, Option.bind_some,
    Bool.false_eq_true, if_false, Function.update_self]
  exact ⟨_, rfl, rfl, _, rfl, rfl, rfl⟩

def openDeployment : Deployment := ⟨openPlatform, sampleCodec, sampleTokenService⟩

/-- Two accounts register and log in. -/
def twoLogins : List ServiceAction := [
  .project partnerProject,
  .account (.register (tokenID 1) [1] (lit "one@example.com") (lit "abc123xyz")),
  .account (.register (tokenID 2) [2] (lit "two@example.com") (lit "xyz123abc")),
  .account (.session (.login 0 (lit "One@example.com") (lit "abc123xyz") sampleInstant (List.replicate 32 1))),
  .account (.session (.login 1 (lit "two@example.com") (lit "xyz123abc") sampleInstant (List.replicate 32 2)))]

theorem twoLogins_unforged : Along (serviceStep openDeployment) (Unforged openDeployment) .start twoLogins := by
  refine along_of_forall ?_ _
  intro s action member
  simp only [twoLogins, List.mem_cons, List.not_mem_nil, or_false] at member
  rcases member with rfl | rfl | rfl | rfl | rfl <;> trivial

theorem twoLogins_signed : ∃ s, run (serviceStep openDeployment) .start twoLogins = some s ∧
    s.keys = ⟨[partnerProject], [], []⟩ ∧ s.admitted 0 = none ∧
    ∃ first second, s.signed = [first, second] ∧ first.user = tokenID 1 ∧ first.signedAt = sampleInstant ∧
      second.user = tokenID 2 ∧ second.signedAt = sampleInstant := by
  have observed : (run (serviceStep openDeployment) .start twoLogins).map (fun s =>
      (s.keys, s.admitted 0, s.signed.map (fun token => (token.user, token.signedAt)))) =
        some (⟨[partnerProject], [], []⟩, none, [(tokenID 1, sampleInstant), (tokenID 2, sampleInstant)]) := by
    decide +kernel
  obtain ⟨s, path, seen⟩ := Option.map_eq_some_iff.mp observed
  simp only [Prod.mk.injEq, List.map_eq_cons_iff, List.map_eq_nil_iff] at seen
  obtain ⟨keys, free, first, _, signed, ⟨one, at_⟩, second, _, rfl, ⟨two, again⟩, rfl⟩ := seen
  exact ⟨s, path, keys, free, first, second, signed, one, at_, two, again⟩

def partnerCall : KeyCall :=
  .create partnerKey sampleInstant sampleInstant partnerEntropy ⟨partnerProject.text, lit "partner", none⟩

def partnerKeys : Keys := (partnerCall.changes openPlatform.sha256 ⟨[partnerProject], [], []⟩).getD .empty

theorem partnerCall_served : ∃ actions s, run (serviceStep openDeployment) .start actions = some s ∧
    Along (serviceStep openDeployment) (Unforged openDeployment) .start actions ∧ s.keys = partnerKeys ∧
    ∃ admission, (admission, partnerCall) ∈ s.served := by
  obtain ⟨s, path, keys, free, first, second, signed, _, at_, _⟩ := twoLogins_signed
  have sound := run_service openHasher_documented sampleCodec_documented path twoLogins_unforged
  have member : first ∈ s.signed := by
    rw [signed]
    exact List.mem_cons_self
  have valid : first.ValidAt openDeployment.tokens sampleInstant := by
    rw [SignedToken.ValidAt, at_]
    decide
  obtain ⟨t, arrives, changed, admission, _, listed, _⟩ :=
    run_signed sampleCodec_documented sound member valid free partnerCall
  have later : Along (serviceStep openDeployment) (Unforged openDeployment) s [
      .authenticate 0 (lit "Bearer " ++ first.value) sampleInstant false, .serve 0 partnerCall false] := by
    refine ⟨?_, fun _ _ => ⟨trivial, fun _ _ => trivial⟩⟩
    intro raw read _
    rw [header_signed sampleCodec_documented sound member] at read
    exact ⟨first, member, Option.some.inj read⟩
  refine ⟨_, t, (run_append path _).trans arrives, along_append path twoLogins_unforged later, ?_, admission, ?_⟩
  · rw [changed, keys]
    decide +kernel
  · rw [listed]
    exact List.mem_append_right _ List.mem_cons_self

theorem listAPIKeys_shows {keys : Keys} {row : APIKeyRow} (present : row ∈ keys.rows) :
    row.info ∈ (KeyCall.list row.projectID.text).shows keys := by
  simp only [KeyCall.shows, listAPIKeys, Uuid.trimSpace_text, Uuid.parse_text, Option.bind_eq_bind, Option.bind_some,
    Option.getD_some]
  refine List.mem_map_of_mem ((List.mergeSort_perm _ _).mem_iff.mpr ?_)
  exact List.mem_filter.mpr ⟨present, decide_eq_true rfl⟩

theorem revokeAPIKey_row {keys : Keys} {row : APIKeyRow} (present : row ∈ keys.rows) (now : Time) :
    ∃ disabled, revokeAPIKey keys row.projectID.text row.id.text now = some disabled ∧
      ∀ other ∈ disabled.rows, other.id = row.id → other.projectID = row.projectID → other.enabled = false := by
  have selected : keys.rows.any (fun other => other.id = row.id && other.projectID = row.projectID) = true :=
    List.any_eq_true.mpr ⟨row, present, by simp⟩
  simp only [revokeAPIKey, Uuid.trimSpace_text, Uuid.parse_text, Option.bind_eq_bind, Option.bind_some,
    Keys.disableAPIKey, Keys.update, if_pos selected, Option.some.injEq, exists_eq_left']
  intro other listed same owner
  obtain ⟨before, _, rfl⟩ := List.mem_map.mp listed
  split
  · rfl
  · rename_i missed
    rw [if_neg missed] at same owner
    simp [same, owner] at missed

end EdgeGuard.Auth
