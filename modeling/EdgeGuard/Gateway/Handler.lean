import EdgeGuard.Auth.APIKeys
import EdgeGuard.Gateway.Routes

/-! The Gateway's request handler: resolve the route, authorize the API key over
the auth service, check the rate limit, proxy. The calls of the rate limiter and
of the proxy are recorded in the order they are made. -/
namespace EdgeGuard.Gateway
open Go Postgres Auth

inductive GatewayError where
  | apiKeyRequired
  | invalidAPIKey
  | apiKeyProjectMismatch
  | apiKeyValidatorNotConfigured
  | authServiceUnavailable
  | invalidRateLimitPolicy
  | invalidRateLimitClient
  | rateLimiterNotConfigured
  | rateLimiterFailed
  deriving DecidableEq, Repr

/-- The answer of `POST internal/v1/api-keys/validate`. -/
inductive AuthAnswer where
  | principal (apiKeyID projectID : Str)
  | status (code : Nat)
  deriving DecidableEq, Repr

section Auth
variable (sha256 : Str → Str)

/-- The auth service's handler; `handleError` knows `ErrInvalidAPIKey` and turns
the other errors of a validation into 500. -/
def answerValidation (env : Validation) (header : Str) : AuthAnswer :=
  match Auth.validateAPIKey sha256 env (trimSpace header) with
  | .ok principal => .principal principal.apiKeyID principal.projectID
  | .error .invalidAPIKey => .status 401
  | .error _ => .status 500

/-- The Gateway's client on an answer, `none` when the request fails. -/
def readPrincipal : Option AuthAnswer → Except GatewayError Principal
  | none => .error .authServiceUnavailable
  | some (.status code) => if code = 401 then .error .invalidAPIKey else .error .authServiceUnavailable
  | some (.principal apiKeyID projectID) =>
    let apiKeyID := trimSpace apiKeyID
    let projectID := trimSpace projectID
    if apiKeyID = [] ∨ projectID = [] then .error .authServiceUnavailable
    else .ok ⟨apiKeyID, projectID⟩

/-- The auth service as one request of the Gateway meets it. -/
structure AuthService where
  reachable : Bool
  env : Validation

/-- `Client.ValidateAPIKey`; the hop carries the key and the answer unchanged. -/
def AuthService.validateAPIKey (auth : AuthService) (rawAPIKey : Str) : Except GatewayError Principal :=
  readPrincipal (if auth.reachable then some (answerValidation sha256 auth.env rawAPIKey) else none)

/-- `AuthorizeRoute`; the validator is absent when it is not configured. -/
def authorizeRoute (validator : Option AuthService) (route : Route) (rawAPIKey : Str) :
    Except GatewayError Principal :=
  if route.authRequired = false then .ok ⟨[], []⟩
  else if trimSpace rawAPIKey = [] then .error .apiKeyRequired
  else match validator with
    | none => .error .apiKeyValidatorNotConfigured
    | some auth => match auth.validateAPIKey sha256 rawAPIKey with
      | .error err => .error err
      | .ok principal =>
        if principal.projectID ≠ route.projectID then .error .apiKeyProjectMismatch
        else .ok principal

end Auth

def Route.rateLimitKey (route : Route) : Str := route.projectID ++ 0 :: route.name ++ 0 :: route.pathPrefix

structure RateLimitRequest where
  routeKey : Str
  clientID : Str
  policy : RateLimitPolicy
  deriving DecidableEq, Repr

structure RateLimitResult where
  enabled : Bool
  allowed : Bool
  limit : Int
  remaining : Int
  resetAt : Time
  retryAfter : Duration
  deriving DecidableEq, Repr

inductive Call where
  | allow (request : RateLimitRequest)
  | serveHTTP (route : Route)
  deriving DecidableEq, Repr

abbrev Limiter := RateLimitRequest → Except GatewayError RateLimitResult

/-- `CheckRateLimit` with the calls it makes. -/
def checkRateLimit (limiter : Option Limiter) (route : Route) (clientID : Str) :
    List Call × Except GatewayError RateLimitResult :=
  if route.rateLimit.enabled = false then ([], .ok ⟨false, true, 0, 0, zeroTime, 0⟩)
  else if route.rateLimit.limit ≤ 0 ∨ route.rateLimit.window ≤ 0 then
    ([], .error .invalidRateLimitPolicy)
  else
    let clientID := trimSpace clientID
    if clientID = [] then ([], .error .invalidRateLimitClient)
    else match limiter with
      | none => ([], .error .rateLimiterNotConfigured)
      | some allow =>
        let request : RateLimitRequest := ⟨route.rateLimitKey, clientID, route.rateLimit⟩
        ([.allow request], allow request)

structure Request where
  path : Str
  apiKeys : List Str
  remoteAddr : Str

/-- `Header.Get`: the first value, or the empty string. -/
def Request.apiKey (request : Request) : Str := request.apiKeys.headD []

/-- `directClientIP`, over the host that `net.SplitHostPort` finds. -/
def directClientIP (splitHostPort : Str → Option Str) (request : Request) : Str :=
  let remoteAddr := trimSpace request.remoteAddr
  if remoteAddr = [] then lit "unknown"
  else match splitHostPort remoteAddr with
    | some host => if host = [] then remoteAddr else host
    | none => remoteAddr

def rateLimitClientID (splitHostPort : Str → Option Str) (request : Request) (route : Route)
    (principal : Principal) : Str :=
  if route.authRequired = true ∧ trimSpace principal.apiKeyID ≠ [] then
    lit "api-key:" ++ principal.apiKeyID
  else lit "ip:" ++ directClientIP splitHostPort request

/-- What one request did: the calls, the result written to the rate limit
headers, and the answer unless the proxy gives it. -/
structure Exchange where
  calls : List Call
  headers : Option RateLimitResult
  answer : Option (Nat × String)

structure Handler where
  routes : List Route
  validator : Option AuthService
  limiter : Option Limiter
  splitHostPort : Str → Option Str

def authorizationAnswer : GatewayError → Nat × String
  | .apiKeyRequired | .invalidAPIKey => (401, "unauthorized\n")
  | .apiKeyProjectMismatch => (403, "forbidden\n")
  | .authServiceUnavailable | .apiKeyValidatorNotConfigured =>
    (503, "authorization service unavailable\n")
  | _ => (500, "internal error\n")

def limitAndProxy (h : Handler) (request : Request) (route : Route) (principal : Principal) : Exchange :=
  let clientID := rateLimitClientID h.splitHostPort request route principal
  match checkRateLimit h.limiter route clientID with
  | (calls, .error err) =>
    if err = .invalidRateLimitPolicy ∨ err = .invalidRateLimitClient then
      ⟨calls, none, some (500, "internal error\n")⟩
    else ⟨calls ++ [.serveHTTP route], none, none⟩
  | (calls, .ok result) =>
    if result.enabled = false then ⟨calls ++ [.serveHTTP route], none, none⟩
    else if result.allowed = false then ⟨calls, some result, some (429, "rate limit exceeded\n")⟩
    else ⟨calls ++ [.serveHTTP route], some result, none⟩

def proxyRequest (sha256 : Str → Str) (h : Handler) (request : Request) : Exchange :=
  match resolveRoute h.routes request.path with
  | none => ⟨[], none, some (404, "route not found\n")⟩
  | some route =>
    match authorizeRoute sha256 h.validator route request.apiKey with
    | .error err => ⟨[], none, some (authorizationAnswer err)⟩
    | .ok principal => limitAndProxy h request route principal

variable {sha256 : Str → Str}

theorem readPrincipal_text (apiKeyID projectID : Uuid) :
    readPrincipal (some (.principal apiKeyID.text projectID.text)) =
      .ok ⟨apiKeyID.text, projectID.text⟩ := by
  simp only [readPrincipal, Uuid.trimSpace_text, apiKeyID.text_ends.2.2, projectID.text_ends.2.2,
    or_self, if_false]

theorem validateAPIKey_apiKeyID {auth : AuthService} {raw : Str} {principal : Principal}
    (validated : auth.validateAPIKey sha256 raw = .ok principal) :
    trimSpace principal.apiKeyID = principal.apiKeyID ∧ principal.apiKeyID ≠ [] := by
  unfold AuthService.validateAPIKey readPrincipal at validated
  split at validated
  · contradiction
  · split at validated <;> contradiction
  · obtain ⟨present, validated⟩ := check_passed validated
    cases validated
    exact ⟨trimSpace_idem _, fun empty => present (.inl empty)⟩

theorem authorizeRoute_principal {validator : Option AuthService} {route : Route} {raw : Str}
    {principal : Principal} (authorized : authorizeRoute sha256 validator route raw = .ok principal) :
    (route.authRequired = false ∧ principal = ⟨[], []⟩) ∨
      (route.authRequired = true ∧ trimSpace principal.apiKeyID = principal.apiKeyID ∧
        principal.apiKeyID ≠ []) := by
  unfold authorizeRoute at authorized
  split at authorized
  · cases authorized
    exact .inl ⟨‹_›, rfl⟩
  · rename_i guarded
    obtain ⟨_, authorized⟩ := check_passed authorized
    split at authorized
    · contradiction
    · split at authorized
      · contradiction
      · rename_i validated
        obtain ⟨_, authorized⟩ := check_passed authorized
        cases authorized
        exact .inr ⟨by simpa using guarded, validateAPIKey_apiKeyID validated⟩

/-- The auth service on a raw header: the trimming of the handler is absorbed by
the trimming of the parser. -/
theorem answered_iff {env : Validation} {raw : Str} (principal : Principal)
    (valid : ∀ keys, env.lookup = some keys → keys.Valid sha256)
    (collisionFree : ∀ keys, env.lookup = some keys → CollisionFree sha256 (trimSpace raw) keys) :
    Auth.validateAPIKey sha256 env (trimSpace raw) = .ok principal ↔
      env.configured = true ∧ ∃ keys later row, env.lookup = some keys ∧ env.update = some later ∧
        Presents keys env.now (trimSpace raw) row ∧ StillEnabled later row ∧
        principal = ⟨row.id.text, row.projectID.text⟩ := by
  rw [validateAPIKey_ok_iff valid, trimSpace_idem]
  intro keys looked
  rw [trimSpace_idem]
  exact collisionFree keys looked

/-- Over a hop that changes nothing, the client accepts exactly what the auth
service validates. -/
theorem validateAPIKey_client_iff {auth : AuthService} {raw : Str} {principal : Principal}
    (valid : ∀ keys, auth.env.lookup = some keys → keys.Valid sha256)
    (collisionFree : ∀ keys, auth.env.lookup = some keys →
      CollisionFree sha256 (trimSpace raw) keys) :
    auth.validateAPIKey sha256 raw = .ok principal ↔
      auth.reachable = true ∧ auth.env.configured = true ∧ ∃ keys later row,
        auth.env.lookup = some keys ∧ auth.env.update = some later ∧
        Presents keys auth.env.now (trimSpace raw) row ∧ StillEnabled later row ∧
        principal = ⟨row.id.text, row.projectID.text⟩ := by
  rw [← answered_iff principal valid collisionFree]
  unfold AuthService.validateAPIKey answerValidation
  cases auth.reachable with
  | false => simp [readPrincipal]
  | true =>
    cases validated : Auth.validateAPIKey sha256 auth.env (trimSpace raw) with
    | error err => cases err <;> simp [readPrincipal]
    | ok result =>
      obtain ⟨_, _, _, row, _, _, _, _, rfl⟩ := (answered_iff result valid collisionFree).mp validated
      simp [readPrincipal_text]

theorem authorizeRoute_ok_iff {validator : Option AuthService} {route : Route} {raw : Str}
    {principal : Principal} (guarded : route.authRequired = true)
    (valid : ∀ auth keys, validator = some auth → auth.env.lookup = some keys → keys.Valid sha256)
    (collisionFree : ∀ auth keys, validator = some auth → auth.env.lookup = some keys →
      CollisionFree sha256 (trimSpace raw) keys) :
    authorizeRoute sha256 validator route raw = .ok principal ↔
      ∃ auth keys later row, validator = some auth ∧ auth.reachable = true ∧
        auth.env.configured = true ∧ auth.env.lookup = some keys ∧ auth.env.update = some later ∧
        Presents keys auth.env.now (trimSpace raw) row ∧ StillEnabled later row ∧
        row.projectID.text = route.projectID ∧ principal = ⟨row.id.text, row.projectID.text⟩ := by
  constructor
  · intro authorized
    simp only [authorizeRoute, guarded, Bool.true_eq_false, if_false] at authorized
    split at authorized
    · contradiction
    split at authorized
    · contradiction
    rename_i auth
    split at authorized
    · contradiction
    rename_i result validated
    split at authorized
    · contradiction
    rename_i project
    cases authorized
    obtain ⟨reachable, configured, keys, later, row, looked, updated, presents, still, rfl⟩ :=
      (validateAPIKey_client_iff (fun keys => valid auth keys rfl)
        (fun keys => collisionFree auth keys rfl)).mp validated
    exact ⟨auth, keys, later, row, rfl, reachable, configured, looked, updated, presents, still,
      not_not.mp project, rfl⟩
  · rintro ⟨auth, keys, later, row, rfl, reachable, configured, looked, updated, presents, still,
      project, rfl⟩
    have validated := (validateAPIKey_client_iff (fun keys => valid auth keys rfl)
      (fun keys => collisionFree auth keys rfl)).mpr
      ⟨reachable, configured, keys, later, row, looked, updated, presents, still, rfl⟩
    have nonempty : trimSpace raw ≠ [] := by
      obtain ⟨random, generated⟩ :=
        (valid auth keys rfl looked).derived row presents.stored _ presents.value
      exact generated_nonempty generated
    simp only [authorizeRoute, guarded, nonempty, validated, project, Bool.true_eq_false, ne_eq,
      not_true_eq_false, if_false]

/-- On a protected route every call of the rate limiter or the proxy needs the
value of an active key of the route's project; such a key is authorized whenever
the auth service and the database answer and the key is not revoked meanwhile;
and without authorization nothing is called. -/
theorem protected_route_needs_active_key (sha256 : Str → Str) (h : Handler) (request : Request)
    (route : Route) (resolved : resolveRoute h.routes request.path = some route)
    (guarded : route.authRequired = true)
    (stored : ∀ auth keys, h.validator = some auth → auth.env.lookup = some keys →
      ∃ operations, Transition.run (keyStep sha256) Keys.empty operations = some keys)
    (collisionFree : ∀ auth keys, h.validator = some auth → auth.env.lookup = some keys →
      CollisionFree sha256 (trimSpace request.apiKey) keys) :
    ((proxyRequest sha256 h request).calls ≠ [] →
      ∃ auth keys row, h.validator = some auth ∧ auth.env.lookup = some keys ∧
        Presents keys auth.env.now (trimSpace request.apiKey) row ∧
        row.projectID.text = route.projectID) ∧
    (∀ auth keys later row, h.validator = some auth → auth.reachable = true →
      auth.env.configured = true → auth.env.lookup = some keys → auth.env.update = some later →
      Presents keys auth.env.now (trimSpace request.apiKey) row → StillEnabled later row →
      row.projectID.text = route.projectID →
      authorizeRoute sha256 h.validator route request.apiKey =
        .ok ⟨row.id.text, row.projectID.text⟩) ∧
    (∀ err, authorizeRoute sha256 h.validator route request.apiKey = .error err →
      (proxyRequest sha256 h request).calls = []) := by
  have valid : ∀ auth keys, h.validator = some auth → auth.env.lookup = some keys →
      keys.Valid sha256 := by
    intro auth keys configured looked
    obtain ⟨operations, path⟩ := stored auth keys configured looked
    exact Transition.run_invariant keyStep_valid path (Keys.valid_empty sha256)
  refine ⟨?_, ?_, ?_⟩
  · intro called
    simp only [proxyRequest, resolved] at called
    split at called
    · contradiction
    · rename_i principal authorized
      obtain ⟨auth, keys, later, row, configured, _, _, looked, _, presents, _, project, _⟩ :=
        (authorizeRoute_ok_iff guarded valid collisionFree).mp authorized
      exact ⟨auth, keys, row, configured, looked, presents, project⟩
  · intro auth keys later row validator reachable configured looked updated presents still project
    exact (authorizeRoute_ok_iff guarded valid collisionFree).mpr ⟨auth, keys, later, row, validator,
      reachable, configured, looked, updated, presents, still, project, rfl⟩
  · intro err refused
    simp only [proxyRequest, resolved, refused]

def sampleEntropy : APIKeyEntropy := .repeated 1 0

def sampleValue : Str := lit "eg_live_0101010101010101_AAAAAAAAAAAAAAAAAAAAAAAAAAAAAAAAAAAAAAAAAAA"

/-- SHA-256 at `sampleValue`. -/
def sampleHash (s : Str) : Str :=
  if s = sampleValue then
    (hexDecode (lit "e7691cdedb15ed99f0e0b962639081863961173a8b3b1da51db48d370aebc9b9")).getD []
  else s

def sampleProject : Uuid := .repeated 1

def sampleRoute : Route where
  projectID := sampleProject.text
  name := lit "orders"
  pathPrefix := lit "/orders"
  upstreamURL := lit "http://orders"
  stripPrefix := false
  timeout := 3000 * millisecond
  authRequired := true
  rateLimit := ⟨false, 0, 0⟩

def sampleOperations : List KeyOperation := [
  .addProject sampleProject,
  .createAPIKey (.repeated 2) 0 0 sampleEntropy
    ⟨sampleProject.text, lit "ci", none⟩]

def sampleKeys : Keys :=
  (Transition.run (keyStep sampleHash) Keys.empty sampleOperations).getD Keys.empty

def sampleHandler : Handler where
  routes := [sampleRoute]
  validator := some ⟨true, ⟨true, some sampleKeys, some sampleKeys, 1000⟩⟩
  limiter := none
  splitHostPort := fun _ => none

def sampleRequest : Request := ⟨lit "/orders/7", [lit " " ++ sampleValue], lit "10.0.0.1:4000"⟩

theorem sample_request_is_proxied_for_its_key :
    (proxyRequest sampleHash sampleHandler sampleRequest).calls = [.serveHTTP sampleRoute] ∧
    ∃ auth keys row, sampleHandler.validator = some auth ∧ auth.env.lookup = some keys ∧
      Presents keys auth.env.now (trimSpace sampleRequest.apiKey) row ∧
      row.projectID.text = sampleRoute.projectID := by
  have called : (proxyRequest sampleHash sampleHandler sampleRequest).calls =
      [.serveHTTP sampleRoute] := by decide +kernel
  have issued : ∀ entry ∈ sampleKeys.issued, trimSpace sampleRequest.apiKey = entry.2 := by
    decide +kernel
  refine ⟨called, (protected_route_needs_active_key sampleHash sampleHandler sampleRequest sampleRoute
    (by decide +kernel) rfl ?_ ?_).1 (by rw [called]; simp)⟩
  · rintro auth keys ⟨⟩ ⟨⟩
    exact ⟨sampleOperations, by decide +kernel⟩
  · rintro auth keys ⟨⟩ ⟨⟩ entry member _
    exact issued entry member

end EdgeGuard.Gateway
