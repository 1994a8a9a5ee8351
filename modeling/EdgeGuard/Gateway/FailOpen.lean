import EdgeGuard.Gateway.RateLimit

/-! A limiter that fails must not stop the traffic. `Run` hands the limiter to the
usecase through an interface: without `REDIS_URL` the interface holds a nil pointer,
which is not a nil interface, so `CheckRateLimit` calls it. -/
namespace EdgeGuard.Gateway
open Go Auth

inductive Outcome (α : Type) where
  | returned (value : α)
  | panicked
  deriving DecidableEq, Repr

/-- A value of a Redis reply; `other` is anything but an integer or an array. -/
inductive RedisValue where
  | integer (value : Int)
  | array (items : List RedisValue)
  | other

/-- The errors of `Allow`. -/
inductive AllowError where
  | invalidRateLimitPolicy
  | invalidRateLimitClient
  | executeScript (cause : String)
  | unexpectedResponse
  | decodeCounter
  | decodeTTL
  deriving DecidableEq, Repr

/-- What `errors.Is` finds in an error of `Allow`. -/
def AllowError.toGateway : AllowError → GatewayError
  | .invalidRateLimitPolicy => .invalidRateLimitPolicy
  | .invalidRateLimitClient => .invalidRateLimitClient
  | _ => .rateLimiterFailed

def integerValue : RedisValue → Option Int
  | .integer value => some value
  | _ => none

def parseScriptResult : RedisValue → Except AllowError (Int × Int)
  | .array [counter, ttl] =>
    match integerValue counter with
    | none => .error .decodeCounter
    | some current =>
      match integerValue ttl with
      | none => .error .decodeTTL
      | some ttl => .ok (current, ttl)
  | _ => .error .unexpectedResponse

/-- `ratelimit.Limiter`: its key prefix, its clock and what Redis makes of a script
for a key and a time to live. -/
structure RedisLimiter where
  keyPrefix : Str
  now : Time
  eval : Str → Int → Except String RedisValue

/-- `Allow` past the checks that need no limiter. -/
def RedisLimiter.count (sha256 : Str → Str) (l : RedisLimiter) (request : RateLimitRequest) :
    Except AllowError RateLimitResult :=
  let attempt (pttl : Int) : Attempt := ⟨request, l.now, l.now, pttl, true⟩
  if (attempt 0).windowMilliseconds ≤ 0 then .error .invalidRateLimitPolicy
  else match l.eval ((attempt 0).key sha256 l.keyPrefix) (milliseconds (attempt 0).ttl) with
    | .error cause => .error (.executeScript cause)
    | .ok value => match parseScriptResult value with
      | .error err => .error err
      | .ok (current, redisTTL) => .ok ((attempt redisTTL).result current)

/-- `Allow` on a pointer; reading the clock of a nil one panics. -/
def allowOn (sha256 : Str → Str) (limiter : Option RedisLimiter) (request : RateLimitRequest) :
    Outcome (Except AllowError RateLimitResult) :=
  if request.policy.limit ≤ 0 ∨ request.policy.window ≤ 0 then
    .returned (.error .invalidRateLimitPolicy)
  else if trimSpace request.routeKey = [] ∨ trimSpace request.clientID = [] then
    .returned (.error .invalidRateLimitClient)
  else match limiter with
    | none => .panicked
    | some l => .returned (l.count sha256 request)

/-- The `RateLimiter` dependency: a nil interface, or one that holds a pointer, which
may be nil. -/
abbrev RateLimiter := Option (Option RedisLimiter)

structure LimiterConfig where
  redisURL : Str
  redisRateLimitPrefix : Str

/-- `config.Load`, from `REDIS_URL` and `REDIS_RATE_LIMIT_PREFIX`. -/
def LimiterConfig.load (redisURL redisRateLimitPrefix : Str) : LimiterConfig :=
  ⟨trimSpace redisURL, trimSpace redisRateLimitPrefix⟩

section Wiring
-- What go-redis makes of a URL: a client that runs the script.
variable (parseURL : Str → Except String (Str → Int → Except String RedisValue)) (now : Time)

/-- `ratelimit.New`. -/
def newLimiter (redisURL keyPrefix : Str) : Except String RedisLimiter :=
  let redisURL := trimSpace redisURL
  if redisURL = [] then .error "redis url is required"
  else match parseURL redisURL with
    | .error err => .error ("parse redis url: " ++ err)
    | .ok eval =>
      let keyPrefix := trimSpace keyPrefix
      .ok ⟨if keyPrefix = [] then lit "edgeguard:rate-limit" else keyPrefix, now, eval⟩

/-- The dependency as `Run` passes it: the variable is a pointer, so the interface
holds one even where it is nil. -/
def wireRateLimiter (config : LimiterConfig) : Except String RateLimiter :=
  if config.redisURL ≠ [] then
    (newLimiter parseURL now config.redisURL config.redisRateLimitPrefix).map (fun l => some (some l))
  else .ok (some none)

end Wiring

structure Server where
  routes : List Route
  validator : Option AuthService
  rateLimiter : RateLimiter
  splitHostPort : Str → Option Str

section Handler
variable (sha256 : Str → Str)

/-- `CheckRateLimit` with a limiter that may panic. -/
def checkRateLimitOn (rateLimiter : RateLimiter) (route : Route) (clientID : Str) :
    Outcome (List Call × Except GatewayError RateLimitResult) :=
  if route.rateLimit.enabled = false then .returned ([], .ok ⟨false, true, 0, 0, zeroTime, 0⟩)
  else if route.rateLimit.limit ≤ 0 ∨ route.rateLimit.window ≤ 0 then
    .returned ([], .error .invalidRateLimitPolicy)
  else
    let clientID := trimSpace clientID
    if clientID = [] then .returned ([], .error .invalidRateLimitClient)
    else match rateLimiter with
      | none => .returned ([], .error .rateLimiterNotConfigured)
      | some pointer =>
        let request : RateLimitRequest := ⟨route.rateLimitKey, clientID, route.rateLimit⟩
        match allowOn sha256 pointer request with
        | .panicked => .panicked
        | .returned result => .returned ([.allow request], result.mapError AllowError.toGateway)

def limitAndProxyOn (s : Server) (request : Request) (route : Route) (principal : Principal) :
    Outcome Exchange :=
  let clientID := rateLimitClientID s.splitHostPort request route principal
  match checkRateLimitOn sha256 s.rateLimiter route clientID with
  | .panicked => .panicked
  | .returned (calls, .error err) =>
    if err = .invalidRateLimitPolicy ∨ err = .invalidRateLimitClient then
      .returned ⟨calls, none, some (500, "internal error\n")⟩
    else .returned ⟨calls ++ [.serveHTTP route], none, none⟩
  | .returned (calls, .ok result) =>
    if result.enabled = false then .returned ⟨calls ++ [.serveHTTP route], none, none⟩
    else if result.allowed = false then
      .returned ⟨calls, some result, some (429, "rate limit exceeded\n")⟩
    else .returned ⟨calls ++ [.serveHTTP route], some result, none⟩

def proxyRequestOn (s : Server) (request : Request) : Outcome Exchange :=
  match resolveRoute s.routes request.path with
  | none => .returned ⟨[], none, some (404, "route not found\n")⟩
  | some route =>
    match authorizeRoute sha256 s.validator route request.apiKey with
    | .error err => .returned ⟨[], none, some (authorizationAnswer err)⟩
    | .ok principal => limitAndProxyOn sha256 s request route principal

def RedisLimiter.toLimiter (l : RedisLimiter) : Limiter := fun request =>
  match allowOn sha256 (some l) request with
  | .returned result => result.mapError AllowError.toGateway
  | .panicked => .error .rateLimiterFailed

def Server.toHandler (s : Server) : Handler where
  routes := s.routes
  validator := s.validator
  limiter := s.rateLimiter.bind (fun pointer => pointer.map (RedisLimiter.toLimiter sha256))
  splitHostPort := s.splitHostPort

end Handler

variable {sha256 : Str → Str}

theorem allowOn_some (l : RedisLimiter) (request : RateLimitRequest) :
    ∃ result, allowOn sha256 (some l) request = .returned result ∧
      l.toLimiter sha256 request = result.mapError AllowError.toGateway := by
  unfold RedisLimiter.toLimiter allowOn
  split
  · exact ⟨_, rfl, rfl⟩
  split
  · exact ⟨_, rfl, rfl⟩
  · exact ⟨_, rfl, rfl⟩

theorem checkRateLimitOn_returned {s : Server} (present : s.rateLimiter ≠ some none) (route : Route)
    (clientID : Str) : checkRateLimitOn sha256 s.rateLimiter route clientID =
      .returned (checkRateLimit (s.toHandler sha256).limiter route clientID) := by
  unfold checkRateLimitOn checkRateLimit Server.toHandler
  by_cases disabled : route.rateLimit.enabled = false
  · rw [if_pos disabled, if_pos disabled]
  rw [if_neg disabled, if_neg disabled]
  by_cases invalid : route.rateLimit.limit ≤ 0 ∨ route.rateLimit.window ≤ 0
  · rw [if_pos invalid, if_pos invalid]
  rw [if_neg invalid, if_neg invalid]
  by_cases unnamed : trimSpace clientID = []
  · simp only [unnamed, if_true]
  simp only [unnamed, if_false]
  cases wired : s.rateLimiter with
  | none => rfl
  | some pointer =>
    cases pointer with
    | none => exact absurd wired present
    | some l =>
      obtain ⟨result, returned, same⟩ := @allowOn_some sha256 l
        ⟨route.rateLimitKey, trimSpace clientID, route.rateLimit⟩
      simp only [returned, Option.bind_some, Option.map_some, same]

theorem limitAndProxyOn_returned {s : Server} (present : s.rateLimiter ≠ some none) (request : Request)
    (route : Route) (principal : Principal) : limitAndProxyOn sha256 s request route principal =
      .returned (limitAndProxy (s.toHandler sha256) request route principal) := by
  have split : (s.toHandler sha256).splitHostPort = s.splitHostPort := rfl
  simp only [limitAndProxyOn, limitAndProxy, split, checkRateLimitOn_returned present]
  rcases checkRateLimit (s.toHandler sha256).limiter route
    (rateLimitClientID s.splitHostPort request route principal) with ⟨calls, err | result⟩
  · dsimp only
    split <;> rfl
  · dsimp only
    split
    · rfl
    · split <;> rfl

theorem proxyRequestOn_returned {s : Server} (present : s.rateLimiter ≠ some none) (request : Request) :
    proxyRequestOn sha256 s request = .returned (proxyRequest sha256 (s.toHandler sha256) request) := by
  unfold proxyRequestOn proxyRequest
  rw [show (s.toHandler sha256).routes = s.routes from rfl,
    show (s.toHandler sha256).validator = s.validator from rfl]
  cases resolveRoute s.routes request.path with
  | none => rfl
  | some route =>
    dsimp only
    cases authorizeRoute sha256 s.validator route request.apiKey with
    | error err => rfl
    | ok principal => exact limitAndProxyOn_returned present request route principal

theorem rateLimitKey_present (route : Route) : trimSpace route.rateLimitKey ≠ [] := by
  have zero : 0 ∈ trimSpace route.rateLimitKey := zero_mem_trimSpace.mpr (by simp [Route.rateLimitKey])
  exact List.ne_nil_of_mem zero

theorem clientID_present (splitHostPort : Str → Option Str) (request : Request) (route : Route)
    (principal : Principal) : trimSpace (rateLimitClientID splitHostPort request route principal) ≠ [] := by
  have colon : 58 ∈ rateLimitClientID splitHostPort request route principal := by
    unfold rateLimitClientID
    split
    · exact List.mem_append_left _ (by decide)
    · exact List.mem_append_left _ (by decide)
  exact List.ne_nil_of_mem ((visible_mem_trimSpace (by decide)).mpr colon)

/-- Past the checks of the policy and the client, the limiter fails with its own
errors only. -/
theorem count_error {l : RedisLimiter} {request : RateLimitRequest}
    (window : millisecond ≤ request.policy.window) {err : AllowError}
    (failed : l.count sha256 request = .error err) : err.toGateway = .rateLimiterFailed := by
  simp only [RedisLimiter.count] at failed
  split at failed
  · rename_i short
    exact absurd (milliseconds_pos window) (not_lt.mpr short)
  split at failed
  · cases failed
    rfl
  rename_i value _
  split at failed
  · rename_i parsed
    cases failed
    unfold parseScriptResult at parsed
    split at parsed
    · split at parsed
      · cases parsed
        rfl
      · split at parsed
        · cases parsed
          rfl
        · contradiction
    · cases parsed
      rfl
  · contradiction

/-- The request that `CheckRateLimit` makes for a route and a client. -/
def Route.limitRequest (route : Route) (clientID : Str) : RateLimitRequest :=
  ⟨route.rateLimitKey, trimSpace clientID, route.rateLimit⟩

section Limited
variable {route : Route} {clientID : Str} (enabled : route.rateLimit.enabled = true)
  (limit : 0 < route.rateLimit.limit) (window : millisecond ≤ route.rateLimit.window)
  (named : trimSpace clientID ≠ [])
include enabled limit window named

theorem checkRateLimitOn_called (pointer : Option RedisLimiter) :
    checkRateLimitOn sha256 (some pointer) route clientID = match pointer with
      | none => .panicked
      | some l => .returned ([.allow (route.limitRequest clientID)],
          (l.count sha256 (route.limitRequest clientID)).mapError AllowError.toGateway) := by
  have on : ¬ route.rateLimit.enabled = false := by simp [enabled]
  have long : 0 < route.rateLimit.window := lt_of_lt_of_le (by decide) window
  have valid : ¬ (route.rateLimit.limit ≤ 0 ∨ route.rateLimit.window ≤ 0) :=
    not_or.mpr ⟨not_le.mpr limit, not_le.mpr long⟩
  have texts : ¬ (trimSpace route.rateLimitKey = [] ∨
      trimSpace (trimSpace clientID) = []) := by
    rw [trimSpace_idem]
    exact not_or.mpr ⟨rateLimitKey_present route, named⟩
  simp only [checkRateLimitOn, if_neg on, if_neg valid, named, if_false, allowOn, if_neg texts]
  cases pointer with
  | none => rfl
  | some l => rfl

end Limited

def Forwarded (route : Route) (exchange : Exchange) : Prop :=
  .serveHTTP route ∈ exchange.calls ∧ exchange.answer = none

def FailsOpen (sha256 : Str → Str) (s : Server) (request : Request) (route : Route)
    (principal : Principal) : Prop :=
  ∃ exchange, proxyRequestOn sha256 s request = .returned exchange ∧
    (Forwarded route exchange ∨ ∃ calls result, checkRateLimitOn sha256 s.rateLimiter route
      (rateLimitClientID s.splitHostPort request route principal) = .returned (calls, .ok result) ∧
      result.allowed = false)

section Wired
variable {s : Server} {request : Request} {route : Route} {principal : Principal}
  (resolved : resolveRoute s.routes request.path = some route)
  (authorized : authorizeRoute sha256 s.validator route request.apiKey = .ok principal)
  (enabled : route.rateLimit.enabled = true) (limit : 0 < route.rateLimit.limit)
  (window : millisecond ≤ route.rateLimit.window)
include resolved authorized enabled limit window

theorem failsOpen_of_limiter {l : RedisLimiter} (wired : s.rateLimiter = some (some l)) :
    FailsOpen sha256 s request route principal := by
  have named := clientID_present s.splitHostPort request route principal
  have called := @checkRateLimitOn_called sha256 route _ enabled limit window named (some l)
  unfold FailsOpen
  simp only [proxyRequestOn, resolved, authorized, limitAndProxyOn, wired, called]
  generalize counted : l.count sha256 _ = result
  cases result with
  | error err =>
    have failed := count_error window counted
    simp only [Except.mapError, failed]
    exact ⟨_, rfl, .inl ⟨by simp, rfl⟩⟩
  | ok result =>
    simp only [Except.mapError]
    by_cases off : result.enabled = false
    · simp only [off, if_true]
      exact ⟨_, rfl, .inl ⟨by simp, rfl⟩⟩
    by_cases denied : result.allowed = false
    · simp only [off, denied, if_true]
      exact ⟨_, rfl, .inr ⟨_, result, rfl, denied⟩⟩
    · simp only [off, denied]
      exact ⟨_, rfl, .inl ⟨by simp, rfl⟩⟩

theorem panics_without_limiter (wired : s.rateLimiter = some none) :
    proxyRequestOn sha256 s request = .panicked := by
  have named := clientID_present s.splitHostPort request route principal
  have called := @checkRateLimitOn_called sha256 route _ enabled limit window named none
  simp only [proxyRequestOn, resolved, authorized, limitAndProxyOn, wired, called]

end Wired

theorem wired_of_url {parseURL : Str → Except String (Str → Int → Except String RedisValue)} {now : Time}
    {config : LimiterConfig} {rateLimiter : RateLimiter} (present : config.redisURL ≠ [])
    (wired : wireRateLimiter parseURL now config = .ok rateLimiter) : ∃ l, rateLimiter = some (some l) := by
  rw [wireRateLimiter, if_pos present] at wired
  obtain ⟨l, _, same⟩ := map_passed wired
  exact ⟨l, same.symm⟩

theorem wired_of_blank {parseURL : Str → Except String (Str → Int → Except String RedisValue)}
    {now : Time} {config : LimiterConfig} {rateLimiter : RateLimiter} (blank : config.redisURL = [])
    (wired : wireRateLimiter parseURL now config = .ok rateLimiter) : rateLimiter = some none := by
  rw [wireRateLimiter, if_neg (not_not.mpr blank)] at wired
  exact (Except.ok.inj wired).symm

/-- A gateway fails open for its limiter exactly when `REDIS_URL` is set: then every
failure of Redis lets the request through, and without it every request to a limited
route ends in a panic. -/
theorem fails_open_iff (sha256 : Str → Str)
    (parseURL : Str → Except String (Str → Int → Except String RedisValue)) (now : Time)
    (redisURL redisRateLimitPrefix : Str) (s : Server)
    (wired : wireRateLimiter parseURL now (.load redisURL redisRateLimitPrefix) = .ok s.rateLimiter)
    (request : Request) (route : Route) (principal : Principal)
    (resolved : resolveRoute s.routes request.path = some route)
    (authorized : authorizeRoute sha256 s.validator route request.apiKey = .ok principal)
    (enabled : route.rateLimit.enabled = true) (limit : 0 < route.rateLimit.limit)
    (window : millisecond ≤ route.rateLimit.window) :
    FailsOpen sha256 s request route principal ↔ trimSpace redisURL ≠ [] := by
  constructor
  · rintro ⟨exchange, returned, _⟩ blank
    have absent := wired_of_blank blank wired
    rw [panics_without_limiter resolved authorized enabled limit window absent] at returned
    contradiction
  · intro present
    obtain ⟨l, there⟩ := wired_of_url present wired
    exact failsOpen_of_limiter resolved authorized enabled limit window there

def minuteRoute : Route where
  projectID := lit "project-1"
  name := lit "orders"
  pathPrefix := lit "/api/orders"
  upstreamURL := lit "http://orders"
  stripPrefix := false
  timeout := 3 * second
  authRequired := false
  rateLimit := ⟨true, 10, 60 * second⟩

def minuteServer (rateLimiter : RateLimiter) : Server :=
  ⟨[minuteRoute], none, rateLimiter, fun _ => none⟩

def minuteRequest : Request := ⟨lit "/api/orders/7", [], lit "192.0.2.1"⟩

def downRedis (redisURL : Str) : Except String (Str → Int → Except String RedisValue) :=
  if redisURL = lit "redis://redis:6379/0" then .ok (fun _ _ => .error "connect: connection refused")
  else .error "invalid URL scheme: "

def downLimiter : RedisLimiter :=
  ⟨lit "edgeguard:rate-limit", 0, fun _ _ => .error "connect: connection refused"⟩

theorem redis_outage_lets_requests_through :
    wireRateLimiter downRedis 0 (.load (lit " redis://redis:6379/0") []) =
        .ok (minuteServer (some (some downLimiter))).rateLimiter ∧
      FailsOpen keySHA256 (minuteServer (some (some downLimiter))) minuteRequest minuteRoute ⟨[], []⟩ := by
  have wired : wireRateLimiter downRedis 0 (.load (lit " redis://redis:6379/0") []) =
      .ok (minuteServer (some (some downLimiter))).rateLimiter := by
    have url : trimSpace (lit " redis://redis:6379/0") = lit "redis://redis:6379/0" := by decide
    have plain : trimSpace (lit "redis://redis:6379/0") = lit "redis://redis:6379/0" := by decide
    have none_given : trimSpace [] = [] := by decide
    have some_url : lit "redis://redis:6379/0" ≠ [] := by decide
    simp only [wireRateLimiter, LimiterConfig.load, newLimiter, url, plain, none_given, some_url,
      downRedis, if_true, if_false, ne_eq, not_false_eq_true]
    rfl
  exact ⟨wired, (fails_open_iff keySHA256 downRedis 0 _ _ _ wired minuteRequest minuteRoute ⟨[], []⟩
    (by decide) (by decide) rfl (by decide) (by decide)).mpr (by decide)⟩

/-- Without `REDIS_URL` the wired interface holds a nil pointer and a request to a
limited route panics; a nil interface would have let it through. -/
theorem missing_redis_url_panics :
    wireRateLimiter downRedis 0 (.load [] []) = .ok (some none) ∧
      proxyRequestOn keySHA256 (minuteServer (some none)) minuteRequest = .panicked ∧
      FailsOpen keySHA256 (minuteServer none) minuteRequest minuteRoute ⟨[], []⟩ := by
  refine ⟨rfl, ?_, ?_⟩
  · have resolved : resolveRoute [minuteRoute] (lit "/api/orders/7") = some minuteRoute := by decide
    have authorized : authorizeRoute keySHA256 none minuteRoute [] = .ok ⟨[], []⟩ := rfl
    exact panics_without_limiter resolved authorized rfl (by decide) (by decide) rfl
  · have answered : proxyRequestOn keySHA256 (minuteServer none) minuteRequest =
        .returned ⟨[.serveHTTP minuteRoute], none, none⟩ := rfl
    exact ⟨_, answered, .inl ⟨by simp, rfl⟩⟩

end EdgeGuard.Gateway
