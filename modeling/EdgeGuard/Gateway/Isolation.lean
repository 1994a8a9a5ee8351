import EdgeGuard.Gateway.RateLimit
import EdgeGuard.Transition
import Mathlib.Data.Set.Function

/-! Rate limit counters of different clients. Route and client go through three
encodings into the name of a counter; as long as the hash keeps the texts of the
calls apart, none of them confuses two identities, so what one of them is told does
not depend on the calls of the others. -/
namespace EdgeGuard.Gateway
open Go Auth Transition

/-- A call of `CheckRateLimit` by the handler, and how the limiter's call goes. -/
structure Check where
  route : Route
  request : Request
  principal : Principal
  now : Time
  runsAt : Time
  pttl : Int
  answered : Bool
  gone : Bool

/-- Who calls: the API key on a protected route, the direct address on a public one. -/
inductive Caller where
  | apiKey (id : Str)
  | ip (address : Str)
  deriving DecidableEq, Repr

structure Identity where
  projectID : Str
  name : Str
  pathPrefix : Str
  caller : Caller
  deriving DecidableEq, Repr

section Checks
variable (sha256 : Str → Str) (keyPrefix : Str) (splitHostPort : Str → Option Str)

namespace Check

def caller (c : Check) : Caller :=
  if c.route.authRequired = true then .apiKey c.principal.apiKeyID
  else .ip (directClientIP splitHostPort c.request)

def identity (c : Check) : Identity :=
  ⟨c.route.projectID, c.route.name, c.route.pathPrefix, c.caller splitHostPort⟩

def attempt (c : Check) (request : RateLimitRequest) : Attempt :=
  ⟨request, c.now, c.runsAt, c.pttl, c.answered⟩

/-- `CheckRateLimit` for the client that the handler names, over the limiter. -/
def perform (redis : Redis) (c : Check) : Redis × Except GatewayError RateLimitResult :=
  let limiter : Limiter := fun request => (allow sha256 keyPrefix redis (c.attempt request) c.gone).2
  let (calls, result) := checkRateLimit (some limiter) c.route
    (rateLimitClientID splitHostPort c.request c.route c.principal)
  let after (redis : Redis) : Call → Redis
    | .allow request => (allow sha256 keyPrefix redis (c.attempt request) c.gone).1
    | .serveHTTP _ => redis
  (calls.foldl after redis, result)

def routeKey (c : Check) : Str := c.route.rateLimitKey

def clientKey (c : Check) : Str :=
  trimSpace (rateLimitClientID splitHostPort c.request c.route c.principal)

/-- The counter of the call for a window. -/
def counter (c : Check) (window : Int) : Str :=
  redisKey sha256 keyPrefix c.routeKey (c.clientKey splitHostPort) window

/-- The call comes from the handler: `AuthorizeRoute` has let the principal pass,
the names hold no zero byte, and the address of a client without a key is one that
`net/http` sets, so without white space around it. -/
structure Handled (c : Check) : Prop where
  authorized : ∃ hash validator raw, authorizeRoute hash validator c.route raw = .ok c.principal
  named : 0 ∉ c.route.projectID ∧ 0 ∉ c.route.name ∧ 0 ∉ c.route.pathPrefix
  address : c.route.authRequired = false →
    trimSpace (directClientIP splitHostPort c.request) = directClientIP splitHostPort c.request

end Check

def hashedTexts (run : List Check) : Set Str :=
  {text | ∃ c ∈ run, text = c.routeKey ∨ text = c.clientKey splitHostPort}

end Checks

variable {sha256 : Str → Str} {keyPrefix : Str} {splitHostPort : Str → Option Str}

theorem script_congr {redis other : Redis} {key : Str} (same : redis key = other key) (ttl : Int)
    (instant : Time) (gone : Bool) :
    (fixedWindowScript redis key ttl instant gone).2 = (fixedWindowScript other key ttl instant gone).2 ∧
    ∀ k, redis k = other k → (fixedWindowScript redis key ttl instant gone).1 k =
      (fixedWindowScript other key ttl instant gone).1 k := by
  unfold fixedWindowScript
  rw [same]
  cases (other key).filter (fun counter => !(gone && counter.deadline ≤ instant)) with
  | none =>
    refine ⟨rfl, ?_⟩
    intro k agree
    by_cases here : k = key
    · simp [here]
    · simp [here, agree]
  | some counter =>
    refine ⟨rfl, ?_⟩
    intro k agree
    by_cases here : k = key
    · simp [here]
    · simp [here, agree]

theorem allow_congr {redis other : Redis} {a : Attempt} (gone : Bool)
    (same : redis (a.key sha256 keyPrefix) = other (a.key sha256 keyPrefix)) :
    (allow sha256 keyPrefix redis a gone).2 = (allow sha256 keyPrefix other a gone).2 ∧
    ∀ k, redis k = other k →
      (allow sha256 keyPrefix redis a gone).1 k = (allow sha256 keyPrefix other a gone).1 k := by
  cases checked : a.check with
  | error err =>
    simp only [allow, checked]
    exact ⟨trivial, fun _ agree => agree⟩
  | ok _ =>
    obtain ⟨count, counters⟩ := script_congr same (milliseconds a.ttl) a.runsAt gone
    simp only [allow, checked, count]
    exact ⟨trivial, counters⟩

theorem perform_cases (c : Check) :
    (∃ result, ∀ redis, c.perform sha256 keyPrefix splitHostPort redis = (redis, result)) ∨
    ∃ request : RateLimitRequest, request.routeKey = c.routeKey ∧
      request.clientID = c.clientKey splitHostPort ∧
      ∀ redis, c.perform sha256 keyPrefix splitHostPort redis =
        allow sha256 keyPrefix redis (c.attempt request) c.gone := by
  unfold Check.perform checkRateLimit
  by_cases disabled : c.route.rateLimit.enabled = false
  · refine .inl ⟨.ok ⟨false, true, 0, 0, zeroTime, 0⟩, ?_⟩
    simp [disabled]
  by_cases invalid : c.route.rateLimit.limit ≤ 0 ∨ c.route.rateLimit.window ≤ 0
  · refine .inl ⟨.error .invalidRateLimitPolicy, ?_⟩
    simp [disabled, invalid]
  by_cases unnamed : trimSpace (rateLimitClientID splitHostPort c.request c.route c.principal) = []
  · refine .inl ⟨.error .invalidRateLimitClient, ?_⟩
    simp [disabled, invalid, unnamed]
  · refine .inr ⟨⟨c.routeKey, c.clientKey splitHostPort, c.route.rateLimit⟩, rfl, rfl, ?_⟩
    intro redis
    simp only [disabled, invalid, unnamed, if_false]
    rfl

theorem attempt_key {c : Check} {request : RateLimitRequest} (route : request.routeKey = c.routeKey)
    (client : request.clientID = c.clientKey splitHostPort) : ∃ window,
      (c.attempt request).key sha256 keyPrefix = c.counter sha256 keyPrefix splitHostPort window := by
  refine ⟨(c.attempt request).currentWindow, ?_⟩
  unfold Attempt.key Check.counter
  rw [show (c.attempt request).request = request from rfl, route, client]

theorem clientKey_handled {c : Check} (handled : c.Handled splitHostPort) :
    c.clientKey splitHostPort = match c.caller splitHostPort with
      | .apiKey id => lit "api-key:" ++ id
      | .ip address => lit "ip:" ++ address := by
  unfold Check.clientKey Check.caller rateLimitClientID
  by_cases guarded : c.route.authRequired = true
  · obtain ⟨hash, validator, raw, authorized⟩ := handled.authorized
    obtain ⟨_, trimmed, present⟩ := (authorizeRoute_principal authorized).resolve_left (by simp [guarded])
    have nonblank : trimSpace c.principal.apiKeyID ≠ [] := by
      rw [trimmed]
      exact present
    simp only [guarded, nonblank, ne_eq, not_false_eq_true, and_self, if_true]
    exact trimSpace_marked (by intro byte first; cases first; decide) rfl (by decide) trimmed
  · simp only [guarded, Bool.false_eq_true, false_and, if_false]
    exact trimSpace_marked (by intro byte first; cases first; decide) rfl (by decide)
      (handled.address (by simpa using guarded))

theorem caller_of_clientKey {c d : Check} (handled : c.Handled splitHostPort)
    (handled' : d.Handled splitHostPort)
    (same : c.clientKey splitHostPort = d.clientKey splitHostPort) :
    c.caller splitHostPort = d.caller splitHostPort := by
  rw [clientKey_handled handled, clientKey_handled handled'] at same
  cases first : c.caller splitHostPort with
  | apiKey id =>
    cases second : d.caller splitHostPort with
    | apiKey other =>
      rw [first, second] at same
      rw [List.append_cancel_left same]
    | ip address =>
      rw [first, second] at same
      exact absurd (List.cons.inj same).1 (by decide)
  | ip address =>
    cases second : d.caller splitHostPort with
    | apiKey id =>
      rw [first, second] at same
      exact absurd (List.cons.inj same).1 (by decide)
    | ip other =>
      rw [first, second] at same
      rw [List.append_cancel_left same]

theorem route_of_routeKey {c d : Check} (handled : c.Handled splitHostPort)
    (handled' : d.Handled splitHostPort) (same : c.routeKey = d.routeKey) :
    c.route.projectID = d.route.projectID ∧ c.route.name = d.route.name ∧
      c.route.pathPrefix = d.route.pathPrefix := by
  simp only [Check.routeKey, Route.rateLimitKey, List.append_assoc, List.cons_append] at same
  obtain ⟨project, rest⟩ := separated_inj handled.named.1 handled'.named.1 same
  obtain ⟨name, start⟩ := separated_inj handled.named.2.1 handled'.named.2.1 rest
  exact ⟨project, name, start⟩

theorem identity_of_counter {run : List Check} {c d : Check} {window window' : Int}
    (handled : ∀ c ∈ run, c.Handled splitHostPort)
    (injective : Set.InjOn (hashKeyPart sha256) (hashedTexts splitHostPort run))
    (first : c ∈ run) (second : d ∈ run)
    (same : c.counter sha256 keyPrefix splitHostPort window =
      d.counter sha256 keyPrefix splitHostPort window') :
    c.identity splitHostPort = d.identity splitHostPort := by
  obtain ⟨route, client, _⟩ := redisKey_inj same
  have routes := injective ⟨c, first, .inl rfl⟩ ⟨d, second, .inl rfl⟩ route
  have clients := injective ⟨c, first, .inr rfl⟩ ⟨d, second, .inr rfl⟩ client
  obtain ⟨project, name, start⟩ := route_of_routeKey (handled c first) (handled d second) routes
  have caller := caller_of_clientKey (handled c first) (handled d second) clients
  rw [Check.identity, Check.identity, project, name, start, caller]

section Runs
variable {run : List Check} {other : Identity → Bool} {s t : Redis} {c : Check}

/-- Two states with the same counters for every identity of a run but the others. -/
def SameCounters (sha256 : Str → Str) (keyPrefix : Str) (splitHostPort : Str → Option Str)
    (run : List Check) (other : Identity → Bool) (s t : Redis) : Prop :=
  ∀ c ∈ run, other (c.identity splitHostPort) = false → ∀ window,
    s (c.counter sha256 keyPrefix splitHostPort window) =
      t (c.counter sha256 keyPrefix splitHostPort window)

theorem perform_hidden (handled : ∀ c ∈ run, c.Handled splitHostPort)
    (injective : Set.InjOn (hashKeyPart sha256) (hashedTexts splitHostPort run)) (member : c ∈ run)
    (hidden : other (c.identity splitHostPort) = true)
    (agree : SameCounters sha256 keyPrefix splitHostPort run other s t) :
    SameCounters sha256 keyPrefix splitHostPort run other
      (c.perform sha256 keyPrefix splitHostPort s).1 t := by
  intro d present kept window
  rw [← agree d present kept window]
  rcases @perform_cases sha256 keyPrefix splitHostPort c with ⟨result, unlimited⟩ | ⟨request, route, client, limited⟩
  · rw [unlimited]
  · rw [limited]
    obtain ⟨number, key⟩ := attempt_key route client
    apply allow_other
    rw [key]
    intro shared
    rw [identity_of_counter handled injective member present shared, kept] at hidden
    contradiction

theorem perform_shown (member : c ∈ run) (shown : other (c.identity splitHostPort) = false)
    (agree : SameCounters sha256 keyPrefix splitHostPort run other s t) :
    (c.perform sha256 keyPrefix splitHostPort s).2 = (c.perform sha256 keyPrefix splitHostPort t).2 ∧
      SameCounters sha256 keyPrefix splitHostPort run other
        (c.perform sha256 keyPrefix splitHostPort s).1 (c.perform sha256 keyPrefix splitHostPort t).1 := by
  rcases @perform_cases sha256 keyPrefix splitHostPort c with ⟨result, unlimited⟩ | ⟨request, route, client, limited⟩
  · rw [unlimited, unlimited]
    exact ⟨rfl, agree⟩
  · rw [limited, limited]
    obtain ⟨number, key⟩ := attempt_key route client
    have same := agree c member shown number
    rw [← key] at same
    obtain ⟨answer, counters⟩ := allow_congr c.gone same
    refine ⟨answer, ?_⟩
    intro d present kept window
    exact counters _ (agree d present kept window)

end Runs

/-- What the calls of the other identities find and leave in Redis makes no
difference to the rest: two runs that differ in those calls only give the remaining
ones the same answers. A client with an API key and one with an address share no
counter. -/
theorem counters_do_not_interfere (sha256 : Str → Str) (keyPrefix : Str)
    (splitHostPort : Str → Option Str) (redis : Redis) (other : Identity → Bool)
    (first second : List Check) (handled : ∀ c ∈ first ++ second, c.Handled splitHostPort)
    (injective : Set.InjOn (hashKeyPart sha256) (hashedTexts splitHostPort (first ++ second)))
    (same : first.filter (fun c => !other (c.identity splitHostPort)) =
      second.filter (fun c => !other (c.identity splitHostPort))) :
    (answers (Check.perform sha256 keyPrefix splitHostPort) redis first).filter
        (fun answer => !other (answer.1.identity splitHostPort)) =
      (answers (Check.perform sha256 keyPrefix splitHostPort) redis second).filter
        (fun answer => !other (answer.1.identity splitHostPort)) ∧
    ∀ c ∈ first ++ second, ∀ d ∈ first ++ second, c.route.authRequired = true →
      d.route.authRequired = false → ∀ window window',
      c.counter sha256 keyPrefix splitHostPort window ≠
        d.counter sha256 keyPrefix splitHostPort window' := by
  refine ⟨?_, ?_⟩
  · refine answers_unwinding (· ∈ first ++ second) (fun c => !other (c.identity splitHostPort))
      (SameCounters sha256 keyPrefix splitHostPort (first ++ second) other) ?_ ?_
      (fun _ => List.mem_append_left _) (fun _ => List.mem_append_right _) (fun _ _ _ _ => rfl) same
    · intro s t c member hidden agree
      exact perform_hidden handled injective member (by simpa using hidden) agree
    · intro s t c member shown agree
      exact perform_shown member (by simpa using shown) agree
  · intro c member d present guarded unguarded window window' shared
    have equal := identity_of_counter handled injective member present shared
    have callers := congrArg Identity.caller equal
    simp [Check.identity, Check.caller, guarded, unguarded] at callers

def neighbourKey : Str := lit "ip:192.0.2.2"

/-- SHA-256 at the texts of the sample's keys. -/
def neighbourSHA256 (value : Str) : Str :=
  if value = neighbourKey then
    (hexDecode (lit "e86db5cbbdbf2565a055fb93b265fccb220675b45d63f26dc2d27c8e925adab3")).getD []
  else keySHA256 value

/-- `net.SplitHostPort` at the addresses of the sample. -/
def sampleSplit (address : Str) : Option Str :=
  if address = lit "192.0.2.1:4000" then some (lit "192.0.2.1")
  else if address = lit "192.0.2.2:4000" then some (lit "192.0.2.2")
  else none

/-- A request to a public route that allows one in ten milliseconds. -/
def checkFrom (remoteAddr : Str) (now : Time) : Check where
  route := ⟨lit "project-1", lit "orders", lit "/api/orders", lit "http://orders", false,
    second, false, ⟨true, 1, 10 * millisecond⟩⟩
  request := ⟨lit "/api/orders/7", [], remoteAddr⟩
  principal := ⟨[], []⟩
  now := now
  runsAt := now
  pttl := 5
  answered := true
  gone := false

def crowdedRun : List Check :=
  [checkFrom (lit "192.0.2.2:4000") 1000000, checkFrom (lit "192.0.2.1:4000") 2000000]

def lonelyRun : List Check := [checkFrom (lit "192.0.2.1:4000") 2000000]

/-- The neighbour's call does not use up the client's only request. -/
theorem neighbour_changes_nothing :
    let other : Identity → Bool := fun identity => identity.caller = .ip (lit "192.0.2.2")
    (answers (Check.perform neighbourSHA256 (lit "edgeguard:rate-limit") sampleSplit) (fun _ => none)
        crowdedRun).filter (fun answer => !other (answer.1.identity sampleSplit)) =
      (answers (Check.perform neighbourSHA256 (lit "edgeguard:rate-limit") sampleSplit) (fun _ => none)
        lonelyRun).filter (fun answer => !other (answer.1.identity sampleSplit)) ∧
    (answers (Check.perform neighbourSHA256 (lit "edgeguard:rate-limit") sampleSplit) (fun _ => none)
      crowdedRun).map (fun answer => answer.2.toOption.map (fun result => (result.allowed, result.remaining))) =
      [some (true, 0), some (true, 0)] := by
  intro other
  have texts : ∀ c ∈ crowdedRun ++ lonelyRun, c.routeKey ∈ [ordersKey, addressKey, neighbourKey] ∧
      c.clientKey sampleSplit ∈ [ordersKey, addressKey, neighbourKey] := by decide
  have apart : ∀ text ∈ [ordersKey, addressKey, neighbourKey],
      ∀ text' ∈ [ordersKey, addressKey, neighbourKey],
      hashKeyPart neighbourSHA256 text = hashKeyPart neighbourSHA256 text' → text = text' := by
    decide +kernel
  have listed : ∀ text ∈ hashedTexts sampleSplit (crowdedRun ++ lonelyRun),
      text ∈ [ordersKey, addressKey, neighbourKey] := by
    rintro text ⟨c, member, rfl | rfl⟩
    · exact (texts c member).1
    · exact (texts c member).2
  have named : ∀ c ∈ crowdedRun ++ lonelyRun,
      (0 ∉ c.route.projectID ∧ 0 ∉ c.route.name ∧ 0 ∉ c.route.pathPrefix) ∧
      trimSpace (directClientIP sampleSplit c.request) = directClientIP sampleSplit c.request ∧
      authorizeRoute id none c.route [] = .ok c.principal := by decide
  refine ⟨(counters_do_not_interfere neighbourSHA256 (lit "edgeguard:rate-limit") sampleSplit
    (fun _ => none) other crowdedRun lonelyRun ?_ ?_ rfl).1, by decide +kernel⟩
  · intro c member
    obtain ⟨names, address, authorized⟩ := named c member
    exact ⟨⟨id, none, [], authorized⟩, names, fun _ => address⟩
  · intro text first text' second' same
    exact apart text (listed text first) text' (listed text' second') same

end EdgeGuard.Gateway
