import EdgeGuard.Analytics.Event
import EdgeGuard.Gateway.Fallback
import EdgeGuard.Gateway.Handler
import EdgeGuard.Gateway.Recording
import EdgeGuard.Go.Format

/-! The access event of a request: the middleware fills it from the request, from
what the handler noted about the route, from the recorder and from the client. The
producer validates it before it is sent; here is exactly when it passes. -/
namespace EdgeGuard.Gateway
open Go Auth Analytics

structure AccessEventMetadata where
  projectID : Str
  routeName : Str
  routePathPrefix : Str
  apiKeyID : Str
  authRequired : Bool
  rateLimitEnabled : Bool
  rateLimited : Bool
  deriving DecidableEq, Repr

namespace AccessEventMetadata

def empty : AccessEventMetadata := ⟨[], [], [], [], false, false, false⟩

/-- `setAccessEventRoute`. -/
def setRoute (route : Route) (metadata : AccessEventMetadata) : AccessEventMetadata :=
  { metadata with
    projectID := route.projectID
    routeName := route.name
    routePathPrefix := route.pathPrefix
    authRequired := route.authRequired
    rateLimitEnabled := route.rateLimit.enabled }

/-- `setAccessEventAPIKey`. -/
def setAPIKey (apiKeyID : Str) (metadata : AccessEventMetadata) : AccessEventMetadata :=
  { metadata with apiKeyID }

/-- `setAccessEventRateLimited`. -/
def setRateLimited (metadata : AccessEventMetadata) : AccessEventMetadata :=
  { metadata with rateLimited := true }

end AccessEventMetadata

section Handler
variable (sha256 : Str → Str)

def rateLimitedAnswer : Nat × String := (429, "rate limit exceeded\n")

/-- `proxyRequest` with the notes it leaves for the access event. -/
def proxyRequestNoted (h : Handler) (request : Request) : Exchange × AccessEventMetadata :=
  match resolveRoute h.routes request.path with
  | none => (⟨[], none, some (404, "route not found\n")⟩, .empty)
  | some route =>
    let metadata := AccessEventMetadata.empty.setRoute route
    match authorizeRoute sha256 h.validator route request.apiKey with
    | .error err => (⟨[], none, some (authorizationAnswer err)⟩, metadata)
    | .ok principal =>
      let metadata := if principal.apiKeyID ≠ [] then metadata.setAPIKey principal.apiKeyID else metadata
      let exchange := limitAndProxy h request route principal
      (exchange, if exchange.answer = some rateLimitedAnswer then metadata.setRateLimited else metadata)

theorem proxyRequestNoted_exchange (h : Handler) (request : Request) :
    (proxyRequestNoted sha256 h request).1 = proxyRequest sha256 h request := by
  unfold proxyRequestNoted proxyRequest
  cases resolveRoute h.routes request.path with
  | none => rfl
  | some route =>
    dsimp only
    cases authorizeRoute sha256 h.validator route request.apiKey with
    | error err => rfl
    | ok principal => rfl

end Handler

/-- The calls on the response: `c.String` writes a header and the text, the proxy
makes its own. `WriteHeader` panics on a code outside its range. -/
def Exchange.responseCalls (exchange : Exchange) (proxied : List Http.Call) : List Http.Call :=
  match exchange.answer with
  | none => proxied
  | some (code, text) =>
    if range : 100 ≤ code ∧ code ≤ 999 then
      [.writeHeader ⟨code, range.1, range.2⟩, .write (lit text)]
    else []

def isTokenByte (c : UInt8) : Bool :=
  97 ≤ c && c ≤ 122 || 65 ≤ c && c ≤ 90 || 48 ≤ c && c ≤ 57 || (lit "!#$%&'*+-.^_`|~").contains c

/-- A request as `net/http` hands it over: its method is a token. -/
structure IncomingRequest extends Request where
  method : Str
  requestIDs : List Str
  named : method ≠ []
  token : ∀ c ∈ method, isTokenByte c = true

/-- `Header.Get("X-Request-ID")`. -/
def IncomingRequest.requestID (request : IncomingRequest) : Str := request.requestIDs.headD []

inductive Draw where
  | bytes (buffer : List UInt8) (full : buffer.length = 16)
  | failed (now : Time)

/-- `newRequestID` and `newAccessEventID`. -/
def Draw.newID : Draw → Str
  | .bytes buffer _ => hexEncode buffer
  | .failed now => formatBase36 (wrap64 now)

/-- The identifier that `RequestID`, and after it `AccessEvents`, take. -/
def ensureRequestID (requestID : Str) (draw : Draw) : Str :=
  if requestID = [] then draw.newID else requestID

/-- What a request meets besides the handler's dependencies: the connection, the
calls of the proxy, random bytes and clock readings. The monotonic clock does not
go back, and the wall clock is never at the zero time. -/
structure Serving where
  connection : Http.Connection
  proxied : List Http.Call
  requestDraw : Draw
  lateDraw : Draw
  eventDraw : Draw
  start : Time
  finish : Time
  completedAt : Time
  forward : start ≤ finish
  dated : completedAt ≠ zeroTime

def isObservabilityEndpoint (path : Str) : Bool :=
  path == lit "/health" || path == lit "/ready" || path == lit "/metrics"

def accessEventClient (sha256 : Str → Str) (clientIP apiKeyID : Str) : Str × Str :=
  if apiKeyID ≠ [] then (clientTypeAPIKey, apiKeyID) else (clientTypeIP, hexEncode (sha256 clientIP))

/-- The event that `AccessEvents` builds once the handler has returned, behind
`RequestID`. -/
def buildAccessEvent (sha256 : Str → Str) (h : Handler) (request : IncomingRequest) (s : Serving) :
    GatewayAccessEvent :=
  let noted := proxyRequestNoted sha256 h request.toRequest
  let server : Http.Server := ⟨s.connection, request.method⟩
  let recorder := ((Stack.writer server).serve .new (noted.1.responseCalls s.proxied)).accessEvents
  let metadata := noted.2
  let client :=
    accessEventClient sha256 (directClientIP h.splitHostPort request.toRequest) metadata.apiKeyID
  { schemaVersion := gatewayAccessEventSchemaVersion
    eventID := s.eventDraw.newID
    occurredAt := s.completedAt
    requestID := ensureRequestID (ensureRequestID request.requestID s.requestDraw) s.lateDraw
    projectID := metadata.projectID
    routeName := metadata.routeName
    routePathPrefix := metadata.routePathPrefix
    method := request.method
    requestPath := request.path
    statusCode := recorder.status
    durationMS := milliseconds (s.finish - s.start)
    responseBytes := recorder.bytes
    clientType := client.1
    clientID := client.2
    authRequired := metadata.authRequired
    rateLimitEnabled := metadata.rateLimitEnabled
    rateLimited := metadata.rateLimited }

/-- The event of a request; the endpoints of observability have none. -/
def accessEvent (sha256 : Str → Str) (h : Handler) (request : IncomingRequest) (s : Serving) :
    Option GatewayAccessEvent :=
  if isObservabilityEndpoint request.path then none else some (buildAccessEvent sha256 h request s)

/-- What the event needs of the request, of the route and of the upstream. -/
structure Publishable (sha256 : Str → Str) (h : Handler) (request : IncomingRequest)
    (proxied : List Http.Call) : Prop where
  requestID : request.requestID = [] ∨ trimSpace request.requestID ≠ []
  path : trimSpace request.path ≠ []
  project : ∀ route, resolveRoute h.routes request.path = some route →
    trimSpace route.projectID = [] ∨ isCanonicalUUID (trimSpace route.projectID) = true
  status : (proxyRequest sha256 h request.toRequest).answer = none →
    Http.lastStatus 200 proxied ≤ 599

theorem nonblank_of_visible {text : Str} (shown : ∃ c ∈ text, visible c = true) :
    trimSpace text ≠ [] := by
  obtain ⟨c, member, shown⟩ := shown
  exact List.ne_nil_of_mem ((visible_mem_trimSpace shown).mpr member)

theorem hexEncode_nonblank {bytes : List UInt8} (nonempty : bytes ≠ []) :
    trimSpace (hexEncode bytes) ≠ [] := by
  rw [trimSpace_hexEncode]
  apply List.ne_nil_of_length_pos
  rw [hexEncode_length]
  exact Nat.mul_pos (Nat.succ_pos 1) (List.length_pos_iff.mpr nonempty)

theorem Draw.newID_nonblank (draw : Draw) : trimSpace draw.newID ≠ [] := by
  cases draw with
  | bytes buffer full =>
    apply hexEncode_nonblank
    rintro rfl
    contradiction
  | failed now => exact nonblank_of_visible (formatBase36_visible _)

private theorem marks_visible : ∀ c ∈ lit "!#$%&'*+-.^_`|~", visible c = true :=
  List.all_eq_true.mp (by decide)

theorem isTokenByte_visible {c : UInt8} (token : isTokenByte c = true) : visible c = true := by
  have within {low high : UInt8} (below : 33 ≤ low.toNat) (above : high.toNat ≤ 126)
      (inside : (decide (low ≤ c) && decide (c ≤ high)) = true) : visible c = true := by
    simp only [Bool.and_eq_true, decide_eq_true_eq, UInt8.le_iff_toNat_le] at inside
    simp only [visible, Bool.and_eq_true, decide_eq_true_eq, UInt8.le_iff_toNat_le]
    change 33 ≤ c.toNat ∧ c.toNat ≤ 126
    omega
  simp only [isTokenByte, Bool.or_eq_true, List.contains_iff_mem] at token
  obtain ((letter | letter) | digit) | mark := token
  · exact within (by decide) (by decide) letter
  · exact within (by decide) (by decide) letter
  · exact within (by decide) (by decide) digit
  · exact marks_visible c mark

theorem IncomingRequest.method_nonblank (request : IncomingRequest) :
    trimSpace request.method ≠ [] := by
  obtain ⟨c, member⟩ := List.exists_mem_of_ne_nil _ request.named
  exact nonblank_of_visible ⟨c, member, isTokenByte_visible (request.token c member)⟩

theorem ensureRequestID_nonblank_iff {requestID : Str} {draw : Draw} :
    trimSpace (ensureRequestID requestID draw) ≠ [] ↔ requestID = [] ∨ trimSpace requestID ≠ [] := by
  unfold ensureRequestID
  by_cases absent : requestID = []
  · rw [if_pos absent]
    exact iff_of_true draw.newID_nonblank (.inl absent)
  · rw [if_neg absent, or_iff_right absent]

theorem ensureRequestID_twice (requestID : Str) (draw late : Draw) :
    ensureRequestID (ensureRequestID requestID draw) late = ensureRequestID requestID draw := by
  have present : ensureRequestID requestID draw ≠ [] := by
    unfold ensureRequestID
    split
    · intro empty
      exact draw.newID_nonblank (by rw [empty]; rfl)
    · assumption
  exact if_neg present

section Event
variable {sha256 : Str → Str} {h : Handler}

theorem noted_project_iff {request : Request} {P : Str → Prop} (blank : P []) :
    P (proxyRequestNoted sha256 h request).2.projectID ↔
      ∀ route, resolveRoute h.routes request.path = some route → P route.projectID := by
  unfold proxyRequestNoted
  cases resolveRoute h.routes request.path with
  | none => simpa [AccessEventMetadata.empty] using blank
  | some route =>
    dsimp only
    cases authorizeRoute sha256 h.validator route request.apiKey with
    | error err => simp [AccessEventMetadata.setRoute]
    | ok principal =>
      dsimp only
      split <;> split <;> simp [AccessEventMetadata.setRoute, AccessEventMetadata.setAPIKey,
        AccessEventMetadata.setRateLimited]

theorem noted_apiKeyID (request : Request) :
    (proxyRequestNoted sha256 h request).2.apiKeyID = [] ∨
      trimSpace (proxyRequestNoted sha256 h request).2.apiKeyID ≠ [] := by
  unfold proxyRequestNoted
  cases resolveRoute h.routes request.path with
  | none => exact .inl rfl
  | some route =>
    dsimp only
    cases authorized : authorizeRoute sha256 h.validator route request.apiKey with
    | error err => exact .inl rfl
    | ok principal =>
      have named : principal.apiKeyID = [] ∨ trimSpace principal.apiKeyID ≠ [] := by
        rcases authorizeRoute_principal authorized with ⟨_, rfl⟩ | ⟨_, trimmed, present⟩
        · exact .inl rfl
        · exact .inr (trimmed.symm ▸ present)
      dsimp only
      by_cases present : principal.apiKeyID ≠ []
      · rw [if_pos present]
        split <;> exact .inr (named.resolve_left present)
      · rw [if_neg present]
        split <;> exact .inl rfl

theorem accessEventClient_valid (size : ∀ text, (sha256 text).length = 32) (clientIP : Str)
    {apiKeyID : Str} (named : apiKeyID = [] ∨ trimSpace apiKeyID ≠ []) :
    ((accessEventClient sha256 clientIP apiKeyID).1 = clientTypeAPIKey ∨
      (accessEventClient sha256 clientIP apiKeyID).1 = clientTypeIP) ∧
    trimSpace (accessEventClient sha256 clientIP apiKeyID).2 ≠ [] := by
  unfold accessEventClient
  by_cases present : apiKeyID ≠ []
  · rw [if_pos present]
    exact ⟨.inl rfl, named.resolve_left present⟩
  · rw [if_neg present]
    refine ⟨.inr rfl, hexEncode_nonblank ?_⟩
    intro empty
    have length := size clientIP
    rw [empty] at length
    contradiction

theorem limitAndProxy_answer (request : Request) (route : Route) (principal : Principal) :
    (limitAndProxy h request route principal).answer = none ∨
      (limitAndProxy h request route principal).answer = some (500, "internal error\n") ∨
      (limitAndProxy h request route principal).answer = some rateLimitedAnswer := by
  unfold limitAndProxy
  dsimp only
  split
  · split
    · exact .inr (.inl rfl)
    · exact .inl rfl
  · split
    · exact .inl rfl
    · split
      · exact .inr (.inr rfl)
      · exact .inl rfl

theorem proxyRequest_answer {request : Request} {code : Nat} {text : String}
    (answered : (proxyRequest sha256 h request).answer = some (code, text)) :
    100 ≤ code ∧ code ≤ 599 := by
  unfold proxyRequest at answered
  cases resolved : resolveRoute h.routes request.path with
  | none =>
    rw [resolved] at answered
    cases answered
    decide
  | some route =>
    rw [resolved] at answered
    dsimp only at answered
    cases authorized : authorizeRoute sha256 h.validator route request.apiKey with
    | error err =>
      rw [authorized] at answered
      have code := congrArg Prod.fst (Option.some.inj answered)
      cases err <;> (cases code; decide)
    | ok principal =>
      rw [authorized] at answered
      dsimp only at answered
      obtain none | internal | limited := @limitAndProxy_answer h request route principal
      · rw [none] at answered
        cases answered
      · rw [internal] at answered
        cases answered
        decide
      · rw [limited] at answered
        cases answered
        decide

theorem accessEvents_status (server : Http.Server) (exchange : Exchange) (proxied : List Http.Call) :
    ((Stack.writer server).serve .new (exchange.responseCalls proxied)).accessEvents.status =
      Http.lastStatus 200 (exchange.responseCalls proxied) := by
  rw [Stack.serve_new]
  rfl

theorem recorded_status_iff (server : Http.Server) (request : Request) (proxied : List Http.Call) :
    let recorder := ((Stack.writer server).serve .new
      ((proxyRequest sha256 h request).responseCalls proxied)).accessEvents
    (100 ≤ (recorder.status : Int) ∧ (recorder.status : Int) ≤ 599) ↔
      ((proxyRequest sha256 h request).answer = none → Http.lastStatus 200 proxied ≤ 599) := by
  intro recorder
  rw [show recorder.status = _ from accessEvents_status server _ proxied]
  cases answered : (proxyRequest sha256 h request).answer with
  | none =>
    have low : 100 ≤ Http.lastStatus 200 proxied :=
      Http.lastStatus_induction (100 ≤ ·) (fun status => status.low) (by decide) proxied
    simp only [Exchange.responseCalls, answered, true_implies]
    omega
  | some answer =>
    obtain ⟨code, text⟩ := answer
    obtain ⟨low, high⟩ := proxyRequest_answer answered
    have range : 100 ≤ code ∧ code ≤ 999 := ⟨low, Nat.le_trans high (by decide)⟩
    simp only [Exchange.responseCalls, answered, dif_pos range, Http.lastStatus]
    simp
    omega

theorem buildAccessEvent_valid_iff (size : ∀ text, (sha256 text).length = 32)
    (request : IncomingRequest) (s : Serving) :
    (buildAccessEvent sha256 h request s).validate = .ok () ↔
      Publishable sha256 h request s.proxied := by
  have exchange := proxyRequestNoted_exchange sha256 h request.toRequest
  have client := accessEventClient_valid size (directClientIP h.splitHostPort request.toRequest)
    (@noted_apiKeyID sha256 h request.toRequest)
  have project := @noted_project_iff sha256 h request.toRequest
    (fun projectID => trimSpace projectID = [] ∨ isCanonicalUUID (trimSpace projectID) = true)
    (.inl rfl)
  have status := @recorded_status_iff sha256 h ⟨s.connection, request.method⟩ request.toRequest s.proxied
  have duration : 0 ≤ milliseconds (s.finish - s.start) :=
    Int.tdiv_nonneg (Int.sub_nonneg_of_le s.forward) (by decide)
  rw [validate_ok_iff]
  dsimp only [buildAccessEvent] at status ⊢
  rw [exchange, status, project, ensureRequestID_twice, ensureRequestID_nonblank_iff]
  constructor
  · rintro ⟨_, _, _, requestID, project, _, path, status, _⟩
    exact ⟨requestID, path, project, status⟩
  · rintro ⟨requestID, path, project, status⟩
    exact ⟨rfl, s.eventDraw.newID_nonblank, s.dated, requestID, project, request.method_nonblank,
      path, status, duration, Int.natCast_nonneg _, client.1, client.2⟩

/-- The event passes the producer's validation exactly when the identifier and the
path of the request are not blank, the project of its route is a UUID or absent, and
the upstream's status is one that the validator knows. -/
theorem access_event_valid_iff (size : ∀ text, (sha256 text).length = 32)
    (request : IncomingRequest) (s : Serving) :
    (accessEvent sha256 h request s).isSome = !isObservabilityEndpoint request.path ∧
    ∀ event, accessEvent sha256 h request s = some event →
      (event.validate = .ok () ↔ Publishable sha256 h request s.proxied) := by
  unfold accessEvent
  constructor
  · cases isObservabilityEndpoint request.path with
    | true => rfl
    | false => rfl
  · intro event built
    split at built
    · cases built
    · rw [← Option.some.inj built]
      exact buildAccessEvent_valid_iff size request s

end Event

def ordersConfig (projectID : Str) : RouteConfig where
  projectID := projectID
  name := lit "orders"
  pathPrefix := lit "/orders"
  upstreamURL := lit "http://orders.internal"
  stripPrefix := false
  timeoutMS := 5000
  authRequired := false
  rateLimitEnabled := false
  rateLimitRequests := 0
  rateLimitWindowSeconds := 0

/-- `net.SplitHostPort` at the address of the sample. -/
def ordersGateway (projectID : Str) : Handler where
  routes := domainRoutes [ordersConfig projectID]
  validator := none
  limiter := none
  splitHostPort address := if address = lit "192.0.2.1:4711" then some (lit "192.0.2.1") else none

def ordersRequest (requestID : Str) : IncomingRequest where
  path := lit "/orders/1"
  apiKeys := []
  remoteAddr := lit "192.0.2.1:4711"
  method := lit "GET"
  requestIDs := [requestID]
  named := by decide
  token := List.all_eq_true.mp (by decide)

def servedWith (status : Http.StatusCode) : Serving where
  connection := ⟨none, fun _ data => data.length⟩
  proxied := [.writeHeader status]
  requestDraw := .bytes (List.replicate 16 7) (by decide)
  lateDraw := .bytes (List.replicate 16 8) (by decide)
  eventDraw := .bytes (List.replicate 16 9) (by decide)
  start := 1000000
  finish := 4000000
  completedAt := 1700000000 * second
  forward := by decide
  dated := by decide

def addressSHA256 (value : Str) : Str :=
  if value = lit "192.0.2.1" then
    [0x37, 0xfc, 0xff, 0x24, 0xbf, 0x62, 0x03, 0x5b, 0x2b, 0x08, 0x02, 0x0a, 0xfc, 0x08, 0xb4, 0xfe,
      0xcd, 0x4f, 0xcf, 0xfc, 0xe5, 0x7a, 0xb2, 0x35, 0x18, 0xe3, 0x56, 0x1f, 0xf0, 0xfe, 0x76, 0xb9]
  else List.replicate 32 0

theorem addressSHA256_length (value : Str) : (addressSHA256 value).length = 32 := by
  unfold addressSHA256
  split
  · decide
  · exact List.length_replicate

def ordersProject : Str := lit "0f2e4ab0-6c1d-4a53-9d5e-2b7c8d9e0f1a"

/-- A route with a UUID, a status below 600 and no identifier of the client's. -/
theorem orders_event_is_published :
    ∃ event, accessEvent addressSHA256 (ordersGateway ordersProject) (ordersRequest [])
        (servedWith .ok) = some event ∧
      event.clientID = lit "37fcff24bf62035b2b08020afc08b4fecd4fcffce57ab23518e3561ff0fe76b9" ∧
      event.validate = .ok () := by
  have valid := (access_event_valid_iff addressSHA256_length (ordersRequest [])
    (servedWith .ok) (h := ordersGateway ordersProject)).2 _ rfl
  refine ⟨_, rfl, by decide, valid.mpr ?_⟩
  constructor
  · exact .inl rfl
  · decide
  · intro route resolved
    have only : resolveRoute (ordersGateway ordersProject).routes (ordersRequest []).path =
        some (ordersConfig ordersProject).domainRoute := by decide
    rw [← Option.some.inj (only.symm.trans resolved)]
    decide
  · intro _
    decide

/-- A project named otherwise in the file, a status that `net/http` passes on and an
identifier of one no-break space lose the event. -/
theorem served_requests_lose_their_events :
    (accessEvent addressSHA256 (ordersGateway (lit "project-1")) (ordersRequest [])
      (servedWith .ok)).map GatewayAccessEvent.validate = some (.error (.projectID (lit "project-1"))) ∧
    (accessEvent addressSHA256 (ordersGateway []) (ordersRequest [])
      (servedWith ⟨600, by decide, by decide⟩)).map GatewayAccessEvent.validate =
        some (.error (.statusCode 600)) ∧
    (accessEvent addressSHA256 (ordersGateway []) (ordersRequest [0xc2, 0xa0])
      (servedWith .ok)).map GatewayAccessEvent.validate = some (.error .requestID) := by
  refine ⟨?_, ?_, ?_⟩
  · decide
  · decide
  · decide

end EdgeGuard.Gateway
