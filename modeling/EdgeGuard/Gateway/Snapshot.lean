import EdgeGuard.Gateway.Routes
import EdgeGuard.Go.URL

/-! Loading a route snapshot from the Control Plane's response. One invalid row
or one repeated prefix rejects the whole response, and the current snapshot is
kept. -/
namespace EdgeGuard.Gateway
open Go

structure RouteResponse where
  projectID : Str
  name : Str
  pathPrefix : Str
  upstreamURL : Str
  stripPrefix : Bool
  timeoutMS : Int
  authRequired : Bool
  rateLimitEnabled : Bool
  rateLimitRequests : Int
  rateLimitWindowSeconds : Int
  deriving DecidableEq, Repr

def normalizePathPrefix (pathPrefix : Str) : Str :=
  let pathPrefix := trimSpace pathPrefix
  if pathPrefix = lit "/" then pathPrefix else trimRight pathPrefix 47

namespace RouteResponse

def toRateLimitPolicy (r : RouteResponse) : Except String RateLimitPolicy :=
  if r.rateLimitEnabled = false then
    if r.rateLimitRequests ≠ 0 ∨ r.rateLimitWindowSeconds ≠ 0 then
      .error "disabled rate limit must have zero requests and window"
    else .ok ⟨false, 0, 0⟩
  else if r.rateLimitRequests ≤ 0 then .error "rate_limit_requests must be greater than zero"
  else if r.rateLimitWindowSeconds ≤ 0 then
    .error "rate_limit_window_seconds must be greater than zero"
  else .ok ⟨true, r.rateLimitRequests, wrap64 (r.rateLimitWindowSeconds * second)⟩

def toDomain (parse : Str → Except String URL) (r : RouteResponse) : Except String Route :=
  let projectID := trimSpace r.projectID
  if projectID = [] then .error "project_id is required"
  else
  let name := trimSpace r.name
  if name = [] then .error "name is required"
  else
  let pathPrefix := normalizePathPrefix r.pathPrefix
  if pathPrefix = [] ∨ hasPrefix pathPrefix (lit "/") = false then
    .error "path prefix must start with /"
  else
  let upstreamURL := trimSpace r.upstreamURL
  match parse upstreamURL with
  | .error err => .error ("parse upstream url: " ++ err)
  | .ok parsedUpstream =>
    if (parsedUpstream.scheme ≠ lit "http" ∧ parsedUpstream.scheme ≠ lit "https") ∨
        parsedUpstream.host = [] then
      .error "upstream url must be an absolute http or https url"
    else if r.timeoutMS ≤ 0 then .error "timeout_ms must be greater than zero"
    else match r.toRateLimitPolicy with
      | .error err => .error err
      | .ok rateLimit => .ok {
          projectID, name, pathPrefix, upstreamURL
          stripPrefix := r.stripPrefix
          timeout := wrap64 (r.timeoutMS * millisecond)
          authRequired := r.authRequired
          rateLimit }

end RouteResponse

/-- `invalid route at index %d: %w`, and the same with
`duplicate path prefix %q`. -/
inductive SnapshotError where
  | invalid (index : Nat) (cause : String)
  | duplicate (index : Nat) (pathPrefix : Str)
  deriving DecidableEq, Repr

/-- The loop of `responseToDomain` from a given index, with the prefixes already
taken. -/
def loadRoutes (parse : Str → Except String URL) :
    Nat → List Str → List RouteResponse → Except SnapshotError (List Route)
  | _, _, [] => .ok []
  | index, taken, item :: rest =>
    match item.toDomain parse with
    | .error cause => .error (.invalid index cause)
    | .ok route =>
      if route.pathPrefix ∈ taken then .error (.duplicate index route.pathPrefix)
      else match loadRoutes parse (index + 1) (route.pathPrefix :: taken) rest with
        | .error err => .error err
        | .ok routes => .ok (route :: routes)

def responseToDomain (parse : Str → Except String URL) (response : List RouteResponse) :
    Except SnapshotError (List Route) :=
  loadRoutes parse 0 [] response

def maxResponseSize : Nat := 1048576

/-- `decode control plane routes response: %w`, or the error of
`responseToDomain`. -/
inductive SourceError where
  | truncated
  | rejected (cause : SnapshotError)
  deriving DecidableEq, Repr

/-- `ListRoutes` on a response with status 200. `encodedSize` is the length of the
JSON array in the body: what lies beyond the size limit is not read, and an array
that is cut off does not decode. -/
def listRoutes (parse : Str → Except String URL) (encodedSize : List RouteResponse → Nat)
    (response : List RouteResponse) : Except SourceError (List Route) :=
  if maxResponseSize < encodedSize response then .error .truncated
  else match responseToDomain parse response with
    | .error cause => .error (.rejected cause)
    | .ok routes => .ok routes

/-- `RefreshRoutes`: the number of loaded routes and the snapshot afterwards. A
failed load leaves the current one in place. -/
def refreshRoutes (source : Except SourceError (List Route)) (current : List Route) :
    Except SourceError Nat × List Route :=
  match source with
  | .error err => (.error err, current)
  | .ok routes => (.ok routes.length, routes)

structure RouteResponse.Acceptable (parse : Str → Except String URL) (r : RouteResponse) : Prop where
  project : trimSpace r.projectID ≠ []
  name : trimSpace r.name ≠ []
  rooted : hasPrefix (normalizePathPrefix r.pathPrefix) (lit "/") = true
  upstream : ∃ url, parse (trimSpace r.upstreamURL) = .ok url ∧
    (url.scheme = lit "http" ∨ url.scheme = lit "https") ∧ url.host ≠ []
  timeout : 0 < r.timeoutMS
  rateLimit : (r.rateLimitEnabled = false ∧ r.rateLimitRequests = 0 ∧ r.rateLimitWindowSeconds = 0) ∨
    (r.rateLimitEnabled = true ∧ 0 < r.rateLimitRequests ∧ 0 < r.rateLimitWindowSeconds)

variable {parse : Str → Except String URL} {r : RouteResponse}

theorem toRateLimitPolicy_ok_iff : (∃ policy, r.toRateLimitPolicy = .ok policy) ↔
    (r.rateLimitEnabled = false ∧ r.rateLimitRequests = 0 ∧ r.rateLimitWindowSeconds = 0) ∨
      (r.rateLimitEnabled = true ∧ 0 < r.rateLimitRequests ∧ 0 < r.rateLimitWindowSeconds) := by
  unfold RouteResponse.toRateLimitPolicy
  cases r.rateLimitEnabled with
  | false =>
    by_cases zero : r.rateLimitRequests ≠ 0 ∨ r.rateLimitWindowSeconds ≠ 0
    · simp only [if_pos zero]
      simp
      omega
    · simp only [if_neg zero]
      simp
      omega
  | true =>
    by_cases requests : r.rateLimitRequests ≤ 0
    · have refused : ¬ 0 < r.rateLimitRequests := Int.not_lt.mpr requests
      simp [requests, refused]
    · by_cases window : r.rateLimitWindowSeconds ≤ 0
      · simp [requests, window]
      · simp [requests, window]
        omega

private theorem rooted_nonempty {s : Str} (rooted : hasPrefix s (lit "/") = true) : s ≠ [] := by
  rintro rfl
  revert rooted
  decide

/-- `toDomain` succeeds exactly on acceptable rows, and keeps the normalized
prefix. -/
theorem toDomain_ok_iff : (∃ route, r.toDomain parse = .ok route) ↔ r.Acceptable parse := by
  constructor
  · rintro ⟨route, loaded⟩
    simp only [RouteResponse.toDomain] at loaded
    obtain ⟨project, loaded⟩ := check_passed loaded
    obtain ⟨name, loaded⟩ := check_passed loaded
    obtain ⟨rooted, loaded⟩ := check_passed loaded
    split at loaded
    · contradiction
    rename_i url parsed
    obtain ⟨upstream, loaded⟩ := check_passed loaded
    obtain ⟨timeout, loaded⟩ := check_passed loaded
    split at loaded
    · contradiction
    rename_i policy limited
    simp only [not_or, Bool.not_eq_false] at rooted
    simp only [not_or, not_and_or, not_not] at upstream
    exact ⟨project, name, rooted.2, ⟨url, parsed, upstream⟩, by omega,
      toRateLimitPolicy_ok_iff.mp ⟨policy, limited⟩⟩
  · rintro ⟨project, name, rooted, ⟨url, parsed, scheme, host⟩, timeout, limit⟩
    obtain ⟨policy, limited⟩ := toRateLimitPolicy_ok_iff.mpr limit
    have upstream : ¬ ((url.scheme ≠ lit "http" ∧ url.scheme ≠ lit "https") ∨ url.host = []) := by
      simp only [not_or, not_and_or, not_not]
      exact ⟨scheme, host⟩
    have present := rooted_nonempty rooted
    simp only [RouteResponse.toDomain, if_neg project, if_neg name, present, rooted, parsed,
      if_neg upstream, if_neg (Int.not_le.mpr timeout), limited, Bool.true_eq_false, or_self,
      if_false]
    exact ⟨_, rfl⟩

theorem toDomain_route {route : Route} (loaded : r.toDomain parse = .ok route) :
    r.toRateLimitPolicy = .ok route.rateLimit ∧ route = {
      projectID := trimSpace r.projectID
      name := trimSpace r.name
      pathPrefix := normalizePathPrefix r.pathPrefix
      upstreamURL := trimSpace r.upstreamURL
      stripPrefix := r.stripPrefix
      timeout := wrap64 (r.timeoutMS * millisecond)
      authRequired := r.authRequired
      rateLimit := route.rateLimit } := by
  simp only [RouteResponse.toDomain] at loaded
  obtain ⟨_, loaded⟩ := check_passed loaded
  obtain ⟨_, loaded⟩ := check_passed loaded
  obtain ⟨_, loaded⟩ := check_passed loaded
  split at loaded
  · contradiction
  obtain ⟨_, loaded⟩ := check_passed loaded
  obtain ⟨_, loaded⟩ := check_passed loaded
  split at loaded
  · contradiction
  rename_i policy limited
  cases loaded
  exact ⟨limited, rfl⟩

theorem toDomain_pathPrefix {route : Route} (loaded : r.toDomain parse = .ok route) :
    route.pathPrefix = normalizePathPrefix r.pathPrefix :=
  congrArg Route.pathPrefix (toDomain_route loaded).2

/-- The response is accepted exactly when every row is acceptable and no two
rows have the same normalized prefix. -/
theorem loadRoutes_ok_iff (index : Nat) (taken : List Str) (rows : List RouteResponse) :
    (∃ routes, loadRoutes parse index taken rows = .ok routes) ↔
      (∀ row ∈ rows, row.Acceptable parse) ∧
      (rows.map (fun row => normalizePathPrefix row.pathPrefix)).Nodup ∧
      ∀ row ∈ rows, normalizePathPrefix row.pathPrefix ∉ taken := by
  induction rows generalizing index taken with
  | nil => simp [loadRoutes]
  | cons item rest ih =>
    unfold loadRoutes
    cases loaded : item.toDomain parse with
    | error cause =>
      have rejected : ¬ item.Acceptable parse := by
        rw [← toDomain_ok_iff, loaded]
        simp
      simp [rejected]
    | ok route =>
      have accepted := toDomain_ok_iff.mp ⟨route, loaded⟩
      dsimp only
      rw [toDomain_pathPrefix loaded]
      by_cases repeated : normalizePathPrefix item.pathPrefix ∈ taken
      · simp [repeated]
      · rw [if_neg repeated]
        have tail := ih (index + 1) (normalizePathPrefix item.pathPrefix :: taken)
        have same : (∃ routes, (match loadRoutes parse (index + 1)
              (normalizePathPrefix item.pathPrefix :: taken) rest with
            | .error err => .error err
            | .ok routes => .ok (route :: routes) : Except SnapshotError (List Route)) = .ok routes) ↔
            ∃ routes, loadRoutes parse (index + 1)
              (normalizePathPrefix item.pathPrefix :: taken) rest = .ok routes := by
          cases loadRoutes parse (index + 1) (normalizePathPrefix item.pathPrefix :: taken) rest <;>
            simp
        rw [same, tail]
        simp only [List.mem_cons, forall_eq_or_imp, List.map_cons, List.nodup_cons, List.mem_map,
          not_or, not_exists, not_and, accepted, repeated, not_false_eq_true, true_and]
        constructor
        · rintro ⟨rows, distinct, fresh⟩
          exact ⟨rows, ⟨fun row member => (fresh row member).1, distinct⟩,
            fun row member => (fresh row member).2⟩
        · rintro ⟨rows, ⟨fresh, distinct⟩, unseen⟩
          exact ⟨rows, distinct, fun row member => ⟨fresh row member, unseen row member⟩⟩

theorem responseToDomain_ok_iff (rows : List RouteResponse) :
    (∃ routes, responseToDomain parse rows = .ok routes) ↔
      (∀ row ∈ rows, row.Acceptable parse) ∧
      (rows.map (fun row => normalizePathPrefix row.pathPrefix)).Nodup := by
  unfold responseToDomain
  rw [loadRoutes_ok_iff]
  simp

theorem refreshRoutes_ok_iff (encodedSize : List RouteResponse → Nat) (rows : List RouteResponse)
    (current : List Route) :
    (∃ count, (refreshRoutes (listRoutes parse encodedSize rows) current).1 = .ok count) ↔
      encodedSize rows ≤ maxResponseSize ∧ ∃ routes, responseToDomain parse rows = .ok routes := by
  unfold listRoutes
  by_cases large : maxResponseSize < encodedSize rows
  · simp [refreshRoutes, large, Nat.not_le.mpr large]
  · cases responseToDomain parse rows with
    | error cause => simp [refreshRoutes, large]
    | ok routes => simp [refreshRoutes, large, Nat.not_lt.mp large]

theorem normalizePathPrefix_trimSpace (s : Str) :
    normalizePathPrefix (trimSpace s) = normalizePathPrefix s := by
  simp only [normalizePathPrefix, trimSpace_idem]

end EdgeGuard.Gateway
