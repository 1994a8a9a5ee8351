import EdgeGuard.Go.URL

/-! The Control Plane's domain constructors. They trim their text arguments and
check what the database does not; identifiers and timestamps are assigned by
the database. -/
namespace EdgeGuard.ControlPlane
open Go

inductive DomainError where
  | invalidName
  | invalidProjectID
  | invalidServiceID
  | invalidUpstreamURL
  | invalidPathPrefix
  | invalidRateLimitRequests
  | invalidRateLimitWindow
  deriving DecidableEq, Repr

structure RateLimitPolicy where
  enabled : Bool
  requests : Int
  windowSeconds : Int
  deriving DecidableEq, Repr

/-- A disabled policy is stored with both numbers zero, whatever was asked for. -/
def newRateLimitPolicy (enabled : Bool) (requests windowSeconds : Int) :
    Except DomainError RateLimitPolicy :=
  if !enabled then .ok ⟨false, 0, 0⟩
  else if requests ≤ 0 then .error .invalidRateLimitRequests
  else if windowSeconds ≤ 0 then .error .invalidRateLimitWindow
  else .ok ⟨true, requests, windowSeconds⟩

structure Project where
  name : Str
  deriving DecidableEq, Repr

def newProject (name : Str) : Except DomainError Project :=
  let name := trimSpace name
  if name = [] then .error .invalidName else .ok ⟨name⟩

structure Service where
  projectID : Str
  name : Str
  upstreamURL : Str
  deriving DecidableEq, Repr

def newService (parse : Str → Except String URL) (projectID name upstreamURL : Str) :
    Except DomainError Service :=
  let projectID := trimSpace projectID
  let name := trimSpace name
  let upstreamURL := trimSpace upstreamURL
  if projectID = [] then .error .invalidProjectID
  else if name = [] then .error .invalidName
  else match parse upstreamURL with
    | .error _ => .error .invalidUpstreamURL
    | .ok parsed =>
      if parsed.scheme = [] ∨ parsed.host = [] then .error .invalidUpstreamURL
      else .ok ⟨projectID, name, upstreamURL⟩

def defaultRouteTimeoutMS : Int := 3000

structure Route where
  serviceID : Str
  name : Str
  pathPrefix : Str
  stripPrefix : Bool
  timeoutMS : Int
  enabled : Bool
  authRequired : Bool
  rateLimit : RateLimitPolicy
  deriving DecidableEq, Repr

def newRoute (serviceID name pathPrefix : Str) (stripPrefix : Bool) (timeoutMS : Int)
    (enabled authRequired : Bool) (rateLimit : RateLimitPolicy) : Except DomainError Route :=
  let serviceID := trimSpace serviceID
  let name := trimSpace name
  let pathPrefix := trimSpace pathPrefix
  if serviceID = [] then .error .invalidServiceID
  else if name = [] then .error .invalidName
  else if pathPrefix = [] ∨ hasPrefix pathPrefix (lit "/") = false then .error .invalidPathPrefix
  else match newRateLimitPolicy rateLimit.enabled rateLimit.requests rateLimit.windowSeconds with
    | .error err => .error err
    | .ok rateLimit => .ok {
        serviceID, name, pathPrefix, stripPrefix
        timeoutMS := if timeoutMS ≤ 0 then defaultRouteTimeoutMS else timeoutMS
        enabled, authRequired, rateLimit }

/-- The read model that publishes the active routing configuration. -/
structure GatewayRoute where
  projectID : Str
  name : Str
  pathPrefix : Str
  upstreamURL : Str
  stripPrefix : Bool
  timeoutMS : Int
  authRequired : Bool
  rateLimit : RateLimitPolicy
  deriving DecidableEq, Repr

/-- Both numbers are positive exactly when the policy is enabled, else zero. -/
def RateLimitPolicy.Consistent (policy : RateLimitPolicy) : Prop :=
  (policy.enabled = false ∧ policy.requests = 0 ∧ policy.windowSeconds = 0) ∨
    (policy.enabled = true ∧ 0 < policy.requests ∧ 0 < policy.windowSeconds)

instance (policy : RateLimitPolicy) : Decidable policy.Consistent :=
  inferInstanceAs (Decidable (_ ∨ _))

theorem newRateLimitPolicy_consistent {enabled : Bool} {requests windowSeconds : Int}
    {policy : RateLimitPolicy}
    (created : newRateLimitPolicy enabled requests windowSeconds = .ok policy) :
    policy.Consistent := by
  unfold newRateLimitPolicy at created
  split at created
  · cases created
    exact .inl ⟨rfl, rfl, rfl⟩
  · obtain ⟨requested, created⟩ := check_passed created
    obtain ⟨windowed, created⟩ := check_passed created
    cases created
    exact .inr ⟨rfl, Int.not_le.mp requested, Int.not_le.mp windowed⟩

theorem newService_spec {parse : Str → Except String URL} {projectID name upstreamURL : Str}
    {service : Service} (created : newService parse projectID name upstreamURL = .ok service) :
    service = ⟨trimSpace projectID, trimSpace name, trimSpace upstreamURL⟩ ∧
      ∃ url, parse (trimSpace upstreamURL) = .ok url ∧ url.scheme ≠ [] ∧ url.host ≠ [] := by
  simp only [newService] at created
  obtain ⟨_, created⟩ := check_passed created
  obtain ⟨_, created⟩ := check_passed created
  split at created
  · contradiction
  · rename_i url parsed
    obtain ⟨complete, created⟩ := check_passed created
    cases created
    simp only [not_or] at complete
    exact ⟨rfl, url, parsed, complete⟩

/-- What a route accepted by `NewRoute` looks like. -/
structure Route.WellFormed (route : Route) : Prop where
  name_trimmed : trimSpace route.name = route.name
  name_present : route.name ≠ []
  prefix_trimmed : trimSpace route.pathPrefix = route.pathPrefix
  prefix_rooted : hasPrefix route.pathPrefix (lit "/") = true
  timeout_positive : 0 < route.timeoutMS
  rate_limit : route.rateLimit.Consistent

theorem newRoute_spec {serviceID name pathPrefix : Str} {stripPrefix : Bool} {timeoutMS : Int}
    {enabled authRequired : Bool} {rateLimit : RateLimitPolicy} {route : Route}
    (created : newRoute serviceID name pathPrefix stripPrefix timeoutMS enabled authRequired
      rateLimit = .ok route) :
    route.serviceID = trimSpace serviceID ∧ route.pathPrefix = trimSpace pathPrefix ∧
      route.enabled = enabled ∧ route.WellFormed := by
  simp only [newRoute] at created
  obtain ⟨_, created⟩ := check_passed created
  obtain ⟨named, created⟩ := check_passed created
  obtain ⟨rooted, created⟩ := check_passed created
  split at created
  · contradiction
  · rename_i policy limited
    cases created
    refine ⟨rfl, rfl, rfl, ?_⟩
    refine ⟨trimSpace_idem _, named, trimSpace_idem _, ?_, ?_,
      newRateLimitPolicy_consistent limited⟩
    · simp only [not_or, Bool.not_eq_false] at rooted
      exact rooted.2
    · dsimp only [defaultRouteTimeoutMS]
      split <;> omega

end EdgeGuard.ControlPlane
