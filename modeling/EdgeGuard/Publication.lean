import EdgeGuard.ControlPlane.Store
import EdgeGuard.Gateway.Snapshot

/-! The Control Plane publishes its enabled routes and the Gateway loads them.
The two sides validate separately, so that not every list of routes that the
Control Plane accepted is a snapshot for the Gateway. -/
namespace EdgeGuard.Publication
open Go Postgres ControlPlane

/-- `newGatewayRouteResponse`. -/
def newGatewayRouteResponse (route : GatewayRoute) : Gateway.RouteResponse where
  projectID := route.projectID
  name := route.name
  pathPrefix := route.pathPrefix
  upstreamURL := route.upstreamURL
  stripPrefix := route.stripPrefix
  timeoutMS := route.timeoutMS
  authRequired := route.authRequired
  rateLimitEnabled := route.rateLimit.enabled
  rateLimitRequests := route.rateLimit.requests
  rateLimitWindowSeconds := route.rateLimit.windowSeconds

def published (collate : Str → Str → Bool) (db : Database) : List Gateway.RouteResponse :=
  (listGatewayRoutes collate db).map newGatewayRouteResponse

def Routable (parse : Str → Except String URL) (service : ServiceRow) : Prop :=
  ∃ url, parse service.upstreamURL = .ok url ∧ (url.scheme = lit "http" ∨ url.scheme = lit "https")

def key (row : RouteRow) : Str := Gateway.normalizePathPrefix row.route.pathPrefix

structure Loadable (parse : Str → Except String URL) (db : Database) : Prop where
  pathPrefix : ∀ row ∈ db.enabledRoutes, key row ≠ []
  upstream : ∀ row ∈ db.enabledRoutes, ∀ service, db.serviceOf row.serviceID = some service →
    Routable parse service
  distinct : (db.enabledRoutes.map key).Nodup

/-- The condition on one operation: an enabled route has a prefix that is more
than slashes or is `/` itself, belongs to a service with an HTTP upstream, and
has a prefix that no enabled route of any service has up to trailing slashes. -/
def Admissible (parse : Str → Except String URL) (db : Database) : Operation → Prop
  | .createProject _ _ => True
  | .createService _ _ => True
  | .createRoute _ input => input.enabled = true →
    Gateway.normalizePathPrefix input.pathPrefix ≠ [] ∧
    (∀ id service, Uuid.parse (trimSpace input.serviceID) = some id →
      db.serviceOf id = some service → Routable parse service) ∧
    ∀ row ∈ db.enabledRoutes, key row ≠ Gateway.normalizePathPrefix input.pathPrefix

variable {parse : Str → Except String URL} {db next : Database}

theorem normalizePathPrefix_rooted {s : Str} (trimmed : trimSpace s = s)
    (rooted : hasPrefix s (lit "/") = true) (present : Gateway.normalizePathPrefix s ≠ []) :
    hasPrefix (Gateway.normalizePathPrefix s) (lit "/") = true := by
  simp only [Gateway.normalizePathPrefix, trimmed] at present ⊢
  split
  · exact rooted
  · rename_i longer
    rw [if_neg longer] at present
    rw [hasPrefix_iff] at rooted ⊢
    have part : trimRight s 47 <+: s := List.rdropWhile_prefix _ s
    exact List.prefix_of_prefix_length_le rooted part (List.length_pos_iff.mpr present)

/-- One published row passes the Gateway's own checks exactly when its prefix and
its upstream do. -/
theorem acceptable_iff (valid : db.Valid parse) {row : RouteRow} {service : ServiceRow}
    (member : row ∈ db.routes) (found : db.serviceOf row.serviceID = some service) :
    (newGatewayRouteResponse (gatewayRow service row)).Acceptable parse ↔
      key row ≠ [] ∧ Routable parse service := by
  have wellFormed := valid.route row member
  obtain ⟨trimmed, url, parsed, _, host⟩ :=
    valid.upstream service (List.mem_of_find?_eq_some found)
  constructor
  · intro accepted
    refine ⟨?_, ?_⟩
    · intro empty
      have rooted : hasPrefix (key row) (lit "/") = true := accepted.rooted
      rw [empty] at rooted
      revert rooted
      decide
    · obtain ⟨url, parsed, scheme, _⟩ := accepted.upstream
      exact ⟨url, trimmed ▸ parsed, scheme⟩
  · rintro ⟨present, routable, parsed', scheme⟩
    rw [parsed] at parsed'
    cases parsed'
    refine ⟨?_, ?_, ?_, ⟨url, ?_, scheme, host⟩, wellFormed.timeout_positive, wellFormed.rate_limit⟩
    · exact (Uuid.trimSpace_text service.projectID).symm ▸ (Uuid.text_ends service.projectID).2.2
    · exact wellFormed.name_trimmed.symm ▸ wellFormed.name_present
    · exact normalizePathPrefix_rooted wellFormed.prefix_trimmed wellFormed.prefix_rooted present
    · exact trimmed.symm ▸ parsed

theorem mem_published (collate : Str → Str → Bool) (response : Gateway.RouteResponse) :
    response ∈ published collate db ↔ ∃ row ∈ db.enabledRoutes, ∃ service,
      db.serviceOf row.serviceID = some service ∧
        response = newGatewayRouteResponse (gatewayRow service row) := by
  simp only [published, listGatewayRoutes, List.mem_map, List.mem_filterMap, Option.map_eq_some_iff,
    (List.perm_insertionSort _ db.enabledRoutes).mem_iff]
  constructor
  · rintro ⟨_, ⟨row, member, service, found, rfl⟩, rfl⟩
    exact ⟨row, member, service, found, rfl⟩
  · rintro ⟨row, member, service, found, rfl⟩
    exact ⟨_, ⟨row, member, service, found, rfl⟩, rfl⟩

theorem filterMap_keys (db : Database) (rows : List RouteRow)
    (found : ∀ row ∈ rows, ∃ service, db.serviceOf row.serviceID = some service) :
    (((rows.filterMap (fun row => (db.serviceOf row.serviceID).map (gatewayRow · row))).map
      newGatewayRouteResponse).map (fun row => Gateway.normalizePathPrefix row.pathPrefix)) =
      rows.map key := by
  induction rows with
  | nil => rfl
  | cons row rest ih =>
    obtain ⟨service, first⟩ := found row (by simp)
    have later := ih (fun row member => found row (by simp [member]))
    simp only [List.filterMap_cons, first, Option.map_some, List.map_cons, later]
    rfl

/-- The Gateway accepts the published list exactly when the enabled routes are
loadable. -/
theorem published_accepted_iff (valid : db.Valid parse) (collate : Str → Str → Bool) :
    (∃ routes, Gateway.responseToDomain parse (published collate db) = .ok routes) ↔
      Loadable parse db := by
  have enabled : ∀ row ∈ db.enabledRoutes, row ∈ db.routes := fun row member =>
    (List.mem_filter.mp member).1
  have sorted := List.perm_insertionSort (fun a b => precedes collate a b = true) db.enabledRoutes
  have keys : ((published collate db).map
      (fun row => Gateway.normalizePathPrefix row.pathPrefix)).Perm (db.enabledRoutes.map key) := by
    rw [published, listGatewayRoutes, filterMap_keys]
    · exact sorted.map key
    · intro row member
      exact valid.service row (enabled row (sorted.mem_iff.mp member))
  rw [Gateway.responseToDomain_ok_iff, keys.nodup_iff]
  constructor
  · rintro ⟨rows, distinct⟩
    have each : ∀ row ∈ db.enabledRoutes, ∀ service, db.serviceOf row.serviceID = some service →
        key row ≠ [] ∧ Routable parse service := by
      intro row member service found
      exact (acceptable_iff valid (enabled row member) found).mp
        (rows _ ((mem_published collate _).mpr ⟨row, member, service, found, rfl⟩))
    refine ⟨?_, ?_, distinct⟩
    · intro row member
      obtain ⟨service, found⟩ := valid.service row (enabled row member)
      exact (each row member service found).1
    · intro row member service found
      exact (each row member service found).2
  · intro loadable
    refine ⟨?_, loadable.distinct⟩
    intro response member
    obtain ⟨row, listed, service, found, rfl⟩ := (mem_published collate response).mp member
    exact (acceptable_iff valid (enabled row listed) found).mpr
      ⟨loadable.pathPrefix row listed, loadable.upstream row listed service found⟩

theorem loadable_empty (parse : Str → Except String URL) : Loadable parse Database.empty :=
  ⟨by simp [Database.enabledRoutes, Database.empty], by simp [Database.enabledRoutes, Database.empty],
    by simp [Database.enabledRoutes, Database.empty]⟩

theorem loadable_service (valid : db.Valid parse) (row : ServiceRow) :
    Loadable parse { db with services := db.services ++ [row] } ↔ Loadable parse db := by
  have same : ∀ route ∈ db.enabledRoutes, ∀ service,
      ({ db with services := db.services ++ [row] } : Database).serviceOf route.serviceID =
        some service ↔ db.serviceOf route.serviceID = some service := by
    intro route member service
    obtain ⟨owner, found⟩ := valid.service route (List.mem_filter.mp member).1
    rw [serviceOf_append found, found]
  constructor
  · rintro ⟨pathPrefix, upstream, distinct⟩
    exact ⟨pathPrefix, fun route member service found =>
      upstream route member service ((same route member service).mpr found), distinct⟩
  · rintro ⟨pathPrefix, upstream, distinct⟩
    exact ⟨pathPrefix, fun route member service found =>
      upstream route member service ((same route member service).mp found), distinct⟩

theorem loadable_route (row : RouteRow) {service : ServiceRow}
    (found : db.serviceOf row.serviceID = some service) :
    Loadable parse { db with routes := db.routes ++ [row] } ↔ Loadable parse db ∧
      (row.route.enabled = true → key row ≠ [] ∧ Routable parse service ∧
        ∀ other ∈ db.enabledRoutes, key other ≠ key row) := by
  cases active : row.route.enabled with
  | false =>
    have same : ({ db with routes := db.routes ++ [row] } : Database).enabledRoutes =
        db.enabledRoutes := by
      simp [Database.enabledRoutes, active]
    constructor
    · rintro ⟨pathPrefix, upstream, distinct⟩
      rw [same] at pathPrefix upstream distinct
      exact ⟨⟨pathPrefix, upstream, distinct⟩, by simp⟩
    · rintro ⟨⟨pathPrefix, upstream, distinct⟩, _⟩
      exact ⟨same ▸ pathPrefix, same ▸ upstream, same ▸ distinct⟩
  | true =>
    have grown : ({ db with routes := db.routes ++ [row] } : Database).enabledRoutes =
        db.enabledRoutes ++ [row] := by
      simp [Database.enabledRoutes, active]
    constructor
    · rintro ⟨pathPrefix, upstream, distinct⟩
      rw [grown] at pathPrefix upstream distinct
      obtain ⟨before, apart⟩ := Postgres.unique_insert.mp distinct
      refine ⟨⟨?_, ?_, before⟩, fun _ => ⟨pathPrefix row (by simp), upstream row (by simp) service found, apart⟩⟩
      · intro other member
        exact pathPrefix other (by simp [member])
      · intro other member
        exact upstream other (by simp [member])
    · rintro ⟨⟨pathPrefix, upstream, distinct⟩, own⟩
      obtain ⟨present, routable, apart⟩ := own rfl
      refine ⟨?_, ?_, ?_⟩
      · rw [grown]
        simpa [or_imp, forall_and] using ⟨pathPrefix, present⟩
      · rw [grown]
        intro other member owner reference
        rcases List.mem_append.mp member with old | new
        · exact upstream other old owner reference
        · cases List.mem_singleton.mp new
          have same : some service = some owner := found.symm.trans reference
          cases same
          exact routable
      · rw [grown]
        exact Postgres.unique_insert.mpr ⟨distinct, apart⟩

/-- An operation leaves the published list loadable exactly when the list was
loadable and the operation is admissible. -/
theorem effect_loadable_iff {operation : Operation} (valid : db.Valid parse)
    (effect : Effect parse db operation next) :
    Loadable parse next ↔ Loadable parse db ∧ Admissible parse db operation := by
  cases effect with
  | project id input row =>
    simp only [Admissible, and_true]
    constructor
    · rintro ⟨pathPrefix, upstream, distinct⟩
      exact ⟨pathPrefix, upstream, distinct⟩
    · rintro ⟨pathPrefix, upstream, distinct⟩
      exact ⟨pathPrefix, upstream, distinct⟩
  | service id input row trimmed upstream =>
    simp only [Admissible, and_true]
    exact loadable_service valid row
  | route id input row service reference found pathPrefix enabled wellFormed =>
    rw [loadable_route row found]
    have normalized : key row = Gateway.normalizePathPrefix input.pathPrefix := by
      rw [key, pathPrefix, Gateway.normalizePathPrefix_trimSpace]
    have owner : (∀ id service, Uuid.parse (trimSpace input.serviceID) = some id →
        db.serviceOf id = some service → Routable parse service) ↔ Routable parse service := by
      constructor
      · intro every
        exact every _ _ reference found
      · intro routable id other parsed located
        rw [reference] at parsed
        cases parsed
        rw [found] at located
        cases located
        exact routable
    simp only [Admissible, owner, normalized, enabled]

/-- After any sequence of successful operations the Gateway accepts the published
routes exactly when every operation was admissible, and a refresh succeeds exactly
when the response is moreover within the size limit. -/
theorem snapshot_accepted_iff_admissible (parse : Str → Except String URL)
    (collate : Str → Str → Bool) (encodedSize : List Gateway.RouteResponse → Nat)
    (current : List Gateway.Route) {operations : List Operation} {db : Database}
    (path : Transition.run (step parse) Database.empty operations = some db) :
    ((∃ routes, Gateway.responseToDomain parse (published collate db) = .ok routes) ↔
      Transition.Along (step parse) (Admissible parse) Database.empty operations) ∧
    ((∃ count, (Gateway.refreshRoutes
        (Gateway.listRoutes parse encodedSize (published collate db)) current).1 = .ok count) ↔
      encodedSize (published collate db) ≤ Gateway.maxResponseSize ∧
        Transition.Along (step parse) (Admissible parse) Database.empty operations) := by
  have initial := Database.valid_empty parse
  have valid : db.Valid parse := Transition.run_invariant step_valid path initial
  have accepted : (∃ routes, Gateway.responseToDomain parse (published collate db) = .ok routes) ↔
      Transition.Along (step parse) (Admissible parse) Database.empty operations := by
    rw [published_accepted_iff valid collate,
      Transition.run_iff_along step_valid
        (fun valid stepped => effect_loadable_iff valid (step_effect stepped)) path initial]
    exact and_iff_right (loadable_empty parse)
  refine ⟨accepted, ?_⟩
  rw [Gateway.refreshRoutes_ok_iff, accepted]

def openRoute (service : Uuid) (pathPrefix : Str) : CreateRouteInput where
  serviceID := service.text
  name := lit "orders"
  pathPrefix := pathPrefix
  stripPrefix := false
  timeoutMS := 0
  enabled := true
  authRequired := false
  rateLimitEnabled := false
  rateLimitRequests := 0
  rateLimitWindowSeconds := 0

def twoTenants (left right : Str) : List Operation := [
  .createProject (Uuid.repeated 1) ⟨lit "alpha"⟩,
  .createProject (Uuid.repeated 2) ⟨lit "beta"⟩,
  .createService (Uuid.repeated 3) ⟨(Uuid.repeated 1).text, lit "orders", lit "http://a"⟩,
  .createService (Uuid.repeated 4) ⟨(Uuid.repeated 2).text, lit "orders", lit "http://b"⟩,
  .createRoute (Uuid.repeated 5) (openRoute (Uuid.repeated 3) left),
  .createRoute (Uuid.repeated 6) (openRoute (Uuid.repeated 4) right)]

def bytewise (a b : Str) : Bool := decide (a ≤ b)

def twoTenantRoute (id service : Uuid) (pathPrefix : Str) : RouteRow where
  id := id
  serviceID := service
  route := ⟨service.text, lit "orders", pathPrefix, false, 3000, true, false, ⟨false, 0, 0⟩⟩

/-- The tables after `twoTenants` with two different prefixes. -/
def twoTenantTables : Database where
  projects := [⟨Uuid.repeated 1, lit "alpha"⟩, ⟨Uuid.repeated 2, lit "beta"⟩]
  services := [⟨Uuid.repeated 3, Uuid.repeated 1, lit "orders", lit "http://a"⟩,
    ⟨Uuid.repeated 4, Uuid.repeated 2, lit "orders", lit "http://b"⟩]
  routes := [twoTenantRoute (Uuid.repeated 5) (Uuid.repeated 3) (lit "/api"),
    twoTenantRoute (Uuid.repeated 6) (Uuid.repeated 4) (lit "/v2/")]

theorem two_tenants_snapshot :
    Transition.run (step parsePlain) Database.empty (twoTenants (lit "/api") (lit "/v2/")) =
      some twoTenantTables ∧
    ((∃ routes, Gateway.responseToDomain parsePlain (published bytewise twoTenantTables) =
        .ok routes) ↔
      Transition.Along (step parsePlain) (Admissible parsePlain) Database.empty
        (twoTenants (lit "/api") (lit "/v2/"))) := by
  have path : Transition.run (step parsePlain) Database.empty
      (twoTenants (lit "/api") (lit "/v2/")) = some twoTenantTables := by decide
  exact ⟨path, (snapshot_accepted_iff_admissible parsePlain bytewise (fun _ => 0) [] path).1⟩

/-- Two tenants that use one prefix are both accepted by the Control Plane, and
the Gateway then rejects the whole list. -/
theorem shared_prefix_rejected :
    (Transition.run (step parsePlain) Database.empty (twoTenants (lit "/api") (lit "/api"))).map
      (fun db => Gateway.responseToDomain parsePlain (published bytewise db)) =
      some (.error (.duplicate 1 (lit "/api"))) := by
  decide

end EdgeGuard.Publication
