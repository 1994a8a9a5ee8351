import EdgeGuard.ControlPlane.Domain
import EdgeGuard.Postgres
import EdgeGuard.Transition
import Mathlib.Data.List.Sort

/-! The Control Plane's tables with their constraints, the three creating
operations on them and the query behind the published route list. An operation
is enabled when it succeeds: a rejected input or a violated constraint leaves
the tables alone. -/
namespace EdgeGuard.ControlPlane
open Go Postgres

structure ProjectRow where
  id : Uuid
  name : Str
  deriving DecidableEq

structure ServiceRow where
  id : Uuid
  projectID : Uuid
  name : Str
  upstreamURL : Str
  deriving DecidableEq

/-- The row's `service_id` column has the type `uuid`; the other columns are
those of the inserted domain value. -/
structure RouteRow where
  id : Uuid
  serviceID : Uuid
  route : Route
  deriving DecidableEq

structure Database where
  projects : List ProjectRow
  services : List ServiceRow
  routes : List RouteRow
  deriving DecidableEq

namespace Database

def empty : Database := ⟨[], [], []⟩

/-- The row a join on `services.id` finds; `id` is the primary key. -/
def serviceOf (db : Database) (id : Uuid) : Option ServiceRow := db.services.find? (·.id = id)

/-- `createProjectQuery` under `UNIQUE (name)`. -/
def insertProject (db : Database) (id : Uuid) (project : Project) : Option Database :=
  if textOk project.name ∧ (∀ row ∈ db.projects, row.id ≠ id ∧ row.name ≠ project.name) then
    some { db with projects := db.projects ++ [⟨id, project.name⟩] }
  else none

/-- `createServiceQuery` under `UNIQUE (project_id, name)` and the reference to
`projects`. -/
def insertService (db : Database) (id : Uuid) (service : Service) : Option Database := do
  let projectID ← Uuid.parse service.projectID
  if textOk service.name ∧ textOk service.upstreamURL ∧
      (∃ project ∈ db.projects, project.id = projectID) ∧
      (∀ row ∈ db.services, row.id ≠ id ∧ ¬ (row.projectID = projectID ∧ row.name = service.name)) then
    some { db with services := db.services ++ [⟨id, projectID, service.name, service.upstreamURL⟩] }
  else none

/-- `createRouteQuery` under `UNIQUE (service_id, name)`,
`UNIQUE (service_id, path_prefix)`, `routes_rate_limit_policy_check`, the
integer columns and the reference to `services`. -/
def insertRoute (db : Database) (id : Uuid) (route : Route) : Option Database := do
  let serviceID ← Uuid.parse route.serviceID
  if textOk route.name ∧ textOk route.pathPrefix ∧ int4Ok route.timeoutMS ∧
      int4Ok route.rateLimit.requests ∧ int4Ok route.rateLimit.windowSeconds ∧
      route.rateLimit.Consistent ∧ (db.serviceOf serviceID).isSome ∧
      (∀ row ∈ db.routes, row.id ≠ id ∧ ¬ (row.serviceID = serviceID ∧
        (row.route.name = route.name ∨ row.route.pathPrefix = route.pathPrefix))) then
    some { db with routes := db.routes ++ [⟨id, serviceID, route⟩] }
  else none

end Database

structure CreateProjectInput where
  name : Str

structure CreateServiceInput where
  projectID : Str
  name : Str
  upstreamURL : Str

structure CreateRouteInput where
  serviceID : Str
  name : Str
  pathPrefix : Str
  stripPrefix : Bool
  timeoutMS : Int
  enabled : Bool
  authRequired : Bool
  rateLimitEnabled : Bool
  rateLimitRequests : Int
  rateLimitWindowSeconds : Int

def CreateRouteInput.toRoute (input : CreateRouteInput) : Except DomainError Route :=
  newRoute input.serviceID input.name input.pathPrefix input.stripPrefix input.timeoutMS
    input.enabled input.authRequired
    ⟨input.rateLimitEnabled, input.rateLimitRequests, input.rateLimitWindowSeconds⟩

inductive Operation where
  | createProject (id : Uuid) (input : CreateProjectInput)
  | createService (id : Uuid) (input : CreateServiceInput)
  | createRoute (id : Uuid) (input : CreateRouteInput)

section Operations
variable (parse : Str → Except String URL)

/-- One successful use-case call, or `none` where it returns an error. -/
def step (db : Database) : Operation → Option Database
  | .createProject id input =>
    match newProject input.name with
    | .ok project => db.insertProject id project
    | .error _ => none
  | .createService id input =>
    match newService parse input.projectID input.name input.upstreamURL with
    | .ok service => db.insertService id service
    | .error _ => none
  | .createRoute id input =>
    match input.toRoute with
    | .ok route => db.insertRoute id route
    | .error _ => none

end Operations

/-- `length(text)` counts characters: bytes that continue one are not counted. -/
def characters (s : Str) : Nat := (s.filter (fun c => !(0x80 ≤ c && c ≤ 0xbf))).length

/-- `ORDER BY length(path_prefix) DESC, path_prefix ASC, id ASC`. How texts
compare depends on the collation of the database. -/
def precedes (collate : Str → Str → Bool) (a b : RouteRow) : Bool :=
  characters b.route.pathPrefix < characters a.route.pathPrefix ||
    (characters a.route.pathPrefix == characters b.route.pathPrefix &&
      if a.route.pathPrefix = b.route.pathPrefix then decide (a.id.bytes ≤ b.id.bytes)
      else collate a.route.pathPrefix b.route.pathPrefix)

def gatewayRow (service : ServiceRow) (row : RouteRow) : GatewayRoute where
  projectID := service.projectID.text
  name := row.route.name
  pathPrefix := row.route.pathPrefix
  upstreamURL := service.upstreamURL
  stripPrefix := row.route.stripPrefix
  timeoutMS := row.route.timeoutMS
  authRequired := row.route.authRequired
  rateLimit := row.route.rateLimit

def Database.enabledRoutes (db : Database) : List RouteRow := db.routes.filter (·.route.enabled)

/-- `listGatewayRoutesQuery`: enabled routes joined with their services, ordered. -/
def listGatewayRoutes (collate : Str → Str → Bool) (db : Database) : List GatewayRoute :=
  (db.enabledRoutes.insertionSort (fun a b => precedes collate a b = true)).filterMap
    (fun row => (db.serviceOf row.serviceID).map (gatewayRow · row))

structure Database.Valid (parse : Str → Except String URL) (db : Database) : Prop where
  upstream : ∀ service ∈ db.services, trimSpace service.upstreamURL = service.upstreamURL ∧
    ∃ url, parse service.upstreamURL = .ok url ∧ url.scheme ≠ [] ∧ url.host ≠ []
  route : ∀ row ∈ db.routes, row.route.WellFormed
  service : ∀ row ∈ db.routes, ∃ service, db.serviceOf row.serviceID = some service

theorem Database.valid_empty (parse : Str → Except String URL) : Database.empty.Valid parse :=
  ⟨by simp [empty], by simp [empty], by simp [empty]⟩

variable {parse : Str → Except String URL} {db next : Database}

inductive Effect (parse : Str → Except String URL) (db : Database) : Operation → Database → Prop
  | project (id : Uuid) (input : CreateProjectInput) (row : ProjectRow) :
      Effect parse db (.createProject id input) { db with projects := db.projects ++ [row] }
  | service (id : Uuid) (input : CreateServiceInput) (row : ServiceRow)
      (trimmed : trimSpace row.upstreamURL = row.upstreamURL)
      (upstream : ∃ url, parse row.upstreamURL = .ok url ∧ url.scheme ≠ [] ∧ url.host ≠ []) :
      Effect parse db (.createService id input) { db with services := db.services ++ [row] }
  | route (id : Uuid) (input : CreateRouteInput) (row : RouteRow) (service : ServiceRow)
      (reference : Uuid.parse (trimSpace input.serviceID) = some row.serviceID)
      (found : db.serviceOf row.serviceID = some service)
      (pathPrefix : row.route.pathPrefix = trimSpace input.pathPrefix)
      (enabled : row.route.enabled = input.enabled)
      (wellFormed : row.route.WellFormed) :
      Effect parse db (.createRoute id input) { db with routes := db.routes ++ [row] }

theorem step_effect {operation : Operation} (stepped : step parse db operation = some next) :
    Effect parse db operation next := by
  cases operation with
  | createProject id input =>
    simp only [step] at stepped
    split at stepped
    · simp only [Database.insertProject, Option.ite_none_right_eq_some, Option.some.injEq] at stepped
      obtain ⟨_, rfl⟩ := stepped
      exact .project id input _
    · contradiction
  | createService id input =>
    simp only [step] at stepped
    split at stepped
    · rename_i service created
      obtain ⟨rfl, upstream⟩ := newService_spec created
      simp only [Database.insertService, Option.bind_eq_bind, Option.bind_eq_some_iff,
        Option.ite_none_right_eq_some, Option.some.injEq] at stepped
      obtain ⟨projectID, _, _, rfl⟩ := stepped
      exact .service id input _ (trimSpace_idem _) upstream
    · contradiction
  | createRoute id input =>
    simp only [step] at stepped
    split at stepped
    · rename_i route created
      obtain ⟨owner, pathPrefix, enabled, wellFormed⟩ := newRoute_spec created
      simp only [Database.insertRoute, Option.bind_eq_bind, Option.bind_eq_some_iff,
        Option.ite_none_right_eq_some, Option.some.injEq] at stepped
      obtain ⟨serviceID, reference, ⟨_, _, _, _, _, _, present, _⟩, rfl⟩ := stepped
      obtain ⟨service, found⟩ := Option.isSome_iff_exists.mp present
      exact .route id input _ service (owner ▸ reference) found pathPrefix enabled wellFormed
    · contradiction

theorem serviceOf_append {id : Uuid} {service : ServiceRow} (found : db.serviceOf id = some service)
    (projects : List ProjectRow) (more : List ServiceRow) (routes : List RouteRow) :
    (⟨projects, db.services ++ more, routes⟩ : Database).serviceOf id = some service := by
  simp only [Database.serviceOf, List.find?_append] at found ⊢
  rw [found]
  rfl

theorem effect_valid {operation : Operation} (valid : db.Valid parse)
    (effect : Effect parse db operation next) : next.Valid parse := by
  cases effect with
  | project id input row => exact ⟨valid.upstream, valid.route, valid.service⟩
  | service id input row trimmed upstream =>
    refine ⟨?_, valid.route, ?_⟩
    · intro service member
      rcases List.mem_append.mp member with old | new
      · exact valid.upstream service old
      · cases List.mem_singleton.mp new
        exact ⟨trimmed, upstream⟩
    · intro route member
      obtain ⟨service, found⟩ := valid.service route member
      exact ⟨service, serviceOf_append found _ _ _⟩
  | route id input row service reference found pathPrefix enabled wellFormed =>
    refine ⟨valid.upstream, ?_, ?_⟩
    · intro route member
      rcases List.mem_append.mp member with old | new
      · exact valid.route route old
      · cases List.mem_singleton.mp new
        exact wellFormed
    · intro route member
      rcases List.mem_append.mp member with old | new
      · exact valid.service route old
      · cases List.mem_singleton.mp new
        exact ⟨service, found⟩

theorem step_valid {operation : Operation} (valid : db.Valid parse)
    (stepped : step parse db operation = some next) : next.Valid parse :=
  effect_valid valid (step_effect stepped)

end EdgeGuard.ControlPlane
