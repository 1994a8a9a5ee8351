import EdgeGuard.Gateway.Matching
import EdgeGuard.Gateway.RouteSource
import EdgeGuard.Go.JsonStream
import EdgeGuard.Publication

/-! Gateways that load their routes from the Control Plane while its operations go on. A
refresh takes time: the answer is made at one moment and used at a later one, or lost, or
cut off. Every snapshot is still a whole published list, and a gateway never goes back to
an older one. -/
namespace EdgeGuard.RouteRefresh
open Go Go.Json Postgres ControlPlane Publication Transition

/-- What `RefreshRoutes` of a gateway waits for. The version of an answer is the number of
operations before it. -/
inductive Request where
  | none
  | sent
  | answered (body : Str) (version : Nat)
  deriving DecidableEq, Repr

/-- A running gateway: its configured fallback, the current snapshot with the version it
was loaded at, and the refresh under way. The refreshes of one gateway do not overlap. -/
structure Instance where
  fallback : List Gateway.Route
  routes : List Gateway.Route
  loaded : Option Nat
  request : Request
  deriving DecidableEq, Repr

structure State where
  db : Database
  operations : List Operation
  gateways : Nat → Option Instance

def State.start : State := ⟨.empty, [], fun _ => none⟩

/-- A call of the Control Plane, or a step of a gateway: it starts with the routes of its
configuration, sends a request, is answered, receives a reply, or stops. -/
inductive Action where
  | operate (operation : Operation)
  | start (gateway : Nat) (fallback : List Gateway.Route)
  | request (gateway : Nat)
  | answer (gateway : Nat)
  | receive (gateway : Nat) (reply : Gateway.Reply)
  | stop (gateway : Nat)

/-- The replies that can come to a request. Only the Control Plane answers with status 200,
and a part of its body can arrive. -/
def Request.Allows : Request → Gateway.Reply → Prop
  | .none, _ => False
  | _, .failed => True
  | .sent, .response status _ _ => status ≠ 200
  | .answered body _, .response status received _ => status = 200 → received <+: body

instance decidableAllows : ∀ (request : Request) (reply : Gateway.Reply), Decidable (request.Allows reply)
  | .none, _ => isFalse id
  | .sent, .failed => isTrue trivial
  | .answered _ _, .failed => isTrue trivial
  | .sent, .response status _ _ => inferInstanceAs (Decidable (status ≠ 200))
  | .answered body _, .response status received _ => inferInstanceAs (Decidable (status = 200 → received <+: body))

def Request.version : Request → Nat
  | .answered _ version => version
  | _ => 0

/-- `RefreshRoutes` once `ListRoutes` has returned. -/
def Instance.refreshed (i : Instance) : Except Gateway.RouteSourceError (List Gateway.Route) → Instance
  | .error _ => { i with request := .none }
  | .ok routes => { i with routes, loaded := some i.request.version, request := .none }

def State.place (s : State) (gateway : Nat) (i : Option Instance) : State :=
  { s with gateways := Function.update s.gateways gateway i }

section Steps
variable {ν : Type} (json : Stream ν) (parse : Str → Except String URL) (collate : Str → Str → Bool)

/-- The body of the answer of `listGatewayRoutes`; the encoder ends it with a line break. -/
def answerBody (db : Database) : Option Str :=
  (Gateway.routesText json (published collate db)).map (· ++ [10])

def step (s : State) : Action → Option State
  | .operate operation =>
    (ControlPlane.step parse s.db operation).map
      (fun db => { s with db, operations := s.operations ++ [operation] })
  | .start gateway fallback => match s.gateways gateway with
    | some _ => none
    | none => some (s.place gateway (some ⟨fallback, fallback, none, .none⟩))
  | .request gateway => do
    let i ← s.gateways gateway
    if i.request = .none then some (s.place gateway (some { i with request := .sent })) else none
  | .answer gateway => do
    let i ← s.gateways gateway
    let body ← answerBody json collate s.db
    if i.request = .sent then
      some (s.place gateway (some { i with request := .answered body s.operations.length }))
    else none
  | .receive gateway reply => do
    let i ← s.gateways gateway
    if i.request.Allows reply then
      some (s.place gateway (some (i.refreshed (Gateway.listRoutesReply json parse reply))))
    else none
  | .stop gateway => some (s.place gateway none)

end Steps

variable {parse : Str → Except String URL} {db next : Database}

/-- The texts and numbers of the tables, as their columns hold them. -/
structure Stored (db : Database) : Prop where
  service : ∀ service ∈ db.services, textOk service.upstreamURL = true
  route : ∀ row ∈ db.routes, textOk row.route.name = true ∧ textOk row.route.pathPrefix = true ∧
    int4Ok row.route.timeoutMS = true ∧ int4Ok row.route.rateLimit.requests = true ∧
    int4Ok row.route.rateLimit.windowSeconds = true

theorem step_stored {operation : Operation} (stored : Stored db)
    (stepped : ControlPlane.step parse db operation = some next) : Stored next := by
  cases operation with
  | createProject id input =>
    simp only [ControlPlane.step] at stepped
    split at stepped
    · simp only [Database.insertProject, Option.ite_none_right_eq_some, Option.some.injEq] at stepped
      obtain ⟨_, rfl⟩ := stepped
      exact ⟨stored.service, stored.route⟩
    · contradiction
  | createService id input =>
    simp only [ControlPlane.step] at stepped
    split at stepped
    · simp only [Database.insertService, Option.bind_eq_bind, Option.bind_eq_some_iff,
        Option.ite_none_right_eq_some, Option.some.injEq] at stepped
      obtain ⟨_, _, ⟨_, upstream, _⟩, rfl⟩ := stepped
      refine ⟨?_, stored.route⟩
      intro service member
      rcases List.mem_append.mp member with old | new
      · exact stored.service service old
      · cases List.mem_singleton.mp new
        exact upstream
    · contradiction
  | createRoute id input =>
    simp only [ControlPlane.step] at stepped
    split at stepped
    · simp only [Database.insertRoute, Option.bind_eq_bind, Option.bind_eq_some_iff,
        Option.ite_none_right_eq_some, Option.some.injEq] at stepped
      obtain ⟨_, _, ⟨name, pathPrefix, timeout, requests, window, _⟩, rfl⟩ := stepped
      refine ⟨stored.service, ?_⟩
      intro row member
      rcases List.mem_append.mp member with old | new
      · exact stored.route row old
      · cases List.mem_singleton.mp new
        exact ⟨name, pathPrefix, timeout, requests, window⟩
    · contradiction

theorem textOk_valid {s : Str} (ok : textOk s = true) : validUtf8 s = true := ((Bool.and_eq_true _ _).mp ok).1

theorem published_storable (stored : Stored db) (collate : Str → Str → Bool) :
    ∀ row ∈ published collate db, row.Storable := by
  intro response member
  obtain ⟨row, enabled, service, found, rfl⟩ := (mem_published collate response).mp member
  obtain ⟨name, pathPrefix, timeout, requests, window⟩ := stored.route row (List.mem_filter.mp enabled).1
  have upstream := stored.service service (List.mem_of_find?_eq_some found)
  refine ⟨?_, ?_⟩
  · intro text listed
    simp only [newGatewayRouteResponse, gatewayRow, List.mem_cons, List.not_mem_nil, or_false] at listed
    rcases listed with rfl | rfl | rfl | rfl
    · exact service.projectID.text_valid
    · exact textOk_valid name
    · exact textOk_valid pathPrefix
    · exact textOk_valid upstream
  · intro number listed
    simp only [newGatewayRouteResponse, gatewayRow, List.mem_cons, List.not_mem_nil, or_false] at listed
    rcases listed with rfl | rfl | rfl
    · exact timeout
    · exact requests
    · exact window

/-- Rows are only ever added. -/
structure Grows (db next : Database) : Prop where
  enabled : ∀ row ∈ db.enabledRoutes, row ∈ next.enabledRoutes
  service : ∀ id service, db.serviceOf id = some service → next.serviceOf id = some service

theorem Grows.trans {last : Database} (first : Grows db next) (second : Grows next last) : Grows db last :=
  ⟨fun row member => second.enabled row (first.enabled row member),
    fun id service found => second.service id service (first.service id service found)⟩

theorem step_grows {operation : Operation} (stepped : ControlPlane.step parse db operation = some next) :
    Grows db next := by
  cases ControlPlane.step_effect stepped with
  | project id input row => exact ⟨fun _ member => member, fun _ _ found => found⟩
  | service id input row _ _ =>
    refine ⟨fun _ member => member, fun _ _ found => ?_⟩
    exact serviceOf_append found _ _ _
  | route id input row service _ _ _ _ _ =>
    refine ⟨?_, fun _ _ found => found⟩
    intro other member
    rw [Database.enabledRoutes, List.filter_append]
    exact List.mem_append_left _ member

theorem run_grows {operations : List Operation} (path : run (ControlPlane.step parse) db operations = some next) :
    Grows db next := by
  induction operations generalizing db with
  | nil =>
    cases path
    exact ⟨fun _ member => member, fun _ _ found => found⟩
  | cons operation rest ih =>
    obtain ⟨middle, stepped, path⟩ := run_cons path
    exact (step_grows stepped).trans (ih path)

section Invariant
variable {ν : Type} {json : Stream ν} {collate : Str → Str → Bool} {s t : State}

/-- The tables after the first operations. -/
def Version (parse : Str → Except String URL) (operations : List Operation) (version : Nat) (db : Database) : Prop :=
  version ≤ operations.length ∧ run (ControlPlane.step parse) .empty (operations.take version) = some db

theorem Version.append {operations : List Operation} {version : Nat} (is : Version parse operations version db)
    (operation : Operation) : Version parse (operations ++ [operation]) version db := by
  refine ⟨is.1.trans (by simp), ?_⟩
  rw [List.take_append_of_le_length is.1]
  exact is.2

/-- Where the snapshot of a gateway, and the answer on its way to it, come from. -/
structure Instance.Sound (json : Stream ν) (parse : Str → Except String URL) (collate : Str → Str → Bool)
    (operations : List Operation) (i : Instance) : Prop where
  unloaded : i.loaded = none → i.routes = i.fallback
  snapshot : ∀ version, i.loaded = some version → ∃ db, Version parse operations version db ∧
    Gateway.responseToDomain parse (published collate db) = .ok i.routes
  answer : ∀ body version, i.request = .answered body version → ∃ db, Version parse operations version db ∧
    answerBody json collate db = some body
  newer : ∀ body version earlier, i.request = .answered body version → i.loaded = some earlier → earlier ≤ version

structure Invariant (json : Stream ν) (parse : Str → Except String URL) (collate : Str → Str → Bool) (s : State) :
    Prop where
  tables : run (ControlPlane.step parse) .empty s.operations = some s.db
  gateway : ∀ gateway i, s.gateways gateway = some i → i.Sound json parse collate s.operations

theorem start_invariant : Invariant json parse collate .start := ⟨rfl, nofun⟩

theorem Instance.Sound.append {operations : List Operation} {i : Instance}
    (sound : i.Sound json parse collate operations) (operation : Operation) :
    i.Sound json parse collate (operations ++ [operation]) where
  unloaded := sound.unloaded
  snapshot := fun version loaded =>
    let ⟨db, is, read⟩ := sound.snapshot version loaded
    ⟨db, is.append operation, read⟩
  answer := fun body version answered =>
    let ⟨db, is, made⟩ := sound.answer body version answered
    ⟨db, is.append operation, made⟩
  newer := sound.newer

theorem Version.stored {operations : List Operation} {version : Nat} (is : Version parse operations version db) :
    Stored db :=
  run_invariant step_stored is.2 ⟨nofun, nofun⟩

theorem reply_whole (laws : json.Documented) {body : Str} (stored : Stored db)
    (made : answerBody json collate db = some body) {status : Nat} {received : Str} {broken : Bool}
    (part : status = 200 → received <+: body) {routes : List Gateway.Route}
    (loaded : Gateway.listRoutesReply json parse (.response status received broken) = .ok routes) :
    Gateway.responseToDomain parse (published collate db) = .ok routes := by
  obtain ⟨value, written, composite, shallow, decoded⟩ :=
    Gateway.routesText_written laws (published_storable stored collate)
  rw [answerBody, written, Option.map_some, Option.some.injEq] at made
  subst made
  by_cases fine : status = 200
  · subst fine
    rw [Gateway.listRoutesReply_part laws composite shallow decoded (part rfl)] at loaded
    split at loaded
    · contradiction
    · split at loaded
      · contradiction
      · split at loaded
        · contradiction
        · rename_i read
          cases loaded
          exact read
  · simp only [Gateway.listRoutesReply, ne_eq, fine, not_false_eq_true, if_true] at loaded
    split at loaded <;> contradiction

theorem accepted_answered {request : Request} {reply : Gateway.Reply} (allowed : request.Allows reply)
    {routes : List Gateway.Route} (loaded : Gateway.listRoutesReply json parse reply = .ok routes) :
    ∃ body version, request = .answered body version := by
  cases request with
  | none => exact allowed.elim
  | answered body version => exact ⟨body, version, rfl⟩
  | sent =>
    cases reply with
    | failed => contradiction
    | response status received broken =>
      have other : status ≠ 200 := allowed
      simp only [Gateway.listRoutesReply, ne_eq, other, not_false_eq_true, if_true] at loaded
      split at loaded <;> contradiction

theorem Instance.Sound.refreshed (laws : json.Documented) {operations : List Operation} {i : Instance}
    (sound : i.Sound json parse collate operations) {reply : Gateway.Reply} (allowed : i.request.Allows reply) :
    (i.refreshed (Gateway.listRoutesReply json parse reply)).Sound json parse collate operations := by
  cases outcome : Gateway.listRoutesReply json parse reply with
  | error cause => exact ⟨sound.unloaded, sound.snapshot, nofun, nofun⟩
  | ok routes =>
    obtain ⟨body, version, request⟩ := accepted_answered allowed outcome
    obtain ⟨db, is, made⟩ := sound.answer body version request
    refine ⟨nofun, ?_, nofun, nofun⟩
    rintro _ ⟨⟩
    refine ⟨db, by rw [request]; exact is, ?_⟩
    cases reply with
    | failed => contradiction
    | response status received broken =>
      rw [request] at allowed
      exact reply_whole laws is.stored made allowed outcome

theorem place_found {gateway other : Nat} {i : Option Instance} {j : Instance}
    (found : (s.place gateway i).gateways other = some j) :
    s.gateways other = some j ∧ gateway ≠ other ∨ gateway = other ∧ i = some j :=
  update_found found

theorem step_invariant (laws : json.Documented) {action : Action} (inv : Invariant json parse collate s)
    (stepped : step json parse collate s action = some t) : Invariant json parse collate t := by
  have placed {gateway : Nat} {i : Option Instance}
      (sound : ∀ j, i = some j → j.Sound json parse collate s.operations) :
      Invariant json parse collate (s.place gateway i) := by
    refine ⟨inv.tables, ?_⟩
    intro other j found
    rcases place_found found with ⟨before, _⟩ | ⟨_, is⟩
    · exact inv.gateway other j before
    · exact sound j is
  cases action with
  | operate operation =>
    obtain ⟨db, operated, rfl⟩ := Option.map_eq_some_iff.mp stepped
    refine ⟨?_, fun gateway i found => (inv.gateway gateway i found).append operation⟩
    change run _ _ (s.operations ++ [operation]) = _
    rw [run_append inv.tables]
    simp [run, operated]
  | start gateway fallback =>
    simp only [step] at stepped
    split at stepped
    · contradiction
    · cases stepped
      refine placed ?_
      rintro _ ⟨⟩
      refine ⟨fun _ => rfl, ?_, ?_, ?_⟩
      all_goals
        intros
        contradiction
  | request gateway =>
    simp only [step, Option.bind_eq_bind, Option.bind_eq_some_iff, Option.ite_none_right_eq_some] at stepped
    obtain ⟨i, found, _, ⟨⟩⟩ := stepped
    have sound := inv.gateway gateway i found
    refine placed ?_
    rintro _ ⟨⟩
    refine ⟨sound.unloaded, sound.snapshot, ?_, ?_⟩
    all_goals
      intros
      contradiction
  | answer gateway =>
    simp only [step, Option.bind_eq_bind, Option.bind_eq_some_iff, Option.ite_none_right_eq_some] at stepped
    obtain ⟨i, found, body, made, _, ⟨⟩⟩ := stepped
    have sound := inv.gateway gateway i found
    refine placed ?_
    rintro _ ⟨⟩
    refine ⟨sound.unloaded, sound.snapshot, ?_, ?_⟩
    · rintro _ _ ⟨⟩
      exact ⟨s.db, ⟨Nat.le_refl _, by rw [List.take_length]; exact inv.tables⟩, made⟩
    · rintro _ _ earlier ⟨⟩ loaded
      obtain ⟨_, is, _⟩ := sound.snapshot earlier loaded
      exact is.1
  | receive gateway reply =>
    simp only [step, Option.bind_eq_bind, Option.bind_eq_some_iff, Option.ite_none_right_eq_some] at stepped
    obtain ⟨i, found, allowed, ⟨⟩⟩ := stepped
    refine placed ?_
    rintro _ ⟨⟩
    exact (inv.gateway gateway i found).refreshed laws allowed
  | stop gateway =>
    cases stepped
    refine placed ?_
    intros
    contradiction

theorem answer_whole (laws : json.Documented) (collate : Str → Str → Bool) (stored : Stored db) :
    ∃ text, Gateway.routesText json (published collate db) = some text ∧
      answerBody json collate db = some (text ++ [10]) ∧
      ∀ routes, Gateway.listRoutesReply json parse (.response 200 (text ++ [10]) false) = .ok routes ↔
        text.length ≤ Gateway.maxResponseSize ∧
          Gateway.responseToDomain parse (published collate db) = .ok routes := by
  obtain ⟨value, written, composite, shallow, decoded⟩ :=
    Gateway.routesText_written laws (published_storable stored collate)
  refine ⟨json.encode value, written, by rw [answerBody, written]; rfl, ?_⟩
  intro routes
  have size : ((json.encode value ++ [10]).take Gateway.maxResponseSize).length < (json.encode value).length ↔
      ¬ (json.encode value).length ≤ Gateway.maxResponseSize := by
    rw [List.length_take, List.length_append, List.length_singleton]
    omega
  rw [Gateway.listRoutesReply_part laws composite shallow decoded List.prefix_rfl]
  simp only [size, Bool.false_and, Bool.false_eq_true, if_false]
  by_cases fits : (json.encode value).length ≤ Gateway.maxResponseSize
  · rw [if_neg (not_not.mpr fits)]
    cases Gateway.responseToDomain parse (published collate db) with
    | error cause => simp
    | ok loaded => simp [fits]
  · rw [if_pos fits]
    simp [fits]

theorem rateLimit_kept {r : Gateway.RouteResponse} {policy : Gateway.RateLimitPolicy}
    (limited : r.toRateLimitPolicy = .ok policy) :
    policy.enabled = r.rateLimitEnabled ∧ policy.limit = r.rateLimitRequests := by
  unfold Gateway.RouteResponse.toRateLimitPolicy at limited
  split at limited
  · rename_i disabled
    obtain ⟨zero, ⟨⟩⟩ := check_passed limited
    rw [not_or, not_not, not_not] at zero
    exact ⟨disabled.symm, zero.1.symm⟩
  · rename_i enabled
    obtain ⟨_, limited⟩ := check_passed limited
    obtain ⟨_, ⟨⟩⟩ := check_passed limited
    exact ⟨(Bool.not_eq_false _ ▸ enabled).symm, rfl⟩

theorem loaded_row {operations : List Operation} {version : Nat} (is : Version parse operations version db)
    {routes : List Gateway.Route} (loaded : Gateway.responseToDomain parse (published collate db) = .ok routes)
    {route : Gateway.Route} (member : route ∈ routes) :
    ∃ row ∈ db.enabledRoutes, ∃ service, db.serviceOf row.serviceID = some service ∧
      route.projectID = service.projectID.text ∧ route.upstreamURL = service.upstreamURL ∧
      route.pathPrefix = key row ∧ route.authRequired = row.route.authRequired ∧
      route.rateLimit.enabled = row.route.rateLimit.enabled ∧ route.rateLimit.limit = row.route.rateLimit.requests := by
  have valid : db.Valid parse := run_invariant step_valid is.2 (Database.valid_empty parse)
  obtain ⟨response, listed, domain⟩ := Gateway.loadRoutes_mem loaded route member
  obtain ⟨row, enabled, service, found, rfl⟩ := (mem_published collate response).mp listed
  obtain ⟨limited, fields⟩ := Gateway.toDomain_route domain
  obtain ⟨trimmed, _⟩ := valid.upstream service (List.mem_of_find?_eq_some found)
  obtain ⟨same, limit⟩ := rateLimit_kept limited
  refine ⟨row, enabled, service, found, ?_, ?_, ?_, ?_, same, limit⟩
  · exact (congrArg Gateway.Route.projectID fields).trans (Uuid.trimSpace_text service.projectID)
  · exact (congrArg Gateway.Route.upstreamURL fields).trans trimmed
  · exact congrArg Gateway.Route.pathPrefix fields
  · exact congrArg Gateway.Route.authRequired fields

theorem run_refresh (laws : json.Documented) {actions : List Action}
    (path : run (step json parse collate) .start actions = some s) : Invariant json parse collate s :=
  run_invariant (step_invariant laws) path start_invariant

/-- The answer that a gateway gets while only the first of two routes exists. -/
def firstAnswer : Str :=
  (answerBody compactStream bytewise { twoTenantTables with routes := twoTenantTables.routes.take 1 }).getD []

/-- The second route comes into being between the answer to the gateway and its arrival. -/
def lateAnswer : List Action :=
  ((twoTenants (lit "/api") (lit "/v2/")).take 5).map .operate ++ [.start 0 [], .request 0, .answer 0] ++
    ((twoTenants (lit "/api") (lit "/v2/")).drop 5).map .operate ++
    [.receive 0 (.response 200 firstAnswer false)]

theorem lateAnswer_run : ∃ s i, run (step compactStream parsePlain bytewise) .start lateAnswer = some s ∧
    s.gateways 0 = some i ∧ i.loaded = some 5 ∧ i.request = .none ∧ s.operations.length = 6 := by
  have observed : (run (step compactStream parsePlain bytewise) .start lateAnswer).bind
      (fun s => (s.gateways 0).map (fun i => (i.loaded, i.request, s.operations.length))) =
        some (some 5, .none, 6) := by decide +kernel
  obtain ⟨s, path, report⟩ := Option.bind_eq_some_iff.mp observed
  obtain ⟨i, found, same⟩ := Option.map_eq_some_iff.mp report
  simp only [Prod.mk.injEq] at same
  exact ⟨s, i, path, found, same⟩

/-- A gateway at a later moment: its snapshot is not older than the one before, and a new
one is not older than the base. -/
structure Later (base : Nat) (before : Instance) (now : Instance) : Prop where
  order : ∀ earlier, before.loaded = some earlier → ∃ version, now.loaded = some version ∧ earlier ≤ version
  fresh : now.loaded = before.loaded ∨ ∃ version, now.loaded = some version ∧ base ≤ version
  answer : ∀ body version, now.request = .answered body version → base ≤ version

theorem Later.refreshed {base : Nat} {before now : Instance} (later : Later base before now)
    {operations : List Operation} (sound : now.Sound json parse collate operations)
    (outcome : Except Gateway.RouteSourceError (List Gateway.Route)) (answered : ∀ routes, outcome = .ok routes →
      ∃ body version, now.request = .answered body version) : Later base before (now.refreshed outcome) := by
  cases outcome with
  | error cause => exact ⟨later.order, later.fresh, nofun⟩
  | ok routes =>
    obtain ⟨body, version, request⟩ := answered routes rfl
    have loaded : (now.refreshed (.ok routes)).loaded = some version := by
      rw [Instance.refreshed, request]
      rfl
    refine ⟨?_, .inr ⟨version, loaded, later.answer body version request⟩, nofun⟩
    intro earlier found
    obtain ⟨middle, is, bound⟩ := later.order earlier found
    exact ⟨version, loaded, bound.trans (sound.newer body version middle request is)⟩

theorem step_later (laws : json.Documented) {base gateway : Nat} {before : Instance} {action : Action}
    (running : action ≠ .stop gateway) (held : Invariant json parse collate s ∧ base ≤ s.operations.length ∧
      ∃ now, s.gateways gateway = some now ∧ Later base before now)
    (stepped : step json parse collate s action = some t) :
    Invariant json parse collate t ∧ base ≤ t.operations.length ∧
      ∃ now, t.gateways gateway = some now ∧ Later base before now := by
  obtain ⟨inv, bound, now, found, later⟩ := held
  refine ⟨step_invariant laws inv stepped, ?_⟩
  have others {other : Nat} {i : Option Instance} (different : gateway ≠ other) :
      (s.place other i).gateways gateway = some now :=
    (Function.update_of_ne different ..).trans found
  -- the instance that moved is this one or another
  have moved {other : Nat} {i j : Instance} (there : s.gateways other = some i)
      (next : other = gateway → i = now → Later base before j) :
      base ≤ (s.place other (some j)).operations.length ∧
        ∃ now, (s.place other (some j)).gateways gateway = some now ∧ Later base before now := by
    refine ⟨bound, ?_⟩
    by_cases same : gateway = other
    · subst same
      exact ⟨j, Function.update_self .., next rfl (Option.some.inj (there.symm.trans found))⟩
    · exact ⟨now, others same, later⟩
  cases action with
  | operate operation =>
    obtain ⟨db, _, rfl⟩ := Option.map_eq_some_iff.mp stepped
    refine ⟨?_, now, found, later⟩
    simp only [List.length_append]
    omega
  | start other fallback =>
    simp only [step] at stepped
    split at stepped
    · contradiction
    · rename_i unused
      cases stepped
      refine ⟨bound, now, others ?_, later⟩
      rintro rfl
      cases unused.symm.trans found
  | request other =>
    simp only [step, Option.bind_eq_bind, Option.bind_eq_some_iff, Option.ite_none_right_eq_some] at stepped
    obtain ⟨i, there, _, ⟨⟩⟩ := stepped
    refine moved there ?_
    rintro rfl rfl
    exact ⟨later.order, later.fresh, nofun⟩
  | answer other =>
    simp only [step, Option.bind_eq_bind, Option.bind_eq_some_iff, Option.ite_none_right_eq_some] at stepped
    obtain ⟨i, there, body, _, _, ⟨⟩⟩ := stepped
    refine moved there ?_
    rintro rfl rfl
    refine ⟨later.order, later.fresh, ?_⟩
    rintro _ _ ⟨⟩
    exact bound
  | receive other reply =>
    simp only [step, Option.bind_eq_bind, Option.bind_eq_some_iff, Option.ite_none_right_eq_some] at stepped
    obtain ⟨i, there, allowed, ⟨⟩⟩ := stepped
    refine moved there ?_
    rintro rfl rfl
    exact later.refreshed (inv.gateway other i there) _ (fun _ loaded => accepted_answered allowed loaded)
  | stop other =>
    cases stepped
    refine ⟨bound, now, others ?_, later⟩
    rintro rfl
    exact running rfl

theorem run_later (laws : json.Documented) {base gateway : Nat} {i : Instance} {actions : List Action}
    (inv : Invariant json parse collate s) (bound : base ≤ s.operations.length) (found : s.gateways gateway = some i)
    (answer : ∀ body version, i.request = .answered body version → base ≤ version)
    (path : run (step json parse collate) s actions = some t) (running : ∀ action ∈ actions, action ≠ .stop gateway) :
    Invariant json parse collate t ∧ ∃ j, t.gateways gateway = some j ∧ Later base i j := by
  have first : Later base i i := ⟨fun earlier loaded => ⟨earlier, loaded, Nat.le_refl _⟩, .inl rfl, answer⟩
  obtain ⟨inv, _, last⟩ := run_invariant_along (step_later laws) path
    (along_of_forall (fun _ action member => running action member) s) ⟨inv, bound, i, found, first⟩
  exact ⟨inv, last⟩

end Invariant

end EdgeGuard.RouteRefresh
