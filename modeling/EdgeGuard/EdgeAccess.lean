import EdgeGuard.Auth.KeyManagement
import EdgeGuard.Gateway.AuthClient
import EdgeGuard.Go.JsonStream

/-! Requests at the Gateway while accounts, keys and routes change. A protected request is
resolved in one snapshot, its key is read by one statement and its use recorded by another,
and the answer travels back; anything can happen in between. Each request is still handled
as the handler would alone on the tables it met, and behind each one that is proxied there
is an account that logged in. -/
namespace EdgeGuard.EdgeAccess
open Go Go.Json Postgres Transition
open Gateway (AuthAnswer AuthService Exchange Handler Limiter answerValidation authorizationAnswer limitAndProxy
  proxyRequest resolveRoute)

structure Setting (ν : Type) where
  deployment : Auth.Deployment
  json : Stream ν
  splitHostPort : Str → Option Str

/-- How far the validation of a key has come: the request is under way, its row has been
read from a table, or there is an answer, with the keys that had been revoked by then. -/
inductive Phase where
  | asking
  | looked (keys : Auth.Keys) (key : Auth.APIKeyRow) (now : Time)
  | answered (env : Auth.Validation) (answer : AuthAnswer) (revoked : List Uuid)

/-- A protected request that waits for the auth service. -/
structure Waiting where
  request : Gateway.Request
  routes : List Gateway.Route
  route : Gateway.Route
  phase : Phase

/-- A request that is done, with the handler as it was to this request. -/
structure Finished where
  request : Gateway.Request
  handler : Handler
  revoked : List Uuid
  exchange : Exchange

structure State where
  service : Auth.Service
  routes : List Gateway.Route
  revoked : List Uuid
  calls : Nat → Option Waiting
  finished : List Finished

def State.start : State := ⟨.start, [], [], fun _ => none, []⟩

/-- A step of the auth service, a new snapshot of the routes, or a step of a request: it
arrives, its key is looked up, the use is recorded, the reply is received. -/
inductive Action where
  | service (action : Auth.ServiceAction)
  | load (routes : List Gateway.Route)
  | arrive (caller : Nat) (request : Gateway.Request) (limiter : Option Limiter)
  | lookup (caller : Nat) (now : Time) (failed : Bool)
  | record (caller : Nat) (reply : Auth.Reply)
  | receive (caller : Nat) (reply : Gateway.Reply) (limiter : Option Limiter)

/-- The key that a step revokes. -/
def revocation (s : Auth.Service) : Auth.ServiceAction → List Uuid
  | .serve _ (.revoke projectID apiKeyID now) false =>
    if (Auth.revokeAPIKey s.keys projectID apiKeyID now).isSome then (Uuid.parse (trimSpace apiKeyID)).toList else []
  | _ => []

/-- A database that does not answer. -/
def unanswered (now : Time) : Auth.Validation := ⟨true, none, none, now⟩

def Phase.env : Phase → Auth.Validation
  | .asking => unanswered zeroTime
  | .looked keys _ now => ⟨true, some keys, none, now⟩
  | .answered env _ _ => env

def Phase.answer : Phase → Option AuthAnswer
  | .answered _ answer _ => some answer
  | _ => none

def Phase.revoked : Phase → List Uuid
  | .answered _ _ revoked => revoked
  | _ => []

def State.place (s : State) (caller : Nat) (call : Option Waiting) : State :=
  { s with calls := Function.update s.calls caller call }

def State.done (s : State) (caller : Nat) (result : Finished) : State :=
  { s.place caller none with finished := s.finished ++ [result] }

section Steps
variable {ν : Type} (x : Setting ν)

/-- `proxyRequest` up to the call of the auth service. -/
def arrives (s : State) (caller : Nat) (request : Gateway.Request) (limiter : Option Limiter) : State :=
  let handler : Handler := ⟨s.routes, some ⟨false, unanswered zeroTime⟩, limiter, x.splitHostPort⟩
  match resolveRoute s.routes request.path with
  | none => s.done caller ⟨request, handler, [], ⟨[], none, some (404, "route not found\n")⟩⟩
  | some route =>
    if route.authRequired = false then
      s.done caller ⟨request, handler, [], limitAndProxy handler request route ⟨[], []⟩⟩
    else if trimSpace request.apiKey = [] then
      s.done caller ⟨request, handler, [], ⟨[], none, some (authorizationAnswer .apiKeyRequired)⟩⟩
    else s.place caller (some ⟨request, s.routes, route, .asking⟩)

/-- `validateAPIKey` of the auth service up to the check of the row. -/
def looksUp (keys : Auth.Keys) (header : Str) (now : Time) (failed : Bool) (revoked : List Uuid) : Phase :=
  let rawAPIKey := trimSpace header
  if failed then match Auth.parseAPIKey x.deployment.platform.sha256 rawAPIKey with
    | none => .answered (unanswered now) (.status 401) revoked
    | some _ => .answered (unanswered now) (.status 500) revoked
  else match Auth.lookupAPIKey x.deployment.platform.sha256 keys rawAPIKey now with
    | .error _ => .answered ⟨true, some keys, none, now⟩ (.status 401) revoked
    | .ok key => .looked keys key now

/-- The rest of it, on the table as it is by then. -/
def records (later : Auth.Keys) (keys : Auth.Keys) (key : Auth.APIKeyRow) (now : Time) (reply : Auth.Reply)
    (revoked : List Uuid) : Auth.Keys × Phase :=
  match reply, later.updateAPIKeyLastUsedAt key.id now with
  | .failed, _ => (later, .answered ⟨true, some keys, none, now⟩ (.status 500) revoked)
  | .lost, none => (later, .answered ⟨true, some keys, none, now⟩ (.status 500) revoked)
  | .lost, some next => (next, .answered ⟨true, some keys, none, now⟩ (.status 500) revoked)
  | .answered, none => (later, .answered ⟨true, some keys, some later, now⟩ (.status 401) revoked)
  | .answered, some next =>
    (next, .answered ⟨true, some keys, some later, now⟩ (.principal key.id.text key.projectID.text) revoked)

/-- The rest of `proxyRequest`, on the outcome of the client. -/
def concludes (call : Waiting) (limiter : Option Limiter) :
    Except Gateway.AuthClient.ClientError Auth.Principal → Finished
  | .error err =>
    let reachable := decide (err = .invalidAPIKey)
    let handler : Handler := ⟨call.routes, some ⟨reachable, call.phase.env⟩, limiter, x.splitHostPort⟩
    ⟨call.request, handler, call.phase.revoked, ⟨[], none, some (authorizationAnswer err.toGateway)⟩⟩
  | .ok principal =>
    let handler : Handler := ⟨call.routes, some ⟨true, call.phase.env⟩, limiter, x.splitHostPort⟩
    if principal.projectID ≠ call.route.projectID then
      ⟨call.request, handler, call.phase.revoked,
        ⟨[], none, some (authorizationAnswer .apiKeyProjectMismatch)⟩⟩
    else ⟨call.request, handler, call.phase.revoked, limitAndProxy handler call.request call.route principal⟩

/-- Only the auth service's own answers reach the client, whole or in part. -/
def step (s : State) : Action → Option State
  | .service action => (Auth.serviceStep x.deployment s.service action).map
      (fun service => { s with service, revoked := s.revoked ++ revocation s.service action })
  | .load routes => some { s with routes }
  | .arrive caller request limiter => match s.calls caller with
    | some _ => none
    | none => some (arrives x s caller request limiter)
  | .lookup caller now failed => match s.calls caller with
    | some ⟨request, routes, route, .asking⟩ => some (s.place caller
        (some ⟨request, routes, route, looksUp x s.service.keys request.apiKey now failed s.revoked⟩))
    | _ => none
  | .record caller reply => match s.calls caller with
    | some ⟨request, routes, route, .looked keys key now⟩ =>
      let (next, phase) := records s.service.keys keys key now reply s.revoked
      some { s.place caller (some ⟨request, routes, route, phase⟩) with service := { s.service with keys := next } }
    | _ => none
  | .receive caller reply limiter => match s.calls caller with
    | none => none
    | some call => some (s.done caller (concludes x call limiter (Gateway.AuthClient.validateAPIKeyReply x.json reply)))

/-- The replies that can come, and no token that the service has not signed. -/
def Possible (s : State) : Action → Prop
  | .service action => Auth.Unforged x.deployment s.service action
  | .receive caller reply _ => ∀ call, s.calls caller = some call →
      Gateway.AuthClient.Allows x.json call.phase.answer reply
  | _ => True

end Steps

variable {ν : Type} {x : Setting ν} {s t : State}

abbrev Served := List (Auth.Admission × Auth.KeyCall)

/-- A table that a request has met: it is sound, and calls that were served account for it. -/
def Table (x : Setting ν) (served : Served) (keys : Auth.Keys) : Prop :=
  keys.Valid x.deployment.platform.sha256 ∧ keys.Explained served

/-- The tables of a validation, and what had been revoked when its use was recorded. -/
structure Met (x : Setting ν) (served : Served) (env : Auth.Validation) (revoked : List Uuid) : Prop where
  lookup : ∀ keys, env.lookup = some keys → Table x served keys
  update : ∀ later, env.update = some later → ∀ id ∈ revoked, later.Disabled id

def Phase.Sound (x : Setting ν) (served : Served) (header : Str) : Phase → Prop
  | .asking => True
  | .looked keys key now => Table x served keys ∧
      Auth.lookupAPIKey x.deployment.platform.sha256 keys (trimSpace header) now = .ok key
  | .answered env answer revoked => Met x served env revoked ∧ Gateway.AuthClient.Proper answer ∧
      answerValidation x.deployment.platform.sha256 env header = answer

structure Waiting.Sound (x : Setting ν) (served : Served) (call : Waiting) : Prop where
  resolved : resolveRoute call.routes call.request.path = some call.route
  guarded : call.route.authRequired = true
  presented : trimSpace call.request.apiKey ≠ []
  phase : call.phase.Sound x served call.request.apiKey

/-- The request was handled as if it were alone. -/
structure Finished.Sound (x : Setting ν) (served : Served) (result : Finished) : Prop where
  exchange : result.exchange = proxyRequest x.deployment.platform.sha256 result.handler result.request
  met : ∀ auth, result.handler.validator = some auth → Met x served auth.env result.revoked

structure Invariant (x : Setting ν) (s : State) : Prop where
  service : s.service.Sound x.deployment
  keys : s.service.keys.Valid x.deployment.platform.sha256
  distinct : (s.service.keys.rows.map (·.id)).Nodup
  disabled : ∀ id ∈ s.revoked, s.service.keys.Disabled id
  calls : ∀ caller call, s.calls caller = some call → call.Sound x s.service.served
  finished : ∀ result ∈ s.finished, result.Sound x s.service.served

theorem start_invariant : Invariant x .start where
  service := Auth.service_start_sound
  keys := Auth.Keys.valid_empty _
  distinct := List.nodup_nil
  disabled := by simp [State.start]
  calls := by simp [State.start]
  finished := by simp [State.start]

section Later
variable {served more : Served} (kept : served ⊆ more)
include kept

theorem Met.later {env : Auth.Validation} {revoked : List Uuid} (met : Met x served env revoked) :
    Met x more env revoked where
  lookup := fun keys looked => ⟨(met.lookup keys looked).1, (met.lookup keys looked).2.mono kept⟩
  update := met.update

theorem Phase.Sound.later {phase : Phase} {header : Str} (sound : phase.Sound x served header) :
    phase.Sound x more header := by
  cases phase with
  | asking => trivial
  | looked keys key now => exact ⟨⟨sound.1.1, sound.1.2.mono kept⟩, sound.2⟩
  | answered env answer revoked => exact ⟨sound.1.later kept, sound.2⟩

theorem Waiting.Sound.later {call : Waiting} (sound : call.Sound x served) : call.Sound x more :=
  ⟨sound.resolved, sound.guarded, sound.presented, sound.phase.later kept⟩

theorem Finished.Sound.later {result : Finished} (sound : result.Sound x served) : result.Sound x more :=
  ⟨sound.exchange, fun auth configured => (sound.met auth configured).later kept⟩

end Later

theorem met_unanswered {served : Served} (now : Time) (revoked : List Uuid) :
    Met x served (unanswered now) revoked where
  lookup := by simp [unanswered]
  update := by simp [unanswered]

theorem met_unrecorded {served : Served} {keys : Auth.Keys} (table : Table x served keys) (now : Time)
    (revoked : List Uuid) : Met x served ⟨true, some keys, none, now⟩ revoked where
  lookup := by
    intro other same
    cases same
    exact table
  update := by simp

theorem Invariant.place (before : Invariant x s) (caller : Nat) {call : Waiting}
    (goes : call.Sound x s.service.served) : Invariant x (s.place caller (some call)) := by
  refine { before with calls := ?_ }
  intro other waiting found
  rcases update_found found with ⟨earlier, _⟩ | ⟨_, moved⟩
  · exact before.calls other waiting earlier
  · cases moved
    exact goes

theorem Invariant.done (before : Invariant x s) (caller : Nat) {result : Finished}
    (ends : result.Sound x s.service.served) : Invariant x (s.done caller result) := by
  refine { before with calls := ?_, finished := ?_ }
  · intro other waiting found
    rcases update_found found with ⟨earlier, _⟩ | ⟨_, moved⟩
    · exact before.calls other waiting earlier
    · cases moved
  · intro earlier member
    rcases List.mem_append.mp member with old | new
    · exact before.finished earlier old
    · cases List.mem_singleton.mp new
      exact ends

theorem Invariant.serves (before : Invariant x s) {action : Auth.ServiceAction} {service : Auth.Service}
    {revoked : List Uuid} (bcrypt : x.deployment.platform.bcrypt.Documented) (jwt : x.deployment.codec.Documented)
    (unforged : Auth.Unforged x.deployment s.service action)
    (stepped : Auth.serviceStep x.deployment s.service action = some service)
    (disabled : ∀ id ∈ revoked, id ∈ s.revoked ∨ service.keys.Disabled id) :
    Invariant x { s with service, revoked } := by
  have kept : s.service.served ⊆ service.served := Auth.serviceStep_served stepped
  have changed : service.keys.Valid x.deployment.platform.sha256 ∧ s.service.keys.Continues service.keys := by
    rcases Auth.serviceStep_keys stepped with same | ⟨operation, moved⟩
    · rw [same]
      exact ⟨before.keys, .refl _⟩
    · exact ⟨Auth.keyStep_valid before.keys moved, Auth.keyStep_continues moved⟩
  refine ⟨Auth.serviceStep_sound bcrypt jwt unforged before.service stepped, changed.1,
    changed.2.distinct before.distinct, ?_, ?_, ?_⟩
  · intro id member
    rcases disabled id member with earlier | now
    · exact (before.disabled id earlier).continues changed.2
    · exact now
  · intro caller call waiting
    exact (before.calls caller call waiting).later kept
  · intro result member
    exact (before.finished result member).later kept

theorem revocation_disabled {service : Auth.Service} {action : Auth.ServiceAction} (before : Invariant x s)
    (stepped : Auth.serviceStep x.deployment s.service action = some service) :
    ∀ id ∈ revocation s.service action, service.keys.Disabled id := by
  intro id member
  unfold revocation at member
  split at member
  · rename_i caller projectID apiKeyID now
    split at member
    · rename_i done
      obtain ⟨next, revoked⟩ := Option.isSome_iff_exists.mp done
      have keys : service.keys = next := by
        simp only [Auth.serviceStep] at stepped
        split at stepped
        · contradiction
        · cases stepped
          simp [Auth.KeyCall.changes, revoked]
      simp only [Auth.revokeAPIKey, Option.bind_eq_bind, Option.bind_eq_some_iff] at revoked
      obtain ⟨project, _, key, named, disabled⟩ := revoked
      rw [named, Option.toList_some] at member
      cases List.mem_singleton.mp member
      rw [keys]
      exact Auth.disableAPIKey_disabled before.distinct disabled
    · contradiction
  · contradiction

section Validation
variable {sha256 : Str → Str} {keys : Auth.Keys} {raw : Str} {now : Time}

theorem validateAPIKey_unrecorded (keys : Auth.Keys) (raw : Str) (now : Time) :
    Auth.validateAPIKey sha256 ⟨true, some keys, none, now⟩ raw =
      (Auth.lookupAPIKey sha256 keys raw now).bind (fun _ => .error .database) := by
  simp only [Auth.validateAPIKey, Auth.lookupAPIKey, Bool.true_eq_false, if_false]
  cases Auth.parseAPIKey sha256 raw with
  | none => rfl
  | some parsed =>
    dsimp only
    cases keys.getAPIKeyByPrefix parsed.keyPrefix with
    | none => rfl
    | some key =>
      dsimp only
      split <;> rfl

theorem lookupAPIKey_error {err : Auth.ValidateError} (failed : Auth.lookupAPIKey sha256 keys raw now = .error err) :
    err = .invalidAPIKey := by
  unfold Auth.lookupAPIKey at failed
  split at failed
  · cases failed
    rfl
  · split at failed
    · cases failed
      rfl
    · split at failed <;> cases failed
      rfl

end Validation

theorem looksUp_sound (before : Invariant x s) (header : Str) (now : Time) (failed : Bool) :
    (looksUp x s.service.keys header now failed s.revoked).Sound x s.service.served header := by
  have table : Table x s.service.served s.service.keys := ⟨before.keys, before.service.keys⟩
  cases failed with
  | true =>
    simp only [looksUp, if_true]
    cases parsed : Auth.parseAPIKey x.deployment.platform.sha256 (trimSpace header) with
    | none =>
      refine ⟨met_unanswered _ _, (by decide : (401 : Nat) ≠ 200), ?_⟩
      simp [answerValidation, Auth.validateAPIKey, unanswered, parsed]
    | some key =>
      refine ⟨met_unanswered _ _, (by decide : (500 : Nat) ≠ 200), ?_⟩
      simp [answerValidation, Auth.validateAPIKey, unanswered, parsed]
  | false =>
    simp only [looksUp, Bool.false_eq_true, if_false]
    cases looked : Auth.lookupAPIKey x.deployment.platform.sha256 s.service.keys (trimSpace header) now with
    | error err =>
      refine ⟨met_unrecorded table _ _, (by decide : (401 : Nat) ≠ 200), ?_⟩
      rw [answerValidation, validateAPIKey_unrecorded, looked, lookupAPIKey_error looked]
      rfl
    | ok key => exact ⟨table, looked⟩

theorem records_sound (before : Invariant x s) {header : Str} {keys : Auth.Keys} {key : Auth.APIKeyRow} {now : Time}
    (table : Table x s.service.served keys)
    (looked : Auth.lookupAPIKey x.deployment.platform.sha256 keys (trimSpace header) now = .ok key)
    (reply : Auth.Reply) :
    (records s.service.keys keys key now reply s.revoked).2.Sound x s.service.served header := by
  have unrecorded :
      (Phase.answered ⟨true, some keys, none, now⟩ (.status 500) s.revoked).Sound x s.service.served header := by
    refine ⟨met_unrecorded table _ _, (by decide : (500 : Nat) ≠ 200), ?_⟩
    rw [answerValidation, validateAPIKey_unrecorded, looked]
    rfl
  have met : Met x s.service.served ⟨true, some keys, some s.service.keys, now⟩ s.revoked := by
    refine ⟨?_, ?_⟩
    · rintro keys ⟨⟩
      exact table
    · rintro later ⟨⟩
      exact before.disabled
  have two := Auth.validateAPIKey_two_steps x.deployment.platform.sha256 keys s.service.keys now (trimSpace header)
  rw [looked] at two
  unfold records
  split
  · exact unrecorded
  · exact unrecorded
  · exact unrecorded
  · rename_i missed
    refine ⟨met, (by decide : (401 : Nat) ≠ 200), ?_⟩
    rw [answerValidation, two]
    simp [Except.bind, Auth.recordUse, missed]
  · rename_i next updated
    refine ⟨met, ⟨key.id, key.projectID, rfl, rfl⟩, ?_⟩
    rw [answerValidation, two]
    simp [Except.bind, Auth.recordUse, updated]

theorem records_keys (later keys : Auth.Keys) (key : Auth.APIKeyRow) (now : Time) (reply : Auth.Reply)
    (revoked : List Uuid) : (records later keys key now reply revoked).1 = later ∨
      later.updateAPIKeyLastUsedAt key.id now = some (records later keys key now reply revoked).1 := by
  unfold records
  split
  · exact .inl rfl
  · exact .inl rfl
  · exact .inr ‹_›
  · exact .inl rfl
  · exact .inr ‹_›

theorem arrives_invariant (before : Invariant x s) (caller : Nat) (request : Gateway.Request)
    (limiter : Option Limiter) : Invariant x (arrives x s caller request limiter) := by
  have met (auth : AuthService) (configured : some (⟨false, unanswered zeroTime⟩ : AuthService) = some auth) :
      Met x s.service.served auth.env [] := by
    cases configured
    exact met_unanswered zeroTime []
  unfold arrives
  dsimp only
  split
  · rename_i missing
    refine before.done caller ⟨?_, met⟩
    simp only [proxyRequest, missing]
  · rename_i route resolved
    split
    · rename_i opened
      refine before.done caller ⟨?_, met⟩
      simp only [proxyRequest, resolved, Gateway.authorizeRoute, opened, if_true]
    · rename_i guarded
      rw [Bool.not_eq_false] at guarded
      split
      · rename_i blank
        refine before.done caller ⟨?_, met⟩
        simp only [proxyRequest, resolved, Gateway.authorizeRoute, guarded, Bool.true_eq_false, if_false, blank,
          if_true]
      · rename_i presented
        exact before.place caller ⟨resolved, guarded, presented, trivial⟩

theorem Phase.Sound.met {served : Served} {phase : Phase} {header : Str} (sound : phase.Sound x served header) :
    Met x served phase.env phase.revoked := by
  cases phase with
  | asking => exact met_unanswered zeroTime []
  | looked keys key now => exact met_unrecorded sound.1 now []
  | answered env answer revoked => exact sound.1

/-- A protected request is authorized as its key is validated. -/
theorem authorizeRoute_validates {sha256 : Str → Str} {auth : AuthService} {route : Gateway.Route} {header : Str}
    (guarded : route.authRequired = true) (presented : trimSpace header ≠ []) :
    Gateway.authorizeRoute sha256 (some auth) route header =
      (auth.validateAPIKey sha256 header).bind (fun principal =>
        if principal.projectID ≠ route.projectID then .error .apiKeyProjectMismatch else .ok principal) := by
  simp only [Gateway.authorizeRoute, guarded, Bool.true_eq_false, if_false, presented]
  cases auth.validateAPIKey sha256 header <;> rfl

/-- The outcome of the client is that of the validation on the tables that were met, with an
auth service that cannot be reached where the client finds it unavailable. -/
theorem outcome_validates (laws : x.json.Documented) {served : Served} {call : Waiting} (sound : call.Sound x served)
    {reply : Gateway.Reply} (allowed : Gateway.AuthClient.Allows x.json call.phase.answer reply) :
    (∃ cause, Gateway.AuthClient.validateAPIKeyReply x.json reply = .error (.unavailable cause)) ∨
      (Gateway.AuthClient.validateAPIKeyReply x.json reply).mapError Gateway.AuthClient.ClientError.toGateway =
        AuthService.validateAPIKey x.deployment.platform.sha256 ⟨true, call.phase.env⟩ call.request.apiKey := by
  have phase := sound.phase
  have proper : ∀ given, call.phase.answer = some given → Gateway.AuthClient.Proper given := by
    intro given answered
    cases met : call.phase with
    | answered env answer revoked =>
      rw [met] at phase answered
      cases answered
      exact phase.2.1
    | _ =>
      rw [met] at answered
      cases answered
  rcases Gateway.AuthClient.validateAPIKeyReply_spec laws allowed proper with unavailable | ⟨given, answered, read⟩
  · exact .inl unavailable
  · refine .inr (read.trans ?_)
    cases met : call.phase with
    | answered env answer revoked =>
      rw [met] at phase answered
      cases answered
      rw [AuthService.validateAPIKey, if_pos rfl]
      exact congrArg (fun answer => Gateway.readPrincipal (some answer)) phase.2.2.symm
    | _ =>
      rw [met] at answered
      cases answered

theorem concludes_sound (laws : x.json.Documented) {served : Served} {call : Waiting} (sound : call.Sound x served)
    {reply : Gateway.Reply} (allowed : Gateway.AuthClient.Allows x.json call.phase.answer reply)
    (limiter : Option Limiter) :
    (concludes x call limiter (Gateway.AuthClient.validateAPIKeyReply x.json reply)).Sound x served := by
  have met := sound.phase.met
  have validates := outcome_validates laws sound allowed
  cases outcome : Gateway.AuthClient.validateAPIKeyReply x.json reply with
  | error err =>
    refine ⟨?_, ?_⟩
    · cases err with
      | unavailable cause =>
        simp only [concludes, proxyRequest, sound.resolved, authorizeRoute_validates sound.guarded sound.presented]
        rfl
      | invalidAPIKey =>
        rw [outcome] at validates
        obtain ⟨cause, other⟩ | refused := validates
        · cases other
        · simp only [concludes, proxyRequest, sound.resolved, authorizeRoute_validates sound.guarded sound.presented,
            decide_true, ← refused]
          rfl
    · rintro auth ⟨⟩
      exact met
  | ok principal =>
    rw [outcome] at validates
    obtain ⟨cause, other⟩ | accepted := validates
    · cases other
    · simp only [concludes]
      split
      · rename_i elsewhere
        refine ⟨?_, ?_⟩
        · simp only [proxyRequest, sound.resolved, authorizeRoute_validates sound.guarded sound.presented, ← accepted]
          simp [Except.mapError, Except.bind, elsewhere]
        · rintro auth ⟨⟩
          exact met
      · rename_i own
        refine ⟨?_, ?_⟩
        · simp only [proxyRequest, sound.resolved, authorizeRoute_validates sound.guarded sound.presented, ← accepted]
          simp [Except.mapError, Except.bind, own]
        · rintro auth ⟨⟩
          exact met

theorem step_invariant (bcrypt : x.deployment.platform.bcrypt.Documented) (jwt : x.deployment.codec.Documented)
    (laws : x.json.Documented) {action : Action} (possible : Possible x s action) (before : Invariant x s)
    (stepped : step x s action = some t) : Invariant x t := by
  cases action with
  | service action =>
    obtain ⟨service, moved, rfl⟩ := Option.map_eq_some_iff.mp stepped
    refine before.serves bcrypt jwt possible moved ?_
    intro id member
    rcases List.mem_append.mp member with old | new
    · exact .inl old
    · exact .inr (revocation_disabled before moved id new)
  | load routes =>
    cases stepped
    exact { before with }
  | arrive caller request limiter =>
    simp only [step] at stepped
    split at stepped
    · contradiction
    · cases stepped
      exact arrives_invariant before caller request limiter
  | lookup caller now failed =>
    simp only [step] at stepped
    split at stepped
    · rename_i request routes route waiting
      cases stepped
      have call := before.calls caller _ waiting
      exact before.place caller ⟨call.resolved, call.guarded, call.presented, looksUp_sound before _ now failed⟩
    · contradiction
  | record caller reply =>
    simp only [step] at stepped
    split at stepped
    · rename_i request routes route keys key now waiting
      cases stepped
      have call := before.calls caller _ waiting
      have goes : Waiting.Sound x s.service.served
          ⟨request, routes, route, (records s.service.keys keys key now reply s.revoked).2⟩ :=
        ⟨call.resolved, call.guarded, call.presented, records_sound before call.phase.1 call.phase.2 reply⟩
      rcases records_keys s.service.keys keys key now reply s.revoked with same | updated
      · rw [same]
        exact before.place caller goes
      · have used : Auth.serviceStep x.deployment s.service (.used key.id now) =
            some { s.service with keys := (records s.service.keys keys key now reply s.revoked).1 } := by
          rw [Auth.serviceStep, updated]
          rfl
        have unforged : Auth.Unforged x.deployment s.service (.used key.id now) := trivial
        exact (before.serves bcrypt jwt unforged used (fun id earlier => .inl earlier)).place caller goes
    · contradiction
  | receive caller reply limiter =>
    simp only [step] at stepped
    split at stepped
    · contradiction
    · rename_i call waiting
      cases stepped
      exact before.done caller (concludes_sound laws (before.calls caller call waiting) (possible call waiting) limiter)

theorem run_edge (bcrypt : x.deployment.platform.bcrypt.Documented) (jwt : x.deployment.codec.Documented)
    (laws : x.json.Documented) {actions : List Action} (path : run (step x) .start actions = some s)
    (possible : Along (step x) (Possible x) .start actions) : Invariant x s :=
  run_invariant_along (step_invariant bcrypt jwt laws) path possible start_invariant

section History
variable {actions : List Action} {request : Gateway.Request} {routes : List Gateway.Route} {env : Auth.Validation}
  {revoked : List Uuid} {caller arrived looked recorded : Nat}

/-- The actions of a run that a request was handled by, in their order: the routes are those
it met when it arrived, and the tables those of its lookup and of the record of its use. -/
structure HandledAt (x : Setting ν) (actions : List Action) (request : Gateway.Request) (routes : List Gateway.Route)
    (env : Auth.Validation) (revoked : List Uuid) (caller arrived looked recorded : Nat) : Prop where
  ordered : arrived ≤ looked ∧ looked ≤ recorded
  resolved : ∃ u limiter, TakenAt (step x) .start actions arrived u (.arrive caller request limiter) ∧ u.routes = routes
  lookup : ∀ keys, env.lookup = some keys → ∃ v,
    TakenAt (step x) .start actions looked v (.lookup caller env.now false) ∧ v.service.keys = keys
  update : ∀ later, env.update = some later → ∃ w,
    TakenAt (step x) .start actions recorded w (.record caller .answered) ∧ w.service.keys = later ∧ w.revoked = revoked

theorem HandledAt.append (handled : HandledAt x actions request routes env revoked caller arrived looked recorded)
    (action : Action) :
    HandledAt x (actions ++ [action]) request routes env revoked caller arrived looked recorded where
  ordered := handled.ordered
  resolved :=
    let ⟨u, limiter, taken, met⟩ := handled.resolved
    ⟨u, limiter, taken.append _, met⟩
  lookup := fun keys found =>
    let ⟨v, taken, met⟩ := handled.lookup keys found
    ⟨v, taken.append _, met⟩
  update := fun later found =>
    let ⟨w, taken, met⟩ := handled.update later found
    ⟨w, taken.append _, met⟩

theorem HandledAt.before (handled : HandledAt x actions request routes env revoked caller arrived looked recorded) :
    arrived ≤ actions.length ∧ (env.lookup.isSome → looked ≤ actions.length) := by
  constructor
  · obtain ⟨_, _, taken, _⟩ := handled.resolved
    exact Nat.le_of_lt (List.getElem?_eq_some_iff.mp taken.2).1
  · intro found
    obtain ⟨keys, found⟩ := Option.isSome_iff_exists.mp found
    obtain ⟨_, taken, _⟩ := handled.lookup keys found
    exact Nat.le_of_lt (List.getElem?_eq_some_iff.mp taken.2).1

theorem handledAt_arrival (path : run (step x) .start actions = some s) (caller : Nat) (request : Gateway.Request)
    (limiter : Option Limiter) : HandledAt x (actions ++ [.arrive caller request limiter]) request s.routes
      (unanswered zeroTime) [] caller actions.length actions.length actions.length where
  ordered := ⟨Nat.le_refl _, Nat.le_refl _⟩
  resolved := ⟨s, limiter, takenAt_last path _, rfl⟩
  lookup := by simp [unanswered]
  update := by simp [unanswered]

theorem HandledAt.looksUp (handled : HandledAt x actions request routes env revoked caller arrived looked recorded)
    (path : run (step x) .start actions = some s) (header : Str) (now : Time) (failed : Bool) :
    HandledAt x (actions ++ [.lookup caller now failed]) request routes
      (looksUp x s.service.keys header now failed s.revoked).env
      (looksUp x s.service.keys header now failed s.revoked).revoked caller arrived actions.length actions.length := by
  refine ⟨⟨handled.before.1, Nat.le_refl _⟩, (handled.append _).resolved, ?_, ?_⟩
  · cases failed with
    | true =>
      simp only [EdgeAccess.looksUp, if_true]
      split <;> simp [Phase.env, unanswered]
    | false =>
      simp only [EdgeAccess.looksUp, Bool.false_eq_true, if_false]
      split
      all_goals
        rintro keys ⟨⟩
        exact ⟨s, takenAt_last path _, rfl⟩
  · unfold EdgeAccess.looksUp
    dsimp only
    repeat' split
    all_goals simp [Phase.env, unanswered]

theorem HandledAt.records {keys : Auth.Keys} {now : Time}
    (handled : HandledAt x actions request routes ⟨true, some keys, none, now⟩ revoked caller arrived looked recorded)
    (path : run (step x) .start actions = some s) (key : Auth.APIKeyRow) (reply : Auth.Reply) :
    HandledAt x (actions ++ [.record caller reply]) request routes
      (records s.service.keys keys key now reply s.revoked).2.env
      (records s.service.keys keys key now reply s.revoked).2.revoked caller arrived looked actions.length := by
  have kept := handled.append (.record caller reply)
  have ordered : arrived ≤ looked ∧ looked ≤ actions.length := ⟨handled.ordered.1, handled.before.2 rfl⟩
  unfold EdgeAccess.records
  split
  all_goals
    refine ⟨ordered, kept.resolved, kept.lookup, ?_⟩
    rintro later ⟨⟩
  all_goals exact ⟨s, takenAt_last path _, rfl, rfl⟩

/-- Every request of a state was handled by actions of the run. -/
structure Traced (x : Setting ν) (actions : List Action) (s : State) : Prop where
  calls : ∀ caller call, s.calls caller = some call → ∃ arrived looked recorded,
    HandledAt x actions call.request call.routes call.phase.env call.phase.revoked caller arrived looked recorded
  finished : ∀ result ∈ s.finished, ∀ auth, result.handler.validator = some auth → ∃ caller arrived looked recorded,
    HandledAt x actions result.request result.handler.routes auth.env result.revoked caller arrived looked recorded

theorem Traced.append (before : Traced x actions s) (action : Action) : Traced x (actions ++ [action]) s where
  calls := fun caller call waiting =>
    let ⟨arrived, looked, recorded, handled⟩ := before.calls caller call waiting
    ⟨arrived, looked, recorded, handled.append action⟩
  finished := fun result member auth configured =>
    let ⟨caller, arrived, looked, recorded, handled⟩ := before.finished result member auth configured
    ⟨caller, arrived, looked, recorded, handled.append action⟩

theorem Traced.place (before : Traced x actions s) {call : Waiting} (handled : HandledAt x actions call.request
      call.routes call.phase.env call.phase.revoked caller arrived looked recorded) :
    Traced x actions (s.place caller (some call)) := by
  refine ⟨?_, before.finished⟩
  intro other waiting found
  rcases update_found found with ⟨earlier, _⟩ | ⟨rfl, moved⟩
  · exact before.calls other waiting earlier
  · cases moved
    exact ⟨arrived, looked, recorded, handled⟩

theorem Traced.done (before : Traced x actions s) {result : Finished}
    (handled : ∀ auth, result.handler.validator = some auth → ∃ arrived looked recorded, HandledAt x actions
      result.request result.handler.routes auth.env result.revoked caller arrived looked recorded) :
    Traced x actions (s.done caller result) := by
  refine ⟨?_, ?_⟩
  · intro other waiting found
    rcases update_found found with ⟨earlier, _⟩ | ⟨_, moved⟩
    · exact before.calls other waiting earlier
    · cases moved
  · intro earlier member auth configured
    rcases List.mem_append.mp member with old | new
    · exact before.finished earlier old auth configured
    · cases List.mem_singleton.mp new
      exact ⟨caller, handled auth configured⟩

theorem arrives_traced (path : run (step x) .start actions = some s) (before : Traced x actions s) (caller : Nat)
    (request : Gateway.Request) (limiter : Option Limiter) :
    Traced x (actions ++ [.arrive caller request limiter]) (arrives x s caller request limiter) := by
  have kept := before.append (.arrive caller request limiter)
  have arrival := handledAt_arrival path caller request limiter
  unfold arrives
  dsimp only
  repeat' split
  case isFalse.isFalse => exact kept.place arrival
  all_goals
    refine kept.done ?_
    rintro auth ⟨⟩
    exact ⟨_, _, _, arrival⟩

theorem concludes_handler (x : Setting ν) (call : Waiting) (limiter : Option Limiter)
    (outcome : Except Gateway.AuthClient.ClientError Auth.Principal) : ∃ reachable exchange,
      concludes x call limiter outcome = ⟨call.request,
        ⟨call.routes, some ⟨reachable, call.phase.env⟩, limiter, x.splitHostPort⟩, call.phase.revoked, exchange⟩ := by
  cases outcome with
  | error err => exact ⟨_, _, rfl⟩
  | ok principal =>
    simp only [concludes]
    split <;> exact ⟨_, _, rfl⟩

theorem step_traced {action : Action} (path : run (step x) .start actions = some s) (before : Traced x actions s)
    (stepped : step x s action = some t) : Traced x (actions ++ [action]) t := by
  have kept := before.append action
  cases action with
  | service action =>
    obtain ⟨service, _, rfl⟩ := Option.map_eq_some_iff.mp stepped
    exact ⟨kept.calls, kept.finished⟩
  | load routes =>
    cases stepped
    exact ⟨kept.calls, kept.finished⟩
  | arrive caller request limiter =>
    simp only [step] at stepped
    split at stepped
    · contradiction
    · cases stepped
      exact arrives_traced path before caller request limiter
  | lookup caller now failed =>
    simp only [step] at stepped
    split at stepped
    · rename_i request routes route waiting
      cases stepped
      obtain ⟨_, _, _, handled⟩ := before.calls caller _ waiting
      exact kept.place (handled.looksUp path _ now failed)
    · contradiction
  | record caller reply =>
    simp only [step] at stepped
    split at stepped
    · rename_i request routes route keys key now waiting
      cases stepped
      obtain ⟨_, _, _, handled⟩ := before.calls caller _ waiting
      have placed : Traced x _ (s.place caller
          (some ⟨request, routes, route, (records s.service.keys keys key now reply s.revoked).2⟩)) :=
        kept.place (handled.records path key reply)
      exact ⟨placed.calls, placed.finished⟩
    · contradiction
  | receive caller reply limiter =>
    simp only [step] at stepped
    split at stepped
    · contradiction
    · rename_i call waiting
      cases stepped
      obtain ⟨_, _, _, handled⟩ := kept.calls caller call waiting
      obtain ⟨reachable, exchange, same⟩ :=
        concludes_handler x call limiter (Gateway.AuthClient.validateAPIKeyReply x.json reply)
      rw [same]
      refine kept.done ?_
      rintro auth ⟨⟩
      exact ⟨_, _, _, handled⟩

theorem run_traced (path : run (step x) .start actions = some s) : Traced x actions s :=
  run_history step_traced path ⟨by simp [State.start], by simp [State.start]⟩

end History

theorem lookupAPIKey_presented {sha256 : Str → Str} {keys : Auth.Keys} {now : Time} {raw : Str} {row : Auth.APIKeyRow}
    (valid : keys.Valid sha256) (presents : Auth.Presents keys now (trimSpace raw) row) :
    Auth.lookupAPIKey sha256 keys (trimSpace raw) now = .ok row := by
  obtain ⟨random, generated⟩ := valid.derived row presents.stored _ presents.value
  have parsed := @Auth.parseAPIKey_generated sha256 (trimSpace raw) random (by rw [trimSpace_idem, generated])
  rw [generated] at parsed
  have found := Auth.getAPIKeyByPrefix_of_mem valid.prefixes presents.stored
  have hash : row.keyHash = Auth.hashAPIKey sha256 (trimSpace raw) := Auth.generated_hash generated
  have matched : Auth.matchAPIKeyHash row.keyHash row.keyHash = true := by
    rw [hash]
    exact (Auth.matchAPIKeyHash_iff _ _).mpr rfl
  have active : row.isActive now = true := Auth.isActive_iff.mpr ⟨presents.enabled, presents.unexpired⟩
  simp only [Auth.lookupAPIKey, parsed, found, matched, active, Bool.true_eq_false, or_self, if_false]

def requestSteps (caller : Nat) (request : Gateway.Request) (now : Time) (text : Str) (limiter : Option Limiter) :
    List Action :=
  [.arrive caller request limiter, .lookup caller now false, .record caller .answered,
    .receive caller (.response 200 text false) limiter]

/-- The steps of a request with a good key when nothing else happens. -/
theorem run_presented (laws : x.json.Documented) (before : Invariant x s) {caller : Nat} (free : s.calls caller = none)
    {request : Gateway.Request} {route : Gateway.Route} (resolved : resolveRoute s.routes request.path = some route)
    (guarded : route.authRequired = true) {now : Time} {row : Auth.APIKeyRow}
    (presents : Auth.Presents s.service.keys now (trimSpace request.apiKey) row)
    (project : row.projectID.text = route.projectID) {text : Str}
    (answer : Gateway.AuthClient.principalText x.json row.id.text row.projectID.text = some text)
    (short : text.length ≤ Gateway.AuthClient.maxResponseSize) (limiter : Option Limiter) :
    ∃ t, run (step x) s (requestSteps caller request now text limiter) = some t ∧
      Along (step x) (Possible x) s (requestSteps caller request now text limiter) ∧
      t.finished = s.finished ++ [⟨request,
        ⟨s.routes, some ⟨true, true, some s.service.keys, some s.service.keys, now⟩, limiter, x.splitHostPort⟩,
        s.revoked, limitAndProxy
          ⟨s.routes, some ⟨true, true, some s.service.keys, some s.service.keys, now⟩, limiter, x.splitHostPort⟩
          request route ⟨row.id.text, row.projectID.text⟩⟩] := by
  have presented : trimSpace request.apiKey ≠ [] := by
    obtain ⟨random, generated⟩ := before.keys.derived row presents.stored _ presents.value
    exact Auth.generated_nonempty generated
  have looked := lookupAPIKey_presented before.keys presents
  obtain ⟨next, updated⟩ := (Auth.updateAPIKeyLastUsedAt_isSome row now).mpr
    ⟨row, presents.stored, rfl, presents.enabled⟩
  have read := Gateway.AuthClient.validateAPIKeyReply_part laws answer (List.prefix_refl text) false
  rw [List.take_of_length_le short, if_neg (by omega), Bool.false_and, if_neg Bool.false_ne_true] at read
  have arrive : step x s (.arrive caller request limiter) =
      some (s.place caller (some ⟨request, s.routes, route, .asking⟩)) := by
    simp only [step, free, arrives, resolved, guarded, Bool.true_eq_false, if_false, presented]
  have look : step x (s.place caller (some ⟨request, s.routes, route, .asking⟩)) (.lookup caller now false) =
      some (s.place caller (some ⟨request, s.routes, route, .looked s.service.keys row now⟩)) := by
    simp only [step, State.place, Function.update_self, looksUp, Bool.false_eq_true, if_false, looked,
      Function.update_idem]
  let known : Waiting := ⟨request, s.routes, route, .answered ⟨true, some s.service.keys, some s.service.keys, now⟩
    (.principal row.id.text row.projectID.text) s.revoked⟩
  let used : State := { s.place caller (some known) with service := { s.service with keys := next } }
  have record : step x (s.place caller (some ⟨request, s.routes, route, .looked s.service.keys row now⟩))
      (.record caller .answered) = some used := by
    simp only [step, State.place, Function.update_self, records, updated, Function.update_idem]
    rfl
  have waiting : used.calls caller = some known := Function.update_self _ _ _
  have receive : step x used (.receive caller (.response 200 text false) limiter) =
      some (used.done caller (concludes x known limiter (.ok ⟨row.id.text, row.projectID.text⟩))) := by
    simp only [step, waiting, read]
  refine ⟨used.done caller (concludes x known limiter (.ok ⟨row.id.text, row.projectID.text⟩)), ?_, ?_, ?_⟩
  · simp only [requestSteps, run, arrive, look, record, receive, Option.bind_some]
  · refine along_cons trivial arrive (along_cons trivial look (along_cons trivial record ⟨?_, fun _ _ => trivial⟩))
    intro call found
    cases waiting.symm.trans found
    exact ⟨rfl, text, answer, List.prefix_refl text⟩
  · have own : ¬ row.projectID.text ≠ route.projectID := not_not.mpr project
    change s.finished ++ [concludes x known limiter (.ok ⟨row.id.text, row.projectID.text⟩)] = _
    simp only [concludes, if_neg own, known]
    rfl

/-- Steps of the auth service are steps of the system. -/
theorem run_serves {service : Auth.Service} {actions : List Auth.ServiceAction}
    (path : run (Auth.serviceStep x.deployment) s.service actions = some service) :
    ∃ revoked, run (step x) s (actions.map .service) = some { s with service, revoked } := by
  induction actions generalizing s with
  | nil =>
    cases path
    exact ⟨s.revoked, rfl⟩
  | cons action rest ih =>
    obtain ⟨middle, stepped, path⟩ := run_cons path
    obtain ⟨revoked, later⟩ :=
      @ih { s with service := middle, revoked := s.revoked ++ revocation s.service action } path
    refine ⟨revoked, ?_⟩
    rw [List.map_cons, run, step, stepped]
    exact later

theorem along_serves {actions : List Auth.ServiceAction}
    (unforged : Along (Auth.serviceStep x.deployment) (Auth.Unforged x.deployment) s.service actions) :
    Along (step x) (Possible x) s (actions.map .service) := by
  induction actions generalizing s with
  | nil => trivial
  | cons action rest ih =>
    refine ⟨unforged.1, ?_⟩
    intro t stepped
    obtain ⟨service, moved, rfl⟩ := Option.map_eq_some_iff.mp stepped
    exact ih (unforged.2 service moved)

def openSetting : Setting Int := ⟨Auth.openDeployment, compactStream, fun _ => none⟩

def partnerRoute : Gateway.Route := { Gateway.sampleRoute with projectID := Auth.partnerProject.text }

def partnerRequest : Gateway.Request := ⟨lit "/orders/7", [Auth.partnerValue], lit "192.0.2.1:80"⟩

def partnerRow : Auth.APIKeyRow := Auth.partnerKeys.rows.headD
  ⟨Auth.partnerKey, Auth.partnerProject, [], [], [], false, none, none, 0, 0⟩

theorem partnerRequest_presents :
    Auth.Presents Auth.partnerKeys Auth.sampleInstant (trimSpace partnerRequest.apiKey) partnerRow :=
  ⟨by decide +kernel, by decide +kernel, by decide +kernel, by decide +kernel⟩

/-- The system when the first account has its key and the route is loaded. -/
theorem partner_ready : ∃ actions s, run (step openSetting) .start actions = some s ∧
    Along (step openSetting) (Possible openSetting) .start actions ∧ s.calls 0 = none ∧
    s.routes = [partnerRoute] ∧ s.service.keys = Auth.partnerKeys := by
  obtain ⟨actions, service, path, unforged, keys, _⟩ := Auth.partnerCall_served
  obtain ⟨revoked, served⟩ := @run_serves Int openSetting .start service actions path
  refine ⟨actions.map .service ++ [.load [partnerRoute]], ⟨service, [partnerRoute], revoked, fun _ => none, []⟩,
    (run_append served _).trans rfl, ?_, rfl, rfl, keys⟩
  exact along_append served (along_serves unforged) ⟨trivial, fun _ _ => trivial⟩

theorem partnerText : ∃ text,
    Gateway.AuthClient.principalText compactStream partnerRow.id.text partnerRow.projectID.text = some text ∧
      text.length ≤ Gateway.AuthClient.maxResponseSize := by
  have observed : (Gateway.AuthClient.principalText compactStream partnerRow.id.text partnerRow.projectID.text).map
      (fun text => decide (text.length ≤ Gateway.AuthClient.maxResponseSize)) = some true := by decide +kernel
  obtain ⟨text, made, short⟩ := Option.map_eq_some_iff.mp observed
  exact ⟨text, made, of_decide_eq_true short⟩

theorem partner_served : ∃ actions s, run (step openSetting) .start actions = some s ∧
    Along (step openSetting) (Possible openSetting) .start actions ∧ ∃ result ∈ s.finished,
      result.request = partnerRequest ∧ Gateway.Call.serveHTTP partnerRoute ∈ result.exchange.calls ∧
      result.handler.validator =
        some ⟨true, true, some Auth.partnerKeys, some Auth.partnerKeys, Auth.sampleInstant⟩ := by
  obtain ⟨actions, s, path, possible, free, routes, keys⟩ := partner_ready
  obtain ⟨text, answer, short⟩ := partnerText
  have before := run_edge Auth.openHasher_documented Auth.sampleCodec_documented compactStream_documented path possible
  have resolved : resolveRoute s.routes partnerRequest.path = some partnerRoute := by
    rw [routes]
    decide +kernel
  have presents := partnerRequest_presents
  rw [← keys] at presents
  obtain ⟨t, runs, later, finished⟩ := run_presented compactStream_documented before free resolved (by decide) presents
    (by decide +kernel) answer short none
  have last {result : Finished} (added : t.finished = s.finished ++ [result]) : result ∈ t.finished := by
    rw [added]
    exact List.mem_append_right _ List.mem_cons_self
  refine ⟨_, t, (run_append path _).trans runs, along_append path possible later, _, last finished, rfl, ?_, ?_⟩
  · exact List.mem_cons_self
  · rw [keys]

/-- The rate limiter is asked for a route, and only the route itself is served. -/
theorem limitAndProxy_route {h : Handler} {request : Gateway.Request} {route other : Gateway.Route}
    {principal : Auth.Principal}
    (served : Gateway.Call.serveHTTP other ∈ (limitAndProxy h request route principal).calls) : other = route := by
  have asks (limiter : Option Limiter) (clientID : Str) :
      Gateway.Call.serveHTTP other ∉ (Gateway.checkRateLimit limiter route clientID).1 := by
    simp only [Gateway.checkRateLimit]
    repeat' split
    all_goals simp
  simp only [limitAndProxy] at served
  have limit := asks h.limiter (Gateway.rateLimitClientID h.splitHostPort request route principal)
  split at served
  · rename_i calls err checked
    rw [checked] at limit
    split at served
    · exact absurd served limit
    · simpa [limit] using served
  · rename_i calls result checked
    rw [checked] at limit
    split at served
    · simpa [limit] using served
    · split at served
      · exact absurd served limit
      · simpa [limit] using served

theorem proxied_authorized {sha256 : Str → Str} {h : Handler} {request : Gateway.Request} {route : Gateway.Route}
    (proxied : Gateway.Call.serveHTTP route ∈ (proxyRequest sha256 h request).calls) :
    ∃ principal, Gateway.authorizeRoute sha256 h.validator route request.apiKey = .ok principal := by
  unfold proxyRequest at proxied
  split at proxied
  · contradiction
  · split at proxied
    · contradiction
    · rename_i principal authorized
      cases limitAndProxy_route proxied
      exact ⟨principal, authorized⟩

end EdgeGuard.EdgeAccess
