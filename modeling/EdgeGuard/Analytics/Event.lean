import EdgeGuard.Go.Encoding
import EdgeGuard.Go.Time

/-! The gateway access event and its own validation. -/
namespace EdgeGuard.Analytics
open Go

def gatewayAccessEventSchemaVersion : Int := 1
def clientTypeAPIKey : Str := lit "api_key"
def clientTypeIP : Str := lit "ip"

structure GatewayAccessEvent where
  schemaVersion : Int
  eventID : Str
  occurredAt : Time
  requestID : Str
  projectID : Str
  routeName : Str
  routePathPrefix : Str
  method : Str
  requestPath : Str
  statusCode : Int
  durationMS : Int
  responseBytes : Int
  clientType : Str
  clientID : Str
  authRequired : Bool
  rateLimitEnabled : Bool
  rateLimited : Bool
  deriving DecidableEq, Repr

/-- The field `Validate` complains about, with the offending value where the
message quotes it. -/
inductive EventError where
  | schemaVersion (value : Int)
  | eventID
  | occurredAt
  | requestID
  | projectID (value : Str)
  | method
  | requestPath
  | statusCode (value : Int)
  | durationMS
  | responseBytes
  | clientType (value : Str)
  | clientID
  deriving DecidableEq, Repr

def isCanonicalUUID (value : Str) : Bool :=
  if value.length ≠ 36 ∨ value[8]? ≠ some 45 ∨ value[13]? ≠ some 45 ∨ value[18]? ≠ some 45 ∨
      value[23]? ≠ some 45 then false
  else
    let compact := value.filter (· != 45)
    if compact.length ≠ 32 then false else (hexDecode compact).isSome

def GatewayAccessEvent.validate (e : GatewayAccessEvent) : Except EventError Unit :=
  if e.schemaVersion ≠ gatewayAccessEventSchemaVersion then .error (.schemaVersion e.schemaVersion)
  else if trimSpace e.eventID = [] then .error .eventID
  else if e.occurredAt = zeroTime then .error .occurredAt
  else if trimSpace e.requestID = [] then .error .requestID
  else if trimSpace e.projectID ≠ [] ∧ isCanonicalUUID (trimSpace e.projectID) = false then
    .error (.projectID (trimSpace e.projectID))
  else if trimSpace e.method = [] then .error .method
  else if trimSpace e.requestPath = [] then .error .requestPath
  else if e.statusCode < 100 ∨ 599 < e.statusCode then .error (.statusCode e.statusCode)
  else if e.durationMS < 0 then .error .durationMS
  else if e.responseBytes < 0 then .error .responseBytes
  else if e.clientType ≠ clientTypeAPIKey ∧ e.clientType ≠ clientTypeIP then
    .error (.clientType e.clientType)
  else if trimSpace e.clientID = [] then .error .clientID
  else .ok ()

/-- An event passes `Validate` exactly when each field does. -/
theorem validate_ok_iff {e : GatewayAccessEvent} : e.validate = .ok () ↔
    e.schemaVersion = gatewayAccessEventSchemaVersion ∧ trimSpace e.eventID ≠ [] ∧
    e.occurredAt ≠ zeroTime ∧ trimSpace e.requestID ≠ [] ∧
    (trimSpace e.projectID = [] ∨ isCanonicalUUID (trimSpace e.projectID) = true) ∧
    trimSpace e.method ≠ [] ∧ trimSpace e.requestPath ≠ [] ∧
    (100 ≤ e.statusCode ∧ e.statusCode ≤ 599) ∧ 0 ≤ e.durationMS ∧ 0 ≤ e.responseBytes ∧
    (e.clientType = clientTypeAPIKey ∨ e.clientType = clientTypeIP) ∧ trimSpace e.clientID ≠ [] := by
  simp only [GatewayAccessEvent.validate, check_ok_iff, ne_eq, not_and_or, not_not, not_or, not_lt,
    Bool.not_eq_false, and_true]

/-- The checks of `Validate` that the tables rely on. -/
structure GatewayAccessEvent.Checked (e : GatewayAccessEvent) : Prop where
  version : e.schemaVersion = gatewayAccessEventSchemaVersion
  project : trimSpace e.projectID = [] ∨ isCanonicalUUID (trimSpace e.projectID) = true
  status : 100 ≤ e.statusCode ∧ e.statusCode ≤ 599
  duration : 0 ≤ e.durationMS
  bytes : 0 ≤ e.responseBytes
  client : e.clientType = clientTypeAPIKey ∨ e.clientType = clientTypeIP

theorem validate_checked {e : GatewayAccessEvent} (valid : e.validate = .ok ()) : e.Checked := by
  obtain ⟨version, _, _, _, project, _, _, status, duration, bytes, client, _⟩ :=
    validate_ok_iff.mp valid
  exact ⟨version, project, status, duration, bytes, client⟩

end EdgeGuard.Analytics
