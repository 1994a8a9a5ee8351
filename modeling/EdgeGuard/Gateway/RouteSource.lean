import EdgeGuard.Gateway.Snapshot
import EdgeGuard.Go.JsonRecords
import EdgeGuard.Postgres

/-! The routes as they travel: the body that the Control Plane writes and the client of
the Gateway that reads it. The client stops at its size limit and a connection can break,
so that only a part of the body may arrive; no part of it is taken for the whole. -/
namespace EdgeGuard.Gateway
open Go Go.Json

/-- The fields of `gatewayRouteResponse` on one side and `routeResponse` on the other. -/
def routeSchema : List FieldSpec := [
  ⟨lit "project_id", .string, false⟩,
  ⟨lit "name", .string, false⟩,
  ⟨lit "path_prefix", .string, false⟩,
  ⟨lit "upstream_url", .string, false⟩,
  ⟨lit "strip_prefix", .bool, false⟩,
  ⟨lit "timeout_ms", .int, false⟩,
  ⟨lit "auth_required", .bool, false⟩,
  ⟨lit "rate_limit_enabled", .bool, false⟩,
  ⟨lit "rate_limit_requests", .int, false⟩,
  ⟨lit "rate_limit_window_seconds", .int, false⟩]

namespace RouteResponse

def record (r : RouteResponse) : List Datum :=
  [.string r.projectID, .string r.name, .string r.pathPrefix, .string r.upstreamURL, .bool r.stripPrefix,
    .int r.timeoutMS, .bool r.authRequired, .bool r.rateLimitEnabled, .int r.rateLimitRequests,
    .int r.rateLimitWindowSeconds]

def ofRecord : List Datum → Option RouteResponse
  | [.string projectID, .string name, .string pathPrefix, .string upstreamURL, .bool stripPrefix,
      .int timeoutMS, .bool authRequired, .bool rateLimitEnabled, .int rateLimitRequests,
      .int rateLimitWindowSeconds] =>
    some { projectID, name, pathPrefix, upstreamURL, stripPrefix, timeoutMS, authRequired,
           rateLimitEnabled, rateLimitRequests, rateLimitWindowSeconds }
  | _ => none

structure Storable (r : RouteResponse) : Prop where
  texts : ∀ text ∈ [r.projectID, r.name, r.pathPrefix, r.upstreamURL], validUtf8 text = true
  numbers : ∀ number ∈ [r.timeoutMS, r.rateLimitRequests, r.rateLimitWindowSeconds],
    Postgres.int4Ok number = true

end RouteResponse

variable {ν : Type}

section Body
variable (json : Stream ν)

/-- The array that `newGatewayRouteListResponse` encodes to. -/
def routesText (rows : List RouteResponse) : Option Str :=
  ((rows.map RouteResponse.record).mapM (json.writeStruct routeSchema)).map
    (fun members => json.encode (.array (members.map .object)))

/-- The reply to a request: `Do` fails, or a response arrives with as much of its body as
came before the connection broke. -/
inductive Reply where
  | failed
  | response (status : Nat) (body : Str) (broken : Bool)
  deriving DecidableEq, Repr

/-- The errors of `ListRoutes`, by the call that they come from. -/
inductive RouteSourceError where
  | request
  | unreadable (status : Nat)
  | status (status : Nat) (message : Str)
  | decode
  | trailing
  | multiple
  | invalid (cause : SnapshotError)
  deriving DecidableEq, Repr

def decodeRoutes (value : Value ν) : Option (List RouteResponse) :=
  (json.readSlice true routeSchema value).bind (·.mapM RouteResponse.ofRecord)

/-- `ListRoutes` of the client. A break behind the size limit is not noticed. -/
def listRoutesReply (parse : Str → Except String URL) : Reply → Except RouteSourceError (List Route)
  | .failed => .error .request
  | .response status body broken =>
    let read := body.take maxResponseSize
    let noticed := broken && body.length < maxResponseSize
    if status ≠ 200 then
      if noticed then .error (.unreadable status) else .error (.status status (trimSpace read))
    else match json.next read with
      | none => .error .decode
      | some (value, rest) => match decodeRoutes json value with
        | none => .error .decode
        | some response =>
          -- `ensureJSONEOF`
          if json.blank rest = false then match json.next rest with
            | none => .error .trailing
            | some _ => .error .multiple
          else if noticed then .error .trailing
          else match responseToDomain parse response with
            | .error cause => .error (.invalid cause)
            | .ok routes => .ok routes

end Body

variable {json : Stream ν} {parse : Str → Except String URL} {rows : List RouteResponse}

theorem record_fits {r : RouteResponse} (storable : r.Storable) :
    List.Forall₂ (fun field datum => Datum.Fits datum field) routeSchema r.record := by
  have text {s : Str} (member : s ∈ [r.projectID, r.name, r.pathPrefix, r.upstreamURL]) : toValidUTF8 s = s :=
    toValidUTF8_eq_iff.mpr (storable.texts s member)
  have number {n : Int} (member : n ∈ [r.timeoutMS, r.rateLimitRequests, r.rateLimitWindowSeconds]) :
      -2 ^ 63 ≤ n ∧ n < 2 ^ 63 := by
    have small := storable.numbers n member
    simp only [Postgres.int4Ok, Bool.and_eq_true, decide_eq_true_eq] at small
    omega
  refine .cons (text (by simp)) (.cons (text (by simp)) (.cons (text (by simp)) (.cons (text (by simp))
    (.cons trivial (.cons (number (by simp)) (.cons trivial (.cons trivial (.cons (number (by simp))
      (.cons (number (by simp)) .nil)))))))))

theorem ofRecord_record (rows : List RouteResponse) :
    (rows.map RouteResponse.record).mapM RouteResponse.ofRecord = some rows := by
  induction rows with
  | nil => rfl
  | cons row rest ih =>
    simp only [List.map_cons, List.mapM_cons, ih]
    rfl

theorem routeSchema_distinct : (routeSchema.map FieldSpec.name).Nodup := by decide

theorem routesText_written (laws : json.Documented) (storable : ∀ row ∈ rows, row.Storable) :
    ∃ value, routesText json rows = some (json.encode value) ∧ value.composite = true ∧
      value.depth ≤ maxNestingDepth ∧ decodeRoutes json value = some rows := by
  have writes : ∃ members, (rows.map RouteResponse.record).mapM (json.writeStruct routeSchema) = some members := by
    clear storable
    induction rows with
    | nil => exact ⟨[], rfl⟩
    | cons row rest ih =>
      obtain ⟨later, tail⟩ := ih
      have first : ∃ members, json.writeStruct routeSchema row.record = some members := ⟨_, rfl⟩
      obtain ⟨members, first⟩ := first
      exact ⟨members :: later, by simp [first, tail]⟩
  obtain ⟨members, written⟩ := writes
  have fits : ∀ record ∈ rows.map RouteResponse.record,
      List.Forall₂ (fun field datum => Datum.Fits datum field) routeSchema record := by
    intro record member
    obtain ⟨row, present, rfl⟩ := List.mem_map.mp member
    exact record_fits (storable row present)
  refine ⟨.array (members.map .object), by rw [routesText, written]; rfl, rfl, ?_, ?_⟩
  · exact (slice_depth written).trans (by decide)
  · rw [decodeRoutes, readSlice_written laws true routeSchema_distinct fits written]
    exact ofRecord_record rows

theorem listRoutesReply_part (laws : json.Documented) {value : Value ν} (composite : value.composite = true)
    (shallow : value.depth ≤ maxNestingDepth) (decoded : decodeRoutes json value = some rows)
    {received : Str} (part : received <+: json.encode value ++ [10]) (broken : Bool) :
    listRoutesReply json parse (.response 200 received broken) =
      if (received.take maxResponseSize).length < (json.encode value).length then .error .decode
      else if broken && received.length < maxResponseSize then .error .trailing
      else match responseToDomain parse rows with
        | .error cause => .error (.invalid cause)
        | .ok routes => .ok routes := by
  have starts : received.take maxResponseSize <+: json.encode value ++ [10] :=
    (List.take_prefix _ _).trans part
  simp only [listRoutesReply, ne_eq, not_true, if_false]
  generalize received.take maxResponseSize = read at starts ⊢
  rcases next_part laws composite shallow starts with ⟨short, none⟩ | ⟨long, rest, next, blank⟩
  · rw [none, if_pos short]
  · rw [next, if_neg long]
    simp only [decoded, blank, Bool.true_eq_false, if_false]

end EdgeGuard.Gateway
