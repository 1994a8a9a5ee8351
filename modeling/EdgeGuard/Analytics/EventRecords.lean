import EdgeGuard.Analytics.Consumer
import EdgeGuard.Go.Format
import EdgeGuard.Go.JsonRecords
import EdgeGuard.Go.JsonStream

/-! The access event as a record of the topic: what the producer of the Gateway writes
and the consumer of Analytics reads. The encoder replaces what is not UTF-8, so that the
event that arrives can differ from the one that was published; it passes the same checks
and keeps its identifiers. -/
namespace EdgeGuard.Analytics
open Go Go.Json

/-- The fields of `GatewayAccessEvent`. -/
def eventSchema : List FieldSpec := [
  ⟨lit "schema_version", .int, false⟩,
  ⟨lit "event_id", .string, false⟩,
  ⟨lit "occurred_at", .time, false⟩,
  ⟨lit "request_id", .string, false⟩,
  ⟨lit "project_id", .string, true⟩,
  ⟨lit "route_name", .string, true⟩,
  ⟨lit "route_path_prefix", .string, true⟩,
  ⟨lit "method", .string, false⟩,
  ⟨lit "request_path", .string, false⟩,
  ⟨lit "status_code", .int, false⟩,
  ⟨lit "duration_ms", .int, false⟩,
  ⟨lit "response_bytes", .int, false⟩,
  ⟨lit "client_type", .string, false⟩,
  ⟨lit "client_id", .string, false⟩,
  ⟨lit "auth_required", .bool, false⟩,
  ⟨lit "rate_limit_enabled", .bool, false⟩,
  ⟨lit "rate_limited", .bool, false⟩]

namespace GatewayAccessEvent

def record (e : GatewayAccessEvent) : List Datum :=
  [.int e.schemaVersion, .string e.eventID, .time e.occurredAt, .string e.requestID, .string e.projectID,
    .string e.routeName, .string e.routePathPrefix, .string e.method, .string e.requestPath, .int e.statusCode,
    .int e.durationMS, .int e.responseBytes, .string e.clientType, .string e.clientID, .bool e.authRequired,
    .bool e.rateLimitEnabled, .bool e.rateLimited]

def ofRecord : List Datum → Option GatewayAccessEvent
  | [.int schemaVersion, .string eventID, .time occurredAt, .string requestID, .string projectID, .string routeName,
      .string routePathPrefix, .string method, .string requestPath, .int statusCode, .int durationMS,
      .int responseBytes, .string clientType, .string clientID, .bool authRequired, .bool rateLimitEnabled,
      .bool rateLimited] =>
    some { schemaVersion, eventID, occurredAt, requestID, projectID, routeName, routePathPrefix, method,
           requestPath, statusCode, durationMS, responseBytes, clientType, clientID, authRequired,
           rateLimitEnabled, rateLimited }
  | _ => none

/-- The event with every text as `encoding/json` writes it. -/
def coerced (e : GatewayAccessEvent) : GatewayAccessEvent :=
  { e with
    eventID := toValidUTF8 e.eventID
    requestID := toValidUTF8 e.requestID
    projectID := toValidUTF8 e.projectID
    routeName := toValidUTF8 e.routeName
    routePathPrefix := toValidUTF8 e.routePathPrefix
    method := toValidUTF8 e.method
    requestPath := toValidUTF8 e.requestPath
    clientType := toValidUTF8 e.clientType
    clientID := toValidUTF8 e.clientID }

/-- The two `int64` fields, as their type has them. -/
def Int64 (e : GatewayAccessEvent) : Prop := e.durationMS < 2 ^ 63 ∧ e.responseBytes < 2 ^ 63

instance decidableInt64 (e : GatewayAccessEvent) : Decidable e.Int64 :=
  inferInstanceAs (Decidable (e.durationMS < 2 ^ 63 ∧ e.responseBytes < 2 ^ 63))

end GatewayAccessEvent

/-- A record as the producer hands it to its client. -/
structure AccessRecord where
  topic : Str
  key : Str
  value : Str
  timestamp : Time
  headers : List (Str × Str)
  deriving DecidableEq, Repr

inductive PublishError where
  | validate (cause : EventError)
  | marshal
  deriving DecidableEq, Repr

variable {ν : Type}

section Records
variable (json : Stream ν)

/-- `json.Marshal`. -/
def marshalEvent (e : GatewayAccessEvent) : Option Str :=
  (json.writeStruct eventSchema e.record).map (fun members => json.encode (.object members))

/-- `json.Unmarshal`: the text is one value, and a member of an unknown name is ignored. -/
def unmarshalEvent (payload : Str) : Option GatewayAccessEvent := do
  let (value, rest) ← json.next payload
  if json.blank rest then (json.readValue false eventSchema value).bind GatewayAccessEvent.ofRecord else none

/-- The key of a record, from which the client takes the partition. -/
def recordKey (e : GatewayAccessEvent) : Str :=
  if e.projectID ≠ [] ∧ e.routeName ≠ [] then e.projectID ++ lit ":" ++ e.routeName
  else trimSpace e.requestID

def accessEventRecord (trace : List (Str × Str)) (topic : Str) (e : GatewayAccessEvent) :
    Except PublishError AccessRecord :=
  match marshalEvent json e with
  | none => .error .marshal
  | some payload => .ok {
      topic
      key := recordKey e
      value := payload
      timestamp := e.occurredAt
      headers := (lit "event-type", lit "gateway.access") ::
        (lit "schema-version", formatInt e.schemaVersion) :: trace }

/-- `PublishGatewayAccess` up to `TryProduce`: an error, or the record for the client. -/
def publishGatewayAccess (trace : List (Str × Str)) (topic : Str) (e : GatewayAccessEvent) :
    Except PublishError AccessRecord :=
  match e.validate with
  | .error cause => .error (.validate cause)
  | .ok () => accessEventRecord json trace topic e

end Records

section Arrival
variable {json : Stream ν} {e : GatewayAccessEvent}

theorem fromHexChar_ascii {c : UInt8} (digit : (fromHexChar c).isSome = true) : c ≤ 0x7f := by
  unfold fromHexChar at digit
  split at digit
  · rename_i bounds
    exact UInt8.le_trans bounds.2 (by decide)
  · split at digit
    · rename_i bounds
      exact UInt8.le_trans bounds.2 (by decide)
    · split at digit
      · rename_i bounds
        exact UInt8.le_trans bounds.2 (by decide)
      · cases digit

theorem canonical_ascii {value : Str} (canonical : isCanonicalUUID value = true) : ∀ byte ∈ value, byte ≤ 0x7f := by
  simp only [isCanonicalUUID, Bool.if_false_left, Bool.and_eq_true] at canonical
  intro byte member
  by_cases hyphen : byte = 45
  · subst hyphen
    decide
  · refine fromHexChar_ascii (hexDecode_isSome canonical.2.2 byte (List.mem_filter.mpr ⟨member, ?_⟩))
    simpa using hyphen

theorem coerced_project (checked : e.Checked) : toValidUTF8 e.projectID = e.projectID := by
  refine toValidUTF8_eq_iff.mpr (valid_of_trimSpace ?_)
  rcases checked.project with blank | canonical
  · rw [blank]
    rfl
  · exact validUtf8_ascii (canonical_ascii canonical)

theorem coerced_client (checked : e.Checked) : toValidUTF8 e.clientType = e.clientType := by
  rcases checked.client with key | ip
  · rw [key]
    decide
  · rw [ip]
    decide

theorem validate_coerced (valid : e.validate = .ok ()) : e.coerced.validate = .ok () := by
  have checked := validate_checked valid
  obtain ⟨version, id, occurred, request, project, method, path, status, duration, bytes, client, clientID⟩ :=
    validate_ok_iff.mp valid
  refine validate_ok_iff.mpr ⟨version, toValidUTF8_nonblank id, occurred, toValidUTF8_nonblank request, ?_,
    toValidUTF8_nonblank method, toValidUTF8_nonblank path, status, duration, bytes, ?_,
    toValidUTF8_nonblank clientID⟩
  · simp only [GatewayAccessEvent.coerced, coerced_project checked]
    exact project
  · simp only [GatewayAccessEvent.coerced, coerced_client checked]
    exact client

theorem record_kinds (e : GatewayAccessEvent) : e.record.map Datum.kind = eventSchema.map FieldSpec.kind := rfl

theorem record_range (valid : e.validate = .ok ()) (int64 : e.Int64) :
    ∀ n, Datum.int n ∈ e.record → -2 ^ 63 ≤ n ∧ n < 2 ^ 63 := by
  obtain ⟨version, _, _, _, _, _, _, status, duration, bytes, _⟩ := validate_ok_iff.mp valid
  obtain ⟨long, large⟩ := int64
  intro n member
  simp only [GatewayAccessEvent.record, List.mem_cons, reduceCtorEq, Datum.int.injEq, List.not_mem_nil, false_or,
    or_false] at member
  rcases member with rfl | rfl | rfl | rfl
  · rw [version]
    decide
  all_goals omega

theorem eventSchema_distinct : (eventSchema.map FieldSpec.name).Nodup := by decide

theorem marshalEvent_exists_iff :
    (∃ payload, marshalEvent json e = some payload) ↔ ∃ text, json.formatTime e.occurredAt = some text := by
  have writes := @writeStruct_exists_iff ν json _ _ (record_kinds e)
  constructor
  · rintro ⟨payload, marshalled⟩
    obtain ⟨members, written, _⟩ := Option.map_eq_some_iff.mp marshalled
    exact writes.mp ⟨members, written⟩ e.occurredAt (by simp [GatewayAccessEvent.record])
  · intro formats
    obtain ⟨members, written⟩ := writes.mpr (by simpa [GatewayAccessEvent.record] using formats)
    exact ⟨_, by rw [marshalEvent, written]; rfl⟩

theorem decode_marshal (laws : json.Documented) (valid : e.validate = .ok ()) (int64 : e.Int64) {payload : Str}
    (marshalled : marshalEvent json e = some payload) :
    decodeGatewayAccessEvent (unmarshalEvent json) payload = some e.coerced := by
  obtain ⟨members, written, rfl⟩ := Option.map_eq_some_iff.mp marshalled
  have fits := fits_coerced (record_kinds e) (record_range valid int64)
  have shallow : (Value.object members).depth ≤ maxNestingDepth := by
    rw [Value.depth, writeStruct_depth written]
    decide
  have next := laws.next (.object members) [] rfl shallow
  have blank : json.blank [] = true := laws.blank [] (List.nil_prefix)
  have read : json.readStruct false eventSchema members = some e.coerced.record :=
    readStruct_written laws false eventSchema_distinct fits ((writeStruct_coerced json _ _).trans written)
  have unmarshalled : unmarshalEvent json (json.encode (.object members)) = some e.coerced := by
    rw [List.append_nil] at next
    simp only [unmarshalEvent, next, blank, Option.bind_eq_bind, Option.bind_some, if_true, Stream.readValue, read]
    rfl
  simp only [decodeGatewayAccessEvent, unmarshalled, validate_coerced valid]

theorem publishGatewayAccess_ok {trace : List (Str × Str)} {topic : Str} {record : AccessRecord}
    (published : publishGatewayAccess json trace topic e = .ok record) :
    e.validate = .ok () ∧ marshalEvent json e = some record.value ∧ record.key = recordKey e := by
  unfold publishGatewayAccess accessEventRecord at published
  split at published
  · cases published
  · rename_i valid
    split at published
    · cases published
    · rename_i payload marshalled
      cases published
      exact ⟨valid, marshalled, rfl⟩

def GatewayAccessEvent.texts (e : GatewayAccessEvent) : List Str :=
  [e.eventID, e.requestID, e.projectID, e.routeName, e.routePathPrefix, e.method, e.requestPath, e.clientType,
    e.clientID]

theorem coerced_eq_iff : e.coerced = e ↔ ∀ text ∈ e.texts, validUtf8 text = true := by
  simp only [GatewayAccessEvent.texts, List.forall_mem_cons, ← toValidUTF8_eq_iff, List.not_mem_nil,
    false_implies, implies_true, and_true]
  obtain ⟨⟩ := e
  simp only [GatewayAccessEvent.coerced, GatewayAccessEvent.mk.injEq, true_and, and_true]

/-- A request path with a byte that is not UTF-8. -/
def rawEvent : GatewayAccessEvent := { sampleEvent (lit "a") 40 with requestPath := [47, 0xff] }

end Arrival

end EdgeGuard.Analytics
