import EdgeGuard.Jobs.Payloads
import EdgeGuard.Jobs.Statements

/-! The message of a job: what the submission publishes, what the worker decodes
from it, and when the two agree. -/
namespace EdgeGuard.Jobs
open Go Go.Json

variable {ν υ : Type}

inductive Payload where
  | webhook (payload : WebhookPayload)
  | report (payload : ReportPayload)
  | cleanup (payload : CleanupPayload)

namespace Payload

def type : Payload → Str
  | .webhook _ => lit "jobs.webhook.deliver"
  | .report _ => lit "jobs.report.generate"
  | .cleanup _ => lit "jobs.cleanup.expired_tokens"

/-- The fields that `json.Marshal` writes; empty headers and an empty body are
omitted. -/
def fields : Payload → List (Str × Field)
  | .webhook payload =>
    [(lit "url", .string payload.url), (lit "method", .string payload.method)] ++
      (if payload.headers.entries = [] then [] else [(lit "headers", .strings payload.headers)]) ++
      (if payload.body = [] then [] else [(lit "body", .raw payload.body)])
  | .report payload =>
    [(lit "project_id", .string payload.projectID), (lit "from", .time payload.fromTime),
      (lit "to", .time payload.toTime), (lit "format", .string payload.format)]
  | .cleanup payload =>
    [(lit "before", .time payload.before), (lit "batch_size", .int payload.batchSize)]

end Payload

def Envelope.fields (e : Envelope) : List (Str × Field) :=
  [(lit "schema_version", .int e.schemaVersion), (lit "id", .string e.id), (lit "type", .string e.type),
    (lit "created_at", .time e.createdAt), (lit "attempt", .int e.attempt),
    (lit "max_attempts", .int e.maxAttempts), (lit "payload", .raw e.payload)]

def newEnvelope (lib : Library ν υ) (id : Str) (createdAt : Time) (maxAttempts : Int)
    (payload : Payload) : Except EnvelopeError Envelope :=
  match lib.json.marshal payload.fields with
  | none => .error .invalidPayload
  | some payloadJSON =>
    let envelope : Envelope := {
      schemaVersion := schemaVersion
      id := trimSpace id
      type := payload.type
      createdAt
      attempt := 1
      maxAttempts
      payload := payloadJSON }
    match envelope.validate lib.json.valid with
    | .error err => .error err
    | .ok () => .ok envelope

/-- The inputs of `SubmitWebhook`, `SubmitReport` and `SubmitCleanup`. -/
inductive Input where
  | webhook (url method : Str) (headers : StringMap) (body : Str) (maxAttempts : Int)
  | report (projectID : Str) (fromTime toTime : Time) (format : Str) (maxAttempts : Int)
  | cleanup (before : Time) (batchSize maxAttempts : Int)

namespace Input

def maxAttempts : Input → Int
  | .webhook _ _ _ _ maxAttempts => maxAttempts
  | .report _ _ _ _ maxAttempts => maxAttempts
  | .cleanup _ _ maxAttempts => maxAttempts

def payload (lib : Library ν υ) : Input → Except PayloadError Payload
  | .webhook url method headers body _ =>
    (newWebhookPayload lib url method headers body).map .webhook
  | .report projectID fromTime toTime format _ =>
    (newReportPayload lib projectID fromTime toTime format).map .report
  | .cleanup before batchSize _ => (newCleanupPayload before batchSize).map .cleanup

end Input

inductive SubmitError where
  | payload (err : PayloadError)
  | envelope (err : EnvelopeError)
  | publish

/-- `submit` up to the message that `Publish` sends: the payload that was built, and
the body. The job is stored before it is sent and the broker confirms it, which
changes nothing in the message. -/
def submit (lib : Library ν υ) (input : Input) (random : List UInt8) (now : Time) :
    Except SubmitError (Payload × Str) :=
  match input.payload lib with
  | .error err => .error (.payload err)
  | .ok payload =>
    match normalizeMaxAttempts input.maxAttempts with
    | .error err => .error (.payload err)
    | .ok maxAttempts =>
      match newEnvelope lib (hexEncode random) now maxAttempts payload with
      | .error err => .error (.envelope err)
      | .ok envelope =>
        match envelope.validate lib.json.valid, lib.json.marshal envelope.fields with
        | .ok (), some body => .ok (payload, body)
        | _, _ => .error .publish

/-- `json.Unmarshal` into an `Envelope`. -/
def decodeEnvelope (lib : Library ν υ) (body : Str) : Option Envelope := do
  let members ← lib.json.object body
  let schemaVersion ← lib.json.intField members (lit "schema_version")
  let id ← stringField members (lit "id")
  let type ← stringField members (lit "type")
  let createdAt ← lib.json.timeField members (lit "created_at")
  let attempt ← lib.json.intField members (lit "attempt")
  let maxAttempts ← lib.json.intField members (lit "max_attempts")
  let payload ← lib.json.rawField body members (lit "payload")
  some { schemaVersion, id, type, createdAt, attempt, maxAttempts, payload }

def decodeWebhook (lib : Library ν υ) (raw : Str) : Option WebhookPayload := do
  let members ← lib.json.object raw
  let url ← stringField members (lit "url")
  let method ← stringField members (lit "method")
  let headers ← stringsField members (lit "headers")
  let body ← lib.json.rawField raw members (lit "body")
  some { url, method, headers, body }

def decodeReport (lib : Library ν υ) (raw : Str) : Option ReportPayload := do
  let members ← lib.json.object raw
  let projectID ← stringField members (lit "project_id")
  let fromTime ← lib.json.timeField members (lit "from")
  let toTime ← lib.json.timeField members (lit "to")
  let format ← stringField members (lit "format")
  some { projectID, fromTime, toTime, format }

def decodeCleanup (lib : Library ν υ) (raw : Str) : Option CleanupPayload := do
  let members ← lib.json.object raw
  let before ← lib.json.timeField members (lit "before")
  let batchSize ← lib.json.intField members (lit "batch_size")
  some { before, batchSize }

/-- `json.Unmarshal` into the payload of the type of the job. `Validate` admits no
other type. -/
def unmarshalPayload (lib : Library ν υ) (type raw : Str) : Option Payload :=
  if type = lit "jobs.webhook.deliver" then (decodeWebhook lib raw).map .webhook
  else if type = lit "jobs.report.generate" then (decodeReport lib raw).map .report
  else if type = lit "jobs.cleanup.expired_tokens" then (decodeCleanup lib raw).map .cleanup
  else none

def decodePayload (lib : Library ν υ) (type raw : Str) : Except WorkerError Payload :=
  if raw = [] ∨ lib.json.valid raw = false then .error .invalidJobPayload
  else match unmarshalPayload lib type raw with
    | none => .error .invalidJobPayload
    | some payload => .ok payload

def Payload.check (lib : Library ν υ) : Payload → Except WorkerError Unit
  | .webhook payload => checkWebhook lib payload
  | .report payload => checkReport lib payload
  | .cleanup payload => checkCleanup payload

/-- Two payloads are the same, with the bodies of webhooks compared as JSON
values. -/
inductive Payload.Same (json : Codec ν) : Payload → Payload → Prop
  | webhook (read built : WebhookPayload) (url : read.url = built.url)
      (method : read.method = built.method) (headers : read.headers = built.headers)
      (empty : read.body = [] ↔ built.body = []) (body : json.parse read.body = json.parse built.body) :
      Same json (.webhook read) (.webhook built)
  | report (payload : ReportPayload) : Same json (.report payload) (.report payload)
  | cleanup (payload : CleanupPayload) : Same json (.cleanup payload) (.cleanup payload)

/-- The worker decodes the message to a valid envelope and its payload to the one
that was built, and its checks accept it. -/
def Agrees (lib : Library ν υ) (built : Payload) (body : Str) : Prop :=
  ∃ envelope read, decodeEnvelope lib body = some envelope ∧
    envelope.validate lib.json.valid = .ok () ∧
    decodePayload lib envelope.type envelope.payload = .ok read ∧
    read.Same lib.json built ∧ read.check lib = .ok ()

def bodyDepth (json : Codec ν) (body : Str) : Nat :=
  match json.parse body with
  | none => 0
  | some value => value.depth

def Input.Carried (lib : Library ν υ) : Input → Prop
  | .webhook url _ headers body _ =>
    (∀ parsedURL, lib.net.parseRequestURI (trimSpace url) = some parsedURL →
      lib.net.hostname parsedURL ≠ [] ∧ lib.net.user parsedURL = none ∧
        fragmentOk (lib.net.rawQuery parsedURL) = true ∧
        validUtf8 (lib.net.string parsedURL) = true) ∧
      (∀ entry ∈ headers.entries, validUtf8 entry.1 = true ∧ validUtf8 entry.2 = true) ∧
      bodyDepth lib.json body + 2 ≤ maxNestingDepth
  | .report projectID _ _ _ _ => validUtf8 (trimSpace projectID) = true
  | .cleanup _ _ _ => True

end EdgeGuard.Jobs
