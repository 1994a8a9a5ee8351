import EdgeGuard.Go.Case
import EdgeGuard.Go.Json
import EdgeGuard.Go.NetURL

/-! What the submission makes of its inputs, and what the worker asks of a payload
again before it acts on it. -/
namespace EdgeGuard.Jobs
open Go Go.Json

/-- What is taken of the Go library. -/
structure Library (ν υ : Type) where
  json : Codec ν
  net : NetURL υ
  unicode : CaseTable

def Library.toUpper {ν υ : Type} (lib : Library ν υ) (s : Str) : Str := lib.unicode.toUpper s

def Library.toLower {ν υ : Type} (lib : Library ν υ) (s : Str) : Str := lib.unicode.toLower s

/-- Its documented behaviour: the two packages as they are specified beside their
definitions. -/
structure Library.Documented {ν υ : Type} (lib : Library ν υ) : Prop where
  json : lib.json.Documented
  net : lib.net.Documented

inductive PayloadError where
  | invalidWebhookURL
  | invalidHTTPMethod
  | invalidWebhookBody
  | invalidProjectID
  | invalidReportRange
  | invalidReportFormat
  | invalidCleanupTime
  | invalidBatchSize
  | invalidMaxAttempts
  deriving DecidableEq, Repr

structure WebhookPayload where
  url : Str
  method : Str
  headers : StringMap
  body : Str
  deriving DecidableEq

structure ReportPayload where
  projectID : Str
  fromTime : Time
  toTime : Time
  format : Str
  deriving DecidableEq, Repr

structure CleanupPayload where
  before : Time
  batchSize : Int
  deriving DecidableEq, Repr

variable {ν υ : Type}

def webSchemes : List Str := [lit "http", lit "https"]
def webhookMethods : List Str := [lit "POST", lit "PUT", lit "PATCH"]
def reportFormats : List Str := [lit "json", lit "csv"]

def newWebhookPayload (lib : Library ν υ) (rawURL method : Str) (headers : StringMap) (body : Str) :
    Except PayloadError WebhookPayload :=
  match lib.net.parseRequestURI (trimSpace rawURL) with
  | none => .error .invalidWebhookURL
  | some parsedURL =>
    if lib.net.host parsedURL = [] ∨ lib.net.scheme parsedURL ∉ webSchemes then
      .error .invalidWebhookURL
    else
      let method := lib.toUpper (trimSpace method)
      let method := if method = [] then lit "POST" else method
      if method ∉ webhookMethods then .error .invalidHTTPMethod
      else if body ≠ [] ∧ lib.json.valid body = false then .error .invalidWebhookBody
      else .ok ⟨lib.net.string parsedURL, method, headers, body⟩

def newReportPayload (lib : Library ν υ) (projectID : Str) (fromTime toTime : Time) (format : Str) :
    Except PayloadError ReportPayload :=
  let projectID := trimSpace projectID
  if projectID = [] then .error .invalidProjectID
  else if fromTime = zeroTime ∨ toTime = zeroTime ∨ ¬ fromTime < toTime then .error .invalidReportRange
  else
    let format := lib.toLower (trimSpace format)
    let format := if format = [] then lit "json" else format
    if format ∉ reportFormats then .error .invalidReportFormat
    else .ok ⟨projectID, fromTime, toTime, format⟩

def defaultBatchSize : Int := 500
def maxBatchSize : Int := 5000

def newCleanupPayload (before : Time) (batchSize : Int) : Except PayloadError CleanupPayload :=
  if before = zeroTime then .error .invalidCleanupTime
  else
    let batchSize := if batchSize = 0 then defaultBatchSize else batchSize
    if batchSize < 1 ∨ batchSize > maxBatchSize then .error .invalidBatchSize
    else .ok ⟨before, batchSize⟩

def defaultMaxAttempts : Int := 5
def maxMaxAttempts : Int := 10

def normalizeMaxAttempts (value : Int) : Except PayloadError Int :=
  if value = 0 then .ok defaultMaxAttempts
  else if value < 1 ∨ value > maxMaxAttempts then .error .invalidMaxAttempts
  else .ok value

/-- The permanent errors of the worker's own checks. -/
inductive WorkerError where
  | invalidJobPayload
  | invalidURL
  | invalidMethod
  | invalidReportRange
  | invalidFormat
  deriving DecidableEq, Repr

/-- What `resolveTarget` asks of a URL before it resolves the host. -/
def checkTarget (lib : Library ν υ) (rawURL : Str) : Except WorkerError Unit :=
  match lib.net.parse (trimSpace rawURL) with
  | none => .error .invalidURL
  | some target =>
    if lib.net.hostname target = [] ∨ lib.net.scheme target ∉ webSchemes ∨
        (lib.net.user target).isSome then .error .invalidURL
    else .ok ()

/-- The checks of `Deliver`; the host is resolved in between. -/
def checkWebhook (lib : Library ν υ) (payload : WebhookPayload) : Except WorkerError Unit :=
  match checkTarget lib payload.url with
  | .error err => .error err
  | .ok () =>
    if lib.toUpper (trimSpace payload.method) ∉ webhookMethods then .error .invalidMethod
    else .ok ()

/-- The checks of `Generate`. -/
def checkReport (lib : Library ν υ) (payload : ReportPayload) : Except WorkerError Unit :=
  if payload.fromTime = zeroTime ∨ payload.toTime = zeroTime ∨ ¬ payload.fromTime < payload.toTime then
    .error .invalidReportRange
  else if lib.toLower (trimSpace payload.format) ∉ reportFormats then .error .invalidFormat
  else .ok ()

/-- The check of `Process` before `CleanupExpiredTokens`. -/
def checkCleanup (payload : CleanupPayload) : Except WorkerError Unit :=
  if payload.before = zeroTime ∨ payload.batchSize < 1 ∨ payload.batchSize > 5000 then
    .error .invalidJobPayload
  else .ok ()

section Accepted
variable {lib : Library ν υ}

/-- What an accepted webhook is made of. -/
theorem newWebhookPayload_spec {rawURL method : Str} {headers : StringMap} {body : Str}
    {payload : WebhookPayload}
    (accepted : newWebhookPayload lib rawURL method headers body = .ok payload) :
    ∃ parsedURL, lib.net.parseRequestURI (trimSpace rawURL) = some parsedURL ∧
      lib.net.host parsedURL ≠ [] ∧ lib.net.scheme parsedURL ∈ webSchemes ∧
      payload.url = lib.net.string parsedURL ∧ payload.method ∈ webhookMethods ∧
      payload.headers = headers ∧ payload.body = body ∧
      (body ≠ [] → lib.json.valid body = true) := by
  unfold newWebhookPayload at accepted
  split at accepted
  · contradiction
  · rename_i parsedURL parsed
    obtain ⟨located, accepted⟩ := check_passed accepted
    obtain ⟨known, accepted⟩ := check_passed accepted
    obtain ⟨sound, accepted⟩ := check_passed accepted
    cases accepted
    refine ⟨parsedURL, parsed, fun none => located (.inl none), ?_, rfl, ?_, rfl, rfl, ?_⟩
    · exact Classical.not_not.mp (fun other => located (.inr other))
    · exact Classical.not_not.mp known
    · intro given
      exact Bool.not_eq_false _ ▸ fun invalid => sound ⟨given, invalid⟩

theorem newReportPayload_spec {projectID format : Str} {fromTime toTime : Time}
    {payload : ReportPayload}
    (accepted : newReportPayload lib projectID fromTime toTime format = .ok payload) :
    payload.projectID = trimSpace projectID ∧ payload.format ∈ reportFormats ∧
      ¬ (payload.fromTime = zeroTime ∨ payload.toTime = zeroTime ∨
        ¬ payload.fromTime < payload.toTime) := by
  unfold newReportPayload at accepted
  obtain ⟨_, accepted⟩ := check_passed accepted
  obtain ⟨range, accepted⟩ := check_passed accepted
  obtain ⟨known, accepted⟩ := check_passed accepted
  cases accepted
  exact ⟨rfl, Classical.not_not.mp known, range⟩

theorem normalizeMaxAttempts_range {value count : Int}
    (accepted : normalizeMaxAttempts value = .ok count) : 1 ≤ count ∧ count ≤ 10 := by
  unfold normalizeMaxAttempts at accepted
  split at accepted
  · cases accepted
    decide
  · obtain ⟨range, accepted⟩ := check_passed accepted
    cases accepted
    simp only [maxMaxAttempts] at range
    omega

/-- The worker reads a method or a format that was stored in its final case. -/
theorem checkWebhook_iff {payload : WebhookPayload} (method : payload.method ∈ webhookMethods) :
    checkWebhook lib payload = .ok () ↔ checkTarget lib payload.url = .ok () := by
  have kept : lib.toUpper (trimSpace payload.method) = payload.method := by
    have letters : ∀ text ∈ webhookMethods,
        trimSpace text = text ∧ text.all (fun c => 65 ≤ c && c ≤ 90) = true := by decide
    obtain ⟨trimmed, upper⟩ := letters payload.method method
    rw [trimmed]
    exact toUpper_of_upper lib.unicode (by simpa using upper)
  unfold checkWebhook
  rw [kept]
  split
  · simp_all
  · simp_all

theorem newReportPayload_checked {projectID format : Str} {fromTime toTime : Time} {payload : ReportPayload}
    (accepted : newReportPayload lib projectID fromTime toTime format = .ok payload) :
    checkReport lib payload = .ok () := by
  obtain ⟨_, known, range⟩ := newReportPayload_spec accepted
  have kept : lib.toLower (trimSpace payload.format) = payload.format := by
    have letters : ∀ text ∈ reportFormats,
        trimSpace text = text ∧ text.all (fun c => 97 ≤ c && c ≤ 122) = true := by decide
    obtain ⟨trimmed, lower⟩ := letters payload.format known
    rw [trimmed]
    exact toLower_of_lower lib.unicode (by simpa using lower)
  rw [checkReport, if_neg range, kept, if_neg (not_not_intro known)]

end Accepted

theorem newCleanupPayload_checked {before : Time} {batchSize : Int} {payload : CleanupPayload}
    (accepted : newCleanupPayload before batchSize = .ok payload) : checkCleanup payload = .ok () := by
  unfold newCleanupPayload at accepted
  obtain ⟨given, accepted⟩ := check_passed accepted
  obtain ⟨bounded, accepted⟩ := check_passed accepted
  cases accepted
  refine if_neg ?_
  rintro (zero | small | large)
  · exact given zero
  · exact bounded (.inl small)
  · exact bounded (.inr large)

theorem checkCleanup_batch {payload : CleanupPayload} (passed : checkCleanup payload = .ok ()) :
    1 ≤ payload.batchSize := by
  unfold checkCleanup at passed
  obtain ⟨checked, _⟩ := check_passed passed
  omega

end EdgeGuard.Jobs
