import EdgeGuard.Jobs.Messages
import EdgeGuard.Go.JsonText

/-! The worker reads what the submission wrote: for every accepted input, exactly
when the worker accepts the message. -/
namespace EdgeGuard.Jobs
open Go Go.Json

variable {ν υ : Type} {lib : Library ν υ}

theorem submit_spec {input : Input} {random : List UInt8} {now : Time} {payload : Payload}
    {body : Str} (accepted : submit lib input random now = .ok (payload, body)) :
    ∃ envelope : Envelope, input.payload lib = .ok payload ∧
      lib.json.marshal payload.fields = some envelope.payload ∧
      envelope.schemaVersion = schemaVersion ∧ envelope.id = trimSpace (hexEncode random) ∧
      envelope.type = payload.type ∧ envelope.attempt = 1 ∧
      (1 ≤ envelope.maxAttempts ∧ envelope.maxAttempts ≤ 10) ∧
      envelope.validate lib.json.valid = .ok () ∧ lib.json.marshal envelope.fields = some body := by
  unfold submit at accepted
  split at accepted
  · contradiction
  · rename_i built made
    split at accepted
    · contradiction
    · rename_i maxAttempts counted
      split at accepted
      · contradiction
      · rename_i envelope enveloped
        split at accepted
        · rename_i written valid marshalled
          cases accepted
          unfold newEnvelope at enveloped
          split at enveloped
          · contradiction
          · rename_i payloadJSON encoded
            dsimp only at enveloped
            split at enveloped
            · contradiction
            · cases enveloped
              exact ⟨_, made, encoded, rfl, rfl, rfl, rfl, normalizeMaxAttempts_range counted, valid,
                marshalled⟩
        · contradiction

/-- A text that `Marshal` gave stands for the values of the fields. -/
theorem marshal_read (laws : lib.json.Documented) {fields : List (Str × Field)} {text : Str}
    (marshalled : lib.json.marshal fields = some text) :
    ∃ members, lib.json.members fields = some members ∧ text ≠ [] ∧
      lib.json.parse text =
        if (Value.object members).depth ≤ maxNestingDepth then some (.object members) else none := by
  cases value : lib.json.members fields with
  | none =>
    rw [laws.refused fields value] at marshalled
    contradiction
  | some members =>
    obtain ⟨written, is, nonempty, parsed⟩ := laws.written fields members value
    rw [marshalled] at is
    cases is
    exact ⟨members, rfl, nonempty, parsed⟩

theorem envelope_depth {e : Envelope} {members inner : List (Str × Value ν)} {json : Codec ν}
    (value : json.members e.fields = some members) (nonempty : e.payload ≠ [])
    (payload : json.parse e.payload = some (.object inner)) :
    (Value.object members).depth = membersDepth inner + 2 := by
  rw [Value.depth, membersDepth_written value]
  simp [Envelope.fields, Codec.fieldsDepth, Codec.fieldDepth, nonempty, payload, Value.depth]

theorem decodeEnvelope_written (laws : lib.json.Documented) {e : Envelope} {body : Str}
    {members : List (Str × Value ν)} (value : lib.json.members e.fields = some members)
    (read : lib.json.parse body = some (.object members)) (nonempty : e.payload ≠ [])
    (version : e.schemaVersion = schemaVersion) (attempt : e.attempt = 1)
    (count : 1 ≤ e.maxAttempts ∧ e.maxAttempts ≤ 10) :
    ∃ raw, raw ≠ [] ∧ lib.json.parse raw = lib.json.parse e.payload ∧
      decodeEnvelope lib body =
        some { e with id := toValidUTF8 e.id, type := toValidUTF8 e.type, payload := raw } := by
  have distinct : (e.fields.map Prod.fst).Nodup := by
    change List.Nodup [lit "schema_version", lit "id", lit "type", lit "created_at", lit "attempt",
      lit "max_attempts", lit "payload"]
    decide
  have small : schemaVersion = 1 := rfl
  have versionRead : lib.json.intField members (lit "schema_version") = some e.schemaVersion :=
    intField_written laws distinct value (by simp [Envelope.fields]) (by omega) (by omega)
  have attemptRead : lib.json.intField members (lit "attempt") = some e.attempt :=
    intField_written laws distinct value (by simp [Envelope.fields]) (by omega) (by omega)
  have countRead : lib.json.intField members (lit "max_attempts") = some e.maxAttempts :=
    intField_written laws distinct value (by simp [Envelope.fields]) (by omega) (by omega)
  have idRead : stringField members (lit "id") = some (toValidUTF8 e.id) :=
    stringField_written distinct value (by simp [Envelope.fields])
  have typeRead : stringField members (lit "type") = some (toValidUTF8 e.type) :=
    stringField_written distinct value (by simp [Envelope.fields])
  have createdRead : lib.json.timeField members (lit "created_at") = some e.createdAt :=
    timeField_written laws distinct value (by simp [Envelope.fields])
  have member : (lit "payload", .raw e.payload) ∈ e.fields := by simp [Envelope.fields]
  obtain ⟨raw, rawRead, same, given⟩ := rawField_written laws distinct value read member nonempty
  have whole : lib.json.object body = some members := by simp [Codec.object, read]
  refine ⟨raw, given, same, ?_⟩
  simp only [decodeEnvelope, whole, versionRead, attemptRead, countRead, idRead, typeRead, createdRead,
    rawRead, Option.bind_eq_bind, Option.bind_some]

theorem decodeReport_written (laws : lib.json.Documented) {payload : ReportPayload} {raw : Str}
    {members : List (Str × Value ν)}
    (value : lib.json.members (Payload.report payload).fields = some members)
    (read : lib.json.parse raw = some (.object members)) :
    decodeReport lib raw = some { payload with
      projectID := toValidUTF8 payload.projectID, format := toValidUTF8 payload.format } := by
  have distinct : ((Payload.report payload).fields.map Prod.fst).Nodup := by
    change List.Nodup [lit "project_id", lit "from", lit "to", lit "format"]
    decide
  have project : stringField members (lit "project_id") = some (toValidUTF8 payload.projectID) :=
    stringField_written distinct value (by simp [Payload.fields])
  have start : lib.json.timeField members (lit "from") = some payload.fromTime :=
    timeField_written laws distinct value (by simp [Payload.fields])
  have stop : lib.json.timeField members (lit "to") = some payload.toTime :=
    timeField_written laws distinct value (by simp [Payload.fields])
  have format : stringField members (lit "format") = some (toValidUTF8 payload.format) :=
    stringField_written distinct value (by simp [Payload.fields])
  have whole : lib.json.object raw = some members := by simp [Codec.object, read]
  simp only [decodeReport, whole, project, start, stop, format, Option.bind_eq_bind, Option.bind_some]

theorem decodeCleanup_written (laws : lib.json.Documented) {payload : CleanupPayload} {raw : Str}
    {members : List (Str × Value ν)} (checked : checkCleanup payload = .ok ())
    (value : lib.json.members (Payload.cleanup payload).fields = some members)
    (read : lib.json.parse raw = some (.object members)) : decodeCleanup lib raw = some payload := by
  have distinct : ((Payload.cleanup payload).fields.map Prod.fst).Nodup := by
    change List.Nodup [lit "before", lit "batch_size"]
    decide
  have bounds : 1 ≤ payload.batchSize ∧ payload.batchSize ≤ 5000 := by
    unfold checkCleanup at checked
    obtain ⟨passed, _⟩ := check_passed checked
    omega
  have before : lib.json.timeField members (lit "before") = some payload.before :=
    timeField_written laws distinct value (by simp [Payload.fields])
  have size : lib.json.intField members (lit "batch_size") = some payload.batchSize :=
    intField_written laws distinct value (by simp [Payload.fields]) (by omega) (by omega)
  have whole : lib.json.object raw = some members := by simp [Codec.object, read]
  simp only [decodeCleanup, whole, before, size, Option.bind_eq_bind, Option.bind_some]

/-- Header entries as the codec coerces them. -/
def coerced (headers : StringMap) : StringMap :=
  .ofPairs (headers.entries.map (fun entry => (toValidUTF8 entry.1, toValidUTF8 entry.2)))

theorem webhook_names (payload : WebhookPayload) : (Payload.webhook payload).fields.map Prod.fst =
    [lit "url", lit "method"] ++ (if payload.headers.entries = [] then [] else [lit "headers"]) ++
      (if payload.body = [] then [] else [lit "body"]) := by
  simp only [Payload.fields, List.map_append, apply_ite (List.map Prod.fst), List.map_cons, List.map_nil]

theorem webhook_distinct (payload : WebhookPayload) :
    ((Payload.webhook payload).fields.map Prod.fst).Nodup := by
  rw [webhook_names]
  split <;> split <;> decide

theorem headers_written {payload : WebhookPayload} {members : List (Str × Value ν)}
    (value : lib.json.members (Payload.webhook payload).fields = some members) :
    stringsField members (lit "headers") = some (coerced payload.headers) := by
  by_cases none : payload.headers.entries = []
  · have absent : lit "headers" ∉ (Payload.webhook payload).fields.map Prod.fst := by
      rw [webhook_names, if_pos none]
      split <;> decide
    rw [stringsField_unwritten value absent, coerced, none]
    rfl
  · exact stringsField_written (webhook_distinct payload) value (by simp [Payload.fields, none])

theorem body_written (laws : lib.json.Documented) {payload : WebhookPayload} {raw : Str}
    {members : List (Str × Value ν)}
    (value : lib.json.members (Payload.webhook payload).fields = some members)
    (read : lib.json.parse raw = some (.object members)) :
    ∃ body, (body = [] ↔ payload.body = []) ∧ lib.json.parse body = lib.json.parse payload.body ∧
      lib.json.rawField raw members (lit "body") = some body := by
  by_cases none : payload.body = []
  · have absent : lit "body" ∉ (Payload.webhook payload).fields.map Prod.fst := by
      rw [webhook_names, if_pos none]
      split <;> decide
    exact ⟨[], by simp [none], by rw [none], rawField_unwritten value absent raw⟩
  · have member : (lit "body", .raw payload.body) ∈ (Payload.webhook payload).fields := by
      simp [Payload.fields, none]
    obtain ⟨body, found, same, given⟩ :=
      rawField_written laws (webhook_distinct payload) value read member none
    exact ⟨body, by simp [given, none], same, found⟩

theorem decodeWebhook_written (laws : lib.json.Documented) {payload : WebhookPayload} {raw : Str}
    {members : List (Str × Value ν)}
    (value : lib.json.members (Payload.webhook payload).fields = some members)
    (read : lib.json.parse raw = some (.object members)) :
    ∃ body, (body = [] ↔ payload.body = []) ∧ lib.json.parse body = lib.json.parse payload.body ∧
      decodeWebhook lib raw = some ⟨toValidUTF8 payload.url, toValidUTF8 payload.method,
        coerced payload.headers, body⟩ := by
  have distinct := webhook_distinct payload
  have url : stringField members (lit "url") = some (toValidUTF8 payload.url) :=
    stringField_written distinct value (by simp [Payload.fields])
  have method : stringField members (lit "method") = some (toValidUTF8 payload.method) :=
    stringField_written distinct value (by simp [Payload.fields])
  obtain ⟨body, empty, same, found⟩ := body_written laws value read
  have whole : lib.json.object raw = some members := by simp [Codec.object, read]
  refine ⟨body, empty, same, ?_⟩
  simp only [decodeWebhook, whole, url, method, headers_written value, found, Option.bind_eq_bind,
    Option.bind_some]

theorem coerced_eq_iff (headers : StringMap) :
    coerced headers = headers ↔
      ∀ entry ∈ headers.entries, validUtf8 entry.1 = true ∧ validUtf8 entry.2 = true := by
  constructor
  · intro same entry member
    rw [← same] at member
    obtain ⟨original, _, rfl⟩ := List.mem_map.mp (StringMap.mem_ofPairs member)
    exact ⟨toValidUTF8_valid _, toValidUTF8_valid _⟩
  · intro valid
    have kept : headers.entries.map (fun entry => (toValidUTF8 entry.1, toValidUTF8 entry.2)) =
        headers.entries := by
      refine (List.map_congr_left ?_).trans (List.map_id' _)
      intro entry member
      obtain ⟨key, value⟩ := valid entry member
      rw [toValidUTF8_eq_iff.mpr key, toValidUTF8_eq_iff.mpr value]
    rw [coerced, kept, StringMap.ofPairs_entries]

/-- A URL that was accepted at submission passes the checks of the worker exactly
when it names a host, no user and no fragment that cannot be read. -/
theorem checkTarget_iff (laws : lib.Documented) {rawURL : Str} {parsedURL : υ}
    (parsed : lib.net.parseRequestURI (trimSpace rawURL) = some parsedURL)
    (host : lib.net.host parsedURL ≠ []) (scheme : lib.net.scheme parsedURL ∈ webSchemes) :
    checkTarget lib (lib.net.string parsedURL) = .ok () ↔
      lib.net.hostname parsedURL ≠ [] ∧ lib.net.user parsedURL = none ∧
        fragmentOk (lib.net.rawQuery parsedURL) = true := by
  unfold checkTarget
  cases readable : fragmentOk (lib.net.rawQuery parsedURL) with
  | false => simp [laws.net.refused rawURL parsedURL parsed host readable]
  | true =>
    obtain ⟨target, again, sameScheme, sameHost, sameUser⟩ :=
      laws.net.reread rawURL parsedURL parsed host readable
    simp only [again, sameScheme, sameHost, sameUser, scheme, not_true_eq_false, false_or]
    cases user : lib.net.user parsedURL with
    | none => simp
    | some name => simp

/-- What the worker decodes first: the envelope with its payload, unless the payload
is too deep for one more level. -/
theorem message_decoded (laws : lib.json.Documented) {input : Input} {random : List UInt8}
    {now : Time} {payload : Payload} {body : Str}
    (accepted : submit lib input random now = .ok (payload, body)) :
    ∃ members, lib.json.members payload.fields = some members ∧
      (membersDepth members + 2 ≤ maxNestingDepth → ∃ envelope, decodeEnvelope lib body = some envelope ∧
        envelope.validate lib.json.valid = .ok () ∧ envelope.type = payload.type ∧
        envelope.payload ≠ [] ∧ lib.json.parse envelope.payload = some (.object members)) ∧
      (¬ membersDepth members + 2 ≤ maxNestingDepth → decodeEnvelope lib body = none) := by
  obtain ⟨e, made, encoded, version, id, type, attempt, count, valid, marshalled⟩ := submit_spec accepted
  obtain ⟨members, value, nonempty, parsed⟩ := marshal_read laws encoded
  obtain ⟨outer, envelopeValue, _, message⟩ := marshal_read laws marshalled
  obtain ⟨known, named, typed, dated, first, within, checks⟩ := validate_ok_iff.mp valid
  have readable : lib.json.parse e.payload = some (.object members) := by
    have sound := checks.2
    rw [Codec.valid, parsed] at sound
    split at sound
    · rw [parsed, if_pos ‹_›]
    · contradiction
  rw [envelope_depth envelopeValue nonempty readable] at message
  refine ⟨members, value, ?_, ?_⟩
  · intro fits
    rw [if_pos fits] at message
    obtain ⟨raw, given, same, decoded⟩ :=
      decodeEnvelope_written laws envelopeValue message nonempty version attempt count
    have idKept : toValidUTF8 e.id = e.id := by
      rw [toValidUTF8_eq_iff, id]
      apply trimSpace_valid
      apply validUtf8_ascii
      intro c member
      have digits : hexDigits.all (· ≤ 0x7f) = true := by decide
      simpa using List.all_eq_true.mp digits c (hexEncode_digits random c member)
    have typeKept : toValidUTF8 e.type = e.type := by
      rw [toValidUTF8_eq_iff, type]
      have ascii : jobTypes.all validUtf8 = true := by decide
      exact List.all_eq_true.mp ascii payload.type (by cases payload <;> simp [Payload.type, jobTypes])
    rw [idKept, typeKept] at decoded
    have whole : lib.json.parse raw = some (.object members) := same.trans readable
    have sound : lib.json.valid raw = true := by
      rw [Codec.valid, whole]
      rfl
    exact ⟨_, decoded, validate_ok_iff.mpr ⟨known, named, typed, dated, first, within, given, sound⟩, type,
      given, whole⟩
  · intro deep
    rw [if_neg deep] at message
    simp [decodeEnvelope, Codec.object, message]

theorem decodePayload_iff {type raw : Str} {read : Payload} (given : raw ≠ [])
    (valid : lib.json.valid raw = true) :
    decodePayload lib type raw = .ok read ↔ unmarshalPayload lib type raw = some read := by
  unfold decodePayload
  rw [if_neg (by simp [given, valid])]
  cases unmarshalPayload lib type raw with
  | none => simp
  | some payload => simp

/-- The worker unmarshals the payload by the type of the job that was submitted. -/
theorem unmarshalPayload_type (lib : Library ν υ) (payload : Payload) (raw : Str) :
    unmarshalPayload lib payload.type raw =
      match payload with
      | .webhook _ => (decodeWebhook lib raw).map .webhook
      | .report _ => (decodeReport lib raw).map .report
      | .cleanup _ => (decodeCleanup lib raw).map .cleanup := by
  have report : lit "jobs.report.generate" ≠ lit "jobs.webhook.deliver" := by decide
  have cleanup : lit "jobs.cleanup.expired_tokens" ≠ lit "jobs.webhook.deliver" ∧
      lit "jobs.cleanup.expired_tokens" ≠ lit "jobs.report.generate" := by decide
  cases payload with
  | webhook _ => simp [unmarshalPayload, Payload.type]
  | report _ => simp [unmarshalPayload, Payload.type, report]
  | cleanup _ => simp [unmarshalPayload, Payload.type, cleanup]

/-- The worker takes a payload for the one that was built, and its checks accept
it. -/
def Taken (lib : Library ν υ) (built : Payload) (raw : Str) : Prop :=
  ∃ read, unmarshalPayload lib built.type raw = some read ∧ read.Same lib.json built ∧
    read.check lib = .ok ()

theorem agrees_iff_taken (laws : lib.json.Documented) {input : Input} {random : List UInt8}
    {now : Time} {payload : Payload} {body : Str}
    (accepted : submit lib input random now = .ok (payload, body)) :
    ∃ members, lib.json.members payload.fields = some members ∧
      (membersDepth members + 2 ≤ maxNestingDepth →
        ∃ raw, lib.json.parse raw = some (.object members) ∧
          (Agrees lib payload body ↔ Taken lib payload raw)) ∧
      (Agrees lib payload body → membersDepth members + 2 ≤ maxNestingDepth) := by
  obtain ⟨members, value, shallow, deep⟩ := message_decoded laws accepted
  refine ⟨members, value, ?_, ?_⟩
  · intro fits
    obtain ⟨envelope, decoded, valid, type, given, parsed⟩ := shallow fits
    have sound : lib.json.valid envelope.payload = true := by rw [Codec.valid, parsed]; rfl
    refine ⟨envelope.payload, parsed, ?_⟩
    constructor
    · rintro ⟨other, read, again, _, payloadRead, same, checked⟩
      rw [decoded] at again
      cases again
      rw [decodePayload_iff given sound, type] at payloadRead
      exact ⟨read, payloadRead, same, checked⟩
    · rintro ⟨read, payloadRead, same, checked⟩
      rw [← type, ← decodePayload_iff given sound] at payloadRead
      exact ⟨envelope, read, decoded, valid, payloadRead, same, checked⟩
  · rintro ⟨envelope, _, decoded, _⟩
    by_contra tooDeep
    rw [deep tooDeep] at decoded
    contradiction

section Kinds
variable {raw : Str} {members : List (Str × Value ν)} (laws : lib.Documented)
  (read : lib.json.parse raw = some (.object members))
include laws read

theorem webhook_taken_iff {url method : Str} {headers : StringMap} {body : Str}
    {payload : WebhookPayload} (accepted : newWebhookPayload lib url method headers body = .ok payload)
    (value : lib.json.members (Payload.webhook payload).fields = some members) :
    Taken lib (.webhook payload) raw ↔
      (∀ parsedURL, lib.net.parseRequestURI (trimSpace url) = some parsedURL →
        lib.net.hostname parsedURL ≠ [] ∧ lib.net.user parsedURL = none ∧
          fragmentOk (lib.net.rawQuery parsedURL) = true ∧
          validUtf8 (lib.net.string parsedURL) = true) ∧
      ∀ entry ∈ headers.entries, validUtf8 entry.1 = true ∧ validUtf8 entry.2 = true := by
  obtain ⟨parsedURL, parsed, host, scheme, text, known, rfl, rfl, _⟩ := newWebhookPayload_spec accepted
  obtain ⟨sent, empty, same, decoded⟩ := decodeWebhook_written laws.json value read
  have methodKept : toValidUTF8 payload.method = payload.method := by
    have ascii : webhookMethods.all validUtf8 = true := by decide
    exact toValidUTF8_eq_iff.mpr (List.all_eq_true.mp ascii payload.method known)
  have target := checkTarget_iff laws parsed host scheme
  have unmarshalled : unmarshalPayload lib (Payload.webhook payload).type raw =
      some (.webhook ⟨toValidUTF8 payload.url, payload.method, coerced payload.headers, sent⟩) := by
    rw [unmarshalPayload_type, decoded, methodKept]
    rfl
  have passes : checkWebhook lib ⟨toValidUTF8 payload.url, payload.method,
      coerced payload.headers, sent⟩ = .ok () ↔
      checkTarget lib (toValidUTF8 payload.url) = .ok () := by
    apply checkWebhook_iff
    exact known
  rw [← coerced_eq_iff]
  constructor
  · rintro ⟨taken, found, agrees, checked⟩
    rw [unmarshalled] at found
    cases found
    cases agrees with
    | webhook _ _ sameURL _ sameHeaders _ _ =>
      change toValidUTF8 payload.url = payload.url at sameURL
      have accepts := passes.mp checked
      rw [sameURL, text] at accepts
      rw [text] at sameURL
      obtain ⟨named, anonymous, readable⟩ := target.mp accepts
      refine ⟨?_, sameHeaders⟩
      intro other again
      rw [parsed] at again
      cases again
      exact ⟨named, anonymous, readable, toValidUTF8_eq_iff.mp sameURL⟩
  · rintro ⟨location, sameHeaders⟩
    obtain ⟨named, anonymous, readable, valid⟩ := location parsedURL parsed
    have sameURL : toValidUTF8 payload.url = payload.url := by
      rw [text]
      exact toValidUTF8_eq_iff.mpr valid
    refine ⟨_, unmarshalled, .webhook _ _ sameURL rfl sameHeaders empty same, ?_⟩
    refine passes.mpr ?_
    rw [sameURL, text]
    exact target.mpr ⟨named, anonymous, readable⟩

theorem report_taken_iff {projectID format : Str} {fromTime toTime : Time} {payload : ReportPayload}
    (accepted : newReportPayload lib projectID fromTime toTime format = .ok payload)
    (value : lib.json.members (Payload.report payload).fields = some members) :
    Taken lib (.report payload) raw ↔ validUtf8 (trimSpace projectID) = true := by
  obtain ⟨trimmed, known, _⟩ := newReportPayload_spec accepted
  have formatKept : toValidUTF8 payload.format = payload.format := by
    have ascii : reportFormats.all validUtf8 = true := by decide
    exact toValidUTF8_eq_iff.mpr (List.all_eq_true.mp ascii payload.format known)
  have unmarshalled : unmarshalPayload lib (Payload.report payload).type raw =
      some (.report { payload with projectID := toValidUTF8 payload.projectID }) := by
    rw [unmarshalPayload_type, decodeReport_written laws.json value read, formatKept]
    rfl
  rw [← trimmed, ← toValidUTF8_eq_iff]
  constructor
  · rintro ⟨taken, found, agrees, _⟩
    rw [unmarshalled, Option.some_inj] at found
    subst found
    generalize same : ({ payload with projectID := toValidUTF8 payload.projectID } : ReportPayload)
      = other at agrees
    cases agrees
    exact congrArg ReportPayload.projectID same
  · intro kept
    rw [kept] at unmarshalled
    exact ⟨_, unmarshalled, .report payload, newReportPayload_checked accepted⟩

theorem cleanup_taken {before : Time} {batchSize : Int} {payload : CleanupPayload}
    (accepted : newCleanupPayload before batchSize = .ok payload)
    (value : lib.json.members (Payload.cleanup payload).fields = some members) :
    Taken lib (.cleanup payload) raw := by
  have checked := newCleanupPayload_checked accepted
  refine ⟨.cleanup payload, ?_, .cleanup payload, checked⟩
  rw [unmarshalPayload_type, decodeCleanup_written laws.json checked value read]
  rfl

end Kinds

theorem bodyDepth_nil (laws : lib.json.Documented) : bodyDepth lib.json [] = 0 := by
  rw [bodyDepth, laws.empty]

theorem webhook_depth (laws : lib.json.Documented) (payload : WebhookPayload) :
    lib.json.fieldsDepth (Payload.webhook payload).fields =
      max (if payload.headers.entries = [] then 0 else 1) (bodyDepth lib.json payload.body) := by
  have raw (given : payload.body ≠ []) :
      lib.json.fieldDepth (.raw payload.body) = bodyDepth lib.json payload.body := by
    rw [Codec.fieldDepth, if_neg given]
    rfl
  have strings : lib.json.fieldDepth (.strings payload.headers) = 1 := rfl
  have string (s : Str) : lib.json.fieldDepth (.string s) = 0 := rfl
  by_cases headed : payload.headers.entries = [] <;> by_cases given : payload.body = [] <;>
    simp [Payload.fields, Codec.fieldsDepth, headed, given, raw, strings, string, bodyDepth_nil laws]

theorem webhook_fits_iff (laws : lib.json.Documented) (payload : WebhookPayload) :
    lib.json.fieldsDepth (Payload.webhook payload).fields + 2 ≤ maxNestingDepth ↔
      bodyDepth lib.json payload.body + 2 ≤ maxNestingDepth := by
  rw [webhook_depth laws, maxNestingDepth]
  split <;> omega

/-- The worker agrees with the submission exactly on the inputs that `Carried`
describes. -/
theorem worker_agrees_iff (laws : lib.Documented) {input : Input} {random : List UInt8}
    {now : Time} {payload : Payload} {body : Str}
    (accepted : submit lib input random now = .ok (payload, body)) :
    Agrees lib payload body ↔ input.Carried lib := by
  obtain ⟨_, built, _⟩ := submit_spec accepted
  obtain ⟨members, value, shallow, needed⟩ := agrees_iff_taken laws.json accepted
  rw [membersDepth_written value] at shallow needed
  cases input with
  | webhook url method headers text maxAttempts =>
    obtain ⟨webhook, made, rfl⟩ := map_passed built
    obtain ⟨_, _, _, _, _, _, _, bodyKept, _⟩ := newWebhookPayload_spec made
    rw [webhook_fits_iff laws.json, bodyKept] at shallow needed
    constructor
    · intro agrees
      obtain ⟨raw, read, iff⟩ := shallow (needed agrees)
      obtain ⟨location, headed⟩ := (webhook_taken_iff laws read made value).mp (iff.mp agrees)
      exact ⟨location, headed, needed agrees⟩
    · rintro ⟨location, headed, fits⟩
      obtain ⟨raw, read, iff⟩ := shallow fits
      exact iff.mpr ((webhook_taken_iff laws read made value).mpr ⟨location, headed⟩)
  | report projectID fromTime toTime format maxAttempts =>
    obtain ⟨report, made, rfl⟩ := map_passed built
    have flat : lib.json.fieldsDepth (Payload.report report).fields = 0 := rfl
    obtain ⟨raw, read, iff⟩ := shallow (by rw [flat]; decide)
    rw [iff, report_taken_iff laws read made value]
    rfl
  | cleanup before batchSize maxAttempts =>
    obtain ⟨cleanup, made, rfl⟩ := map_passed built
    have flat : lib.json.fieldsDepth (Payload.cleanup cleanup).fields = 0 := rfl
    obtain ⟨raw, read, iff⟩ := shallow (by rw [flat]; decide)
    exact iff_of_true (iff.mpr (cleanup_taken laws read made value)) trivial

/-- The library on plain URLs, compact JSON and ASCII letters. -/
def plainLibrary : Library Int PlainURL where
  json := compact
  net := plainNet
  unicode := .plain

theorem plainLibrary_documented : plainLibrary.Documented := ⟨compact_documented, plainNet_documented⟩

/-- A webhook for an address, with a header and a body. -/
def webhookTo (url : Str) : Input :=
  .webhook url (lit " put") (.ofPairs [(lit "X-Job", lit "notify")])
    (lit "\x7b\"id\":1,\"tags\":[[]]\x7d") 3

def publishedTo (url : Str) : Except SubmitError (Payload × Str) :=
  submit plainLibrary (webhookTo url) (List.replicate 16 171) sampleInstant

theorem worker_agrees_on_plain_webhook : ∃ payload body,
    publishedTo (lit "http://hooks.example/notify") = .ok (payload, body) ∧
      Agrees plainLibrary payload body := by
  have sent : (publishedTo (lit "http://hooks.example/notify")).toOption.isSome = true := by
    decide +kernel
  obtain ⟨⟨payload, body⟩, published⟩ := Option.isSome_iff_exists.mp sent
  have accepted := ok_of_toOption published
  refine ⟨payload, body, accepted, ?_⟩
  refine (worker_agrees_iff plainLibrary_documented accepted).mpr ⟨?_, ?_, ?_⟩
  · intro u parsed
    have known : plainNet.parseRequestURI (trimSpace (lit "http://hooks.example/notify")) =
        some ⟨lit "http", none, lit "hooks.example", lit "/notify"⟩ := by decide +kernel
    cases known.symm.trans parsed
    decide +kernel
  · decide +kernel
  · decide +kernel

/-- A URL with user information is accepted, and the worker refuses it. -/
theorem user_information_is_refused : ∃ payload body envelope read,
    publishedTo (lit "http://user@hooks.example/notify") = .ok (payload, body) ∧
      decodeEnvelope plainLibrary body = some envelope ∧
      decodePayload plainLibrary envelope.type envelope.payload = .ok read ∧
      read.check plainLibrary = .error .invalidURL ∧ ¬ Agrees plainLibrary payload body := by
  have run : (publishedTo (lit "http://user@hooks.example/notify")).toOption.any (fun sent =>
      (decodeEnvelope plainLibrary sent.2).any (fun envelope =>
        (decodePayload plainLibrary envelope.type envelope.payload).toOption.any (fun read =>
          decide (read.check plainLibrary = .error .invalidURL)))) = true := by decide +kernel
  obtain ⟨⟨payload, body⟩, published, worked⟩ := (Option.any_eq_true _ _).mp run
  obtain ⟨envelope, decoded, worked⟩ := (Option.any_eq_true _ _).mp worked
  obtain ⟨read, taken, refused⟩ := (Option.any_eq_true _ _).mp worked
  have refused := of_decide_eq_true refused
  have taken := ok_of_toOption taken
  refine ⟨payload, body, envelope, read, ok_of_toOption published, decoded, taken,
    refused, ?_⟩
  rintro ⟨other, again, decodedAgain, _, takenAgain, _, checked⟩
  obtain rfl := Option.some.inj (decoded.symm.trans decodedAgain)
  obtain rfl := Except.ok.inj (taken.symm.trans takenAgain)
  rw [refused] at checked
  cases checked

end EdgeGuard.Jobs
