import EdgeGuard.Gateway.Handler
import EdgeGuard.Gateway.RouteSource

/-! The validation of a key as it travels: the answer of the auth service, and the client
of the Gateway that reads it. A part of an answer is never taken for another one. -/
namespace EdgeGuard.Gateway.AuthClient
open Go Go.Json Postgres Auth

def maxResponseSize : Nat := 64 * 1024

/-- `apiKeyPrincipalResponse` on one side and `validateAPIKeyResponse` on the other. -/
def principalSchema : List FieldSpec := [⟨lit "api_key_id", .string, false⟩, ⟨lit "project_id", .string, false⟩]

inductive Unavailable where
  | request
  | unreadable (status : Nat)
  | status (status : Nat) (message : Str)
  | decode
  | trailing
  | multiple
  | missingPrincipal
  deriving DecidableEq, Repr

inductive ClientError where
  | invalidAPIKey
  | unavailable (cause : Unavailable)
  deriving DecidableEq, Repr

/-- What `errors.Is` finds. -/
def ClientError.toGateway : ClientError → GatewayError
  | .invalidAPIKey => .invalidAPIKey
  | .unavailable _ => .authServiceUnavailable

variable {ν : Type}

section Client
variable (json : Stream ν)

def principalText (apiKeyID projectID : Str) : Option Str :=
  (json.writeStruct principalSchema [.string apiKeyID, .string projectID]).map
    (fun members => json.encode (.object members) ++ [10])

def checkPrincipal : List Datum → Except ClientError Principal
  | [.string apiKeyID, .string projectID] =>
    let apiKeyID := trimSpace apiKeyID
    let projectID := trimSpace projectID
    if apiKeyID = [] ∨ projectID = [] then .error (.unavailable .missingPrincipal)
    else .ok ⟨apiKeyID, projectID⟩
  | _ => .error (.unavailable .decode)

/-- `ValidateAPIKey` of the client. A break behind the size limit is not noticed. -/
def validateAPIKeyReply : Reply → Except ClientError Principal
  | .failed => .error (.unavailable .request)
  | .response status body broken =>
    let read := body.take maxResponseSize
    let noticed := broken && body.length < maxResponseSize
    if status = 401 then .error .invalidAPIKey
    else if status ≠ 200 then
      if noticed then .error (.unavailable (.unreadable status))
      else .error (.unavailable (.status status (trimSpace read)))
    else match json.next read with
      | none => .error (.unavailable .decode)
      | some (value, rest) => match json.readValue true principalSchema value with
        | none => .error (.unavailable .decode)
        | some record =>
          -- `ensureJSONEOF`
          if json.blank rest = false then match json.next rest with
            | none => .error (.unavailable .trailing)
            | some _ => .error (.unavailable .multiple)
          else if noticed then .error (.unavailable .trailing)
          else checkPrincipal record

/-- The replies that can come when the auth service has given an answer, or none yet. -/
def Allows : Option AuthAnswer → Reply → Prop
  | _, .failed => True
  | none, .response status _ _ => status ≠ 200 ∧ status ≠ 401
  | some (.status code), .response status _ _ => status = code
  | some (.principal apiKeyID projectID), .response status received _ =>
    status = 200 ∧ ∃ text, principalText json apiKeyID projectID = some text ∧ received <+: text

end Client

variable {json : Stream ν}

theorem principalText_written (laws : json.Documented) (apiKeyID projectID : Uuid) :
    ∃ value, principalText json apiKeyID.text projectID.text = some (json.encode value ++ [10]) ∧
      value.composite = true ∧ value.depth ≤ maxNestingDepth ∧
      json.readValue true principalSchema value = some [.string apiKeyID.text, .string projectID.text] := by
  have written : ∃ members,
      json.writeStruct principalSchema [.string apiKeyID.text, .string projectID.text] = some members := ⟨_, rfl⟩
  obtain ⟨members, written⟩ := written
  have fits : List.Forall₂ (fun field datum => Datum.Fits datum field) principalSchema
      [.string apiKeyID.text, .string projectID.text] :=
    .cons (toValidUTF8_eq_iff.mpr apiKeyID.text_valid) (.cons (toValidUTF8_eq_iff.mpr projectID.text_valid) .nil)
  refine ⟨.object members, by rw [principalText, written]; rfl, rfl, ?_, ?_⟩
  · rw [Value.depth, writeStruct_depth written]
    decide
  · exact readStruct_written laws true (by decide) fits written

theorem validateAPIKeyReply_part (laws : json.Documented) {apiKeyID projectID : Uuid} {text received : Str}
    (whole : principalText json apiKeyID.text projectID.text = some text) (part : received <+: text) (broken : Bool) :
    validateAPIKeyReply json (.response 200 received broken) =
      if (received.take maxResponseSize).length + 1 < text.length then .error (.unavailable .decode)
      else if broken && received.length < maxResponseSize then .error (.unavailable .trailing)
      else .ok ⟨apiKeyID.text, projectID.text⟩ := by
  obtain ⟨value, written, composite, shallow, read⟩ := principalText_written laws apiKeyID projectID
  cases whole.symm.trans written
  have starts : received.take maxResponseSize <+: json.encode value ++ [10] := (List.take_prefix _ _).trans part
  have checked : checkPrincipal [.string apiKeyID.text, .string projectID.text] =
      .ok ⟨apiKeyID.text, projectID.text⟩ := by
    simp only [checkPrincipal, Uuid.trimSpace_text, apiKeyID.text_ends.2.2, projectID.text_ends.2.2, or_self, if_false]
  simp only [validateAPIKeyReply, ne_eq, not_true, if_false, show ¬ (200 : Nat) = 401 by decide,
    List.length_append, List.length_singleton, Nat.add_lt_add_iff_right]
  generalize received.take maxResponseSize = front at starts ⊢
  rcases next_part laws composite shallow starts with ⟨short, none⟩ | ⟨long, rest, next, blank⟩
  · rw [none, if_pos short]
  · rw [next, if_neg long]
    simp only [read, blank, Bool.true_eq_false, if_false, checked]

def Proper : AuthAnswer → Prop
  | .principal apiKeyID projectID => ∃ id project : Uuid, apiKeyID = id.text ∧ projectID = project.text
  | .status code => code ≠ 200

theorem validateAPIKeyReply_spec (laws : json.Documented) {answer : Option AuthAnswer} {reply : Reply}
    (allowed : Allows json answer reply) (proper : ∀ given, answer = some given → Proper given) :
    (∃ cause, validateAPIKeyReply json reply = .error (.unavailable cause)) ∨
      ∃ given, answer = some given ∧
        (validateAPIKeyReply json reply).mapError ClientError.toGateway = readPrincipal (some given) := by
  cases reply with
  | failed => exact .inl ⟨_, rfl⟩
  | response status received broken =>
    have other (fine : status ≠ 200) (known : status ≠ 401) :
        ∃ cause, validateAPIKeyReply json (.response status received broken) = .error (.unavailable cause) := by
      simp only [validateAPIKeyReply, if_neg known, ne_eq, fine, not_false_eq_true, if_true]
      split
      · exact ⟨_, rfl⟩
      · exact ⟨_, rfl⟩
    cases answer with
    | none => exact .inl (other allowed.1 allowed.2)
    | some given =>
      cases given with
      | status code =>
        cases allowed
        by_cases known : status = 401
        · subst known
          exact .inr ⟨_, rfl, rfl⟩
        · exact .inl (other (proper _ rfl) known)
      | principal apiKeyID projectID =>
        obtain ⟨rfl, text, whole, part⟩ := allowed
        obtain ⟨id, project, rfl, rfl⟩ := proper _ rfl
        rw [validateAPIKeyReply_part laws whole part]
        split
        · exact .inl ⟨_, rfl⟩
        · split
          · exact .inl ⟨_, rfl⟩
          · exact .inr ⟨_, rfl, (readPrincipal_text id project).symm⟩

end EdgeGuard.Gateway.AuthClient
