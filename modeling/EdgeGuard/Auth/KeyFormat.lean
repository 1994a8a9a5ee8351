import EdgeGuard.Auth.APIKeys

/-! The text form of an API key. The separator of its parts occurs in the alphabet of
the last part, and clients add white space; parsing gives back what was generated all
the same, and the text determines the random bytes. -/
namespace EdgeGuard.Auth
open Go

variable {sha256 : Str → Str}

theorem generated_ends (random : APIKeyEntropy) :
    (∀ byte, (generateAPIKey sha256 random).value.head? = some byte → visible byte = true) ∧
      ∀ byte, (generateAPIKey sha256 random).value.getLast? = some byte → visible byte = true := by
  constructor
  · intro byte first
    have letter : 101 = byte := Option.some.inj first
    rw [← letter]
    decide
  · intro byte last
    apply base64Encode_visible random.secretBytes
    have filled : base64Encode random.secretBytes ≠ [] := by
      intro empty
      have decoded := base64Decode_base64Encode random.secretBytes
      rw [empty] at decoded
      have size := random.secret_size
      rw [← Option.some.inj decoded] at size
      contradiction
    simp only [generateAPIKey, apiKeyValue, List.getLast?_append, List.getLast?_cons,
      List.getLast?_eq_some_getLast filled] at last
    cases Option.some.inj last
    exact List.getLast_mem filled

theorem parseAPIKey_padded {lead trail : Str} (leads : Spelled spaces lead)
    (trails : Spelled spaces trail) (random : APIKeyEntropy) :
    parseAPIKey sha256 (lead ++ (generateAPIKey sha256 random).value ++ trail) =
      some ⟨(generateAPIKey sha256 random).keyPrefix, (generateAPIKey sha256 random).hash⟩ := by
  apply parseAPIKey_generated
  obtain ⟨first, last⟩ := @generated_ends sha256 random
  exact trimSpace_padded leads trails (by simp [generateAPIKey, apiKeyValue]) first last

theorem apiKeyValue_inj {keyPrefix secret otherPrefix otherSecret : Str} (plain : 95 ∉ keyPrefix)
    (otherPlain : 95 ∉ otherPrefix)
    (same : apiKeyValue keyPrefix secret = apiKeyValue otherPrefix otherSecret) :
    keyPrefix = otherPrefix ∧ secret = otherSecret := by
  have parts := splitN_apiKeyValue keyPrefix secret plain
  rw [same, splitN_apiKeyValue otherPrefix otherSecret otherPlain] at parts
  simp only [List.cons.injEq, true_and, and_true] at parts
  exact ⟨parts.1.symm, parts.2.symm⟩

theorem generated_value_injective {random other : APIKeyEntropy}
    (same : (generateAPIKey sha256 random).value = (generateAPIKey sha256 other).value) :
    random = other := by
  obtain ⟨prefixes, secrets⟩ := apiKeyValue_inj (underscore_not_mem_hexEncode _)
    (underscore_not_mem_hexEncode _) same
  cases random
  cases other
  cases hexEncode_injective prefixes
  cases base64Encode_injective secrets
  rfl

/-- Whatever bytes are drawn and whatever white space a client adds, parsing a
generated value returns its prefix and its hash, the hash is accepted, and no other
bytes give the same value. -/
theorem generated_key_is_parsed (sha256 : Str → Str) (random : APIKeyEntropy) {lead trail : Str}
    (leads : Spelled spaces lead) (trails : Spelled spaces trail) :
    (∃ parsed, parseAPIKey sha256 (lead ++ (generateAPIKey sha256 random).value ++ trail) = some parsed ∧
      parsed.keyPrefix = (generateAPIKey sha256 random).keyPrefix ∧
      parsed.hash = (generateAPIKey sha256 random).hash ∧
      matchAPIKeyHash parsed.hash (generateAPIKey sha256 random).hash = true) ∧
    ∀ other, other ≠ random → (generateAPIKey sha256 other).value ≠ (generateAPIKey sha256 random).value := by
  constructor
  · refine ⟨_, parseAPIKey_padded leads trails random, rfl, rfl, ?_⟩
    exact (matchAPIKeyHash_iff _ _).mpr rfl
  · intro other different same
    exact different (generated_value_injective same)

/-- Bytes whose secret is full of separators. -/
def separatorEntropy : APIKeyEntropy :=
  ⟨List.replicate 8 0xff, (List.replicate 16 [0xff, 0xfb]).flatten, List.length_replicate, by decide⟩

def separatorValue : Str :=
  lit "eg_live_ffffffffffffffff___v_-__7__v_-__7__v_-__7__v_-__7__v_-__7__s"

/-- SHA-256 at `separatorValue`. -/
def separatorHash (value : Str) : Str :=
  if value = separatorValue then
    (hexDecode (lit "dc6978e21e4303e667c26f94a9e4b047865d03c59899c83faedf8afc467c7e7e")).getD []
  else value

theorem separators_in_secret_are_harmless :
    ∃ parsed, parseAPIKey separatorHash (lit " \t" ++ separatorValue ++ lit "\u00a0\n") = some parsed ∧
      parsed.keyPrefix = lit "ffffffffffffffff" ∧
      parsed.hash = lit "dc6978e21e4303e667c26f94a9e4b047865d03c59899c83faedf8afc467c7e7e" := by
  have leads : Spelled spaces (lit " \t") :=
    @Spelled.cons spaces [32] [9] (by decide) (@Spelled.cons spaces [9] [] (by decide) .nil)
  have trails : Spelled spaces (lit "\u00a0\n") :=
    @Spelled.cons spaces [0xc2, 0xa0] [10] (by decide) (@Spelled.cons spaces [10] [] (by decide) .nil)
  obtain ⟨⟨parsed, found, named, hashed, _⟩, _⟩ :=
    generated_key_is_parsed separatorHash separatorEntropy leads trails
  refine ⟨parsed, found, ?_, ?_⟩
  · rw [named]
    decide
  · rw [hashed]
    decide

end EdgeGuard.Auth
