import EdgeGuard.Go.Strings
import EdgeGuard.Go.Time

/-! What a program takes of `golang-jwt`: registered claims with dates of whole seconds,
the parser's checks, and the text of a token with its signature as parameters. -/
namespace EdgeGuard.Go.Jwt

/-- `jwt.NumericDate` at its default precision: whole seconds since the epoch. -/
structure NumericDate where
  seconds : Int
  deriving DecidableEq, Repr

/-- `jwt.NewNumericDate`. -/
def newNumericDate (t : Time) : NumericDate := ⟨t / second⟩

def NumericDate.time (date : NumericDate) : Time := date.seconds * second

theorem newNumericDate_time (t : Time) : (newNumericDate t).time = truncate t second := rfl

private theorem floor_le (t : Int) : t / 1000000000 * 1000000000 ≤ t := by omega

theorem newNumericDate_le (t : Time) : (newNumericDate t).time ≤ t := floor_le t

private theorem floor_eq_iff (t : Int) : t / 1000000000 * 1000000000 = t ↔ t % 1000000000 = 0 := by omega

theorem newNumericDate_eq_iff (t : Time) : (newNumericDate t).time = t ↔ t % second = 0 := floor_eq_iff t

structure RegisteredClaims where
  issuer : Str
  subject : Str
  audience : List Str
  expiresAt : Option NumericDate
  notBefore : Option NumericDate
  issuedAt : Option NumericDate
  deriving DecidableEq, Repr

/-- A token with the claims of `κ` next to the registered ones. -/
structure Token (κ : Type) where
  alg : Str
  registered : RegisteredClaims
  custom : κ
  deriving DecidableEq, Repr

/-- The options of a parser. An empty list of methods, audiences or an empty issuer is
not checked; there is no leeway. -/
structure Parser where
  validMethods : List Str
  expectedIssuer : Str
  expectedAudience : List Str
  requireExp : Bool
  requireNbf : Bool
  verifyIat : Bool
  now : Time

def Parser.validate (parser : Parser) (claims : RegisteredClaims) : Bool :=
  (match claims.expiresAt with
    | none => !parser.requireExp
    | some date => parser.now < date.time) &&
  (match claims.notBefore with
    | none => !parser.requireNbf
    | some date => date.time ≤ parser.now) &&
  (!parser.verifyIat || claims.issuedAt.all (·.time ≤ parser.now)) &&
  (parser.expectedAudience.isEmpty || parser.expectedAudience.any claims.audience.contains) &&
  (parser.expectedIssuer.isEmpty || claims.issuer = parser.expectedIssuer)

theorem validate_dated {parser : Parser} {claims : RegisteredClaims} {exp nbf iat : NumericDate}
    (expires : claims.expiresAt = some exp) (starts : claims.notBefore = some nbf)
    (issued : claims.issuedAt = some iat) :
    parser.validate claims = true ↔
      parser.now < exp.time ∧ nbf.time ≤ parser.now ∧ (parser.verifyIat = true → iat.time ≤ parser.now) ∧
      (parser.expectedAudience = [] ∨ ∃ audience ∈ parser.expectedAudience, audience ∈ claims.audience) ∧
      (parser.expectedIssuer = [] ∨ claims.issuer = parser.expectedIssuer) := by
  have optional (asked : Bool) (P : Prop) [Decidable P] : (!asked || decide P) = true ↔ (asked = true → P) := by
    cases asked <;> simp
  simp only [Parser.validate, expires, starts, issued, Option.all_some, Bool.and_eq_true, optional,
    Bool.or_eq_true, List.isEmpty_iff, List.any_eq_true, List.contains_iff_mem, and_assoc]
  simp only [decide_eq_true_iff]

structure Codec (κ : Type) where
  signedString : Token κ → (key : Str) → Option Str
  parseUnverified : Str → Option (Token κ)
  verifies : (key raw : Str) → Bool

/-- A token that is signed is read back unchanged and verifies under its key, and its
text is made of visible characters. -/
structure Codec.Documented {κ : Type} (codec : Codec κ) : Prop where
  signs : ∀ token key, ∃ raw, codec.signedString token key = some raw ∧
    codec.parseUnverified raw = some token ∧ codec.verifies key raw = true ∧
    raw ≠ [] ∧ ∀ c ∈ raw, visible c = true

/-- `jwt.ParseWithClaims`. -/
def Parser.parseWithClaims {κ : Type} (parser : Parser) (codec : Codec κ) (keyFunc : Token κ → Option Str)
    (raw : Str) : Option (Token κ) := do
  let token ← codec.parseUnverified raw
  if parser.validMethods ≠ [] ∧ token.alg ∉ parser.validMethods then none
  else
    let key ← keyFunc token
    if codec.verifies key raw && parser.validate token.registered then some token else none

theorem parseWithClaims_signed {κ : Type} {parser : Parser} {codec : Codec κ} {keyFunc : Token κ → Option Str}
    {raw key : Str} {token : Token κ} (reads : codec.parseUnverified raw = some token)
    (verifies : codec.verifies key raw = true) (gives : keyFunc token = some key)
    (method : token.alg ∈ parser.validMethods) :
    parser.parseWithClaims codec keyFunc raw =
      if parser.validate token.registered then some token else none := by
  have known : ¬ (parser.validMethods ≠ [] ∧ token.alg ∉ parser.validMethods) := fun other => other.2 method
  simp only [Parser.parseWithClaims, reads, Option.bind_eq_bind, Option.bind_some, if_neg known, gives, verifies,
    Bool.true_and]

end EdgeGuard.Go.Jwt
