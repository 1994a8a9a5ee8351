import EdgeGuard.Go.URL
import EdgeGuard.Go.Encoding

/-! What a program takes of `net/url` when it reads a URL, keeps its text and reads
that text again. -/
namespace EdgeGuard.Go

def escapesOk : Str → Bool
  | [] => true
  | 37 :: high :: low :: rest => (fromHexChar high).isSome && (fromHexChar low).isSome && escapesOk rest
  | 37 :: _ => false
  | _ :: rest => escapesOk rest

def fragmentOk (query : Str) : Bool := escapesOk (query.dropWhile (· != 35))

/-- The functions of `net/url` over its URLs. `user` is the user information of a
URL that has some. -/
structure NetURL (υ : Type) where
  parseRequestURI : Str → Option υ
  parse : Str → Option υ
  string : υ → Str
  scheme : υ → Str
  host : υ → Str
  hostname : υ → Str
  rawQuery : υ → Str
  user : υ → Option Str

/-- `String` reassembles a URL for `Parse` to read. `ParseRequestURI` knows no
fragment and leaves a number sign in the query, where `Parse` starts one. -/
structure NetURL.Documented {υ : Type} (net : NetURL υ) : Prop where
  refused : ∀ raw u, net.parseRequestURI (trimSpace raw) = some u → net.host u ≠ [] →
    fragmentOk (net.rawQuery u) = false → net.parse (trimSpace (net.string u)) = none
  reread : ∀ raw u, net.parseRequestURI (trimSpace raw) = some u → net.host u ≠ [] →
    fragmentOk (net.rawQuery u) = true →
    ∃ again, net.parse (trimSpace (net.string u)) = some again ∧ net.scheme again = net.scheme u ∧
      net.hostname again = net.hostname u ∧ (net.user again).isSome = (net.user u).isSome

structure PlainURL where
  scheme : Str
  user : Option Str
  host : Str
  path : Str
  deriving DecidableEq

def userText : Option Str → Str
  | none => []
  | some name => name ++ [64]

def PlainURL.string (u : PlainURL) : Str :=
  u.scheme ++ (lit "://" ++ ((userText u.user ++ u.host) ++ u.path))

/-- The authority of a plain URL: a name before the at sign, and the host. -/
def plainAuthority (authority : Str) : Option (Option Str × Str) :=
  let name := authority.takeWhile (· != 64)
  match authority.dropWhile (· != 64) with
  | [] => if name.all plainHost then some (none, name) else none
  | _ :: host => if name.all plainHost && host.all plainHost then some (some name, host) else none

/-- `url.Parse` on `scheme://user@host/path` with plain characters; a text of any
other shape is not read. -/
def PlainURL.parse (s : Str) : Option PlainURL :=
  let scheme := s.takeWhile isLower
  let rest := s.dropWhile isLower
  if scheme ≠ [] ∧ hasPrefix rest (lit "://") then
    let authority := (rest.drop 3).takeWhile (· != 47)
    let path := (rest.drop 3).dropWhile (· != 47)
    match plainAuthority authority with
    | none => none
    | some (user, host) => if path.all plainPath then some ⟨scheme, user, host, path⟩ else none
  else none

def plainNet : NetURL PlainURL where
  parseRequestURI := PlainURL.parse
  parse := PlainURL.parse
  string := PlainURL.string
  scheme := PlainURL.scheme
  host := PlainURL.host
  hostname := PlainURL.host
  rawQuery := fun _ => []
  user := PlainURL.user

theorem plainAuthority_text {authority host : Str} {user : Option Str}
    (read : plainAuthority authority = some (user, host)) :
    userText user ++ host = authority := by
  have whole := List.takeWhile_append_dropWhile (p := (· != 64)) (l := authority)
  unfold plainAuthority at read
  dsimp only at read
  split at read
  · rename_i nothing
    split at read
    · cases read
      rw [nothing, List.append_nil] at whole
      exact whole
    · contradiction
  · rename_i first rest found
    split at read
    · cases read
      have separator : first = 64 := by
        have stops := List.head?_dropWhile_not (· != 64) authority
        rw [found] at stops
        simpa using stops
      rw [found, separator] at whole
      simpa [userText] using whole
    · contradiction

theorem PlainURL.string_parse {s : Str} {u : PlainURL} (read : PlainURL.parse s = some u) :
    u.string = s := by
  unfold PlainURL.parse at read
  dsimp only at read
  split at read
  · rename_i shape
    obtain ⟨slashes, opens⟩ := hasPrefix_iff.mp shape.2
    split at read
    · contradiction
    · rename_i user host authority
      split at read
      · cases read
        have after : (s.dropWhile isLower).drop 3 = slashes := by rw [← opens]; rfl
        rw [after] at authority ⊢
        calc s.takeWhile isLower ++
              (lit "://" ++ ((userText user ++ host) ++ slashes.dropWhile (· != 47)))
            = s.takeWhile isLower ++ (lit "://" ++ slashes) := by
              rw [plainAuthority_text authority, List.takeWhile_append_dropWhile]
          _ = s := by rw [opens, List.takeWhile_append_dropWhile]
      · contradiction
  · contradiction

theorem plainNet_documented : plainNet.Documented where
  refused := by
    intro raw u _ _ broken
    cases (show true = false from broken)
  reread := by
    intro raw u read _ _
    have text : PlainURL.string u = trimSpace raw := PlainURL.string_parse read
    refine ⟨u, ?_, rfl, rfl, rfl⟩
    change PlainURL.parse (trimSpace (PlainURL.string u)) = some u
    rw [text, trimSpace_idem]
    exact read

end EdgeGuard.Go
