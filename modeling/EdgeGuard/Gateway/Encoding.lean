import EdgeGuard.Gateway.Matching
import EdgeGuard.Go.Escape

/-! The percent-encoding of the forwarded path. The director of the standard
proxy joins both the path and its spelling to the upstream's; the Gateway then
replaces the path alone. Where a prefix was stripped the spelling is stale, and
the path is sent in the default encoding. -/
namespace EdgeGuard.Gateway
open Go

/-- `singleJoiningSlash` of `httputil`. -/
def singleJoiningSlash (a b : Str) : Str :=
  let aslash := hasSuffix a (lit "/")
  let bslash := hasPrefix b (lit "/")
  if aslash && bslash then a ++ b.drop 1
  else if !aslash && !bslash then a ++ lit "/" ++ b
  else a ++ b

/-- `joinURLPath` of `httputil`. -/
def joinURLPath (a b : URLPath) : URLPath :=
  if a.rawPath = [] ∧ b.rawPath = [] then ⟨singleJoiningSlash a.path b.path, []⟩
  else
    let apath := a.escapedPath
    let bpath := b.escapedPath
    let aslash := hasSuffix apath (lit "/")
    let bslash := hasPrefix bpath (lit "/")
    if aslash && bslash then ⟨a.path ++ b.path.drop 1, apath ++ bpath.drop 1⟩
    else if !aslash && !bslash then ⟨a.path ++ lit "/" ++ b.path, apath ++ lit "/" ++ bpath⟩
    else ⟨a.path ++ b.path, apath ++ bpath⟩

/-- The path fields that the proxy's `Director` leaves on the request. -/
def director (target : URLPath) (route : Route) (request : URLPath) : URLPath :=
  { joinURLPath target request with
    path := joinPaths target.path (route.upstreamPath request.path) }

/-- The path of an upstream URL with a host. -/
def parseUpstreamPath (text : Str) : Option URLPath :=
  if text = [] ∨ hasPrefix text (lit "/") = true then setPath text else none

/-- The path of a request target, as `url.ParseRequestURI` reads it. -/
def parseRequestPath (text : Str) : Option URLPath :=
  if text = lit "*" then some ⟨lit "*", []⟩ else parseUpstreamPath text

/-- An empty path as the root, any other with a leading slash. -/
def rooted (path : Str) : Str :=
  if path = [] then lit "/" else if hasPrefix path (lit "/") = false then lit "/" ++ path else path

namespace Route

/-- The prefix that `UpstreamPath` strips. -/
def strippedPrefix (route : Route) : Str := trimRight route.pathPrefix 47

/-- The client's spelling of what is left of the path. -/
def escapedRest (route : Route) (escaped : Str) : Str :=
  dropEscaped route.strippedPrefix.length escaped

/-- What is joined to the spelling of the upstream's path. -/
def remainder (route : Route) (escaped : Str) : Str :=
  if route.stripPrefix = false then escaped else rooted (route.escapedRest escaped)

/-- The upstream sees the client's spelling. -/
def EncodingKept (route : Route) (target request : URLPath) : Prop :=
  (director target route request).escapedPath =
    joinPaths target.escapedPath (route.remainder request.escapedPath)

instance (route : Route) (target request : URLPath) : Decidable (route.EncodingKept target request) :=
  inferInstanceAs (Decidable (_ = _))

/-- A route that strips nothing keeps the spelling; one that strips a prefix
keeps it where the upstream's path and the rest have the default encoding. The
targets without a path and `*` have no leading slash and are joined otherwise. -/
def KeepsEncoding (route : Route) (target request : URLPath) : Prop :=
  if request.path = [] then
    route.stripPrefix = true ∨ hasSuffix target.path (lit "/") = true ∨
      DefaultEncoded target.escapedPath
  else if request.path = lit "*" then
    if route.stripPrefix = true ∧ route.strippedPrefix ≠ [] then DefaultEncoded target.escapedPath
    else target.rawPath ≠ [] ∨ route.stripPrefix = false ∧ target.path = []
  else route.stripPrefix = false ∨ route.strippedPrefix = [] ∨
    DefaultEncoded target.escapedPath ∧ DefaultEncoded (route.escapedRest request.escapedPath)

instance (route : Route) (target request : URLPath) : Decidable (route.KeepsEncoding target request) :=
  inferInstanceAs (Decidable (ite _ _ _))

end Route

/-- A path with one slash at its end. -/
def seam (path : Str) : Str := if hasSuffix path (lit "/") = true then path else path ++ lit "/"

private theorem slash_eq : lit "/" = [47] := by decide

theorem hasPrefix_slash (rest : Str) : hasPrefix (47 :: rest) (lit "/") = true := by
  rw [slash_eq, hasPrefix_iff]
  exact ⟨rest, rfl⟩

theorem singleJoiningSlash_eq (a b : Str) :
    singleJoiningSlash a b = seam a ++ trimPrefix b (lit "/") := by
  unfold singleJoiningSlash seam trimPrefix
  cases hasSuffix a (lit "/") <;> cases rootedRight : hasPrefix b (lit "/")
  · simp
  · obtain ⟨rest, rfl⟩ := hasPrefix_iff.mp rootedRight
    simp
  · simp
  · simp [slash_eq]

theorem joinPaths_eq {a b : Str} (nonempty : a ≠ []) (more : b ≠ []) :
    joinPaths a b = singleJoiningSlash a b := by
  simp only [joinPaths, nonempty, more, if_false, singleJoiningSlash]

theorem joinPaths_slash (a rest : Str) : joinPaths a (47 :: rest) = seam a ++ rest := by
  by_cases empty : a = []
  · subst empty
    rfl
  · rw [joinPaths_eq empty (by simp), singleJoiningSlash_eq, trimPrefix, if_pos (hasPrefix_slash rest)]
    rfl

theorem joinPaths_nil (path : Str) : joinPaths path [] = path := by
  unfold joinPaths
  split
  · next empty => exact empty.symm
  · rfl

theorem hasSuffix_concat (init : Str) (c : UInt8) : hasSuffix (init ++ [c]) (lit "/") = (c == 47) := by
  rw [slash_eq, hasSuffix, Bool.eq_iff_iff, List.isSuffixOf_iff_suffix, beq_iff_eq]
  constructor
  · rintro ⟨front, same⟩
    have last := (List.append_inj' same rfl).2
    exact (List.cons.inj last).1.symm
  · rintro rfl
    exact ⟨init, rfl⟩

theorem slash_mem_seam (path : Str) : 47 ∈ seam path := by
  unfold seam
  split
  · next ends =>
    obtain ⟨front, rfl⟩ := List.isSuffixOf_iff_suffix.mp ends
    simp [slash_eq]
  · simp [slash_eq]

private theorem upperHexDigit_ne_slash : ∀ value < 16, upperHexDigit value ≠ 47 := by decide

theorem hasSuffix_escape (path : Str) :
    hasSuffix (escape path) (lit "/") = hasSuffix path (lit "/") := by
  rcases List.eq_nil_or_concat path with rfl | ⟨init, c, rfl⟩
  · rfl
  rw [List.concat_eq_append, escape_append, hasSuffix_concat]
  change hasSuffix (escape init ++ (escapeByte c ++ [])) (lit "/") = (c == 47)
  rw [List.append_nil, escapeByte]
  split
  · next special =>
    have other : c ≠ 47 := by
      rintro rfl
      exact absurd special (by decide)
    have bound := c.toNat_lt
    have digit := upperHexDigit_ne_slash (c.toNat % 16) (by omega)
    change hasSuffix (escape init ++ ([37, _] ++ [_])) (lit "/") = _
    rw [← List.append_assoc, hasSuffix_concat]
    simp [other, digit]
  · exact hasSuffix_concat _ _

theorem escape_seam (path : Str) : escape (seam path) = seam (escape path) := by
  simp only [seam, hasSuffix_escape]
  split
  · rfl
  · exact escape_append path (lit "/")

theorem validEncoded_seam {text : Str} (valid : validEncoded text = true) :
    validEncoded (seam text) = true := by
  unfold seam
  split
  · exact valid
  · rw [validEncoded_append, valid]
    decide

theorem validEncoded_trimPrefix {text : Str} (start : Str) (valid : validEncoded text = true) :
    validEncoded (trimPrefix text start) = true := by
  unfold trimPrefix
  split
  · rw [validEncoded, List.all_eq_true] at valid ⊢
    intro c member
    exact valid c (List.mem_of_mem_drop member)
  · exact valid

/-- Spellings of one path that end with a slash where the path does. -/
structure Aligned (text path : Str) : Prop where
  spelled : Spells text path
  slash : hasSuffix text (lit "/") = hasSuffix path (lit "/")

namespace Aligned

variable {text other path : Str}

theorem seam (aligned : Aligned text path) : Spells (seam text) (seam path) := by
  simp only [Gateway.seam, aligned.slash]
  split
  · exact aligned.spelled
  · exact aligned.spelled.append (Spells.slash .nil)

theorem escape (path : Str) : Aligned (escape path) path := ⟨spells_escape path, hasSuffix_escape path⟩

theorem seam_append_inj (one : Aligned text path) (two : Aligned other path) {first second : Str} :
    Gateway.seam text ++ first = Gateway.seam other ++ second ↔ text = other ∧ first = second := by
  constructor
  · intro same
    obtain ⟨front, back⟩ := one.seam.append_cancel two.seam same
    refine ⟨?_, back⟩
    simp only [Gateway.seam, one.slash, two.slash] at front
    split at front
    · exact front
    · exact List.append_cancel_right front
  · rintro ⟨rfl, rfl⟩
    rfl

end Aligned

/-- What is used of an upstream's path without percent-escapes. -/
structure UpstreamBase (target : URLPath) : Prop where
  aligned : Aligned target.escapedPath target.path
  plain : target.rawPath = [] → target.escapedPath = escape target.path
  empty : target.path = [] → target.rawPath = []
  named : target.path ≠ lit "*"

theorem parseUpstreamPath_setPath {text : Str} {url : URLPath}
    (parsed : parseUpstreamPath text = some url) :
    (text = [] ∨ ∃ rest, text = 47 :: rest) ∧ setPath text = some url := by
  unfold parseUpstreamPath at parsed
  split at parsed
  · next shape =>
    refine ⟨?_, parsed⟩
    cases shape with
    | inl empty => exact .inl empty
    | inr slash =>
      obtain ⟨rest, rfl⟩ := hasPrefix_iff.mp slash
      exact .inr ⟨rest, rfl⟩
  · cases parsed

theorem parseUpstreamPath_rooted {text : Str} {url : URLPath}
    (parsed : parseUpstreamPath text = some url) :
    url = ⟨[], []⟩ ∨ ∃ rest, url.path = 47 :: rest := by
  obtain ⟨rfl | ⟨after, rfl⟩, set⟩ := parseUpstreamPath_setPath parsed
  · exact .inl (Option.some.inj set).symm
  · obtain ⟨rest, same, _⟩ := (setPath_spells set).1.of_slash
    exact .inr ⟨rest, same⟩

theorem ne_star_of_rooted {url : URLPath} {rest : Str} (shape : url.path = 47 :: rest) :
    url.path ≠ lit "*" := by
  intro star
  rw [shape] at star
  exact absurd (List.cons.inj star).1 (by decide)

theorem parseUpstreamPath_base {text : Str} {target : URLPath}
    (parsed : parseUpstreamPath text = some target) (free : 37 ∉ text) : UpstreamBase target := by
  rcases parseUpstreamPath_rooted parsed with rfl | ⟨rest, shape⟩
  · exact ⟨⟨URLPath.spells_escapedPath _, by decide⟩, fun _ => by decide, fun _ => rfl, by decide⟩
  have named := ne_star_of_rooted shape
  have set := (parseUpstreamPath_setPath parsed).2
  have same := (setPath_spells set).1.eq_of_percent_free free
  constructor
  · refine ⟨target.spells_escapedPath, ?_⟩
    rcases setPath_escapedPath set named with written | default
    · rw [written, same]
    · rw [default, hasSuffix_escape]
  · intro raw
    exact URLPath.escapedPath_default (.inl raw) named
  · intro empty
    rw [shape] at empty
    cases empty
  · exact named

/-- A request whose path and spelling open with a slash. -/
structure RootedRequest (request : URLPath) (rest escaped : Str) : Prop where
  path : request.path = 47 :: rest
  text : request.escapedPath = 47 :: escaped
  spelled : Spells escaped rest
  plain : request.rawPath = [] → escaped = escape rest

theorem parseRequestPath_forms {text : Str} {request : URLPath}
    (parsed : parseRequestPath text = some request) :
    request = ⟨lit "*", []⟩ ∨ request = ⟨[], []⟩ ∨ ∃ rest escaped, RootedRequest request rest escaped := by
  unfold parseRequestPath at parsed
  split at parsed
  · exact .inl (Option.some.inj parsed).symm
  rcases parseUpstreamPath_rooted parsed with empty | ⟨rest, shape⟩
  · exact .inr (.inl empty)
  have named := ne_star_of_rooted shape
  obtain ⟨form, set⟩ := parseUpstreamPath_setPath parsed
  have opened : ∃ escaped, request.escapedPath = 47 :: escaped := by
    rcases setPath_escapedPath set named with written | default
    · rcases form with rfl | ⟨after, rfl⟩
      · have empty := (setPath_spells set).1.nil_iff.mp rfl
        rw [shape] at empty
        cases empty
      · exact ⟨after, written⟩
    · exact ⟨escape rest, by rw [default, shape, escape_slash]⟩
  obtain ⟨escaped, same⟩ := opened
  have spelled := request.spells_escapedPath
  rw [same, shape] at spelled
  obtain ⟨_, tail, more⟩ := spelled.of_slash
  obtain rfl := (List.cons.inj tail).2
  refine .inr (.inr ⟨rest, escaped, shape, same, more, fun raw => ?_⟩)
  have default := URLPath.escapedPath_default (.inl raw) named
  rw [same, shape, escape_slash] at default
  exact (List.cons.inj default).2

theorem joinURLPath_rawPath (a b : URLPath) : (joinURLPath a b).rawPath =
    if a.rawPath = [] ∧ b.rawPath = [] then []
    else singleJoiningSlash a.escapedPath b.escapedPath := by
  unfold joinURLPath singleJoiningSlash
  dsimp only
  split
  · rfl
  · split
    · rfl
    · split <;> rfl

/-- The parser kept a spelling for the upstream or for the request. -/
def Respelled (target request : URLPath) : Prop := ¬ (target.rawPath = [] ∧ request.rawPath = [])

section Joined

variable {target request : URLPath} {route : Route} {spelled sent expected : Str}

theorem director_escapedPath (base : UpstreamBase target)
    (tail : Spells (trimPrefix request.escapedPath (lit "/")) spelled)
    (joined : joinPaths target.path (route.upstreamPath request.path) = seam target.path ++ sent) :
    (Respelled target request ∧ spelled = sent →
      (director target route request).escapedPath =
        seam target.escapedPath ++ trimPrefix request.escapedPath (lit "/")) ∧
    (¬ (Respelled target request ∧ spelled = sent) →
      (director target route request).escapedPath = seam (escape target.path) ++ escape sent) := by
  have path : (director target route request).path = seam target.path ++ sent := joined
  have text : Spells (seam target.escapedPath ++ trimPrefix request.escapedPath (lit "/"))
      (seam target.path ++ spelled) := base.aligned.seam.append tail
  have raw : Respelled target request → (director target route request).rawPath =
      seam target.escapedPath ++ trimPrefix request.escapedPath (lit "/") := by
    intro respelled
    rw [← singleJoiningSlash_eq, director, joinURLPath_rawPath, if_neg respelled]
  constructor
  · rintro ⟨respelled, rfl⟩
    rw [← raw respelled]
    apply URLPath.escapedPath_raw
    · rw [raw respelled]
      exact List.append_ne_nil_of_left_ne_nil (List.ne_nil_of_mem (slash_mem_seam _)) _
    · rw [raw respelled, validEncoded_append,
        validEncoded_seam target.validEncoded_escapedPath,
        validEncoded_trimPrefix _ request.validEncoded_escapedPath]
      rfl
    · rw [raw respelled, path]
      exact text
  · intro stale
    rw [← escape_seam, ← escape_append, ← path]
    apply URLPath.escapedPath_default
    · by_cases respelled : Respelled target request
      · right
        intro current
        rw [raw respelled, path] at current
        exact stale ⟨respelled, List.append_cancel_left (text.unique current)⟩
      · left
        rw [director, joinURLPath_rawPath, if_pos (not_not.mp respelled)]
    · intro star
      have slash : 47 ∈ lit "*" := by
        rw [← star, path]
        exact List.mem_append_left _ (slash_mem_seam _)
      exact absurd slash (by decide)

theorem encodingKept_iff (base : UpstreamBase target)
    (tail : Spells (trimPrefix request.escapedPath (lit "/")) spelled)
    (joined : joinPaths target.path (route.upstreamPath request.path) = seam target.path ++ sent)
    (wanted : joinPaths target.escapedPath (route.remainder request.escapedPath) =
      seam target.escapedPath ++ expected) :
    (Respelled target request ∧ spelled = sent →
      (route.EncodingKept target request ↔
        trimPrefix request.escapedPath (lit "/") = expected)) ∧
    (¬ (Respelled target request ∧ spelled = sent) →
      (route.EncodingKept target request ↔
        target.escapedPath = escape target.path ∧ expected = escape sent)) := by
  obtain ⟨kept, stale⟩ := director_escapedPath base tail joined
  constructor
  · intro current
    rw [Route.EncodingKept, kept current, wanted, List.append_right_inj]
  · intro old
    rw [Route.EncodingKept, stale old, wanted, eq_comm, base.aligned.seam_append_inj (.escape _)]

end Joined

theorem rooted_slash (path : Str) : ∃ rest, rooted path = 47 :: rest := by
  unfold rooted
  split
  · exact ⟨[], slash_eq⟩
  · split
    · exact ⟨path, by simp [slash_eq]⟩
    · next opened =>
      obtain ⟨rest, rfl⟩ := hasPrefix_iff.mp (Bool.not_eq_false _ ▸ opened)
      exact ⟨rest, by simp [slash_eq]⟩

theorem rooted_of_slash (rest : Str) : rooted (47 :: rest) = 47 :: rest := by
  simp [rooted, hasPrefix_slash]

namespace Route

variable {route : Route} {path : Str}

theorem strippedPrefix_isPrefix (matching : route.matchesPath path = true) :
    route.strippedPrefix <+: path := by
  rcases matchesPath_iff.mp matching with root | under
  · have nothing : trimRight (lit "/") 47 = [] := by decide
    rw [strippedPrefix, root, nothing]
    exact List.nil_prefix
  · exact under.isPrefix

theorem upstreamPath_stripped (matching : route.matchesPath path = true)
    (strips : route.stripPrefix = true) :
    route.upstreamPath path = rooted (path.drop route.strippedPrefix.length) := by
  have starts := hasPrefix_iff.mpr (strippedPrefix_isPrefix matching)
  have trimmed : trimPrefix path route.strippedPrefix = path.drop route.strippedPrefix.length :=
    if_pos starts
  simp only [upstreamPath, strips, Bool.true_eq_false, if_false]
  change rooted (trimPrefix path route.strippedPrefix) = _
  rw [trimmed]

theorem upstreamPath_unstripped (keeps : route.stripPrefix = false) :
    route.upstreamPath path = path := if_pos keeps

theorem remainder_stripped (strips : route.stripPrefix = true) (escaped : Str) :
    route.remainder escaped = rooted (route.escapedRest escaped) := if_neg (by simp [strips])

theorem remainder_unstripped (keeps : route.stripPrefix = false) (escaped : Str) :
    route.remainder escaped = escaped := if_pos keeps

theorem rest_cases (matching : route.matchesPath path = true) (strips : route.strippedPrefix ≠ []) :
    path = route.strippedPrefix ∨ ∃ rest, path = route.strippedPrefix ++ 47 :: rest := by
  rcases matchesPath_iff.mp matching with root | same | ⟨rest, joined⟩
  · exact absurd (by rw [strippedPrefix, root]; decide) strips
  · exact .inl same
  · exact .inr ⟨rest, by rw [← joined]; simp [strippedPrefix]⟩

theorem rooted_drop_ne (matching : route.matchesPath path = true)
    (strips : route.strippedPrefix ≠ []) :
    rooted (path.drop route.strippedPrefix.length) ≠ path := by
  intro same
  rcases rest_cases matching strips with whole | ⟨rest, joined⟩
  · rw [whole, List.drop_length] at same
    -- the stripped prefix would be a slash, which is trimmed
    have trimmed := trimRight_idem route.pathPrefix 47
    change trimRight route.strippedPrefix 47 = route.strippedPrefix at trimmed
    rw [← same] at trimmed
    exact absurd trimmed (by decide)
  · rw [joined, List.drop_left, rooted_of_slash] at same
    have lengths := congrArg List.length same
    have positive := List.length_pos_iff.mpr strips
    simp only [List.length_append, List.length_cons] at lengths
    omega

end Route

theorem rooted_default_iff {text path : Str} (spelled : Spells text path)
    (shape : path = [] ∨ ∃ rest, path = 47 :: rest) :
    rooted text = escape (rooted path) ↔ DefaultEncoded text := by
  rw [defaultEncoded_iff spelled]
  rcases shape with rfl | ⟨rest, rfl⟩
  · obtain rfl := spelled.eq_nil
    decide
  rw [rooted_of_slash]
  constructor
  · intro same
    by_cases opened : hasPrefix text (lit "/") = true
    · obtain ⟨after, rfl⟩ := hasPrefix_iff.mp opened
      rwa [slash_eq, List.singleton_append, rooted_of_slash] at same
    · -- an escaped slash before the rest would be spelled twice
      have nonempty : text ≠ [] := fun empty => by cases spelled.nil_iff.mp empty
      have added : rooted text = 47 :: text := by
        rw [rooted, if_neg nonempty, if_pos (Bool.eq_false_iff.mpr opened), slash_eq,
          List.singleton_append]
      rw [added, escape_slash] at same
      have tail := (List.cons.inj same).2
      rw [tail] at spelled
      have lengths := congrArg List.length (spelled.unique (spells_escape rest))
      simp at lengths
  · intro same
    rw [same, escape_slash, rooted_of_slash]

section Requests

variable {target request : URLPath} {route : Route}

theorem trimPrefix_slash (rest : Str) : trimPrefix (47 :: rest) (lit "/") = rest := if_pos (hasPrefix_slash rest)

theorem default_target_iff :
    DefaultEncoded target.escapedPath ↔ target.escapedPath = escape target.path :=
  defaultEncoded_iff target.spells_escapedPath

theorem rooted_unstripped_kept (base : UpstreamBase target) {rest escaped : Str}
    (rooted : RootedRequest request rest escaped) (matching : route.matchesPath request.path = true)
    (nothing : route.stripPrefix = false ∨ route.strippedPrefix = []) :
    route.EncodingKept target request := by
  have sent : route.upstreamPath request.path = 47 :: rest := by
    cases strips : route.stripPrefix with
    | false => rw [Route.upstreamPath_unstripped strips, rooted.path]
    | true =>
      have empty := nothing.resolve_left (by simp [strips])
      rw [Route.upstreamPath_stripped matching strips, empty, rooted.path]
      exact rooted_of_slash rest
  have wanted : route.remainder request.escapedPath = 47 :: escaped := by
    cases strips : route.stripPrefix with
    | false => rw [Route.remainder_unstripped strips, rooted.text]
    | true =>
      have empty := nothing.resolve_left (by simp [strips])
      rw [Route.remainder_stripped strips, Route.escapedRest, empty, rooted.text]
      exact rooted_of_slash escaped
  have text : trimPrefix request.escapedPath (lit "/") = escaped := by
    rw [rooted.text, trimPrefix_slash]
  have tail : Spells (trimPrefix request.escapedPath (lit "/")) rest := text ▸ rooted.spelled
  obtain ⟨kept, stale⟩ := encodingKept_iff base tail (by rw [sent, joinPaths_slash])
    (by rw [wanted, joinPaths_slash])
  by_cases respelled : Respelled target request
  · exact (kept ⟨respelled, rfl⟩).mpr text
  · have raw := not_not.mp respelled
    exact (stale fun current => respelled current.1).mpr ⟨base.plain raw.1, rooted.plain raw.2⟩

theorem rooted_stripped_iff (base : UpstreamBase target) {rest escaped : Str}
    (rooted : RootedRequest request rest escaped) (matching : route.matchesPath request.path = true)
    (strips : route.stripPrefix = true) (nonempty : route.strippedPrefix ≠ []) :
    route.EncodingKept target request ↔ DefaultEncoded target.escapedPath ∧
      DefaultEncoded (route.escapedRest request.escapedPath) := by
  obtain ⟨sent, left⟩ := rooted_slash (request.path.drop route.strippedPrefix.length)
  obtain ⟨wanted, right⟩ := rooted_slash (route.escapedRest request.escapedPath)
  have shape : request.path.drop route.strippedPrefix.length = [] ∨
      ∃ rest, request.path.drop route.strippedPrefix.length = 47 :: rest := by
    rcases Route.rest_cases matching nonempty with whole | ⟨rest, joined⟩
    · left
      rw [whole, List.drop_length]
    · exact .inr ⟨rest, by rw [joined, List.drop_left]⟩
  have default := rooted_default_iff (request.spells_escapedPath.dropEscaped _) shape
  change Gateway.rooted (route.escapedRest request.escapedPath) = _ ↔
    DefaultEncoded (route.escapedRest request.escapedPath) at default
  rw [left, right, escape_slash, List.cons.injEq, and_iff_right rfl] at default
  have moved : rest ≠ sent := by
    rintro rfl
    exact Route.rooted_drop_ne matching nonempty (left.trans rooted.path.symm)
  have text : trimPrefix request.escapedPath (lit "/") = escaped := by
    rw [rooted.text, trimPrefix_slash]
  have tail : Spells (trimPrefix request.escapedPath (lit "/")) rest := text ▸ rooted.spelled
  have stale := (encodingKept_iff base tail
    (by rw [Route.upstreamPath_stripped matching strips, left, joinPaths_slash])
    (by rw [Route.remainder_stripped strips, right, joinPaths_slash])).2
  rw [stale fun current => moved current.2, default_target_iff, default]

/-- The asterisk is respelled unless the upstream's path was kept with its own
spelling. -/
private theorem star_joined (base : UpstreamBase target)
    (joined : joinPaths target.path (route.upstreamPath (lit "*")) = seam target.path ++ lit "*")
    (wanted : joinPaths target.escapedPath (route.remainder (lit "*")) =
      seam target.escapedPath ++ lit "*") :
    route.EncodingKept target ⟨lit "*", []⟩ ↔ target.rawPath ≠ [] := by
  have text : (URLPath.mk (lit "*") []).escapedPath = lit "*" := by decide
  have tail : Spells (trimPrefix (URLPath.mk (lit "*") []).escapedPath (lit "/")) (lit "*") :=
    .byte (by decide) .nil
  obtain ⟨kept, stale⟩ := encodingKept_iff base tail joined (by rw [text]; exact wanted)
  by_cases raw : target.rawPath = []
  · have plain : ¬ Respelled target ⟨lit "*", []⟩ := fun respelled => respelled ⟨raw, rfl⟩
    rw [stale fun current => plain current.1]
    have escaped : lit "*" ≠ escape (lit "*") := by decide
    exact iff_of_false (fun both => escaped both.2) (not_not.mpr raw)
  · rw [kept ⟨fun empty => raw empty.1, rfl⟩]
    exact iff_of_true (by decide) raw

/-- Stripping the prefix `*` leaves the root. -/
private theorem star_stripped (base : UpstreamBase target)
    (matching : route.matchesPath (lit "*") = true) (strips : route.stripPrefix = true)
    (nonempty : route.strippedPrefix ≠ []) :
    route.EncodingKept target ⟨lit "*", []⟩ ↔ target.escapedPath = escape target.path := by
  have text : (URLPath.mk (lit "*") []).escapedPath = lit "*" := by decide
  have whole : route.strippedPrefix = lit "*" := by
    rcases Route.rest_cases matching nonempty with same | ⟨rest, joined⟩
    · exact same.symm
    · have lengths := congrArg List.length joined
      have positive := List.length_pos_iff.mpr nonempty
      have one : (lit "*").length = 1 := by decide
      simp only [List.length_append, List.length_cons] at lengths
      omega
  have tail : Spells (trimPrefix (URLPath.mk (lit "*") []).escapedPath (lit "/")) (lit "*") :=
    .byte (by decide) .nil
  have joined : joinPaths target.path (route.upstreamPath (lit "*")) = seam target.path ++ [] := by
    rw [Route.upstreamPath_stripped matching strips, whole]
    exact joinPaths_slash _ []
  have wanted : joinPaths target.escapedPath
      (route.remainder (URLPath.mk (lit "*") []).escapedPath) = seam target.escapedPath ++ [] := by
    rw [text, Route.remainder_stripped strips, Route.escapedRest, whole]
    exact joinPaths_slash _ []
  have stale := (encodingKept_iff base tail joined wanted).2
  rw [stale fun current => absurd current.2 (by decide)]
  exact and_iff_left rfl

theorem star_iff (base : UpstreamBase target) (matching : route.matchesPath (lit "*") = true) :
    route.EncodingKept target ⟨lit "*", []⟩ ↔
      if route.stripPrefix = true ∧ route.strippedPrefix ≠ [] then DefaultEncoded target.escapedPath
      else target.rawPath ≠ [] ∨ route.stripPrefix = false ∧ target.path = [] := by
  cases strips : route.stripPrefix with
  | false =>
    simp only [Bool.false_eq_true, false_and, if_false, true_and]
    by_cases empty : target.path = []
    · have raw := base.empty empty
      obtain ⟨path, rawPath⟩ := target
      subst empty raw
      refine iff_of_true ?_ (.inr rfl)
      rw [Route.EncodingKept, Route.remainder_unstripped strips, director,
        Route.upstreamPath_unstripped strips]
      decide
    · have present : target.escapedPath ≠ [] := by
        rwa [ne_eq, target.spells_escapedPath.nil_iff]
      rw [or_iff_left empty]
      apply star_joined base
      · rw [Route.upstreamPath_unstripped strips, joinPaths_eq empty (by decide),
          singleJoiningSlash_eq]
        rfl
      · rw [Route.remainder_unstripped strips, joinPaths_eq present (by decide),
          singleJoiningSlash_eq]
        rfl
  | true =>
    simp only [true_and, Bool.true_eq_false, false_and, or_false]
    by_cases nothing : route.strippedPrefix = []
    · rw [if_neg (not_not.mpr nothing)]
      apply star_joined base
      · rw [Route.upstreamPath_stripped matching strips, nothing]
        exact joinPaths_slash _ _
      · rw [Route.remainder_stripped strips, Route.escapedRest, nothing]
        exact joinPaths_slash _ _
    · rw [if_pos nothing, default_target_iff]
      exact star_stripped base matching strips nothing

private theorem empty_joined (base : UpstreamBase target)
    (joined : joinPaths target.path (route.upstreamPath []) = seam target.path ++ [])
    (wanted : joinPaths target.escapedPath (route.remainder []) = seam target.escapedPath ++ []) :
    route.EncodingKept target ⟨[], []⟩ := by
  have text : (URLPath.mk [] []).escapedPath = [] := by decide
  have tail : Spells (trimPrefix (URLPath.mk [] []).escapedPath (lit "/")) [] := .nil
  obtain ⟨kept, stale⟩ := encodingKept_iff base tail joined (by rw [text]; exact wanted)
  by_cases respelled : Respelled target ⟨[], []⟩
  · exact (kept ⟨respelled, rfl⟩).mpr (by decide)
  · exact (stale fun current => respelled current.1).mpr ⟨base.plain (not_not.mp respelled).1, rfl⟩

/-- Without a path and a slash, the joined spelling has a slash that the path has not. -/
private theorem empty_unslashed (base : UpstreamBase target) (keeps : route.stripPrefix = false)
    (ends : ¬ hasSuffix target.path (lit "/") = true) :
    route.EncodingKept target ⟨[], []⟩ ↔ target.escapedPath = escape target.path := by
  have text : (URLPath.mk [] []).escapedPath = [] := by decide
  have tail : Spells (trimPrefix (URLPath.mk [] []).escapedPath (lit "/")) [] := .nil
  have path : (director target route ⟨[], []⟩).path = target.path := by
    rw [director, Route.upstreamPath_unstripped keeps, joinPaths_nil]
  have stale : (director target route ⟨[], []⟩).rawPath = [] ∨
      ¬ Spells (director target route ⟨[], []⟩).rawPath (director target route ⟨[], []⟩).path := by
    rw [path, director, joinURLPath_rawPath, text, singleJoiningSlash_eq]
    split
    · exact .inl rfl
    · right
      intro current
      have same := (base.aligned.seam.append tail).unique current
      rw [seam, if_neg ends] at same
      have lengths := congrArg List.length same
      simp [slash_eq] at lengths
  rw [Route.EncodingKept, URLPath.escapedPath_default stale (path ▸ base.named), path, text,
    Route.remainder_unstripped keeps, joinPaths_nil, eq_comm]

theorem empty_iff (base : UpstreamBase target) (matching : route.matchesPath [] = true) :
    route.EncodingKept target ⟨[], []⟩ ↔ route.stripPrefix = true ∨
      hasSuffix target.path (lit "/") = true ∨ DefaultEncoded target.escapedPath := by
  have nothing : route.strippedPrefix = [] :=
    List.prefix_nil.mp (Route.strippedPrefix_isPrefix matching)
  cases strips : route.stripPrefix with
  | true =>
    refine iff_of_true (empty_joined base ?_ ?_) (.inl rfl)
    · rw [Route.upstreamPath_stripped matching strips, nothing]
      exact joinPaths_slash _ []
    · rw [Route.remainder_stripped strips, Route.escapedRest, nothing]
      exact joinPaths_slash _ []
  | false =>
    rw [or_iff_right Bool.false_ne_true, default_target_iff]
    by_cases ends : hasSuffix target.path (lit "/") = true
    · refine iff_of_true (empty_joined base ?_ ?_) (.inl ends)
      · rw [Route.upstreamPath_unstripped strips, joinPaths_nil, seam, if_pos ends, List.append_nil]
      · rw [Route.remainder_unstripped strips, joinPaths_nil, seam,
          if_pos (base.aligned.slash.trans ends), List.append_nil]
    · rw [or_iff_right ends]
      exact empty_unslashed base strips ends

theorem rooted_iff (base : UpstreamBase target) {rest escaped : Str}
    (rooted : RootedRequest request rest escaped)
    (matching : route.matchesPath request.path = true) :
    route.EncodingKept target request ↔ route.stripPrefix = false ∨ route.strippedPrefix = [] ∨
      DefaultEncoded target.escapedPath ∧ DefaultEncoded (route.escapedRest request.escapedPath) := by
  by_cases nothing : route.stripPrefix = false ∨ route.strippedPrefix = []
  · rw [← or_assoc]
    exact iff_of_true (rooted_unstripped_kept base rooted matching nothing) (.inl nothing)
  · rw [← or_assoc, or_iff_right nothing]
    obtain ⟨keeps, nonempty⟩ := not_or.mp nothing
    exact rooted_stripped_iff base rooted matching (Bool.eq_true_of_not_eq_false keeps) nonempty

theorem keepsEncoding_iff (base : UpstreamBase target) {text : Str}
    (parsed : parseRequestPath text = some request)
    (matching : route.matchesPath request.path = true) :
    route.EncodingKept target request ↔ route.KeepsEncoding target request := by
  unfold Route.KeepsEncoding
  rcases parseRequestPath_forms parsed with rfl | rfl | ⟨rest, escaped, rooted⟩
  · rw [if_neg (by decide), if_pos rfl]
    exact star_iff base matching
  · rw [if_pos rfl]
    exact empty_iff base matching
  · have nonempty : request.path ≠ [] := by simp [rooted.path]
    rw [if_neg nonempty, if_neg (ne_star_of_rooted rooted.path)]
    exact rooted_iff base rooted matching

theorem remainder_slash (route : Route) {text : Str} (parsed : parseRequestPath text = some request)
    (opened : hasPrefix request.path (lit "/") = true) :
    ∃ rest, route.remainder request.escapedPath = 47 :: rest := by
  cases strips : route.stripPrefix with
  | true =>
    rw [Route.remainder_stripped strips]
    exact rooted_slash _
  | false =>
    rw [Route.remainder_unstripped strips]
    rcases parseRequestPath_forms parsed with rfl | rfl | ⟨rest, escaped, rooted⟩
    · exact absurd opened (by decide)
    · exact absurd opened (by decide)
    · exact ⟨escaped, rooted.text⟩

end Requests

/-- The upstream sees the client's spelling of a request exactly when
`KeepsEncoding` holds, and then requests that differ in what is left of their
spelling are told apart. -/
theorem encoding_kept_iff {baseText text : Str} {target request : URLPath} {route : Route}
    (upstream : parseUpstreamPath baseText = some target) (free : 37 ∉ baseText)
    (parsed : parseRequestPath text = some request)
    (matching : route.matchesPath request.path = true) :
    (route.EncodingKept target request ↔ route.KeepsEncoding target request) ∧
    ∀ {otherText : Str} {other : URLPath}, parseRequestPath otherText = some other →
      route.matchesPath other.path = true →
      hasPrefix request.path (lit "/") = true → hasPrefix other.path (lit "/") = true →
      route.KeepsEncoding target request → route.KeepsEncoding target other →
      route.remainder request.escapedPath ≠ route.remainder other.escapedPath →
      (director target route request).escapedPath ≠ (director target route other).escapedPath := by
  have base := parseUpstreamPath_base upstream free
  refine ⟨keepsEncoding_iff base parsed matching, ?_⟩
  intro otherText other otherParsed otherMatching opened otherOpened keeps otherKeeps apart merged
  have sent := (keepsEncoding_iff base parsed matching).mpr keeps
  have otherSent := (keepsEncoding_iff base otherParsed otherMatching).mpr otherKeeps
  obtain ⟨rest, shape⟩ := remainder_slash route parsed opened
  obtain ⟨otherRest, otherShape⟩ := remainder_slash route otherParsed otherOpened
  rw [sent, otherSent, shape, otherShape, joinPaths_slash, joinPaths_slash,
    List.append_right_inj] at merged
  exact apart (by rw [shape, otherShape, merged])

/-- A route that strips the prefix `/api`. -/
def apiRoute : Route where
  projectID := []
  name := lit "api"
  pathPrefix := lit "/api"
  upstreamURL := lit "http://api.internal/v1"
  stripPrefix := true
  timeout := 30000000000
  authRequired := false
  rateLimit := ⟨false, 0, 0⟩

/-- An escaped space is its default encoding and stays. -/
theorem escaped_space_is_kept :
    parseUpstreamPath (lit "/v1") = some ⟨lit "/v1", []⟩ ∧
    parseRequestPath (lit "/api/a%20b") = some ⟨lit "/api/a b", []⟩ ∧
    (director ⟨lit "/v1", []⟩ apiRoute ⟨lit "/api/a b", []⟩).escapedPath = lit "/v1/a%20b" := by
  have upstream : parseUpstreamPath (lit "/v1") = some ⟨lit "/v1", []⟩ := by decide
  have parsed : parseRequestPath (lit "/api/a%20b") = some ⟨lit "/api/a b", []⟩ := by decide
  have kept : apiRoute.EncodingKept ⟨lit "/v1", []⟩ ⟨lit "/api/a b", []⟩ :=
    (encoding_kept_iff upstream (by decide) parsed (by decide)).1.mpr (by decide)
  refine ⟨upstream, parsed, kept.trans ?_⟩
  decide

/-- An escaped slash behind a stripped prefix reaches the upstream as a slash. -/
theorem escaped_slash_is_merged :
    parseUpstreamPath (lit "/v1") = some ⟨lit "/v1", []⟩ ∧
    parseRequestPath (lit "/api/a%2Fb") = some ⟨lit "/api/a/b", lit "/api/a%2Fb"⟩ ∧
    parseRequestPath (lit "/api/a/b") = some ⟨lit "/api/a/b", []⟩ ∧
    apiRoute.matchesPath (lit "/api/a/b") = true ∧
    apiRoute.remainder (lit "/api/a%2Fb") = lit "/a%2Fb" ∧
    apiRoute.remainder (lit "/api/a/b") = lit "/a/b" ∧
    (director ⟨lit "/v1", []⟩ apiRoute ⟨lit "/api/a/b", lit "/api/a%2Fb"⟩).escapedPath =
      lit "/v1/a/b" ∧
    (director ⟨lit "/v1", []⟩ apiRoute ⟨lit "/api/a/b", []⟩).escapedPath = lit "/v1/a/b" ∧
    ¬ apiRoute.EncodingKept ⟨lit "/v1", []⟩ ⟨lit "/api/a/b", lit "/api/a%2Fb"⟩ := by
  decide

end EdgeGuard.Gateway
