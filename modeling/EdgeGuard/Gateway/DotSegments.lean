import EdgeGuard.Gateway.Handler
import EdgeGuard.Gateway.Matching

/-! The Gateway matches and forwards the path as it arrives. An upstream that
removes dot segments may then serve a resource other than the one the route was
chosen for; here is exactly when the two agree. -/
namespace EdgeGuard.Gateway
open Go

/-- The path an upstream looks up when it removes the dot segments of what it
receives. -/
def servedPath (target : URL) (route : Route) (path : Str) : Str :=
  removeDotSegments (directedURL target route path).path

theorem joinPaths_seam {a b : Str} (left : a ≠ []) (right : b ≠ []) :
    ∃ a' b', (a = a' ∨ a = a' ++ [47]) ∧ (b = b' ∨ b = 47 :: b') ∧
      joinPaths a b = a' ++ 47 :: b' := by
  have slash : lit "/" = [47] := by decide
  simp only [joinPaths, left, right, if_false, slash]
  cases aSlash : hasSuffix a [47] with
  | true =>
    obtain ⟨a', rfl⟩ := List.isSuffixOf_iff_suffix.mp aSlash
    cases bSlash : hasPrefix b [47] with
    | true =>
      obtain ⟨b', rfl⟩ := hasPrefix_iff.mp bSlash
      exact ⟨a', b', .inr rfl, .inr rfl, by simp⟩
    | false => exact ⟨a', b, .inr rfl, .inl rfl, by simp⟩
  | false =>
    cases bSlash : hasPrefix b [47] with
    | true =>
      obtain ⟨b', rfl⟩ := hasPrefix_iff.mp bSlash
      exact ⟨a, b', .inl rfl, .inr rfl, by simp⟩
    | false => exact ⟨a, b, .inl rfl, .inl rfl, by simp⟩

theorem joinPaths_dotFree {a b : Str} (left : DotFree a) (right : DotFree b) :
    DotFree (joinPaths a b) := by
  by_cases noBase : a = []
  · simpa [joinPaths, noBase] using right
  by_cases noPath : b = []
  · simpa [joinPaths, noBase, noPath] using left
  obtain ⟨a', b', base, path, joined⟩ := joinPaths_seam noBase noPath
  rw [joined, DotFree.slash_iff]
  constructor
  · rcases base with rfl | rfl
    · exact left
    · exact (DotFree.slash_iff.mp left).1
  · rcases path with rfl | rfl
    · exact right
    · exact DotFree.rooted_iff.mp right

theorem trimPrefix_dotFree {start path : Str} (under : Under start path) (free : DotFree path) :
    DotFree (trimPrefix path start) := by
  have starts : hasPrefix path start = true := hasPrefix_iff.mpr under.isPrefix
  rw [trimPrefix, if_pos starts]
  rcases under with rfl | ⟨rest, rfl⟩
  · rw [List.drop_length]
    exact DotFree.nil
  · rw [List.append_assoc] at free ⊢
    rw [List.drop_left]
    exact DotFree.rooted_iff.mpr (DotFree.slash_iff.mp free).2

theorem Route.upstreamPath_dotFree {route : Route} {path : Str}
    (matching : route.matchesPath path = true) (free : DotFree path) :
    DotFree (route.upstreamPath path) := by
  unfold Route.upstreamPath
  split
  · exact free
  have stripped : DotFree (trimPrefix path (trimRight route.pathPrefix 47)) := by
    rcases Route.matchesPath_iff.mp matching with root | under
    · have nothing : trimRight (lit "/") 47 = [] := by decide
      rw [root, nothing]
      simpa [trimPrefix] using free
    · exact trimPrefix_dotFree under free
  dsimp only
  split
  · decide
  · split
    · exact DotFree.rooted_iff.mpr stripped
    · exact stripped

theorem servedPath_of_dotFree {target : URL} {route : Route} {path : Str}
    (matching : route.matchesPath path = true) (free : DotFree path) (base : DotFree target.path) :
    servedPath target route path = (directedURL target route path).path :=
  removeDotSegments_of_dotFree (joinPaths_dotFree base (Route.upstreamPath_dotFree matching free))

theorem servedPath_unstripped {target : URL} {route : Route} (unstripped : route.stripPrefix = false)
    (bare : target.path = []) (path : Str) : servedPath target route path = removeDotSegments path := by
  simp [servedPath, directedURL, joinPaths, bare, Route.upstreamPath, unstripped]

/-- A row for the given prefix and upstream. -/
def probeRow (pathPrefix upstreamURL : Str) : RouteResponse where
  projectID := lit "project"
  name := lit "probe"
  pathPrefix := pathPrefix
  upstreamURL := upstreamURL
  stripPrefix := false
  timeoutMS := 1000
  authRequired := true
  rateLimitEnabled := false
  rateLimitRequests := 0
  rateLimitWindowSeconds := 0

private theorem normalizePathPrefix_dotted {start : Str} (rooted : hasPrefix start (lit "/") = true)
    (last : start.getLast? = some 46) : normalizePathPrefix start = start := by
  obtain ⟨rest, rfl⟩ := hasPrefix_iff.mp rooted
  have trimmed : trimSpace (lit "/" ++ rest) = lit "/" ++ rest := by
    apply trimSpace_of_visible
    · intro byte head
      have slash : 47 = byte := Option.some.inj head
      rw [← slash]
      decide
    · intro byte final
      have dot : 46 = byte := Option.some.inj (last.symm.trans final)
      rw [← dot]
      decide
  have inner : lit "/" ++ rest ≠ lit "/" := by
    intro same
    rw [same] at last
    exact absurd last (by decide)
  rw [normalizePathPrefix, trimmed, if_neg inner, trimRight, List.rdropWhile_eq_self_iff]
  intro nonempty slash
  have final := List.getLast?_eq_some_getLast nonempty
  rw [last] at final
  have dot : (lit "/" ++ rest).getLast nonempty = 46 := (Option.some.inj final).symm
  rw [dot] at slash
  contradiction

section Loader
variable {parse : Str → Except String URL}

/-- What makes an upstream URL acceptable to the loader. -/
structure WebURL (parse : Str → Except String URL) (raw : Str) (url : URL) : Prop where
  parsed : parse (trimSpace raw) = .ok url
  scheme : url.scheme = lit "http" ∨ url.scheme = lit "https"
  host : url.host ≠ []

private theorem probe_loads {start raw : Str} {url : URL} (web : WebURL parse raw url)
    (rooted : hasPrefix start (lit "/") = true) (last : start.getLast? = some 46) :
    ∃ route, responseToDomain parse [probeRow start raw] = .ok [route] ∧
      route.pathPrefix = start := by
  have normal := normalizePathPrefix_dotted rooted last
  have accepted : (probeRow start raw).Acceptable parse := {
    project := by
      dsimp only [probeRow]
      decide
    name := by
      dsimp only [probeRow]
      decide
    rooted := by
      dsimp only [probeRow]
      rw [normal]
      exact rooted
    upstream := ⟨url, web.parsed, web.scheme, web.host⟩
    timeout := by
      dsimp only [probeRow]
      decide
    rateLimit := .inl ⟨rfl, rfl, rfl⟩ }
  obtain ⟨route, domain⟩ := toDomain_ok_iff.mpr accepted
  refine ⟨route, ?_, (toDomain_pathPrefix domain).trans normal⟩
  simp [responseToDomain, loadRoutes, domain]

/-- A route whose prefix ends in the dot segment matches the path and no
dot-free path. -/
theorem dotted_path_told_apart {raw path : Str} {url : URL} (web : WebURL parse raw url)
    (rooted : hasPrefix path (lit "/") = true) (dotted : ¬ DotFree path) :
    ∃ rows routes, responseToDomain parse rows = .ok routes ∧
      resolveRoute routes path ≠ resolveRoute routes (removeDotSegments path) := by
  obtain ⟨start, under, startDotted, last⟩ := exists_dot_segment dotted
  have startRooted : hasPrefix start (lit "/") = true := by
    have nonempty : start ≠ [] := by
      rintro rfl
      exact startDotted DotFree.nil
    have long : (lit "/").length ≤ start.length := List.length_pos_of_ne_nil nonempty
    exact hasPrefix_iff.mpr
      (List.prefix_of_prefix_length_le (hasPrefix_iff.mp rooted) under.isPrefix long)
  obtain ⟨route, loaded, same⟩ := probe_loads web startRooted last
  have normalized := responseToDomain_normalized loaded
  refine ⟨_, _, loaded, ?_⟩
  rw [Ne, same_route_iff normalized]
  intro agree
  have inner : route.pathPrefix ≠ lit "/" := by
    intro root
    rw [← same, root] at startDotted
    exact startDotted (by decide)
  have member : route ∈ [route] := by simp
  have here : route.matchesPath path = true := by
    rw [(normalized route member).matchesPath_iff inner, same]
    exact under
  rw [agree route member, (normalized route member).matchesPath_iff inner, same] at here
  exact startDotted (DotFree.under here (removeDotSegments_dotFree path))

end Loader

/-- The policy applied to a path is the one for its dot-free form exactly when no
route of the snapshot tells the two apart, and so is the policy for what an
upstream without base path serves. A path from the root has this in every
snapshot exactly when it has no dot segment; then nothing changes it upstream. -/
theorem policy_follows_raw_path (parse : Str → Except String URL) (raw : Str) (url : URL)
    (web : WebURL parse raw url) :
    (∀ rows routes, responseToDomain parse rows = .ok routes → ∀ path,
      (resolveRoute routes path = resolveRoute routes (removeDotSegments path) ↔
        ∀ route ∈ routes, route.matchesPath path = route.matchesPath (removeDotSegments path)) ∧
      ∀ route target, resolveRoute routes path = some route → route.stripPrefix = false →
        target.path = [] →
        (resolveRoute routes (servedPath target route path) = some route ↔
          ∀ route ∈ routes, route.matchesPath path = route.matchesPath (removeDotSegments path))) ∧
    (∀ path, hasPrefix path (lit "/") = true →
      ((∀ rows routes, responseToDomain parse rows = .ok routes →
        resolveRoute routes path = resolveRoute routes (removeDotSegments path)) ↔ DotFree path)) ∧
    ∀ (route : Route) (target : URL) (path : Str), route.matchesPath path = true → DotFree path →
      DotFree target.path → servedPath target route path = (directedURL target route path).path := by
  refine ⟨?_, ?_, ?_⟩
  · intro rows routes loaded path
    have agreement := same_route_iff (responseToDomain_normalized loaded) path
      (removeDotSegments path)
    refine ⟨agreement, ?_⟩
    intro route target resolved unstripped bare
    rw [servedPath_unstripped unstripped bare, ← agreement, resolved]
    exact eq_comm
  · intro path rooted
    constructor
    · intro always
      by_contra dotted
      obtain ⟨rows, routes, loaded, different⟩ := dotted_path_told_apart web rooted dotted
      exact different (always rows routes loaded)
    · intro free rows routes _
      rw [removeDotSegments_of_dotFree free]
  · intro route target path matching free base
    exact servedPath_of_dotFree matching free base

theorem dotted_path_has_no_fixed_policy :
    WebURL parsePlain (lit "http://app") ⟨lit "http", lit "app", []⟩ ∧
      ¬ (∀ rows routes, responseToDomain parsePlain rows = .ok routes →
        resolveRoute routes (lit "/public/../admin") =
          resolveRoute routes (removeDotSegments (lit "/public/../admin"))) := by
  have web : WebURL parsePlain (lit "http://app") ⟨lit "http", lit "app", []⟩ :=
    ⟨by decide, .inl rfl, by decide⟩
  refine ⟨web, ?_⟩
  rw [(policy_follows_raw_path parsePlain _ _ web).2.1 _ (by decide)]
  decide

def publicRow : RouteResponse :=
  { probeRow (lit "/public") (lit "http://app") with authRequired := false }

def adminRow : RouteResponse := probeRow (lit "/admin") (lit "http://app")

def publicRoute : Route where
  projectID := lit "project"
  name := lit "probe"
  pathPrefix := lit "/public"
  upstreamURL := lit "http://app"
  stripPrefix := false
  timeout := 1000 * millisecond
  authRequired := false
  rateLimit := ⟨false, 0, 0⟩

def adminRoute : Route := { publicRoute with pathPrefix := lit "/admin", authRequired := true }

/-- Without an API key, a path under a public route reaches what a protected
route of the same snapshot governs. -/
theorem dot_segments_reach_protected_route :
    responseToDomain parsePlain [publicRow, adminRow] = .ok [publicRoute, adminRoute] ∧
    removeDotSegments (lit "/public/../admin") = lit "/admin" ∧
    resolveRoute [publicRoute, adminRoute] (lit "/public/../admin") = some publicRoute ∧
    resolveRoute [publicRoute, adminRoute] (lit "/admin") = some adminRoute ∧
    publicRoute.authRequired = false ∧ adminRoute.authRequired = true ∧
    (proxyRequest id ⟨[publicRoute, adminRoute], none, none, fun _ => none⟩
      ⟨lit "/public/../admin", [], lit "10.0.0.1:40000"⟩).calls = [.serveHTTP publicRoute] ∧
    servedPath ⟨lit "http", lit "app", []⟩ publicRoute (lit "/public/../admin") = lit "/admin" := by
  decide

end EdgeGuard.Gateway
