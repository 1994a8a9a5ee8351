import EdgeGuard.Gateway.Matching
import Mathlib.Data.List.Nodup

/-! Route lookup as a longest-prefix match over segments. The loop compares prefixes
byte by byte and keeps the first of the longest ones; on a loaded snapshot this is
the one route whose segments are the longest first segments of the path, so the
order of the rows does not matter. -/
namespace EdgeGuard.Gateway
open Go

section Table
variable {α β : Type} {key : α → List β} {table : List α} {text : List β}

/-- The entry of a table whose key is the one longest prefix of a text. -/
structure LongestMatch (key : α → List β) (table : List α) (text : List β) (found : α) : Prop where
  member : found ∈ table
  starts : key found <+: text
  longest : ∀ other ∈ table, key other <+: text →
    other = found ∨ (key other).length < (key found).length

namespace LongestMatch

theorem unique {first second : α} (left : LongestMatch key table text first)
    (right : LongestMatch key table text second) : first = second := by
  rcases right.longest first left.member left.starts with same | shorter
  · exact same
  rcases left.longest second right.member right.starts with same | longer
  · exact same.symm
  · omega

theorem congr {other : List α} (same : ∀ entry, entry ∈ table ↔ entry ∈ other) {found : α} :
    LongestMatch key table text found ↔ LongestMatch key other text found := by
  constructor
  · intro longest
    exact ⟨(same found).mp longest.member, longest.starts,
      fun entry member => longest.longest entry ((same entry).mpr member)⟩
  · intro longest
    exact ⟨(same found).mpr longest.member, longest.starts,
      fun entry member => longest.longest entry ((same entry).mp member)⟩

/-- Where no two entries share a key, no other match is as long as a longest one. -/
theorem of_le {found : α} (distinct : ∀ entry ∈ table, key entry = key found → entry = found)
    (member : found ∈ table) (starts : key found <+: text)
    (longest : ∀ other ∈ table, key other <+: text → (key other).length ≤ (key found).length) :
    LongestMatch key table text found := by
  refine ⟨member, starts, ?_⟩
  intro other present matching
  rcases (longest other present matching).lt_or_eq with shorter | level
  · exact .inr shorter
  · have prefixed := List.prefix_of_prefix_length_le matching starts level.le
    exact .inl (distinct other present (prefixed.eq_of_length level))

end LongestMatch
end Table

namespace Route

/-- The segments of a route's prefix; the root has none. -/
def prefixSegments (route : Route) : List Str :=
  if route.pathPrefix = lit "/" then [] else segments route.pathPrefix

variable {route other : Route} {path : Str}

theorem Normalized.matchesPath_iff_segments (normalized : route.Normalized) :
    route.matchesPath path = true ↔ route.prefixSegments <+: segments path := by
  unfold prefixSegments
  by_cases root : route.pathPrefix = lit "/"
  · rw [if_pos root, Route.matchesPath_iff]
    simp [root]
  · rw [if_neg root, normalized.matchesPath_iff root, segments_isPrefix_iff]

theorem prefixSegments_injective (same : route.prefixSegments = other.prefixSegments) :
    route.pathPrefix = other.pathPrefix := by
  have some_segment : ∀ text : Str, segments text ≠ [] := fun text => List.splitOn_ne_nil 47 text
  unfold prefixSegments at same
  by_cases root : route.pathPrefix = lit "/"
  · by_cases otherRoot : other.pathPrefix = lit "/"
    · rw [root, otherRoot]
    · rw [if_pos root, if_neg otherRoot] at same
      exact absurd same.symm (some_segment _)
  · by_cases otherRoot : other.pathPrefix = lit "/"
    · rw [if_neg root, if_pos otherRoot] at same
      exact absurd same (some_segment _)
    · rw [if_neg root, if_neg otherRoot] at same
      exact segments_injective same

/-- Of two prefixes above one path, the one with fewer bytes has no more segments. -/
theorem prefixSegments_length_le (normalized : route.Normalized) (otherNormalized : other.Normalized)
    (shorter : route.pathPrefix.length ≤ other.pathPrefix.length)
    (here : route.matchesPath path = true) (otherHere : other.matchesPath path = true) :
    route.prefixSegments.length ≤ other.prefixSegments.length := by
  -- The lower prefix is itself a path below the upper one.
  by_cases root : other.pathPrefix = lit "/"
  · rw [root] at shorter
    have same := normalized.root_of_length_le shorter
    simp [prefixSegments, same]
  · have below : other.matchesPath other.pathPrefix = true :=
      (otherNormalized.matchesPath_iff root).mpr (Under.refl _)
    have above := matchesPath_of_longer normalized otherNormalized shorter here otherHere below
    have prefixed := (normalized.matchesPath_iff_segments).mp above
    simpa only [prefixSegments, if_neg root] using prefixed.length_le

end Route

section Lookup
variable {routes : List Route} {path : Str}
  (normalized : ∀ route ∈ routes, route.Normalized)
  (distinct : ∀ route ∈ routes, ∀ other ∈ routes, route.pathPrefix = other.pathPrefix → route = other)
include normalized

theorem resolveRoute_none_iff : resolveRoute routes path = none ↔
    ∀ route ∈ routes, ¬ route.prefixSegments <+: segments path := by
  constructor
  · intro missing route member starts
    have unmatched := resolveRoute_none missing route member
    rw [((normalized route member).matchesPath_iff_segments).mpr starts] at unmatched
    contradiction
  · intro unmatched
    cases resolved : resolveRoute routes path with
    | none => rfl
    | some found =>
      obtain ⟨member, matching, _⟩ := resolveRoute_some resolved
      exact absurd (((normalized found member).matchesPath_iff_segments).mp matching)
        (unmatched found member)

include distinct

theorem resolveRoute_longest {found : Route} (resolved : resolveRoute routes path = some found) :
    LongestMatch Route.prefixSegments routes (segments path) found := by
  obtain ⟨member, matching, longest⟩ := resolveRoute_some resolved
  have starts := ((normalized found member).matchesPath_iff_segments).mp matching
  refine .of_le ?_ member starts ?_
  · intro entry present same
    exact distinct entry present found member (Route.prefixSegments_injective same)
  · intro other present otherStarts
    have otherMatching := ((normalized other present).matchesPath_iff_segments).mpr otherStarts
    exact Route.prefixSegments_length_le (normalized other present) (normalized found member)
      (longest other present otherMatching) otherMatching matching

theorem resolveRoute_iff_longest (found : Route) : resolveRoute routes path = some found ↔
    LongestMatch Route.prefixSegments routes (segments path) found := by
  constructor
  · exact resolveRoute_longest normalized distinct
  · intro longest
    cases resolved : resolveRoute routes path with
    | none => exact absurd longest.starts ((resolveRoute_none_iff normalized).mp resolved found longest.member)
    | some other => rw [(resolveRoute_longest normalized distinct resolved).unique longest]

end Lookup

section Loaded
variable {parse : Str → Except String URL} {rows : List RouteResponse} {routes : List Route}

/-- Each route of a loaded snapshot comes from the row in its place. -/
theorem loadRoutes_forall₂ {index : Nat} {taken : List Str}
    (loaded : loadRoutes parse index taken rows = .ok routes) :
    List.Forall₂ (fun row route => row.toDomain parse = .ok route) rows routes := by
  induction rows generalizing index taken routes with
  | nil =>
    cases loaded
    exact .nil
  | cons item rest ih =>
    rw [loadRoutes] at loaded
    split at loaded
    · contradiction
    rename_i first domain
    obtain ⟨_, loaded⟩ := check_passed loaded
    split at loaded
    · contradiction
    rename_i later tail
    cases loaded
    exact .cons domain (ih tail)

theorem loaded_pathPrefixes (loaded : responseToDomain parse rows = .ok routes) :
    routes.map Route.pathPrefix = rows.map (fun row => normalizePathPrefix row.pathPrefix) := by
  have pairs := loadRoutes_forall₂ loaded
  clear loaded
  induction pairs with
  | nil => rfl
  | cons domain _ ih => rw [List.map_cons, List.map_cons, toDomain_pathPrefix domain, ih]

theorem loaded_nodup (loaded : responseToDomain parse rows = .ok routes) :
    (routes.map Route.pathPrefix).Nodup := by
  rw [loaded_pathPrefixes loaded]
  exact ((responseToDomain_ok_iff rows).mp ⟨routes, loaded⟩).2

theorem loaded_distinct (loaded : responseToDomain parse rows = .ok routes) :
    ∀ route ∈ routes, ∀ other ∈ routes, route.pathPrefix = other.pathPrefix → route = other :=
  fun _ member _ present same => List.inj_on_of_nodup_map (loaded_nodup loaded) member present same

theorem loaded_mem_iff (loaded : responseToDomain parse rows = .ok routes) (route : Route) :
    route ∈ routes ↔ ∃ row ∈ rows, row.toDomain parse = .ok route := by
  constructor
  · exact loadRoutes_mem loaded route
  · rintro ⟨row, member, domain⟩
    have pairs := loadRoutes_forall₂ loaded
    clear loaded
    induction pairs with
    | nil => simp at member
    | cons first _ ih =>
      rcases List.mem_cons.mp member with rfl | later
      · cases first.symm.trans domain
        exact List.mem_cons_self
      · exact List.mem_cons_of_mem _ (ih later)

/-- A permutation of accepted rows is accepted and gives the same routes. -/
theorem loaded_perm {others : List RouteResponse} (loaded : responseToDomain parse rows = .ok routes)
    (perm : others.Perm rows) : ∃ reordered, responseToDomain parse others = .ok reordered ∧
      ∀ route, route ∈ reordered ↔ route ∈ routes := by
  obtain ⟨acceptable, nodup⟩ := (responseToDomain_ok_iff rows).mp ⟨routes, loaded⟩
  have accepted : ∃ reordered, responseToDomain parse others = .ok reordered := by
    refine (responseToDomain_ok_iff others).mpr ⟨?_, (perm.map _).nodup_iff.mpr nodup⟩
    exact fun row member => acceptable row (perm.mem_iff.mp member)
  obtain ⟨reordered, accepted⟩ := accepted
  refine ⟨reordered, accepted, ?_⟩
  intro route
  rw [loaded_mem_iff accepted, loaded_mem_iff loaded]
  constructor
  · rintro ⟨row, member, domain⟩
    exact ⟨row, perm.mem_iff.mp member, domain⟩
  · rintro ⟨row, member, domain⟩
    exact ⟨row, perm.mem_iff.mpr member, domain⟩

end Loaded

/-- On a loaded snapshot `ResolveRoute` finds the one route whose segments are the
longest first segments of the path, none exactly when no route has such segments,
and the same for every order of the rows. -/
theorem resolveRoute_longest_segments (parse : Str → Except String URL) (rows : List RouteResponse)
    (routes : List Route) (loaded : responseToDomain parse rows = .ok routes) (path : Str) :
    (∀ found, resolveRoute routes path = some found ↔
      LongestMatch Route.prefixSegments routes (segments path) found) ∧
    (resolveRoute routes path = none ↔ ∀ route ∈ routes, ¬ route.prefixSegments <+: segments path) ∧
    ∀ others, others.Perm rows → ∃ reordered, responseToDomain parse others = .ok reordered ∧
      resolveRoute reordered path = resolveRoute routes path := by
  have normalized := responseToDomain_normalized loaded
  have distinct := loaded_distinct loaded
  refine ⟨resolveRoute_iff_longest normalized distinct, resolveRoute_none_iff normalized, ?_⟩
  intro others perm
  obtain ⟨reordered, accepted, same⟩ := loaded_perm loaded perm
  refine ⟨reordered, accepted, Option.ext ?_⟩
  intro found
  rw [resolveRoute_iff_longest (responseToDomain_normalized accepted) (loaded_distinct accepted),
    resolveRoute_iff_longest normalized distinct]
  exact LongestMatch.congr same

def shopRow (pathPrefix : Str) : RouteResponse where
  projectID := lit "shop"
  name := lit "shop"
  pathPrefix := pathPrefix
  upstreamURL := lit "http://shop"
  stripPrefix := true
  timeoutMS := 1000
  authRequired := false
  rateLimitEnabled := false
  rateLimitRequests := 0
  rateLimitWindowSeconds := 0

def shopRoute (pathPrefix : Str) : Route where
  projectID := lit "shop"
  name := lit "shop"
  pathPrefix := pathPrefix
  upstreamURL := lit "http://shop"
  stripPrefix := true
  timeout := 1000 * millisecond
  authRequired := false
  rateLimit := ⟨false, 0, 0⟩

def shopRows : List RouteResponse :=
  [shopRow (lit "/"), shopRow (lit " /orders/"), shopRow (lit "/orders/eu")]

def shopRoutes : List Route :=
  [shopRoute (lit "/"), shopRoute (lit "/orders"), shopRoute (lit "/orders/eu")]

theorem orders_path_has_its_longest_match :
    responseToDomain parsePlain shopRows = .ok shopRoutes ∧
      resolveRoute shopRoutes (lit "/orders/europe") = some (shopRoute (lit "/orders")) ∧
      LongestMatch Route.prefixSegments shopRoutes (segments (lit "/orders/europe"))
        (shopRoute (lit "/orders")) := by
  have loaded : responseToDomain parsePlain shopRows = .ok shopRoutes := by decide
  have resolved : resolveRoute shopRoutes (lit "/orders/europe") =
      some (shopRoute (lit "/orders")) := by decide
  exact ⟨loaded, resolved,
    ((resolveRoute_longest_segments parsePlain _ _ loaded _).1 _).mp resolved⟩

end EdgeGuard.Gateway
