import EdgeGuard.Gateway.Snapshot
import EdgeGuard.Go.Paths

/-! What `ResolveRoute` finds. On the prefixes of a loaded snapshot, matching is
lying under the prefix, and the routes that match a path form a chain; the route
found is the lowest of them, so it decides which of the others match. -/
namespace EdgeGuard.Gateway
open Go

namespace Route

theorem matchesPath_iff {route : Route} {path : Str} : route.matchesPath path = true ↔
    route.pathPrefix = lit "/" ∨ Under (trimRight route.pathPrefix 47) path := by
  by_cases root : route.pathPrefix = lit "/"
  · simp [matchesPath, root]
  · simp only [matchesPath, root, if_false, Bool.or_eq_true, beq_iff_eq, hasPrefix_iff, false_or]
    rfl

/-- The form of a prefix in a loaded snapshot. -/
structure Normalized (route : Route) : Prop where
  rooted : hasPrefix route.pathPrefix (lit "/") = true
  trimmed : route.pathPrefix = lit "/" ∨ trimRight route.pathPrefix 47 = route.pathPrefix

theorem Normalized.root_of_length_le {route : Route} (normalized : route.Normalized)
    (short : route.pathPrefix.length ≤ 1) : route.pathPrefix = lit "/" := by
  have starts := hasPrefix_iff.mp normalized.rooted
  exact (starts.eq_of_length_le short).symm

theorem Normalized.matchesPath_iff {route : Route} (normalized : route.Normalized) {path : Str}
    (inner : route.pathPrefix ≠ lit "/") :
    route.matchesPath path = true ↔ Under route.pathPrefix path := by
  rw [Route.matchesPath_iff, normalized.trimmed.resolve_left inner]
  simp [inner]

/-- A route matches whatever a matching route below it matches. -/
theorem matchesPath_of_longer {route lower : Route} {path other : Str}
    (normalized : route.Normalized) (lowerNormalized : lower.Normalized)
    (shorter : route.pathPrefix.length ≤ lower.pathPrefix.length)
    (chain : route.matchesPath path = true) (lowerHere : lower.matchesPath path = true)
    (lowerThere : lower.matchesPath other = true) : route.matchesPath other = true := by
  by_cases root : route.pathPrefix = lit "/"
  · exact Route.matchesPath_iff.mpr (.inl root)
  have lowerInner : lower.pathPrefix ≠ lit "/" := by
    intro lowerRoot
    rw [lowerRoot] at shorter
    exact root (normalized.root_of_length_le shorter)
  rw [normalized.matchesPath_iff root] at chain ⊢
  rw [lowerNormalized.matchesPath_iff lowerInner] at lowerHere lowerThere
  exact (chain.of_length_le lowerHere shorter).trans lowerThere

end Route

/-- The loop keeps the match it has or finds a longer one, and ends with one at
least as long as every matching route it passed. -/
theorem resolveLoop_spec (path : Str) (routes : List Route) (matched : Option Route) :
    (resolveLoop path routes matched = matched ∨ ∃ route ∈ routes,
      route.matchesPath path = true ∧ resolveLoop path routes matched = some route) ∧
    matchedLen matched ≤ matchedLen (resolveLoop path routes matched) ∧
    ∀ route ∈ routes, route.matchesPath path = true →
      (route.pathPrefix.length : Int) ≤ matchedLen (resolveLoop path routes matched) := by
  induction routes generalizing matched with
  | nil => simp [resolveLoop]
  | cons route rest ih =>
    rw [resolveLoop]
    split
    · rename_i taken
      obtain ⟨found, longer, longest⟩ := ih (some route)
      refine ⟨.inr ?_, ?_, ?_⟩
      · rcases found with kept | ⟨later, member, matching, found⟩
        · exact ⟨route, by simp, taken.1, kept⟩
        · exact ⟨later, by simp [member], matching, found⟩
      · exact Int.le_trans (Int.le_of_lt taken.2) longer
      · simp only [List.forall_mem_cons]
        exact ⟨fun _ => longer, longest⟩
    · rename_i passed
      obtain ⟨found, longer, longest⟩ := ih matched
      refine ⟨?_, longer, ?_⟩
      · rcases found with kept | ⟨later, member, matching, found⟩
        · exact .inl kept
        · exact .inr ⟨later, by simp [member], matching, found⟩
      · simp only [List.forall_mem_cons]
        refine ⟨?_, longest⟩
        intro matching
        have notLonger : (route.pathPrefix.length : Int) ≤ matchedLen matched :=
          Int.not_lt.mp (fun shorter => passed ⟨matching, shorter⟩)
        exact Int.le_trans notLonger longer

theorem resolveRoute_some {routes : List Route} {path : Str} {found : Route}
    (resolved : resolveRoute routes path = some found) :
    found ∈ routes ∧ found.matchesPath path = true ∧ ∀ route ∈ routes,
      route.matchesPath path = true → route.pathPrefix.length ≤ found.pathPrefix.length := by
  obtain ⟨source, _, longest⟩ := resolveLoop_spec path routes none
  unfold resolveRoute at resolved
  rw [resolved] at source longest
  rcases source with absent | ⟨route, member, matching, same⟩
  · contradiction
  · cases same
    refine ⟨member, matching, ?_⟩
    intro other inList matches_other
    exact Int.ofNat_le.mp (longest other inList matches_other)

theorem resolveRoute_none {routes : List Route} {path : Str}
    (missing : resolveRoute routes path = none) :
    ∀ route ∈ routes, route.matchesPath path = false := by
  intro route member
  by_contra matching
  have bound := (resolveLoop_spec path routes none).2.2 route member (by simpa using matching)
  unfold resolveRoute at missing
  rw [missing] at bound
  simp only [matchedLen] at bound
  omega

theorem resolveRoute_congr {routes : List Route} {path other : Str}
    (agree : ∀ route ∈ routes, route.matchesPath path = route.matchesPath other) :
    resolveRoute routes path = resolveRoute routes other := by
  unfold resolveRoute
  generalize none = matched
  induction routes generalizing matched with
  | nil => rfl
  | cons route rest ih =>
    simp only [List.forall_mem_cons] at agree
    simp only [resolveLoop, agree.1, ih agree.2]

private theorem matchesPath_of_same_route {routes : List Route}
    (normalized : ∀ route ∈ routes, route.Normalized) {path other : Str}
    (same : resolveRoute routes path = resolveRoute routes other) {route : Route}
    (member : route ∈ routes) (here : route.matchesPath path = true) :
    route.matchesPath other = true := by
  cases resolved : resolveRoute routes path with
  | none =>
    rw [resolveRoute_none resolved route member] at here
    contradiction
  | some found =>
    obtain ⟨inList, lowerHere, longest⟩ := resolveRoute_some resolved
    obtain ⟨_, lowerThere, _⟩ := resolveRoute_some (same.symm.trans resolved)
    exact Route.matchesPath_of_longer (normalized route member) (normalized found inList)
      (longest route member here) here lowerHere lowerThere

/-- Two paths have the same route exactly when no route of the snapshot tells
them apart. -/
theorem same_route_iff {routes : List Route} (normalized : ∀ route ∈ routes, route.Normalized)
    (path other : Str) : resolveRoute routes path = resolveRoute routes other ↔
      ∀ route ∈ routes, route.matchesPath path = route.matchesPath other := by
  constructor
  · intro same route member
    rw [Bool.eq_iff_iff]
    exact ⟨matchesPath_of_same_route normalized same member,
      matchesPath_of_same_route normalized same.symm member⟩
  · exact resolveRoute_congr

theorem trimRight_idem (s : Str) (cut : UInt8) : trimRight (trimRight s cut) cut = trimRight s cut :=
  List.rdropWhile_idempotent _ _

theorem normalizePathPrefix_trimmed (s : Str) : normalizePathPrefix s = lit "/" ∨
    trimRight (normalizePathPrefix s) 47 = normalizePathPrefix s := by
  unfold normalizePathPrefix
  by_cases root : trimSpace s = lit "/"
  · simp [root]
  · simp only [root, if_false]
    exact .inr (trimRight_idem _ _)

theorem loadRoutes_mem {parse : Str → Except String URL} {index : Nat} {taken : List Str}
    {rows : List RouteResponse} {routes : List Route}
    (loaded : loadRoutes parse index taken rows = .ok routes) :
    ∀ route ∈ routes, ∃ row ∈ rows, row.toDomain parse = .ok route := by
  induction rows generalizing index taken routes with
  | nil =>
    cases loaded
    simp
  | cons item rest ih =>
    rw [loadRoutes] at loaded
    split at loaded
    · contradiction
    rename_i first domain
    obtain ⟨_, loaded⟩ := check_passed loaded
    split at loaded
    · contradiction
    rename_i later tail
    cases loaded
    intro route member
    rcases List.mem_cons.mp member with rfl | member
    · exact ⟨item, by simp, domain⟩
    · obtain ⟨row, inRest, rowDomain⟩ := ih tail route member
      exact ⟨row, by simp [inRest], rowDomain⟩

theorem responseToDomain_normalized {parse : Str → Except String URL} {rows : List RouteResponse}
    {routes : List Route} (loaded : responseToDomain parse rows = .ok routes) :
    ∀ route ∈ routes, route.Normalized := by
  intro route member
  obtain ⟨row, _, domain⟩ := loadRoutes_mem loaded route member
  have same := toDomain_pathPrefix domain
  have accepted := toDomain_ok_iff.mp ⟨route, domain⟩
  exact ⟨same ▸ accepted.rooted, same ▸ normalizePathPrefix_trimmed row.pathPrefix⟩

end EdgeGuard.Gateway
