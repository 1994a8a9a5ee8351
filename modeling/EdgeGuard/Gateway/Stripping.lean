import EdgeGuard.Gateway.Encoding

/-! The path that the Gateway forwards. Matching, stripping and joining trim slashes by
rules of their own; together they cut the prefix off exactly and leave one slash where
the rest is joined to the upstream's path. -/
namespace EdgeGuard.Gateway
open Go

def withoutSlash (path : Str) : Str := if hasSuffix path (lit "/") = true then path.dropLast else path

theorem withoutSlash_cases (path : Str) : path = withoutSlash path ∨ path = withoutSlash path ++ [47] := by
  unfold withoutSlash
  split
  · next ends =>
    right
    obtain ⟨front, rfl⟩ := List.isSuffixOf_iff_suffix.mp ends
    change front ++ [47] = (front ++ [47]).dropLast ++ [47]
    rw [List.dropLast_concat]
  · exact .inl rfl

theorem seam_eq (path : Str) : seam path = withoutSlash path ++ [47] := by
  unfold seam
  split
  · next ends =>
    rcases withoutSlash_cases path with same | joined
    · unfold withoutSlash at same
      rw [if_pos ends] at same
      obtain ⟨front, rfl⟩ := List.isSuffixOf_iff_suffix.mp ends
      have shorter := congrArg List.length same
      simp only [List.length_dropLast, List.length_append] at shorter
      have one : (lit "/").length = 1 := rfl
      omega
    · exact joined
  · next opened =>
    unfold withoutSlash
    rw [if_neg opened]
    rfl

theorem joinPaths_rooted (base rest : Str) :
    joinPaths base (47 :: rest) = withoutSlash base ++ 47 :: rest := by
  rw [joinPaths_slash, seam_eq, List.append_assoc]
  rfl

namespace Route
variable {route : Route} {path : Str}

def ownPrefix (route : Route) : Str := if route.pathPrefix = lit "/" then [] else route.pathPrefix

theorem Normalized.strippedPrefix_eq (normalized : route.Normalized) :
    route.strippedPrefix = route.ownPrefix := by
  unfold strippedPrefix ownPrefix
  rcases normalized.trimmed with root | trimmed
  · rw [if_pos root, root]
    rfl
  · split
    · next root =>
      rw [root]
      rfl
    · exact trimmed

theorem upstreamPath_rooted (opened : hasPrefix path (lit "/") = true) :
    ∃ rest, route.upstreamPath path = 47 :: rest := by
  cases strips : route.stripPrefix with
  | false =>
    obtain ⟨rest, rfl⟩ := hasPrefix_iff.mp opened
    rw [upstreamPath_unstripped strips]
    exact ⟨rest, rfl⟩
  | true =>
    simp only [upstreamPath, strips, Bool.true_eq_false, if_false]
    exact rooted_slash (trimPrefix path route.strippedPrefix)

/-- Putting the prefix back gives the path, with a slash after it where the path is
the prefix itself. -/
theorem ownPrefix_upstreamPath (normalized : route.Normalized) (opened : hasPrefix path (lit "/") = true)
    (matching : route.matchesPath path = true) (strips : route.stripPrefix = true) :
    route.ownPrefix ++ route.upstreamPath path =
      if path = route.ownPrefix then path ++ lit "/" else path := by
  rw [upstreamPath_stripped matching strips, ← normalized.strippedPrefix_eq]
  by_cases empty : route.strippedPrefix = []
  · obtain ⟨rest, rfl⟩ := hasPrefix_iff.mp opened
    have nonempty : lit "/" ++ rest ≠ [] := List.cons_ne_nil 47 rest
    rw [empty, if_neg nonempty]
    exact rooted_of_slash rest
  · rcases rest_cases matching empty with whole | ⟨rest, joined⟩
    · rw [if_pos whole, whole, List.drop_length]
      rfl
    · have longer : path ≠ route.strippedPrefix := by
        intro same
        have sizes := congrArg List.length (joined.symm.trans same)
        simp at sizes
      rw [if_neg longer, joined, List.drop_left, rooted_of_slash]

end Route

/-- What a route forwards of a path that it matches. With stripping, the rest opens
with a slash and completes the prefix to the path, or to the path and a slash where
the path is the prefix; joined to the upstream's path, it follows that path with at
most one slash taken off its end. -/
theorem forwarded_path_is_joined (route : Route) (normalized : route.Normalized) (path : Str)
    (opened : hasPrefix path (lit "/") = true) (matching : route.matchesPath path = true) (base : Str) :
    (route.stripPrefix = true →
      hasPrefix (route.upstreamPath path) (lit "/") = true ∧
      route.ownPrefix ++ route.upstreamPath path =
        if path = route.ownPrefix then path ++ lit "/" else path) ∧
    joinPaths base (route.upstreamPath path) = withoutSlash base ++ route.upstreamPath path ∧
    (base = withoutSlash base ∨ base = withoutSlash base ++ lit "/") := by
  obtain ⟨rest, sent⟩ := @Route.upstreamPath_rooted route path opened
  refine ⟨?_, ?_, withoutSlash_cases base⟩
  · intro strips
    refine ⟨?_, Route.ownPrefix_upstreamPath normalized opened matching strips⟩
    rw [sent]
    exact hasPrefix_slash rest
  · rw [sent]
    exact joinPaths_rooted base rest

/-- A prefix that occurs again in the rest of the path, and a base that ends with a slash. -/
theorem repeated_prefix_is_cut_once :
    ({ apiRoute with pathPrefix := lit "/a" } : Route).upstreamPath (lit "/a//a/b/") = lit "//a/b/" ∧
    joinPaths (lit "/v1/") (lit "//a/b/") = lit "/v1//a/b/" := by
  have normalized : ({ apiRoute with pathPrefix := lit "/a" } : Route).Normalized :=
    ⟨by decide, .inr (by decide)⟩
  obtain ⟨cut, joined, _⟩ := forwarded_path_is_joined _ normalized (lit "/a//a/b/") (by decide)
    (by decide) (lit "/v1/")
  have path : ({ apiRoute with pathPrefix := lit "/a" } : Route).upstreamPath (lit "/a//a/b/") =
      lit "//a/b/" := by
    apply List.append_cancel_left
    exact (cut rfl).2
  rw [path] at joined
  exact ⟨path, joined⟩

end EdgeGuard.Gateway
