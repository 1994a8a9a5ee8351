import EdgeGuard.Gateway.LongestPrefix

/-! The routes of the YAML file, with which the Gateway runs while the Control Plane
is down. The file's rows are copied as they stand, while the Control Plane's are
trimmed; matching ignores trailing slashes, but the lookup counts them. So the two
sources send every path to the same row only if the spelling of the prefixes keeps
them in order. -/
namespace EdgeGuard.Gateway
open Go

/-- A row of the file, as it decodes from YAML. -/
structure RouteConfig where
  projectID : Str
  name : Str
  pathPrefix : Str
  upstreamURL : Str
  stripPrefix : Bool
  timeoutMS : Int
  authRequired : Bool
  rateLimitEnabled : Bool
  rateLimitRequests : Int
  rateLimitWindowSeconds : Int
  deriving DecidableEq, Repr

/-- The body of the loop of `DomainRoutes`. -/
def RouteConfig.domainRoute (route : RouteConfig) : Route :=
  let timeout := wrap64 (route.timeoutMS * millisecond)
  { projectID := route.projectID
    name := route.name
    pathPrefix := route.pathPrefix
    upstreamURL := route.upstreamURL
    stripPrefix := route.stripPrefix
    timeout := if timeout ≤ 0 then 5 * second else timeout
    authRequired := route.authRequired
    rateLimit :=
      if route.rateLimitEnabled = true ∧ 0 < route.rateLimitRequests ∧
          0 < route.rateLimitWindowSeconds then
        ⟨true, route.rateLimitRequests, wrap64 (route.rateLimitWindowSeconds * second)⟩
      else ⟨false, 0, 0⟩ }

def domainRoutes (routes : List RouteConfig) : List Route := routes.map RouteConfig.domainRoute

/-- The row of the Control Plane written into the file. -/
def RouteResponse.toConfig (row : RouteResponse) : RouteConfig where
  projectID := row.projectID
  name := row.name
  pathPrefix := row.pathPrefix
  upstreamURL := row.upstreamURL
  stripPrefix := row.stripPrefix
  timeoutMS := row.timeoutMS
  authRequired := row.authRequired
  rateLimitEnabled := row.rateLimitEnabled
  rateLimitRequests := row.rateLimitRequests
  rateLimitWindowSeconds := row.rateLimitWindowSeconds

def fallbackRoutes (rows : List RouteResponse) : List Route :=
  domainRoutes (rows.map RouteResponse.toConfig)

/-- The place in the snapshot where the lookup stops: no match is longer, and none
as long comes before. -/
structure FirstLongest (routes : List Route) (path : Str) (index : Nat) (found : Route) : Prop where
  placed : routes[index]? = some found
  matching : found.matchesPath path = true
  longest : ∀ place other, routes[place]? = some other → other.matchesPath path = true →
    other.pathPrefix.length < found.pathPrefix.length ∨
      (other.pathPrefix.length = found.pathPrefix.length ∧ index ≤ place)

theorem resolveLoop_append (path : Str) (first rest : List Route) (matched : Option Route) :
    resolveLoop path (first ++ rest) matched = resolveLoop path rest (resolveLoop path first matched) := by
  induction first generalizing matched with
  | nil => rfl
  | cons route first ih =>
    rw [List.cons_append, resolveLoop, resolveLoop]
    split
    · exact ih _
    · exact ih _

theorem resolveRoute_snoc (path : Str) (routes : List Route) (last : Route) :
    resolveRoute (routes ++ [last]) path =
      if last.matchesPath path = true ∧
          matchedLen (resolveRoute routes path) < last.pathPrefix.length then some last
      else resolveRoute routes path := by
  rw [resolveRoute, resolveLoop_append]
  rfl

private theorem placed_snoc {α : Type} {entries : List α} {last entry : α} {place : Nat}
    (placed : (entries ++ [last])[place]? = some entry) :
    entries[place]? = some entry ∨ (place = entries.length ∧ entry = last) := by
  rw [List.getElem?_append] at placed
  split at placed
  · exact .inl placed
  · rw [List.getElem?_singleton] at placed
    split at placed
    · exact .inr ⟨by omega, (Option.some.inj placed).symm⟩
    · contradiction

theorem resolveRoute_first {routes : List Route} {path : Str} {found : Route}
    (resolved : resolveRoute routes path = some found) :
    ∃ index, FirstLongest routes path index found := by
  induction routes using List.reverseRecOn with
  | nil => contradiction
  | append_singleton routes last ih =>
    rw [resolveRoute_snoc] at resolved
    by_cases taken : last.matchesPath path = true ∧
        matchedLen (resolveRoute routes path) < last.pathPrefix.length
    · rw [if_pos taken] at resolved
      cases resolved
      refine ⟨routes.length, by simp, taken.1, ?_⟩
      intro place other placed matching
      rcases placed_snoc placed with earlier | ⟨rfl, rfl⟩
      · have bound := (resolveLoop_spec path routes none).2.2 other
          (List.mem_of_getElem? earlier) matching
        exact .inl (Int.ofNat_lt.mp (Int.lt_of_le_of_lt bound taken.2))
      · exact .inr ⟨rfl, Nat.le_refl _⟩
    · rw [if_neg taken] at resolved
      obtain ⟨index, placed, matching, longest⟩ := ih resolved
      have inside := (List.getElem?_eq_some_iff.mp placed).1
      refine ⟨index, by rw [List.getElem?_append_left inside, placed], matching, ?_⟩
      intro place other otherPlaced otherMatching
      rcases placed_snoc otherPlaced with earlier | ⟨rfl, rfl⟩
      · exact longest place other earlier otherMatching
      · -- The last route matches, so it was passed over for being no longer.
        have passed : (other.pathPrefix.length : Int) ≤ matchedLen (resolveRoute routes path) :=
          Int.not_lt.mp (fun longer => taken ⟨otherMatching, longer⟩)
        rw [resolved] at passed
        have bound : other.pathPrefix.length ≤ found.pathPrefix.length := Int.ofNat_le.mp passed
        omega

theorem FirstLongest.index_unique {routes : List Route} {path : Str} {first second : Nat}
    {found other : Route} (left : FirstLongest routes path first found)
    (right : FirstLongest routes path second other) : first = second := by
  have one := left.longest second other right.placed right.matching
  have two := right.longest first found left.placed left.matching
  omega

theorem FirstLongest.resolved {routes : List Route} {path : Str} {index : Nat} {found : Route}
    (first : FirstLongest routes path index found) : resolveRoute routes path = some found := by
  cases resolved : resolveRoute routes path with
  | none =>
    have unmatched := resolveRoute_none resolved found (List.mem_of_getElem? first.placed)
    rw [first.matching] at unmatched
    contradiction
  | some other =>
    obtain ⟨place, second⟩ := resolveRoute_first resolved
    obtain rfl := first.index_unique second
    exact second.placed.symm.trans first.placed

section Spelling
variable {written : Str}

theorem trimRight_isPrefix (s : Str) (cut : UInt8) : trimRight s cut <+: s := List.rdropWhile_prefix _ _

theorem normalizePathPrefix_length_le (s : Str) :
    (normalizePathPrefix s).length ≤ (trimSpace s).length := by
  unfold normalizePathPrefix
  by_cases root : trimSpace s = lit "/"
  · simp [root]
  · simp only [root, if_false]
    exact (trimRight_isPrefix _ _).length_le

theorem normalizePathPrefix_of_trimmed (trimmed : trimSpace written = written)
    (inner : written ≠ lit "/") : normalizePathPrefix written = trimRight written 47 := by
  simp only [normalizePathPrefix, trimmed, inner, if_false]

theorem trimRight_normalizePathPrefix (trimmed : trimSpace written = written) :
    trimRight (normalizePathPrefix written) 47 = trimRight written 47 := by
  by_cases root : written = lit "/"
  · subst root
    decide
  · rw [normalizePathPrefix_of_trimmed trimmed root, trimRight_idem]

theorem root_of_normalizePathPrefix (trimmed : trimSpace written = written)
    (root : normalizePathPrefix written = lit "/") : written = lit "/" := by
  by_contra inner
  rw [normalizePathPrefix_of_trimmed trimmed inner] at root
  have fixed := trimRight_idem written 47
  rw [root] at fixed
  revert fixed
  decide

/-- A prefix whose written form still matches its normal form has no white space
around it: in front of the slash it would not match, and behind it nothing trims
the slashes off. -/
theorem trimmed_of_above (rooted : hasPrefix (normalizePathPrefix written) (lit "/") = true)
    (above : Under (trimRight written 47) (normalizePathPrefix written)) :
    trimSpace written = written := by
  by_cases slashed : ∀ byte, written.getLast? = some byte → byte = 47
  · have first : ∀ byte, written.head? = some byte → byte = 47 := by
      intro byte head
      by_cases all : trimRight written 47 = []
      · have every := List.rdropWhile_eq_nil_iff.mp all byte (List.mem_of_mem_head? head)
        simpa using every
      · obtain ⟨start, rest, cut⟩ := List.exists_cons_of_ne_nil all
        obtain ⟨slashes, same⟩ := trimRight_isPrefix written 47
        obtain ⟨more, normal⟩ := above.isPrefix
        obtain ⟨tail, root⟩ := hasPrefix_iff.mp rooted
        rw [cut] at same normal
        have heads : start = 47 := (List.cons.inj (normal.trans root.symm)).1
        rw [← same, List.cons_append, List.head?_cons, Option.some.injEq] at head
        rw [← head, heads]
    apply trimSpace_of_visible
    · intro byte head
      rw [first byte head]
      decide
    · intro byte last
      rw [slashed byte last]
      decide
  · have whole : trimRight written 47 = written := by
      rw [trimRight, List.rdropWhile_eq_self_iff]
      intro nonempty slash
      apply slashed
      intro byte last
      rw [List.getLast?_eq_some_getLast nonempty] at last
      rw [← Option.some.inj last]
      simpa using slash
    have long := above.isPrefix.length_le
    rw [whole] at long
    exact (trimSpace_sublist written).eq_of_length_le
      (long.trans (normalizePathPrefix_length_le written))

end Spelling

section Rows
variable {parse : Str → Except String URL} {rows : List RouteResponse} {routes : List Route}
  {index place : Nat} {row other : RouteResponse}

theorem loaded_at (loaded : responseToDomain parse rows = .ok routes) (placed : rows[index]? = some row) :
    ∃ route, routes[index]? = some route ∧ row.toDomain parse = .ok route := by
  have pairs := loadRoutes_forall₂ loaded
  clear loaded
  induction pairs generalizing index with
  | nil => simp at placed
  | cons domain _ ih =>
    cases index with
    | zero =>
      cases placed
      exact ⟨_, rfl, domain⟩
    | succ index => exact ih placed

theorem row_at {route : Route} (loaded : responseToDomain parse rows = .ok routes)
    (placed : routes[index]? = some route) :
    ∃ row, rows[index]? = some row ∧ row.toDomain parse = .ok route := by
  have pairs := loadRoutes_forall₂ loaded
  clear loaded
  induction pairs generalizing index with
  | nil => simp at placed
  | cons domain _ ih =>
    cases index with
    | zero =>
      cases placed
      exact ⟨_, rfl, domain⟩
    | succ index => exact ih placed

theorem fallback_at (placed : rows[index]? = some row) :
    (fallbackRoutes rows)[index]? = some row.toConfig.domainRoute := by
  simp [fallbackRoutes, domainRoutes, placed]

theorem fallback_row_at {route : Route} (placed : (fallbackRoutes rows)[index]? = some route) :
    ∃ row, rows[index]? = some row ∧ route = row.toConfig.domainRoute := by
  simp only [fallbackRoutes, domainRoutes, List.getElem?_map, Option.map_map, Option.map_eq_some_iff] at placed
  obtain ⟨row, placed, rfl⟩ := placed
  exact ⟨row, placed, rfl⟩

theorem place_unique (loaded : responseToDomain parse rows = .ok routes)
    (first : rows[index]? = some row) (second : rows[place]? = some other)
    (same : normalizePathPrefix row.pathPrefix = normalizePathPrefix other.pathPrefix) : index = place := by
  have nodup := ((responseToDomain_ok_iff rows).mp ⟨routes, loaded⟩).2
  have inside : index < (rows.map (fun row => normalizePathPrefix row.pathPrefix)).length := by
    rw [List.length_map]
    exact (List.getElem?_eq_some_iff.mp first).1
  apply (List.getElem?_inj inside nodup).mp
  simp [first, second, same]

theorem fallback_matchesPath {route : Route} (domain : row.toDomain parse = .ok route)
    (trimmed : trimSpace row.pathPrefix = row.pathPrefix) (path : Str) :
    row.toConfig.domainRoute.matchesPath path = route.matchesPath path := by
  have normal := toDomain_pathPrefix domain
  rw [Bool.eq_iff_iff, Route.matchesPath_iff, Route.matchesPath_iff, normal,
    trimRight_normalizePathPrefix trimmed]
  change row.pathPrefix = lit "/" ∨ Under (trimRight row.pathPrefix 47) path ↔ _
  by_cases root : row.pathPrefix = lit "/"
  · have kept : normalizePathPrefix (lit "/") = lit "/" := by decide
    simp [root, kept]
  · have inner : normalizePathPrefix row.pathPrefix ≠ lit "/" :=
      fun normalRoot => root (root_of_normalizePathPrefix trimmed normalRoot)
    simp [root, inner]

theorem fallback_upstreamPath {route : Route} (domain : row.toDomain parse = .ok route)
    (trimmed : trimSpace row.pathPrefix = row.pathPrefix) (path : Str) :
    route.upstreamPath path = row.toConfig.domainRoute.upstreamPath path := by
  have same : trimRight route.pathPrefix 47 = trimRight row.toConfig.domainRoute.pathPrefix 47 := by
    rw [toDomain_pathPrefix domain]
    exact trimRight_normalizePathPrefix trimmed
  have strips : route.stripPrefix = row.stripPrefix :=
    congrArg Route.stripPrefix (toDomain_route domain).2
  have copied : row.toConfig.domainRoute.stripPrefix = row.stripPrefix := rfl
  simp only [Route.upstreamPath, same, strips, copied]

theorem resolves_own_prefix (loaded : responseToDomain parse rows = .ok routes) {route : Route}
    (placed : routes[index]? = some route) : FirstLongest routes route.pathPrefix index route := by
  have member := List.mem_of_getElem? placed
  have normalized := responseToDomain_normalized loaded
  have itself : route.matchesPath route.pathPrefix = true := by
    by_cases root : route.pathPrefix = lit "/"
    · exact Route.matchesPath_iff.mpr (.inl root)
    · exact ((normalized route member).matchesPath_iff root).mpr (Under.refl _)
  refine ⟨placed, itself, ?_⟩
  intro place other otherPlaced matching
  have present := List.mem_of_getElem? otherPlaced
  have shorter : other.pathPrefix <+: route.pathPrefix := by
    by_cases root : other.pathPrefix = lit "/"
    · rw [root]
      exact hasPrefix_iff.mp (normalized route member).rooted
    · exact (((normalized other present).matchesPath_iff root).mp matching).isPrefix
  rcases shorter.length_le.lt_or_eq with strict | level
  · exact .inl strict
  · obtain ⟨row, rowPlaced, domain⟩ := row_at loaded placed
    obtain ⟨otherRow, otherRowPlaced, otherDomain⟩ := row_at loaded otherPlaced
    have same := shorter.eq_of_length level
    rw [toDomain_pathPrefix domain, toDomain_pathPrefix otherDomain] at same
    exact .inr ⟨level, (place_unique loaded otherRowPlaced rowPlaced same).ge⟩

end Rows

/-- Both snapshots send the path to the row in one place, and upstream under one
path, or neither knows a route for it. -/
def SameSelection (controlPlane fallback : List Route) (path : Str) : Prop :=
  (resolveRoute controlPlane path = none ∧ resolveRoute fallback path = none) ∨
  ∃ (index : Nat) (loaded copied : Route), controlPlane[index]? = some loaded ∧ fallback[index]? = some copied ∧
    resolveRoute controlPlane path = some loaded ∧ resolveRoute fallback path = some copied ∧
    loaded.upstreamPath path = copied.upstreamPath path

/-- No prefix is written with white space around it, and a prefix below another one
is written longer, or as long and earlier. -/
structure WrittenInOrder (rows : List RouteResponse) : Prop where
  trimmed : ∀ row ∈ rows, trimSpace row.pathPrefix = row.pathPrefix
  ordered : ∀ (i j : Nat) (upper lower : RouteResponse), rows[i]? = some upper → rows[j]? = some lower → i ≠ j →
    Under (normalizePathPrefix upper.pathPrefix) (normalizePathPrefix lower.pathPrefix) →
    upper.pathPrefix.length < lower.pathPrefix.length ∨
      (upper.pathPrefix.length = lower.pathPrefix.length ∧ j < i)

section Agreement
variable {parse : Str → Except String URL} {rows : List RouteResponse} {routes : List Route}
  (loaded : responseToDomain parse rows = .ok routes)
include loaded

/-- Where the sources agree, the file too sends the normal prefix of a row to it. -/
theorem agreed_first (agree : ∀ path, SameSelection routes (fallbackRoutes rows) path) {index : Nat}
    {row : RouteResponse} (placed : rows[index]? = some row) :
    FirstLongest (fallbackRoutes rows) (normalizePathPrefix row.pathPrefix) index
      row.toConfig.domainRoute := by
  obtain ⟨route, routePlaced, domain⟩ := loaded_at loaded placed
  have own := resolves_own_prefix loaded routePlaced
  rw [toDomain_pathPrefix domain] at own
  rcases agree (normalizePathPrefix row.pathPrefix) with ⟨missing, _⟩ | selected
  · rw [own.resolved] at missing
    contradiction
  obtain ⟨place, selectedRoute, copied, selectedPlaced, copiedPlaced, resolved, copiedResolved, _⟩ :=
    selected
  -- The place is the row's own, since no other row has its normal prefix.
  obtain rfl : route = selectedRoute := Option.some.inj (own.resolved.symm.trans resolved)
  obtain ⟨selectedRow, selectedRowPlaced, selectedDomain⟩ := row_at loaded selectedPlaced
  have same : normalizePathPrefix row.pathPrefix = normalizePathPrefix selectedRow.pathPrefix := by
    rw [← toDomain_pathPrefix domain, toDomain_pathPrefix selectedDomain]
  obtain rfl := place_unique loaded placed selectedRowPlaced same
  obtain rfl := Option.some.inj (placed.symm.trans selectedRowPlaced)
  rw [fallback_at placed, Option.some.injEq] at copiedPlaced
  subst copiedPlaced
  obtain ⟨firstPlace, first⟩ := resolveRoute_first copiedResolved
  obtain ⟨firstRow, firstRowPlaced, firstCopied⟩ := fallback_row_at first.placed
  have written : row.pathPrefix = firstRow.pathPrefix := congrArg Route.pathPrefix firstCopied
  obtain rfl := place_unique loaded placed firstRowPlaced (congrArg normalizePathPrefix written)
  exact first

theorem writtenInOrder_of_agreed (agree : ∀ path, SameSelection routes (fallbackRoutes rows) path) :
    WrittenInOrder rows := by
  have trimmed : ∀ row ∈ rows, trimSpace row.pathPrefix = row.pathPrefix := by
    intro row member
    obtain ⟨index, placed⟩ := List.mem_iff_getElem?.mp member
    obtain ⟨route, _, domain⟩ := loaded_at loaded placed
    have accepted := toDomain_ok_iff.mp ⟨route, domain⟩
    rcases Route.matchesPath_iff.mp (agreed_first loaded agree placed).matching with root | above
    · rw [show row.pathPrefix = lit "/" from root]
      decide
    · exact trimmed_of_above accepted.rooted above
  refine ⟨trimmed, ?_⟩
  intro i j upper lower upperPlaced lowerPlaced different above
  obtain ⟨route, routePlaced, domain⟩ := loaded_at loaded upperPlaced
  have normalized := responseToDomain_normalized loaded route (List.mem_of_getElem? routePlaced)
  have matching : route.matchesPath (normalizePathPrefix lower.pathPrefix) = true := by
    by_cases root : route.pathPrefix = lit "/"
    · exact Route.matchesPath_iff.mpr (.inl root)
    · rw [normalized.matchesPath_iff root, toDomain_pathPrefix domain]
      exact above
  rw [← fallback_matchesPath domain (trimmed upper (List.mem_of_getElem? upperPlaced))] at matching
  rcases (agreed_first loaded agree lowerPlaced).longest i _ (fallback_at upperPlaced) matching with
    shorter | ⟨level, earlier⟩
  · exact .inl shorter
  · exact .inr ⟨level, by omega⟩

/-- Where the prefixes are written in order, the file's lookup stops where the other
one does. -/
theorem fallback_first (written : WrittenInOrder rows) {path : Str} {index : Nat} {route : Route}
    {row : RouteResponse} (first : FirstLongest routes path index route)
    (placed : rows[index]? = some row) (domain : row.toDomain parse = .ok route) :
    FirstLongest (fallbackRoutes rows) path index row.toConfig.domainRoute := by
  have trimmed : ∀ {place : Nat} {other : RouteResponse}, rows[place]? = some other →
      trimSpace other.pathPrefix = other.pathPrefix :=
    fun otherPlaced => written.trimmed _ (List.mem_of_getElem? otherPlaced)
  have normalized := responseToDomain_normalized loaded
  refine ⟨fallback_at placed, by rw [fallback_matchesPath domain (trimmed placed), first.matching], ?_⟩
  intro place copied copiedPlaced matching
  obtain ⟨otherRow, otherPlaced, rfl⟩ := fallback_row_at copiedPlaced
  obtain ⟨other, otherRoutePlaced, otherDomain⟩ := loaded_at loaded otherPlaced
  rw [fallback_matchesPath otherDomain (trimmed otherPlaced)] at matching
  by_cases same : place = index
  · subst same
    obtain rfl := Option.some.inj (placed.symm.trans otherPlaced)
    exact .inr ⟨rfl, Nat.le_refl _⟩
  have shorter : other.pathPrefix.length ≤ route.pathPrefix.length := by
    have bound := first.longest place other otherRoutePlaced matching
    omega
  have here := normalized route (List.mem_of_getElem? first.placed)
  have there := normalized other (List.mem_of_getElem? otherRoutePlaced)
  have inner : route.pathPrefix ≠ lit "/" := by
    intro root
    rw [root] at shorter
    have equal := there.root_of_length_le shorter
    rw [← root, toDomain_pathPrefix domain, toDomain_pathPrefix otherDomain] at equal
    exact same (place_unique loaded otherPlaced placed equal)
  by_cases otherRoot : other.pathPrefix = lit "/"
  · have slash := root_of_normalizePathPrefix (trimmed otherPlaced)
      ((toDomain_pathPrefix otherDomain).symm.trans otherRoot)
    have long : 1 < route.pathPrefix.length :=
      Nat.lt_of_not_le (fun short => inner (here.root_of_length_le short))
    have longer := normalizePathPrefix_length_le row.pathPrefix
    rw [← toDomain_pathPrefix domain, trimmed placed] at longer
    refine .inl ?_
    change otherRow.pathPrefix.length < row.pathPrefix.length
    rw [slash]
    exact lt_of_lt_of_le long longer
  · have above := ((there.matchesPath_iff otherRoot).mp matching).of_length_le
      ((here.matchesPath_iff inner).mp first.matching) shorter
    rw [toDomain_pathPrefix domain, toDomain_pathPrefix otherDomain] at above
    rcases written.ordered place index otherRow row otherPlaced placed same above with
      strict | ⟨level, earlier⟩
    · exact .inl strict
    · exact .inr ⟨level, earlier.le⟩

theorem agreed_of_writtenInOrder (written : WrittenInOrder rows) (path : Str) :
    SameSelection routes (fallbackRoutes rows) path := by
  cases resolved : resolveRoute routes path with
  | none =>
    refine .inl ⟨resolved, ?_⟩
    cases fallback : resolveRoute (fallbackRoutes rows) path with
    | none => rfl
    | some copied =>
      obtain ⟨index, first⟩ := resolveRoute_first fallback
      obtain ⟨row, placed, rfl⟩ := fallback_row_at first.placed
      obtain ⟨route, routePlaced, domain⟩ := loaded_at loaded placed
      have unmatched := resolveRoute_none resolved route (List.mem_of_getElem? routePlaced)
      have matching := first.matching
      rw [fallback_matchesPath domain (written.trimmed row (List.mem_of_getElem? placed)),
        unmatched] at matching
      contradiction
  | some route =>
    obtain ⟨index, first⟩ := resolveRoute_first resolved
    obtain ⟨row, placed, domain⟩ := row_at loaded first.placed
    have fallback := fallback_first loaded written first placed domain
    exact .inr ⟨index, route, _, first.placed, fallback.placed, resolved, fallback.resolved,
      fallback_upstreamPath domain (written.trimmed row (List.mem_of_getElem? placed)) path⟩

end Agreement

/-- The file sends every path where the Control Plane does exactly when its prefixes
are written in order. -/
theorem fallback_agrees_iff (parse : Str → Except String URL) (rows : List RouteResponse)
    (routes : List Route) (loaded : responseToDomain parse rows = .ok routes) :
    (∀ path, SameSelection routes (fallbackRoutes rows) path) ↔ WrittenInOrder rows := by
  constructor
  · exact writtenInOrder_of_agreed loaded
  · exact agreed_of_writtenInOrder loaded

theorem orders_rows_agree :
    responseToDomain parsePlain [shopRow (lit "/orders/"), shopRow (lit "/orders/eu")] =
        .ok [shopRoute (lit "/orders"), shopRoute (lit "/orders/eu")] ∧
      ∀ path, SameSelection [shopRoute (lit "/orders"), shopRoute (lit "/orders/eu")]
        (fallbackRoutes [shopRow (lit "/orders/"), shopRow (lit "/orders/eu")]) path := by
  have loaded : responseToDomain parsePlain [shopRow (lit "/orders/"), shopRow (lit "/orders/eu")] =
      .ok [shopRoute (lit "/orders"), shopRoute (lit "/orders/eu")] := by decide
  refine ⟨loaded, (fallback_agrees_iff parsePlain _ _ loaded).mpr ⟨by decide, ?_⟩⟩
  intro i j upper lower upperPlaced lowerPlaced different above
  rcases i with _ | _ | i
  · rcases j with _ | _ | j
    · contradiction
    · cases upperPlaced
      cases lowerPlaced
      decide
    · contradiction
  · rcases j with _ | _ | j
    · cases upperPlaced
      cases lowerPlaced
      have short := above.isPrefix.length_le
      revert short
      decide
    · contradiction
    · contradiction
  · contradiction

/-- Trailing slashes make the upper prefix the longer one: the file sends the lower
path to the upper row, and upstream under another path. -/
theorem trailing_slashes_change_the_route :
    responseToDomain parsePlain [shopRow (lit "/orders////"), shopRow (lit "/orders/eu")] =
        .ok [shopRoute (lit "/orders"), shopRoute (lit "/orders/eu")] ∧
      resolveRoute [shopRoute (lit "/orders"), shopRoute (lit "/orders/eu")] (lit "/orders/eu/1") =
        some (shopRoute (lit "/orders/eu")) ∧
      resolveRoute (fallbackRoutes [shopRow (lit "/orders////"), shopRow (lit "/orders/eu")])
        (lit "/orders/eu/1") = some (shopRoute (lit "/orders////")) ∧
      (shopRoute (lit "/orders/eu")).upstreamPath (lit "/orders/eu/1") = lit "/1" ∧
      (shopRoute (lit "/orders////")).upstreamPath (lit "/orders/eu/1") = lit "/eu/1" ∧
      ¬ SameSelection [shopRoute (lit "/orders"), shopRoute (lit "/orders/eu")]
        (fallbackRoutes [shopRow (lit "/orders////"), shopRow (lit "/orders/eu")])
        (lit "/orders/eu/1") := by
  have upper : resolveRoute (fallbackRoutes [shopRow (lit "/orders////"), shopRow (lit "/orders/eu")])
      (lit "/orders/eu/1") = some (shopRoute (lit "/orders////")) := by decide
  have lower : resolveRoute [shopRoute (lit "/orders"), shopRoute (lit "/orders/eu")]
      (lit "/orders/eu/1") = some (shopRoute (lit "/orders/eu")) := by decide
  refine ⟨by decide, lower, upper, by decide, by decide, ?_⟩
  rintro (⟨missing, _⟩ | ⟨index, route, copied, _, _, resolved, fallback, same⟩)
  · rw [lower] at missing
    contradiction
  · obtain rfl := Option.some.inj (lower.symm.trans resolved)
    obtain rfl := Option.some.inj (upper.symm.trans fallback)
    revert same
    decide

end EdgeGuard.Gateway
