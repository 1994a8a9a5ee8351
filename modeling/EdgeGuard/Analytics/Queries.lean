import EdgeGuard.Analytics.Aggregates
import Mathlib.Data.List.Dedup

/-! What is read from the hourly statistics. A filter is widened to whole hours, a query
selects the rows of these hours, and every stored event that is aggregated is in exactly
one of them. -/
namespace EdgeGuard.Analytics
open Go Postgres

structure RouteStatsFilter where
  projectID : Str
  fromTime : Time
  toTime : Time
  routeName : Str
  method : Str
  deriving DecidableEq, Repr

inductive StatsError where
  | invalidProjectID
  | invalidTimeRange
  | analyticsRangeTooLarge
  | invalidLimit
  | database
  deriving DecidableEq, Repr

def maxAnalyticsRange : Duration := 90 * 24 * hour

/-- `isUUID` of the usecase repeats `isCanonicalUUID` of the events. -/
def isUUID (value : Str) : Bool := isCanonicalUUID value

def ceilHour (value : Time) : Time :=
  let truncated := truncate value hour
  if value = truncated then truncated else truncated + hour

def normalizeStatsFilter (platform : Platform) (filter : RouteStatsFilter) :
    Except StatsError RouteStatsFilter :=
  let projectID := trimSpace filter.projectID
  if isUUID projectID = false then .error .invalidProjectID
  else if filter.fromTime = zeroTime ∨ filter.toTime = zeroTime ∨ ¬ filter.fromTime < filter.toTime then
    .error .invalidTimeRange
  else if maxAnalyticsRange < filter.toTime - filter.fromTime then .error .analyticsRangeTooLarge
  else .ok {
    projectID
    fromTime := truncate filter.fromTime hour
    toTime := ceilHour filter.toTime
    routeName := trimSpace filter.routeName
    method := platform.toUpper (trimSpace filter.method) }

/-- What is taken from the database server: division of `double precision` values, and
the order of texts. -/
structure Server (φ : Type) where
  zero : φ
  quotient : Int → Int → φ
  collate : Str → Str → Bool

def Store.row (s : Store) (key : Key) : Option (Key × Stats) := (s.stats key).map (fun stats => (key, stats))

/-- The rows of `gateway_route_stats_hourly`; the keys are those that events have. -/
def Store.hourlyRows (s : Store) : List (Key × Stats) := (s.events.filterMap (·.key)).dedup.filterMap s.row

structure RouteStatsSummary (φ : Type) where
  requestCount : Int
  status : StatusCounts
  rateLimitedCount : Int
  averageDurationMS : φ
  maxDurationMS : Int
  totalResponseBytes : Int
  deriving DecidableEq, Repr

structure RouteStatsHourly (φ : Type) where
  bucketStart : Time
  routeName : Str
  routePathPrefix : Str
  method : Str
  requestCount : Int
  status : StatusCounts
  rateLimitedCount : Int
  averageDurationMS : φ
  maxDurationMS : Int
  totalResponseBytes : Int
  deriving DecidableEq, Repr

/-- The arguments of both queries: the project, or `none` where the server refuses one. -/
def RouteStatsFilter.arguments (filter : RouteStatsFilter) : Option Uuid := do
  let projectID ← Uuid.parse filter.projectID
  if timestampOk filter.fromTime = true ∧ timestampOk filter.toTime = true ∧
      textOk filter.routeName = true ∧ textOk filter.method = true then some projectID
  else none

def RouteStatsFilter.selectsBucket (filter : RouteStatsFilter) (bucketStart : Time) : Bool :=
  timestamp filter.fromTime ≤ bucketStart && bucketStart < timestamp filter.toTime

/-- The `WHERE` clause of both queries. -/
def RouteStatsFilter.selects (filter : RouteStatsFilter) (projectID : Uuid) (key : Key) : Bool :=
  key.projectID = projectID && filter.selectsBucket key.bucketStart &&
    (filter.routeName = [] || key.routeName = filter.routeName) &&
    (filter.method = [] || key.method = filter.method)

/-- `SUM` of a column; over no rows it is coalesced to zero. -/
def sumOf (column : Stats → Int) (rows : List (Key × Stats)) : Int := (rows.map (fun row => column row.2)).sum

/-- `COALESCE(MAX(column), 0)`. -/
def maxOf (column : Stats → Int) (rows : List (Key × Stats)) : Int :=
  (rows.map (fun row => column row.2)).max?.getD 0

section Queries
variable {φ : Type} (platform : Platform) (server : Server φ) (s : Store)

def average (totalDurationMS requestCount : Int) : φ :=
  if requestCount = 0 then server.zero else server.quotient totalDurationMS requestCount

def summaryOf (rows : List (Key × Stats)) : RouteStatsSummary φ where
  requestCount := sumOf (·.requestCount) rows
  status := ⟨sumOf (·.status.status1xx) rows, sumOf (·.status.status2xx) rows,
    sumOf (·.status.status3xx) rows, sumOf (·.status.status4xx) rows, sumOf (·.status.status5xx) rows⟩
  rateLimitedCount := sumOf (·.rateLimitedCount) rows
  averageDurationMS := average server (sumOf (·.totalDurationMS) rows) (sumOf (·.requestCount) rows)
  maxDurationMS := maxOf (·.maxDurationMS) rows
  totalResponseBytes := sumOf (·.totalResponseBytes) rows

/-- The sums are `numeric`; what does not fit an `int64` cannot be scanned. -/
def RouteStatsSummary.scanned (summary : RouteStatsSummary φ) : Bool :=
  int8Ok summary.requestCount && int8Ok summary.status.status1xx && int8Ok summary.status.status2xx &&
    int8Ok summary.status.status3xx && int8Ok summary.status.status4xx && int8Ok summary.status.status5xx &&
    int8Ok summary.rateLimitedCount && int8Ok summary.totalResponseBytes

/-- `GetRouteStatsSummary` of the usecase and of the repository. -/
def getRouteStatsSummary (filter : RouteStatsFilter) : Except StatsError (RouteStatsSummary φ) :=
  match normalizeStatsFilter platform filter with
  | .error err => .error err
  | .ok filter => match filter.arguments with
    | none => .error .database
    | some projectID =>
      let summary := summaryOf server (s.hourlyRows.filter (fun row => filter.selects projectID row.1))
      if summary.scanned then .ok summary else .error .database

/-- `ORDER BY bucket_start, route_name, method`. -/
def rowOrder (a b : Key × Stats) : Bool :=
  if a.1.bucketStart ≠ b.1.bucketStart then a.1.bucketStart < b.1.bucketStart
  else if a.1.routeName ≠ b.1.routeName then server.collate a.1.routeName b.1.routeName
  else server.collate a.1.method b.1.method

def hourlyItem (row : Key × Stats) : RouteStatsHourly φ where
  bucketStart := row.1.bucketStart
  routeName := row.1.routeName
  routePathPrefix := row.1.routePathPrefix
  method := row.1.method
  requestCount := row.2.requestCount
  status := row.2.status
  rateLimitedCount := row.2.rateLimitedCount
  averageDurationMS := average server row.2.totalDurationMS row.2.requestCount
  maxDurationMS := row.2.maxDurationMS
  totalResponseBytes := row.2.totalResponseBytes

/-- `ListRouteStatsHourly` of the usecase and of the repository. -/
def listRouteStatsHourly (filter : RouteStatsFilter) (limit : Int) :
    Except StatsError (List (RouteStatsHourly φ)) :=
  match normalizeStatsFilter platform filter with
  | .error err => .error err
  | .ok filter =>
    if limit ≤ 0 ∨ 1000 < limit then .error .invalidLimit
    else match filter.arguments with
      | none => .error .database
      | some projectID =>
        let rows := s.hourlyRows.filter (fun row => filter.selects projectID row.1)
        .ok (((rows.mergeSort (rowOrder server)).take limit.toNat).map (hourlyItem server))

end Queries

/-- The hour that begins at the bucket and the interval have an instant in common. -/
def Meets (bucketStart fromTime toTime : Time) : Prop :=
  ∃ t, (bucketStart ≤ t ∧ t < bucketStart + hour) ∧ fromTime ≤ t ∧ t < toTime

private theorem overlap_iff {b a z h : Int} (ordered : a < z) (long : 0 < h) :
    (∃ t, (b ≤ t ∧ t < b + h) ∧ a ≤ t ∧ t < z) ↔ a < b + h ∧ b < z := by
  constructor
  · rintro ⟨t, _, _⟩
    omega
  · rintro ⟨_, _⟩
    exact ⟨max a b, by omega⟩

theorem meets_iff {bucketStart fromTime toTime : Time} (ordered : fromTime < toTime) :
    Meets bucketStart fromTime toTime ↔ fromTime < bucketStart + hour ∧ bucketStart < toTime :=
  overlap_iff ordered (by decide)

private theorem floor_le_iff {b t : Int} (whole : b % 3600000000000 = 0) :
    t / 3600000000000 * 3600000000000 ≤ b ↔ t < b + 3600000000000 := by
  omega

theorem truncate_hour_le_iff {bucketStart t : Time} (whole : bucketStart % hour = 0) :
    truncate t hour ≤ bucketStart ↔ t < bucketStart + hour := floor_le_iff whole

private theorem lt_ceil_iff {b t : Int} (whole : b % 3600000000000 = 0) :
    b < (if t = t / 3600000000000 * 3600000000000 then t / 3600000000000 * 3600000000000
      else t / 3600000000000 * 3600000000000 + 3600000000000) ↔ b < t := by
  split <;> omega

theorem lt_ceilHour_iff {bucketStart t : Time} (whole : bucketStart % hour = 0) :
    bucketStart < ceilHour t ↔ bucketStart < t := lt_ceil_iff whole

private theorem micro_of_hour {t : Int} (whole : t % 3600000000000 = 0) : t % 1000 = 0 := by
  omega

theorem timestamp_of_whole {t : Time} (whole : t % hour = 0) : timestamp t = t :=
  timestamp_of_micro (micro_of_hour whole)

private theorem floor_whole (t : Int) : t / 3600000000000 * 3600000000000 % 3600000000000 = 0 := by
  omega

theorem truncate_hour_whole (t : Time) : truncate t hour % hour = 0 := floor_whole t

private theorem ceil_whole (t : Int) : (if t = t / 3600000000000 * 3600000000000 then
    t / 3600000000000 * 3600000000000 else t / 3600000000000 * 3600000000000 + 3600000000000) %
      3600000000000 = 0 := by
  split <;> omega

theorem ceilHour_whole (t : Time) : ceilHour t % hour = 0 := ceil_whole t

/-- What an accepted filter becomes. -/
structure Normalized (platform : Platform) (filter normalized : RouteStatsFilter) : Prop where
  project : isUUID normalized.projectID = true
  ordered : filter.fromTime < filter.toTime
  projectID : normalized.projectID = trimSpace filter.projectID
  fromTime : normalized.fromTime = truncate filter.fromTime hour
  toTime : normalized.toTime = ceilHour filter.toTime
  routeName : normalized.routeName = trimSpace filter.routeName
  method : normalized.method = platform.toUpper (trimSpace filter.method)

section Normalized
variable {platform : Platform} {filter normalized : RouteStatsFilter}

theorem normalizeStatsFilter_ok (accepted : normalizeStatsFilter platform filter = .ok normalized) :
    Normalized platform filter normalized := by
  unfold normalizeStatsFilter at accepted
  obtain ⟨project, accepted⟩ := check_passed accepted
  obtain ⟨times, accepted⟩ := check_passed accepted
  obtain ⟨_, accepted⟩ := check_passed accepted
  cases accepted
  simp only [not_or, not_not] at times
  exact ⟨by simpa using project, times.2.2, rfl, rfl, rfl, rfl, rfl⟩

theorem Normalized.selectsBucket_iff (norm : Normalized platform filter normalized) {bucketStart : Time}
    (whole : bucketStart % hour = 0) :
    normalized.selectsBucket bucketStart = true ↔ Meets bucketStart filter.fromTime filter.toTime := by
  simp only [RouteStatsFilter.selectsBucket, norm.fromTime, norm.toTime, Bool.and_eq_true, decide_eq_true_eq,
    timestamp_of_whole (truncate_hour_whole _), timestamp_of_whole (ceilHour_whole _)]
  rw [truncate_hour_le_iff whole, lt_ceilHour_iff whole, meets_iff norm.ordered]

end Normalized

section Groups
variable {α κ : Type} [DecidableEq κ]

/-- The groups of distinct keys are apart, and together they are the items with these keys. -/
theorem groups_perm (key : α → Option κ) (items : List α) {keys : List κ} (distinct : keys.Nodup) :
    (keys.flatMap (fun k => items.filter (fun item => key item = some k))).Perm
      (items.filter (fun item => (key item).any (· ∈ keys))) := by
  induction keys with
  | nil => simp
  | cons k keys ih =>
    obtain ⟨absent, rest⟩ := List.nodup_cons.mp distinct
    have first : (items.filter (fun item => (key item).any (· ∈ k :: keys))).filter (fun item => key item = some k) =
        items.filter (fun item => key item = some k) := by
      rw [List.filter_filter]
      congr 1
      funext item
      cases key item with
      | none => simp
      | some other => by_cases same : other = k <;> simp [same]
    have others : (items.filter (fun item => (key item).any (· ∈ k :: keys))).filter
        (fun item => !decide (key item = some k)) = items.filter (fun item => (key item).any (· ∈ keys)) := by
      rw [List.filter_filter]
      congr 1
      funext item
      cases found : key item with
      | none => simp
      | some other =>
        by_cases same : other = k
        · subst same
          simp [absent]
        · simp [same]
    rw [List.flatMap_cons]
    refine ((ih rest).append_left _).trans ?_
    rw [← first, ← others]
    exact List.filter_append_perm _ _

end Groups

section Sums
variable {platform : Platform} {s : Store}

/-- The events that the selected rows are about. -/
def Store.eventsOf (s : Store) (selected : Key → Bool) : List EventRow :=
  s.events.filter (fun row => row.key.any selected)

theorem mem_hourlyRows (valid : s.Valid platform) {key : Key} {stats : Stats} :
    (key, stats) ∈ s.hourlyRows ↔ s.stats key = some stats := by
  simp only [Store.hourlyRows, Store.row, List.mem_filterMap, List.mem_dedup, Option.map_eq_some_iff, Prod.mk.injEq]
  constructor
  · rintro ⟨_, _, _, found, rfl, rfl⟩
    exact found
  · intro found
    have filled : rowsFor s.events key ≠ [] := by
      intro none
      rw [(valid_summary valid key).1.mpr none] at found
      contradiction
    obtain ⟨row, member⟩ := List.exists_mem_of_ne_nil _ filled
    obtain ⟨stored, keyed⟩ := List.mem_filter.mp member
    exact ⟨key, ⟨row, stored, by simpa using keyed⟩, stats, found, rfl, rfl⟩

/-- A measure of events that is taken group by group. -/
structure Additive (measure : List EventRow → Int) : Prop where
  nil : measure [] = 0
  append : ∀ a b, measure (a ++ b) = measure a + measure b
  perm : ∀ {a b : List EventRow}, a.Perm b → measure a = measure b

theorem sumOf_keys (valid : s.Valid platform) {column : Stats → Int} {measure : List EventRow → Int}
    (additive : Additive measure) (agrees : ∀ stats rows, Summarizes stats rows → column stats = measure rows)
    (selected : Key → Bool) (keys : List Key) :
    sumOf column ((keys.filterMap s.row).filter (fun row => selected row.1)) =
      measure ((keys.filter selected).flatMap (rowsFor s.events)) := by
  induction keys with
  | nil => exact additive.nil.symm
  | cons key keys ih =>
    have summary := valid_summary valid key
    cases found : s.stats key with
    | none =>
      have empty := summary.1.mp found
      rw [List.filterMap_cons_none (by rw [Store.row, found, Option.map_none]), ih, List.filter_cons]
      split
      · rw [List.flatMap_cons, empty, List.nil_append]
      · rfl
    | some stats =>
      have mapped : s.row key = some (key, stats) := by rw [Store.row, found, Option.map_some]
      rw [List.filterMap_cons_some mapped, List.filter_cons, List.filter_cons]
      cases selected key with
      | false => exact ih
      | true =>
        simp only [if_true, List.flatMap_cons, additive.append, ← ih]
        rw [← agrees stats _ (summary.2 stats found)]
        rfl

theorem sumOf_selected (valid : s.Valid platform) {column : Stats → Int} {measure : List EventRow → Int}
    (additive : Additive measure) (agrees : ∀ stats rows, Summarizes stats rows → column stats = measure rows)
    (selected : Key → Bool) :
    sumOf column (s.hourlyRows.filter (fun row => selected row.1)) = measure (s.eventsOf selected) := by
  rw [Store.hourlyRows, sumOf_keys valid additive agrees]
  have distinct : (((s.events.filterMap (·.key)).dedup).filter selected).Nodup :=
    (List.nodup_dedup _).filter _
  have together : ((((s.events.filterMap (·.key)).dedup).filter selected).flatMap (rowsFor s.events)).Perm _ :=
    groups_perm EventRow.key s.events distinct
  rw [additive.perm together]
  congr 1
  apply List.filter_congr
  intro row member
  cases keyed : row.key with
  | none => rfl
  | some key =>
    have known : key ∈ (s.events.filterMap (·.key)).dedup :=
      List.mem_dedup.mpr (List.mem_filterMap.mpr ⟨row, member, keyed⟩)
    simp only [Option.any_some, List.mem_filter, known, true_and, Bool.decide_eq_true]

theorem additive_length : Additive (fun rows => (rows.length : Int)) where
  nil := rfl
  append a b := by simp
  perm same := by rw [same.length_eq]

theorem additive_countP (p : EventRow → Bool) : Additive (fun rows => (rows.countP p : Int)) where
  nil := rfl
  append a b := by simp
  perm same := by rw [same.countP_eq]

theorem additive_sum (f : EventRow → Int) : Additive (fun rows => (rows.map f).sum) where
  nil := rfl
  append a b := by simp
  perm same := (same.map f).sum_eq

theorem eventsOf_rowsFor {selected : Key → Bool} {row : EventRow} :
    row ∈ s.eventsOf selected ↔ ∃ key, selected key = true ∧ row ∈ rowsFor s.events key := by
  simp only [Store.eventsOf, rowsFor, List.mem_filter, Option.any_eq_true, decide_eq_true_eq]
  constructor
  · rintro ⟨stored, key, keyed, chosen⟩
    exact ⟨key, chosen, stored, keyed⟩
  · rintro ⟨key, chosen, stored, keyed⟩
    exact ⟨stored, key, keyed, chosen⟩

/-- An event that is aggregated has a row, which the query selects by its key. -/
theorem selected_row (valid : s.Valid platform) {selected : Key → Bool} {key : Key} {row : EventRow}
    (chosen : selected key = true) (grouped : row ∈ rowsFor s.events key) :
    ∃ stats, (key, stats) ∈ s.hourlyRows.filter (fun row => selected row.1) ∧
      Summarizes stats (rowsFor s.events key) := by
  obtain ⟨missing, summary⟩ := valid_summary valid key
  cases found : s.stats key with
  | none =>
    rw [missing.mp found] at grouped
    contradiction
  | some stats =>
    exact ⟨stats, List.mem_filter.mpr ⟨(mem_hourlyRows valid).mpr found, chosen⟩, summary stats found⟩

theorem maxOf_selected (valid : s.Valid platform) (selected : Key → Bool) :
    (s.eventsOf selected = [] ∧ maxOf (·.maxDurationMS) (s.hourlyRows.filter (fun row => selected row.1)) = 0) ∨
    IsGreatest {duration | ∃ row ∈ s.eventsOf selected, row.durationMS = duration}
      (maxOf (·.maxDurationMS) (s.hourlyRows.filter (fun row => selected row.1))) := by
  unfold maxOf
  cases most : ((s.hourlyRows.filter (fun row => selected row.1)).map (fun row => row.2.maxDurationMS)).max? with
  | none =>
    left
    refine ⟨?_, rfl⟩
    have empty := List.map_eq_nil_iff.mp (List.max?_eq_none_iff.mp most)
    rw [List.eq_nil_iff_forall_not_mem]
    intro row member
    obtain ⟨key, chosen, grouped⟩ := eventsOf_rowsFor.mp member
    obtain ⟨stats, inside, _⟩ := selected_row valid chosen grouped
    rw [empty] at inside
    contradiction
  | some duration =>
    right
    obtain ⟨attained, bound⟩ := List.max?_eq_some_iff.mp most
    obtain ⟨⟨key, stats⟩, member, rfl⟩ := List.mem_map.mp attained
    obtain ⟨stored, chosen⟩ := List.mem_filter.mp member
    have summary := (valid_summary valid key).2 stats ((mem_hourlyRows valid).mp stored)
    constructor
    · obtain ⟨row, grouped, same⟩ := summary.maxDurationMS.1
      exact ⟨row, eventsOf_rowsFor.mpr ⟨key, chosen, grouped⟩, same⟩
    · rintro _ ⟨row, counted, rfl⟩
      obtain ⟨other, chosen, grouped⟩ := eventsOf_rowsFor.mp counted
      obtain ⟨others, inside, summary⟩ := selected_row valid chosen grouped
      exact (summary.maxDurationMS.2 ⟨row, grouped, rfl⟩).trans (bound _ (List.mem_map.mpr ⟨_, inside, rfl⟩))

/-- The summary is the count, sum, mean or maximum over its events that each field is named after. -/
structure SummaryOf {φ : Type} (server : Server φ) (summary : RouteStatsSummary φ) (rows : List EventRow) :
    Prop where
  requestCount : summary.requestCount = rows.length
  status1xx : summary.status.status1xx = rows.countP (·.inClass 1)
  status2xx : summary.status.status2xx = rows.countP (·.inClass 2)
  status3xx : summary.status.status3xx = rows.countP (·.inClass 3)
  status4xx : summary.status.status4xx = rows.countP (·.inClass 4)
  status5xx : summary.status.status5xx = rows.countP (·.inClass 5)
  rateLimitedCount : summary.rateLimitedCount = rows.countP (·.rateLimited)
  averageDurationMS : summary.averageDurationMS = average server (rows.map (·.durationMS)).sum rows.length
  maxDurationMS : (rows = [] ∧ summary.maxDurationMS = 0) ∨
    IsGreatest {duration | ∃ row ∈ rows, row.durationMS = duration} summary.maxDurationMS
  totalResponseBytes : summary.totalResponseBytes = (rows.map (·.responseBytes)).sum

theorem summaryOf_selected {φ : Type} (server : Server φ) (valid : s.Valid platform) (selected : Key → Bool) :
    SummaryOf server (summaryOf server (s.hourlyRows.filter (fun row => selected row.1))) (s.eventsOf selected) where
  requestCount := sumOf_selected valid additive_length (fun _ _ summary => summary.requestCount) selected
  status1xx := sumOf_selected valid (additive_countP _) (fun _ _ summary => summary.status1xx) selected
  status2xx := sumOf_selected valid (additive_countP _) (fun _ _ summary => summary.status2xx) selected
  status3xx := sumOf_selected valid (additive_countP _) (fun _ _ summary => summary.status3xx) selected
  status4xx := sumOf_selected valid (additive_countP _) (fun _ _ summary => summary.status4xx) selected
  status5xx := sumOf_selected valid (additive_countP _) (fun _ _ summary => summary.status5xx) selected
  rateLimitedCount := sumOf_selected valid (additive_countP _) (fun _ _ summary => summary.rateLimitedCount) selected
  averageDurationMS := by
    simp only [summaryOf, sumOf_selected valid additive_length (fun _ _ summary => summary.requestCount) selected,
      sumOf_selected valid (additive_sum _) (fun _ _ summary => summary.totalDurationMS) selected]
  maxDurationMS := maxOf_selected valid selected
  totalResponseBytes := sumOf_selected valid (additive_sum _) (fun _ _ summary => summary.totalResponseBytes) selected

end Sums
section Answers
variable {φ : Type} {platform : Platform} {server : Server φ} {s : Store} {filter : RouteStatsFilter}

theorem key_bucketStart {row : EventRow} {key : Key} (keyed : row.key = some key) :
    key.bucketStart = truncate row.occurredAt hour := by
  unfold EventRow.key at keyed
  split at keyed
  · cases keyed
    rfl
  · contradiction

private theorem hour_of (t : Int) : t / 3600000000000 * 3600000000000 ≤ t ∧
    t < t / 3600000000000 * 3600000000000 + 3600000000000 := by
  omega

theorem meets_of_occurred {row : EventRow} {key : Key} {fromTime toTime : Time} (keyed : row.key = some key)
    (after : fromTime ≤ row.occurredAt) (before : row.occurredAt < toTime) :
    Meets key.bucketStart fromTime toTime := by
  rw [key_bucketStart keyed]
  exact ⟨row.occurredAt, hour_of row.occurredAt, after, before⟩

theorem key_whole {row : EventRow} {key : Key} (keyed : row.key = some key) : key.bucketStart % hour = 0 := by
  rw [key_bucketStart keyed]
  exact truncate_hour_whole row.occurredAt

/-- The key is one that the filter asks for. -/
structure Asks (platform : Platform) (filter : RouteStatsFilter) (key : Key) : Prop where
  project : Uuid.parse (trimSpace filter.projectID) = some key.projectID
  routeName : trimSpace filter.routeName = [] ∨ key.routeName = trimSpace filter.routeName
  method : platform.toUpper (trimSpace filter.method) = [] ∨ key.method = platform.toUpper (trimSpace filter.method)

theorem arguments_project {projectID : Uuid} (given : filter.arguments = some projectID) :
    Uuid.parse filter.projectID = some projectID := by
  simp only [RouteStatsFilter.arguments, Option.bind_eq_bind, Option.bind_eq_some_iff,
    Option.ite_none_right_eq_some, Option.some.injEq] at given
  obtain ⟨id, parsed, _, rfl⟩ := given
  exact parsed

theorem Normalized.selects_occurred {normalized : RouteStatsFilter} (norm : Normalized platform filter normalized)
    {projectID : Uuid} (given : normalized.arguments = some projectID) {row : EventRow} {key : Key}
    (keyed : row.key = some key) (asks : Asks platform filter key) (after : filter.fromTime ≤ row.occurredAt)
    (before : row.occurredAt < filter.toTime) : normalized.selects projectID key = true := by
  have project := arguments_project given
  rw [norm.projectID, asks.project, Option.some.injEq] at project
  have bucket := (norm.selectsBucket_iff (key_whole keyed)).mpr (meets_of_occurred keyed after before)
  have routeName := asks.routeName
  have method := asks.method
  rw [← norm.routeName] at routeName
  rw [← norm.method] at method
  simp only [RouteStatsFilter.selects, project, bucket, decide_true, Bool.true_and, Bool.and_eq_true, Bool.or_eq_true,
    decide_eq_true_eq]
  exact ⟨routeName, method⟩

/-- The summary is over stored events, and over every one that was asked for. -/
theorem getRouteStatsSummary_counts (valid : s.Valid platform) {summary : RouteStatsSummary φ}
    (answered : getRouteStatsSummary platform server s filter = .ok summary) :
    ∃ rows, SummaryOf server summary rows ∧ rows.Sublist s.events ∧ ∀ row ∈ s.events, ∀ key, row.key = some key →
      Asks platform filter key → filter.fromTime ≤ row.occurredAt → row.occurredAt < filter.toTime → row ∈ rows := by
  unfold getRouteStatsSummary at answered
  split at answered
  · contradiction
  next normalized accepted =>
  have norm := normalizeStatsFilter_ok accepted
  split at answered
  · contradiction
  next projectID given =>
  dsimp only at answered
  split at answered
  · cases answered
    refine ⟨s.eventsOf (normalized.selects projectID), summaryOf_selected server valid _, List.filter_sublist, ?_⟩
    intro row stored key keyed asks after before
    refine List.mem_filter.mpr ⟨stored, ?_⟩
    rw [keyed, Option.any_some]
    exact norm.selects_occurred given keyed asks after before
  · contradiction

/-- Each item is a row of the table; the row of an event that was asked for is there,
unless the list was cut at its limit. -/
theorem listRouteStatsHourly_counts (valid : s.Valid platform) {limit : Int} {items : List (RouteStatsHourly φ)}
    (answered : listRouteStatsHourly platform server s filter limit = .ok items) :
    ∀ row ∈ s.events, ∀ key, row.key = some key → Asks platform filter key → filter.fromTime ≤ row.occurredAt →
      row.occurredAt < filter.toTime → (items.length : Int) = limit ∨
      ∃ stats, hourlyItem server (key, stats) ∈ items ∧ Summarizes stats (rowsFor s.events key) := by
  unfold listRouteStatsHourly at answered
  split at answered
  · contradiction
  next normalized accepted =>
  have norm := normalizeStatsFilter_ok accepted
  obtain ⟨limited, answered⟩ := check_passed answered
  split at answered
  · contradiction
  next projectID given =>
  cases answered
  intro row stored key keyed asks after before
  have chosen := norm.selects_occurred given keyed asks after before
  have grouped : row ∈ rowsFor s.events key := List.mem_filter.mpr ⟨stored, by simpa using keyed⟩
  obtain ⟨stats, inside, summary⟩ := selected_row valid chosen grouped
  generalize s.hourlyRows.filter (fun row => normalized.selects projectID row.1) = rows at inside ⊢
  have sorted : (key, stats) ∈ rows.mergeSort (rowOrder server) :=
    (List.mergeSort_perm rows (rowOrder server)).mem_iff.mpr inside
  by_cases cut : limit.toNat ≤ (rows.mergeSort (rowOrder server)).length
  · left
    rw [List.length_map, List.length_take, min_eq_left cut]
    omega
  · right
    rw [List.take_of_length_le (by omega)]
    exact ⟨stats, List.mem_map.mpr ⟨_, sorted, rfl⟩, summary⟩

end Answers
end EdgeGuard.Analytics
