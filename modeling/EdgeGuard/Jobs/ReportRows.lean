import EdgeGuard.Analytics.Queries
import EdgeGuard.Jobs.Payloads

/-! The rows of a report. The generator widens its interval to whole hours in SQL, the
statistics queries do it in Go; both read the buckets that meet the interval, and so every
aggregated event in it. -/
namespace EdgeGuard.Jobs.Report
open Go Postgres Analytics

/-- `date_trunc('hour', t)` in a session whose time zone is UTC. -/
def dateTruncHour (t : Time) : Time := truncate t hour

/-- The condition of `loadRows` on `bucket_start`. -/
def selectsBucket (fromTime toTime bucketStart : Time) : Bool :=
  dateTruncHour fromTime ≤ bucketStart &&
    bucketStart < if toTime = dateTruncHour toTime then toTime else dateTruncHour toTime + hour

/-- `row`: the columns of a statistics row without its project. -/
structure Row where
  bucketStart : Time
  routeName : Str
  routePathPrefix : Str
  method : Str
  stats : Stats
  deriving DecidableEq, Repr

def rowOf (row : Key × Stats) : Row :=
  ⟨row.1.bucketStart, row.1.routeName, row.1.routePathPrefix, row.1.method, row.2⟩

/-- `loadRows`; `none` is an argument that the server refuses. -/
def loadRows {φ : Type} (server : Server φ) (s : Store) (payload : ReportPayload) : Option (List Row) := do
  let projectID ← Uuid.parse payload.projectID
  if timestampOk payload.fromTime = true ∧ timestampOk payload.toTime = true then
    let rows := s.hourlyRows.filter (fun row => row.1.projectID = projectID &&
      selectsBucket (timestamp payload.fromTime) (timestamp payload.toTime) row.1.bucketStart)
    some ((rows.mergeSort (rowOrder server)).map rowOf)
  else none

private theorem lt_case_iff {b t : Int} (whole : b % 3600000000000 = 0) :
    b < (if t = t / 3600000000000 * 3600000000000 then t
      else t / 3600000000000 * 3600000000000 + 3600000000000) ↔ b < t := by
  split <;> omega

theorem selectsBucket_iff {fromTime toTime bucketStart : Time} (ordered : fromTime < toTime)
    (whole : bucketStart % hour = 0) :
    selectsBucket fromTime toTime bucketStart = true ↔ Meets bucketStart fromTime toTime := by
  simp only [selectsBucket, dateTruncHour, Bool.and_eq_true, decide_eq_true_eq, truncate_hour_le_iff whole,
    meets_iff ordered]
  exact and_congr_right fun _ => decide_eq_true_iff.trans (lt_case_iff whole)

section Rows
variable {φ : Type} {platform : Platform} {server : Server φ} {s : Store}

theorem loadRows_counts (valid : s.Valid platform) {payload : ReportPayload} {items : List Row}
    (ordered : timestamp payload.fromTime < timestamp payload.toTime)
    (loaded : loadRows server s payload = some items) :
    ∀ row ∈ s.events, ∀ key, row.key = some key → Uuid.parse payload.projectID = some key.projectID →
      timestamp payload.fromTime ≤ row.occurredAt → row.occurredAt < timestamp payload.toTime →
      ∃ stats, rowOf (key, stats) ∈ items ∧ Summarizes stats (rowsFor s.events key) := by
  simp only [loadRows, Option.bind_eq_bind, Option.bind_eq_some_iff, Option.ite_none_right_eq_some,
    Option.some.injEq] at loaded
  obtain ⟨projectID, parsed, _, rfl⟩ := loaded
  intro row stored key keyed project after before
  cases parsed.symm.trans project
  have bucket := (selectsBucket_iff ordered (key_whole keyed)).mpr (meets_of_occurred keyed after before)
  have grouped : row ∈ rowsFor s.events key := List.mem_filter.mpr ⟨stored, by simpa using keyed⟩
  obtain ⟨stats, inside, summary⟩ := @selected_row platform s valid (fun other => other.projectID = key.projectID &&
    selectsBucket (timestamp payload.fromTime) (timestamp payload.toTime) other.bucketStart) key row
    (by simp [bucket]) grouped
  refine ⟨stats, List.mem_map.mpr ⟨_, ?_, rfl⟩, summary⟩
  exact (List.mergeSort_perm _ (rowOrder server)).mem_iff.mpr inside

end Rows

/-- For an interval of whole microseconds, the report and the statistics queries select the
buckets that meet it. In every state of the store the event of an aggregated row in the
interval is counted in its row of the report, in the summary, and in its item of the hourly
list, unless that list was cut at its limit. -/
theorem reads_cover_interval {φ : Type} (platform : Platform) (server : Server φ) {actions : List Analytics.Action}
    {s : Store} (path : Transition.run (Analytics.step platform) Store.empty actions = some s) {fromTime toTime : Time}
    (ordered : fromTime < toTime) (fromMicro : fromTime % microsecond = 0) (toMicro : toTime % microsecond = 0) :
    (∀ bucketStart, bucketStart % hour = 0 →
      (selectsBucket (timestamp fromTime) (timestamp toTime) bucketStart = true ↔
        Meets bucketStart fromTime toTime)) ∧
    (∀ filter normalized, filter.fromTime = fromTime → filter.toTime = toTime →
      normalizeStatsFilter platform filter = .ok normalized → ∀ bucketStart, bucketStart % hour = 0 →
      (normalized.selectsBucket bucketStart = true ↔ Meets bucketStart fromTime toTime)) ∧
    ∀ row ∈ s.events, ∀ key, row.key = some key → fromTime ≤ row.occurredAt → row.occurredAt < toTime →
      (∀ payload items, payload.fromTime = fromTime → payload.toTime = toTime →
        Uuid.parse payload.projectID = some key.projectID → loadRows server s payload = some items →
        ∃ stats, rowOf (key, stats) ∈ items ∧ Summarizes stats (rowsFor s.events key)) ∧
      ∀ filter, filter.fromTime = fromTime → filter.toTime = toTime → Asks platform filter key →
        (∀ summary, getRouteStatsSummary platform server s filter = .ok summary →
          ∃ rows, SummaryOf server summary rows ∧ rows.Sublist s.events ∧ row ∈ rows) ∧
        ∀ limit items, listRouteStatsHourly platform server s filter limit = .ok items →
          (items.length : Int) = limit ∨
          ∃ stats, hourlyItem server (key, stats) ∈ items ∧ Summarizes stats (rowsFor s.events key) := by
  have valid := run_valid path
  refine ⟨?_, ?_, ?_⟩
  · intro bucketStart whole
    rw [timestamp_of_micro fromMicro, timestamp_of_micro toMicro]
    exact selectsBucket_iff ordered whole
  · rintro filter normalized rfl rfl accepted bucketStart whole
    exact (normalizeStatsFilter_ok accepted).selectsBucket_iff whole
  · intro row stored key keyed after before
    refine ⟨?_, ?_⟩
    · rintro payload items rfl rfl project loaded
      have sameFrom := timestamp_of_micro fromMicro
      have sameTo := timestamp_of_micro toMicro
      exact loadRows_counts valid (by rwa [sameFrom, sameTo]) loaded row stored key keyed project
        (by rwa [sameFrom]) (by rwa [sameTo])
    · rintro filter rfl rfl asks
      refine ⟨?_, ?_⟩
      · intro summary answered
        obtain ⟨rows, summarized, within, counted⟩ := getRouteStatsSummary_counts valid answered
        exact ⟨rows, summarized, within, counted row stored key keyed asks after before⟩
      · intro limit items answered
        exact listRouteStatsHourly_counts valid answered row stored key keyed asks after before

def exactServer : Server ℚ where
  zero := 0
  quotient a b := a / b
  collate a b := a ≤ b

def edgeFilter : RouteStatsFilter where
  projectID := lit " 01010101-0101-0101-0101-010101010101"
  fromTime := 1700000000 * second
  toTime := 1700000000 * second + microsecond
  routeName := []
  method := lit "get "

def edgePayload : ReportPayload :=
  ⟨lit "01010101-0101-0101-0101-010101010101", edgeFilter.fromTime, edgeFilter.toTime, lit "csv"⟩

theorem edge_events_are_counted :
    ∃ s, Transition.run (Analytics.step asciiPlatform) Store.empty sampleActions = some s ∧
      getRouteStatsSummary asciiPlatform exactServer s edgeFilter =
        .ok ⟨2, ⟨0, 2, 0, 0, 0⟩, 0, 47 / 2, 40, 1024⟩ ∧
      (∃ row ∈ s.events, ∃ rows, row ∈ rows ∧
        SummaryOf exactServer ⟨2, ⟨0, 2, 0, 0, 0⟩, 0, 47 / 2, 40, 1024⟩ rows) ∧
      ∀ items, loadRows exactServer s edgePayload = some items →
        ∃ stats, rowOf (sampleKey, stats) ∈ items ∧ Summarizes stats (rowsFor s.events sampleKey) := by
  have ran : (Transition.run (Analytics.step asciiPlatform) Store.empty sampleActions).map (fun s =>
      (getRouteStatsSummary asciiPlatform exactServer s edgeFilter,
        s.events.map (fun row => (row.key, row.occurredAt)))) =
      some (.ok ⟨2, ⟨0, 2, 0, 0, 0⟩, 0, 47 / 2, 40, 1024⟩,
        List.replicate 2 (some sampleKey, 1700000000 * second)) := by
    decide +kernel
  obtain ⟨s, path, answer⟩ := Option.map_eq_some_iff.mp ran
  obtain ⟨summary, stored⟩ := Prod.mk.inj answer
  have member : (some sampleKey, 1700000000 * second) ∈ s.events.map (fun row => (row.key, row.occurredAt)) := by
    rw [stored]
    decide
  obtain ⟨row, present, same⟩ := List.mem_map.mp member
  obtain ⟨keyed, occurred⟩ := Prod.mk.inj same
  have covered := (reads_cover_interval asciiPlatform exactServer path (show edgeFilter.fromTime < edgeFilter.toTime by
    decide) (by decide) (by decide)).2.2 row present sampleKey keyed (by rw [occurred]; decide)
    (by rw [occurred]; decide)
  have asks : Asks asciiPlatform edgeFilter sampleKey := ⟨by decide, .inl rfl, .inr (by decide)⟩
  obtain ⟨rows, summarized, _, counted⟩ := (covered.2 edgeFilter rfl rfl asks).1 _ summary
  exact ⟨s, path, summary, ⟨row, present, rows, counted, summarized⟩,
    fun items loaded => covered.1 edgePayload items rfl rfl (by decide) loaded⟩

def unroutedEvent : GatewayAccessEvent := { sampleEvent (lit "c") 3 with routeName := lit " " }

theorem unrouted_event_is_not_counted :
    ∃ s, Transition.run (Analytics.step asciiPlatform) Store.empty
        [.begin 0 unroutedEvent, .insert 0, .commit 0] = some s ∧
      (∃ row ∈ s.events, row.projectID = some sampleKey.projectID ∧ edgeFilter.fromTime ≤ row.occurredAt ∧
        row.occurredAt < edgeFilter.toTime) ∧
      getRouteStatsSummary asciiPlatform exactServer s edgeFilter = .ok ⟨0, ⟨0, 0, 0, 0, 0⟩, 0, 0, 0, 0⟩ ∧
      loadRows exactServer s edgePayload = some [] := by
  have ran : (Transition.run (Analytics.step asciiPlatform) Store.empty
      [.begin 0 unroutedEvent, .insert 0, .commit 0]).map (fun s =>
        (s.events.map (fun row => (row.projectID, row.occurredAt)),
          getRouteStatsSummary asciiPlatform exactServer s edgeFilter, loadRows exactServer s edgePayload)) =
      some ([(some sampleKey.projectID, 1700000000 * second)], .ok ⟨0, ⟨0, 0, 0, 0, 0⟩, 0, 0, 0, 0⟩, some []) := by
    decide +kernel
  obtain ⟨s, path, answer⟩ := Option.map_eq_some_iff.mp ran
  simp only [Prod.mk.injEq] at answer
  obtain ⟨stored, summary, loaded⟩ := answer
  have member : (some sampleKey.projectID, 1700000000 * second) ∈
      s.events.map (fun row => (row.projectID, row.occurredAt)) := by
    rw [stored]
    exact List.mem_singleton.mpr rfl
  obtain ⟨row, present, same⟩ := List.mem_map.mp member
  obtain ⟨project, occurred⟩ := Prod.mk.inj same
  exact ⟨s, path, ⟨row, present, project, by rw [occurred]; decide, by rw [occurred]; decide⟩, summary, loaded⟩

end EdgeGuard.Jobs.Report
