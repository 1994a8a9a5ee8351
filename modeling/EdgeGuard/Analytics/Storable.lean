import EdgeGuard.Analytics.Consumer
import Mathlib.Algebra.Order.BigOperators.Group.List

/-! Which valid events the tables can hold. The validator of an event and the
schema were written separately: they disagree on the zero byte, on sums beyond
`BIGINT` and on texts too long for an index. -/
namespace EdgeGuard.Analytics
open Go Postgres

private theorem split_at {s : Str} {n : Nat} {c : UInt8} (found : s[n]? = some c) :
    s = s.take n ++ c :: s.drop (n + 1) := by
  obtain ⟨bound, rfl⟩ := List.getElem?_eq_some_iff.mp found
  rw [List.getElem_cons_drop, List.take_append_drop]

private theorem hyphen_groups {value : Str} (length : value.length = 36)
    (first : value[8]? = some 45) (second : value[13]? = some 45) (third : value[18]? = some 45)
    (fourth : value[23]? = some 45) :
    ∃ a b c d e : Str, value = a ++ 45 :: (b ++ 45 :: (c ++ 45 :: (d ++ 45 :: e))) ∧
      a.length = 8 ∧ b.length = 4 ∧ c.length = 4 ∧ d.length = 4 ∧ e.length = 12 := by
  have after1 := split_at first
  have after2 : value.drop 9 = _ := split_at (n := 4) (c := 45) (by rw [List.getElem?_drop]; exact second)
  have after3 : (value.drop 9).drop 5 = _ :=
    split_at (n := 4) (c := 45) (by rw [List.getElem?_drop, List.getElem?_drop]; exact third)
  have after4 : ((value.drop 9).drop 5).drop 5 = _ := split_at (n := 4) (c := 45)
    (by rw [List.getElem?_drop, List.getElem?_drop, List.getElem?_drop]; exact fourth)
  refine ⟨value.take 8, (value.drop 9).take 4, ((value.drop 9).drop 5).take 4,
    (((value.drop 9).drop 5).drop 5).take 4, (((value.drop 9).drop 5).drop 5).drop 5, ?_, ?_⟩
  · rw [← after4, ← after3, ← after2, ← after1]
  · simp [length]

theorem canonical_groups {value : Str} (canonical : isCanonicalUUID value = true) :
    ∃ a b c d e : Str, value = a ++ 45 :: (b ++ 45 :: (c ++ 45 :: (d ++ 45 :: e))) ∧
      a.length = 8 ∧ b.length = 4 ∧ c.length = 4 ∧ d.length = 4 ∧ e.length = 12 ∧
      ∀ digit ∈ a ++ (b ++ (c ++ (d ++ e))), (fromHexChar digit).isSome = true := by
  simp only [isCanonicalUUID] at canonical
  split at canonical
  · contradiction
  rename_i shape
  split at canonical
  · contradiction
  rename_i compact
  simp only [not_or, not_not] at shape compact
  obtain ⟨length, first, second, third, fourth⟩ := shape
  obtain ⟨a, b, c, d, e, rfl, la, lb, lc, ld, le⟩ := hyphen_groups length first second third fourth
  -- 32 characters are left without the hyphens, so that the groups have none
  have whole (part : Str) : (part.filter (· != 45)).length ≤ part.length := List.length_filter_le _ _
  simp only [List.filter_append, List.filter_cons, bne_self_eq_false, Bool.false_eq_true, if_false]
    at compact canonical
  simp only [List.length_append] at compact
  have unbroken {part : Str} (full : (part.filter (· != 45)).length = part.length) :
      part.filter (· != 45) = part := List.filter_eq_self.mpr (List.length_filter_eq_length_iff.mp full)
  have bounds := And.intro (whole a) (And.intro (whole b) (And.intro (whole c) (And.intro (whole d) (whole e))))
  rw [unbroken (by omega : (a.filter (· != 45)).length = a.length),
    unbroken (by omega : (b.filter (· != 45)).length = b.length),
    unbroken (by omega : (c.filter (· != 45)).length = c.length),
    unbroken (by omega : (d.filter (· != 45)).length = d.length),
    unbroken (by omega : (e.filter (· != 45)).length = e.length)] at canonical
  exact ⟨a, b, c, d, e, rfl, la, lb, lc, ld, le, hexDecode_isSome canonical⟩

theorem parse_canonical {value : Str} (canonical : isCanonicalUUID value = true) :
    ∃ id, Uuid.parse value = some id := by
  obtain ⟨a, b, c, d, e, rfl, la, lb, lc, ld, le, hex⟩ := canonical_groups canonical
  obtain ⟨id, _, _, _, _, _, parsed, _⟩ := Uuid.parse_groups la lb lc ld le hex
  exact ⟨id, parsed⟩

/-- What `encoding/json` guarantees of a decoded event: texts are UTF-8, integers
are 64 bits wide, and an instant has a four-digit year in some time zone. -/
structure Decoded (event : GatewayAccessEvent) : Prop where
  texts : ∀ text ∈ [event.eventID, event.requestID, event.projectID, event.routeName,
    event.routePathPrefix, event.method, event.requestPath, event.clientID], validUtf8 text = true
  duration : event.durationMS ≤ int8Max
  bytes : event.responseBytes ≤ int8Max
  instant : -62167305600 * second ≤ event.occurredAt ∧ event.occurredAt < 253402387200 * second

/-- No text column would contain U+0000. -/
def ZeroFree (event : GatewayAccessEvent) : Prop :=
  ∀ text ∈ [event.eventID, event.requestID, event.routeName, event.routePathPrefix, event.method,
    event.requestPath, event.clientID], 0 ∉ text

/-- The entries of the two indexes on the raw events fit. -/
def IndexFits (platform : Platform) (event : GatewayAccessEvent) : Prop :=
  platform.indexRowFits [event.eventID] = true ∧
    (trimSpace event.projectID ≠ [] → platform.indexRowFits [trimSpace event.routeName] = true)

/-- The statistics row of the event still has room, and its key can be indexed. -/
def StatsFit (platform : Platform) (s : Store) (event : GatewayAccessEvent) : Prop :=
  platform.indexRowFits [trimSpace event.routeName, trimSpace event.routePathPrefix,
    platform.toUpper (trimSpace event.method)] = true ∧
  ∀ key, statsKey platform event = some key → ∀ stats, s.stats key = some stats →
    stats.requestCount + 1 ≤ int8Max ∧ stats.totalDurationMS + event.durationMS ≤ int8Max ∧
      stats.totalResponseBytes + event.responseBytes ≤ int8Max

/-- The condition under which a valid event is stored in the given tables. Of an event
that they hold already only the texts are asked about. -/
structure Storable (platform : Platform) (s : Store) (event : GatewayAccessEvent) : Prop where
  zeroFree : ZeroFree event
  indexed : (∀ stored ∈ s.events, stored.eventID ≠ event.eventID) → IndexFits platform event
  counted : (∀ stored ∈ s.events, stored.eventID ≠ event.eventID) → shouldAggregate event = true →
    StatsFit platform s event

variable {platform : Platform} {s : Store} {event : GatewayAccessEvent}

theorem textOk_iff {text : Str} (valid : validUtf8 text = true) : textOk text = true ↔ 0 ∉ text := by
  simp [textOk, valid]

theorem textOk_trimSpace_iff {text : Str} (valid : validUtf8 text = true) :
    textOk (trimSpace text) = true ↔ 0 ∉ text := by
  rw [textOk_iff (trimSpace_valid valid), zero_mem_trimSpace]

theorem canonical_zeroFree {value : Str} (canonical : isCanonicalUUID value = true) : 0 ∉ value := by
  obtain ⟨a, b, c, d, e, rfl, -, -, -, -, -, hex⟩ := canonical_groups canonical
  intro zero
  have digit : (0 : UInt8) ∈ a ++ (b ++ (c ++ (d ++ e))) := by
    simpa [List.mem_append, List.mem_cons] using zero
  have impossible := hex 0 digit
  revert impossible
  decide

theorem castProject_isSome (checked : event.Checked) :
    ∃ project, castProject (trimSpace event.projectID) = some project := by
  unfold castProject
  by_cases blank : trimSpace event.projectID = []
  · exact ⟨none, if_pos blank⟩
  · obtain ⟨id, parsed⟩ := parse_canonical (checked.project.resolve_left blank)
    exact ⟨some id, by rw [if_neg blank, parsed]; rfl⟩

theorem textColumns_iff (checked : event.Checked) (decoded : Decoded event) :
    (∀ text ∈ textColumns platform event, textOk text = true) ↔ ZeroFree event := by
  have texts := decoded.texts
  simp only [List.mem_cons, List.not_mem_nil, or_false, forall_eq_or_imp, forall_eq] at texts
  obtain ⟨id, request, project, name, path, method, requested, client⟩ := texts
  have upper : textOk (platform.toUpper (trimSpace event.method)) = true ↔ 0 ∉ event.method := by
    rw [Platform.toUpper, textOk_iff (toUpper_valid _), zero_mem_toUpper (trimSpace_valid method),
      zero_mem_trimSpace]
  have projectOk : textOk (trimSpace event.projectID) = true := by
    rw [textOk_iff (trimSpace_valid project)]
    rcases checked.project with blank | canonical
    · rw [blank]
      simp
    · exact canonical_zeroFree canonical
  have clientTypeOk : textOk event.clientType = true := by
    rcases checked.client with key | address
    · rw [key]
      decide
    · rw [address]
      decide
  simp only [textColumns, ZeroFree, List.mem_cons, List.not_mem_nil, or_false, forall_eq_or_imp,
    forall_eq, textOk_iff id, textOk_iff request, projectOk, textOk_trimSpace_iff name,
    textOk_trimSpace_iff path, upper, textOk_iff requested, clientTypeOk, textOk_iff client, true_and]

theorem timestampOk_of_decoded (decoded : Decoded event) :
    timestampOk event.occurredAt = true ∧ timestampOk (truncate event.occurredAt hour) = true := by
  have range (t : Int) (low : -62167305600000000000 ≤ t) (high : t < 253402387200000000000) :
      (-211813488000000000 ≤ t / 1000 - 946684800000000 ∧
        t / 1000 - 946684800000000 < 9223371331200000000) ∧
      (-211813488000000000 ≤ t / 3600000000000 * 3600000000000 / 1000 - 946684800000000 ∧
        t / 3600000000000 * 3600000000000 / 1000 - 946684800000000 < 9223371331200000000) := by
    omega
  have both := range event.occurredAt decoded.instant.1 decoded.instant.2
  simp only [timestampOk, Bool.and_eq_true, decide_eq_true_eq]
  exact both

theorem eventRow_isSome_iff (checked : event.Checked) (decoded : Decoded event) :
    (∃ row, eventRow platform event = some row) ↔ ZeroFree event := by
  obtain ⟨project, cast⟩ := castProject_isSome checked
  obtain ⟨low, high⟩ := checked.status
  have version : int4Ok event.schemaVersion = true ∧ 0 < event.schemaVersion := by
    rw [checked.version]
    decide
  have status : int4Ok event.statusCode = true := by
    simp only [int4Ok, Bool.and_eq_true, decide_eq_true_eq]
    omega
  have duration : int8Ok event.durationMS = true := by
    have bound := checked.duration
    simp only [int8Ok, Bool.and_eq_true, decide_eq_true_eq]
    exact ⟨by omega, decoded.duration⟩
  have bytes : int8Ok event.responseBytes = true := by
    have bound := checked.bytes
    simp only [int8Ok, Bool.and_eq_true, decide_eq_true_eq]
    exact ⟨by omega, decoded.bytes⟩
  simp only [eventRow, cast, Option.bind_eq_bind, Option.bind_some, Option.ite_none_right_eq_some,
    exists_and_left, Option.some.injEq, exists_eq', and_true, textColumns_iff checked decoded,
    version, (timestampOk_of_decoded decoded).1, status, low, high, duration, checked.duration, bytes,
    checked.bytes, checked.client]

theorem indexed_iff {row : EventRow} (built : eventRow platform event = some row) :
    row.indexed platform = true ↔ IndexFits platform event := by
  simp only [eventRow, Option.bind_eq_bind, Option.bind_eq_some_iff, Option.ite_none_right_eq_some,
    Option.some.injEq] at built
  obtain ⟨project, cast, _, rfl⟩ := built
  have absent : project.isNone = true ↔ trimSpace event.projectID = [] := by
    unfold castProject at cast
    split at cast
    · cases cast
      simp [*]
    · obtain ⟨id, _, rfl⟩ := Option.map_eq_some_iff.mp cast
      simp [*]
  have name : (nullIf (trimSpace event.routeName)).getD [] = trimSpace event.routeName := by
    unfold nullIf
    split <;> simp [*]
  simp only [EventRow.indexed, IndexFits, name, Bool.and_eq_true, Bool.or_eq_true, absent, ne_eq, or_iff_not_imp_left]

/-- The columns of a summary are not negative, no count exceeds the number of
requests, and the maximum is the duration of a stored event. -/
structure Stats.Bounded (stats : Stats) : Prop where
  class1 : 0 ≤ stats.status.status1xx ∧ stats.status.status1xx ≤ stats.requestCount
  class2 : 0 ≤ stats.status.status2xx ∧ stats.status.status2xx ≤ stats.requestCount
  class3 : 0 ≤ stats.status.status3xx ∧ stats.status.status3xx ≤ stats.requestCount
  class4 : 0 ≤ stats.status.status4xx ∧ stats.status.status4xx ≤ stats.requestCount
  class5 : 0 ≤ stats.status.status5xx ∧ stats.status.status5xx ≤ stats.requestCount
  limited : 0 ≤ stats.rateLimitedCount ∧ stats.rateLimitedCount ≤ stats.requestCount
  duration : 0 ≤ stats.totalDurationMS
  longest : 0 ≤ stats.maxDurationMS ∧ stats.maxDurationMS ≤ int8Max
  bytes : 0 ≤ stats.totalResponseBytes

theorem Summarizes.bounded {stats : Stats} {rows : List EventRow} (summary : Summarizes stats rows)
    (checked : ∀ row ∈ rows, row.Checked) : stats.Bounded := by
  have count (p : EventRow → Bool) :
      (0 : Int) ≤ rows.countP p ∧ (rows.countP p : Int) ≤ rows.length :=
    ⟨Int.natCast_nonneg _, Int.ofNat_le.mpr List.countP_le_length⟩
  have total {f : EventRow → Int} (positive : ∀ row ∈ rows, 0 ≤ f row) : 0 ≤ (rows.map f).sum := by
    apply List.sum_nonneg
    intro value member
    obtain ⟨row, present, rfl⟩ := List.mem_map.mp member
    exact positive row present
  constructor
  · rw [summary.status1xx, summary.requestCount]
    exact count _
  · rw [summary.status2xx, summary.requestCount]
    exact count _
  · rw [summary.status3xx, summary.requestCount]
    exact count _
  · rw [summary.status4xx, summary.requestCount]
    exact count _
  · rw [summary.status5xx, summary.requestCount]
    exact count _
  · rw [summary.rateLimitedCount, summary.requestCount]
    exact count _
  · rw [summary.totalDurationMS]
    exact total (fun row member => (checked row member).duration.1)
  · obtain ⟨row, member, longest⟩ := summary.maxDurationMS.1
    rw [← longest]
    exact (checked row member).duration
  · rw [summary.totalResponseBytes]
    exact total (fun row member => (checked row member).bytes)

theorem statusClassCounts_range (code : Int) :
    (0 ≤ (statusClassCounts code).status1xx ∧ (statusClassCounts code).status1xx ≤ 1) ∧
    (0 ≤ (statusClassCounts code).status2xx ∧ (statusClassCounts code).status2xx ≤ 1) ∧
    (0 ≤ (statusClassCounts code).status3xx ∧ (statusClassCounts code).status3xx ≤ 1) ∧
    (0 ≤ (statusClassCounts code).status4xx ∧ (statusClassCounts code).status4xx ≤ 1) ∧
    (0 ≤ (statusClassCounts code).status5xx ∧ (statusClassCounts code).status5xx ≤ 1) := by
  unfold statusClassCounts
  split <;> simp

theorem countOk_iff {value : Int} : countOk value = true ↔ 0 ≤ value ∧ value ≤ int8Max := by
  simp [countOk]

theorem columnsOk_first (code duration bytes : Int) (limited : Bool)
    (durationOk : 0 ≤ duration ∧ duration ≤ int8Max) (bytesOk : 0 ≤ bytes ∧ bytes ≤ int8Max) :
    (Stats.first (increment code duration bytes limited)).columnsOk = true := by
  have counts := statusClassCounts_range code
  have room : (1 : Int) ≤ int8Max := by decide
  have rate : 0 ≤ (if limited then 1 else 0 : Int) ∧ (if limited then 1 else 0 : Int) ≤ 1 := by
    cases limited <;> simp
  simp only [Stats.columnsOk, Stats.first, increment, countOk_iff, Bool.and_eq_true]
  generalize (if limited then 1 else 0 : Int) = limitedCount at rate
  omega

/-- After the first event only the three growing totals can leave their range. -/
theorem columnsOk_add_iff {stats : Stats} (bounded : stats.Bounded) (code duration bytes : Int)
    (limited : Bool) (durationOk : 0 ≤ duration ∧ duration ≤ int8Max) (bytesOk : 0 ≤ bytes) :
    (stats.add (increment code duration bytes limited)).columnsOk = true ↔
      stats.requestCount + 1 ≤ int8Max ∧ stats.totalDurationMS + duration ≤ int8Max ∧
        stats.totalResponseBytes + bytes ≤ int8Max := by
  have counts := statusClassCounts_range code
  have rate : 0 ≤ (if limited then 1 else 0 : Int) ∧ (if limited then 1 else 0 : Int) ≤ 1 := by
    cases limited <;> simp
  obtain ⟨class1, class2, class3, class4, class5, limitedCount, total, longest, sum⟩ := bounded
  have greatest : 0 ≤ max stats.maxDurationMS duration ∧
      max stats.maxDurationMS duration ≤ int8Max := by
    omega
  simp only [Stats.columnsOk, Stats.add, StatusCounts.add, increment, countOk_iff, Bool.and_eq_true]
  generalize (if limited then 1 else 0 : Int) = limitedCount at rate
  generalize max stats.maxDurationMS duration = longestNow at greatest
  constructor
  · intro columns
    omega
  · intro room
    omega

theorem columnsOk_upserted_iff (valid : s.Valid platform) (checked : event.Checked)
    (decoded : Decoded event) (key : Key) :
    (upserted (s.stats key) (increment event.statusCode event.durationMS event.responseBytes
      event.rateLimited)).columnsOk = true ↔
      ∀ stats, s.stats key = some stats → stats.requestCount + 1 ≤ int8Max ∧
        stats.totalDurationMS + event.durationMS ≤ int8Max ∧
        stats.totalResponseBytes + event.responseBytes ≤ int8Max := by
  cases current : s.stats key with
  | none =>
    have first := columnsOk_first event.statusCode event.durationMS event.responseBytes
      event.rateLimited ⟨checked.duration, decoded.duration⟩ ⟨checked.bytes, decoded.bytes⟩
    simpa [upserted] using first
  | some stats =>
    have bounded := ((valid_summary valid key).2 stats current).bounded
      (fun row member => valid.checked row (List.mem_of_mem_filter member))
    simpa [upserted] using columnsOk_add_iff bounded event.statusCode event.durationMS
      event.responseBytes event.rateLimited ⟨checked.duration, decoded.duration⟩ checked.bytes

theorem upsertStats_isSome_iff (valid : s.Valid platform)
    (checked : event.Checked) (decoded : Decoded event) (zeroFree : ZeroFree event)
    (aggregated : shouldAggregate event = true) :
    (∃ stat, upsertStats platform s.stats event = some stat) ↔ StatsFit platform s event := by
  have columns := (@textColumns_iff platform event checked decoded).mpr zeroFree
  simp only [textColumns, List.mem_cons, List.not_mem_nil, or_false, forall_eq_or_imp, forall_eq]
    at columns
  obtain ⟨_, _, _, name, path, method, _⟩ := columns
  simp only [shouldAggregate, Bool.and_eq_true, bne_iff_ne, ne_eq] at aggregated
  obtain ⟨id, parsed⟩ := parse_canonical (checked.project.resolve_left aggregated.1.1)
  have located : statsKey platform event = some ⟨timestamp (truncate event.occurredAt hour), id,
      trimSpace event.routeName, trimSpace event.routePathPrefix,
      platform.toUpper (trimSpace event.method)⟩ := by
    rw [statsKey, parsed]
    rfl
  simp only [upsertStats, StatsFit, located, Option.bind_eq_bind, Option.bind_some,
    Option.ite_none_right_eq_some, exists_and_left, Option.some.injEq, exists_eq', and_true,
    (timestampOk_of_decoded decoded).2, name, path, method, true_and,
    columnsOk_upserted_iff valid checked decoded, forall_eq']

theorem storeGatewayAccess_isSome_iff (valid : s.Valid platform) (checked : event.Checked)
    (decoded : Decoded event) :
    (∃ outcome, storeGatewayAccess platform s event = some outcome) ↔ Storable platform s event := by
  have stats := upsertStats_isSome_iff valid checked decoded
  unfold storeGatewayAccess insertEvent
  cases built : eventRow platform event with
  | none =>
    have refused : ¬ ZeroFree event := by
      rw [← @eventRow_isSome_iff platform event checked decoded, built]
      simp
    constructor
    · simp
    · intro storable
      exact absurd storable.zeroFree refused
  | some row =>
    have zeroFree := (eventRow_isSome_iff checked decoded).mp ⟨row, built⟩
    have id : row.eventID = event.eventID := (eventRow_represents built).id
    have fits := indexed_iff built
    by_cases known : ∃ stored ∈ s.events, stored.eventID = row.eventID
    · obtain ⟨stored, member, same⟩ := known
      have repeated : ∃ stored ∈ s.events, stored.eventID = row.eventID := ⟨stored, member, same⟩
      have present : ¬ ∀ stored ∈ s.events, stored.eventID ≠ event.eventID :=
        fun fresh => fresh stored member (same.trans id)
      simp only [if_pos repeated]
      exact ⟨fun _ => ⟨zeroFree, fun fresh => absurd fresh present, fun fresh => absurd fresh present⟩,
        fun _ => ⟨_, rfl⟩⟩
    · have fresh : ∀ stored ∈ s.events, stored.eventID ≠ event.eventID := by
        intro stored member same
        exact known ⟨stored, member, same.trans id.symm⟩
      simp only [if_neg known]
      cases indexed : row.indexed platform with
      | false =>
        simp only [if_true]
        constructor
        · simp
        · intro storable
          rw [fits.mpr (storable.indexed fresh)] at indexed
          contradiction
      | true =>
        simp only [Bool.true_eq_false, if_false]
        have entries := fits.mp indexed
        cases aggregated : shouldAggregate event with
        | false =>
          simp only [if_true]
          exact ⟨fun _ => ⟨zeroFree, fun _ => entries, by simp [aggregated]⟩, fun _ => ⟨_, rfl⟩⟩
        | true =>
          simp only [Bool.true_eq_false, if_false]
          have room := stats zeroFree aggregated
          constructor
          · intro stored
            refine ⟨zeroFree, fun _ => entries, fun _ _ => room.mp ?_⟩
            split at stored
            · simp at stored
            · exact ⟨_, ‹_›⟩
          · intro storable
            obtain ⟨stat, counted⟩ := room.mpr (storable.counted fresh aggregated)
            rw [counted]
            exact ⟨_, rfl⟩

/-- With the database and the broker available, a record whose payload decodes to a
valid event is committed exactly when the event is storable in the tables that the
consumer meets; otherwise every attempt, and every later delivery, fails. -/
theorem record_committed_iff_storable (platform : Platform) (config : Config) (positive : 0 < config.maxProcessAttempts)
    (unmarshal : Str → Option GatewayAccessEvent)
    (decodes : ∀ payload event, unmarshal payload = some event → Decoded event)
    {actions : List Action} {s : Store}
    (path : Transition.run (step platform) Store.empty actions = some s)
    {payload : Str} {event : GatewayAccessEvent}
    (accepted : decodeGatewayAccessEvent unmarshal payload = some event) :
    ((∃ outcome, storeGatewayAccess platform s event = some outcome) ↔ Storable platform s event) ∧
    (handleRecord config unmarshal (available platform s) true payload = .ok () ↔
      Storable platform s event) := by
  have stored : (∃ outcome, storeGatewayAccess platform s event = some outcome) ↔
      Storable platform s event := by
    unfold decodeGatewayAccessEvent at accepted
    split at accepted
    · contradiction
    · rename_i found decoded
      split at accepted
      · contradiction
      · rename_i valid
        cases accepted
        exact storeGatewayAccess_isSome_iff (run_valid path) (validate_checked valid)
          (decodes payload event decoded)
  refine ⟨stored, ?_⟩
  rw [handleRecord_available_iff config positive accepted, stored]

/-- The JSON of `sampleEvent` with a given text for its request path. -/
def samplePayload (path : Str) : Str :=
  lit "\x7b\"schema_version\":1,\"event_id\":\"a\"," ++
    lit "\"occurred_at\":\"2023-11-14T22:13:20Z\",\"request_id\":\"request\"," ++
    lit "\"project_id\":\"01010101-0101-0101-0101-010101010101\"," ++
    lit "\"route_name\":\"orders\",\"route_path_prefix\":\"/orders\",\"method\":\" get\"," ++
    lit "\"request_path\":\"" ++ path ++
    lit "\",\"status_code\":200,\"duration_ms\":40,\"response_bytes\":512," ++
    lit "\"client_type\":\"ip\",\"client_id\":\"10.0.0.1\",\"auth_required\":false," ++
    lit "\"rate_limit_enabled\":false,\"rate_limited\":false\x7d"

def sampleRecord (path : Str) : GatewayAccessEvent :=
  { sampleEvent (lit "a") 40 with requestPath := path }

/-- `json.Unmarshal` on the two records below. -/
def sampleUnmarshal (payload : Str) : Option GatewayAccessEvent :=
  if payload = samplePayload (lit "/orders/7") then some (sampleRecord (lit "/orders/7"))
  else if payload = samplePayload (lit "/orders/\\u0000") then some (sampleRecord (lit "/orders/" ++ [0]))
  else none

def sampleConfig : Config := ⟨second, 30 * second, 3⟩

theorem sampleRecord_decoded {path : Str} (valid : validUtf8 path = true) :
    Decoded (sampleRecord path) := by
  have duration : (40 : Int) ≤ int8Max := by decide
  have bytes : (512 : Int) ≤ int8Max := by decide
  have instant : -62167305600 * second ≤ 1700000000 * second ∧
      1700000000 * second < 253402387200 * second := by decide
  refine ⟨?_, duration, bytes, instant⟩
  simp only [sampleRecord, sampleEvent, List.mem_cons, List.not_mem_nil, or_false, forall_eq_or_imp,
    forall_eq, valid, true_and]
  decide

theorem sample_record_is_committed :
    handleRecord sampleConfig sampleUnmarshal (available asciiPlatform Store.empty) true
      (samplePayload (lit "/orders/7")) = .ok () ∧
    Storable asciiPlatform Store.empty (sampleRecord (lit "/orders/7")) := by
  have committed : handleRecord sampleConfig sampleUnmarshal (available asciiPlatform Store.empty) true
      (samplePayload (lit "/orders/7")) = .ok () := by decide +kernel
  have decodes : ∀ payload event, sampleUnmarshal payload = some event → Decoded event := by
    intro payload event decoded
    unfold sampleUnmarshal at decoded
    by_cases plain : payload = samplePayload (lit "/orders/7")
    · rw [if_pos plain] at decoded
      rw [← Option.some.inj decoded]
      exact sampleRecord_decoded (by decide)
    · rw [if_neg plain] at decoded
      by_cases zero : payload = samplePayload (lit "/orders/\\u0000")
      · rw [if_pos zero] at decoded
        rw [← Option.some.inj decoded]
        exact sampleRecord_decoded (by decide)
      · rw [if_neg zero] at decoded
        cases decoded
  have stored := record_committed_iff_storable asciiPlatform sampleConfig (by decide)
    sampleUnmarshal decodes (rfl : Transition.run (step asciiPlatform) Store.empty [] = some Store.empty)
    (by decide +kernel : decodeGatewayAccessEvent sampleUnmarshal (samplePayload (lit "/orders/7")) =
      some (sampleRecord (lit "/orders/7")))
  exact ⟨committed, stored.2.mp committed⟩

/-- A request path with the character U+0000 is valid JSON and passes `Validate`, and
no attempt can store it. -/
theorem zero_byte_stops_the_consumer :
    decodeGatewayAccessEvent sampleUnmarshal (samplePayload (lit "/orders/\\u0000")) =
      some (sampleRecord (lit "/orders/" ++ [0])) ∧
    handleRecord sampleConfig sampleUnmarshal (available asciiPlatform Store.empty) true
      (samplePayload (lit "/orders/\\u0000")) = .error (.retry (.exhausted 3)) := by
  decide +kernel

end EdgeGuard.Analytics
