import EdgeGuard.Analytics.Store
import Mathlib.Order.Bounds.Basic
import Mathlib.Data.List.Nodup
import Mathlib.Data.List.Pairwise
import Mathlib.Algebra.BigOperators.Group.List.Basic

/-! The hourly statistics are a function of the stored events: in every committed
state of every interleaving each statistics row summarizes exactly the events with
its key. -/
namespace EdgeGuard.Analytics
open Go Postgres

/-- The statistics key of a stored event; a row without project, route name or
prefix is not aggregated. -/
def EventRow.key (row : EventRow) : Option Key :=
  match row.projectID, row.routeName, row.routePathPrefix with
  | some projectID, some routeName, some routePathPrefix =>
    some ⟨truncate row.occurredAt hour, projectID, routeName, routePathPrefix, row.method⟩
  | _, _, _ => none

/-- The stored events that belong to a statistics row. -/
def rowsFor (events : List EventRow) (key : Key) : List EventRow :=
  events.filter (fun row => row.key = some key)

/-- What the `CHECK` constraints and the column types say about a stored event. -/
structure EventRow.Checked (row : EventRow) : Prop where
  status : 100 ≤ row.statusCode ∧ row.statusCode ≤ 599
  duration : 0 ≤ row.durationMS ∧ row.durationMS ≤ int8Max
  bytes : 0 ≤ row.responseBytes

/-- The status code is in the class of hundreds `n`. -/
def EventRow.inClass (n : Int) (row : EventRow) : Bool :=
  100 * n ≤ row.statusCode && row.statusCode < 100 * (n + 1)

/-- Each column of a statistics row is the count, sum or maximum it is named
after. -/
structure Summarizes (stats : Stats) (rows : List EventRow) : Prop where
  requestCount : stats.requestCount = rows.length
  status1xx : stats.status.status1xx = rows.countP (·.inClass 1)
  status2xx : stats.status.status2xx = rows.countP (·.inClass 2)
  status3xx : stats.status.status3xx = rows.countP (·.inClass 3)
  status4xx : stats.status.status4xx = rows.countP (·.inClass 4)
  status5xx : stats.status.status5xx = rows.countP (·.inClass 5)
  classes : stats.status.status1xx + stats.status.status2xx + stats.status.status3xx +
    stats.status.status4xx + stats.status.status5xx = stats.requestCount
  rateLimitedCount : stats.rateLimitedCount = rows.countP (·.rateLimited)
  totalDurationMS : stats.totalDurationMS = (rows.map (·.durationMS)).sum
  maxDurationMS : IsGreatest {duration | ∃ row ∈ rows, row.durationMS = duration} stats.maxDurationMS
  totalResponseBytes : stats.totalResponseBytes = (rows.map (·.responseBytes)).sum

/-- A summary determines its columns, whatever the order of the events. -/
theorem Summarizes.unique {left right : Stats} {a b : List EventRow} (first : Summarizes left a)
    (second : Summarizes right b) (same : a.Perm b) : left = right := by
  apply Stats.ext
  · rw [first.requestCount, second.requestCount, same.length_eq]
  · apply StatusCounts.ext
    · rw [first.status1xx, second.status1xx, same.countP_eq]
    · rw [first.status2xx, second.status2xx, same.countP_eq]
    · rw [first.status3xx, second.status3xx, same.countP_eq]
    · rw [first.status4xx, second.status4xx, same.countP_eq]
    · rw [first.status5xx, second.status5xx, same.countP_eq]
  · rw [first.rateLimitedCount, second.rateLimitedCount, same.countP_eq]
  · rw [first.totalDurationMS, second.totalDurationMS, (same.map _).sum_eq]
  · apply first.maxDurationMS.unique
    simpa only [same.mem_iff] using second.maxDurationMS
  · rw [first.totalResponseBytes, second.totalResponseBytes, (same.map _).sum_eq]

def EventRow.increment (row : EventRow) : Increment :=
  Analytics.increment row.statusCode row.durationMS row.responseBytes row.rateLimited

theorem statusClassCounts_class {row : EventRow} (checked : row.Checked) :
    statusClassCounts row.statusCode =
      ⟨if row.inClass 1 then 1 else 0, if row.inClass 2 then 1 else 0, if row.inClass 3 then 1 else 0,
        if row.inClass 4 then 1 else 0, if row.inClass 5 then 1 else 0⟩ ∧
    (statusClassCounts row.statusCode).status1xx + (statusClassCounts row.statusCode).status2xx +
      (statusClassCounts row.statusCode).status3xx + (statusClassCounts row.statusCode).status4xx +
      (statusClassCounts row.statusCode).status5xx = 1 := by
  obtain ⟨low, high⟩ := checked.status
  have quotient : row.statusCode.tdiv 100 = row.statusCode / 100 :=
    Int.tdiv_eq_ediv_of_nonneg (by omega)
  have classOf (n : Int) : row.inClass n = decide (row.statusCode / 100 = n) := by
    rw [EventRow.inClass, ← Bool.decide_and, decide_eq_decide]
    omega
  have bounds : 1 ≤ row.statusCode / 100 ∧ row.statusCode / 100 ≤ 5 := by omega
  simp only [statusClassCounts, quotient, classOf]
  generalize row.statusCode / 100 = n at bounds
  obtain rfl | rfl | rfl | rfl | rfl : n = 1 ∨ n = 2 ∨ n = 3 ∨ n = 4 ∨ n = 5 := by omega
  all_goals exact ⟨rfl, rfl⟩

theorem Summarizes.first {row : EventRow} (checked : row.Checked) :
    Summarizes (.first row.increment) [row] := by
  obtain ⟨counts, one⟩ := statusClassCounts_class checked
  constructor
  · rfl
  · simp [Stats.first, EventRow.increment, increment, counts, List.countP_singleton]
  · simp [Stats.first, EventRow.increment, increment, counts, List.countP_singleton]
  · simp [Stats.first, EventRow.increment, increment, counts, List.countP_singleton]
  · simp [Stats.first, EventRow.increment, increment, counts, List.countP_singleton]
  · simp [Stats.first, EventRow.increment, increment, counts, List.countP_singleton]
  · exact one
  · simp [Stats.first, EventRow.increment, increment, List.countP_singleton]
  · simp [Stats.first, EventRow.increment, increment]
  · simp [Stats.first, EventRow.increment, increment, IsGreatest, upperBounds]
  · simp [Stats.first, EventRow.increment, increment]

theorem Summarizes.add {stats : Stats} {rows : List EventRow} {row : EventRow}
    (summary : Summarizes stats rows) (checked : row.Checked) :
    Summarizes (stats.add row.increment) (rows ++ [row]) := by
  have single := Summarizes.first checked
  constructor
  · simp [Stats.add, summary.requestCount]
  · rw [List.countP_append, Nat.cast_add, ← summary.status1xx, ← single.status1xx]
    rfl
  · rw [List.countP_append, Nat.cast_add, ← summary.status2xx, ← single.status2xx]
    rfl
  · rw [List.countP_append, Nat.cast_add, ← summary.status3xx, ← single.status3xx]
    rfl
  · rw [List.countP_append, Nat.cast_add, ← summary.status4xx, ← single.status4xx]
    rfl
  · rw [List.countP_append, Nat.cast_add, ← summary.status5xx, ← single.status5xx]
    rfl
  · have before := summary.classes
    have after := single.classes
    simp only [Stats.add, StatusCounts.add, Stats.first] at after ⊢
    omega
  · rw [List.countP_append, Nat.cast_add, ← summary.rateLimitedCount, ← single.rateLimitedCount]
    rfl
  · rw [List.map_append, List.sum_append, ← summary.totalDurationMS, ← single.totalDurationMS]
    rfl
  · have both : {duration | ∃ other ∈ rows ++ [row], other.durationMS = duration} =
        {duration | ∃ other ∈ rows, other.durationMS = duration} ∪
          {duration | ∃ other ∈ [row], other.durationMS = duration} := by
      ext duration
      simp only [List.mem_append, Set.mem_ofPred_eq, Set.mem_union, or_and_right, exists_or]
    rw [both]
    exact summary.maxDurationMS.union single.maxDurationMS
  · rw [List.map_append, List.sum_append, ← summary.totalResponseBytes, ← single.totalResponseBytes]
    rfl

/-- The statistics after one more event. -/
def record (stats : Key → Option Stats) (row : EventRow) : Key → Option Stats :=
  match row.key with
  | none => stats
  | some key => Function.update stats key (some (upserted (stats key) row.increment))

def recorded (events : List EventRow) : Key → Option Stats := events.foldl record (fun _ => none)

theorem recorded_append (events : List EventRow) (row : EventRow) :
    recorded (events ++ [row]) = record (recorded events) row := by
  simp [recorded]

/-- A statistics row of the fold exists exactly when events have its key, and
summarizes them. -/
theorem recorded_summarizes {events : List EventRow}
    (checked : ∀ row ∈ events, row.Checked) (key : Key) :
    (recorded events key = none ↔ rowsFor events key = []) ∧
      ∀ stats, recorded events key = some stats → Summarizes stats (rowsFor events key) := by
  induction events using List.reverseRecOn with
  | nil => simp [recorded, rowsFor]
  | append_singleton events row ih =>
    obtain ⟨absent, summary⟩ := ih (fun other member => checked other (by simp [member]))
    have own := checked row (by simp)
    rw [recorded_append]
    by_cases counted : row.key = some key
    · have grown : rowsFor (events ++ [row]) key = rowsFor events key ++ [row] := by
        simp [rowsFor, counted]
      have updated : record (recorded events) row key =
          some (upserted (recorded events key) row.increment) := by
        simp [record, counted]
      rw [grown, updated]
      refine ⟨by simp, ?_⟩
      rintro stats ⟨⟩
      cases before : recorded events key with
      | none =>
        rw [absent.mp before]
        exact Summarizes.first own
      | some stats => exact (summary stats before).add own
    · have kept : rowsFor (events ++ [row]) key = rowsFor events key := by
        simp [rowsFor, counted]
      have same : record (recorded events) row key = recorded events key := by
        unfold record
        cases other : row.key with
        | none => rfl
        | some different =>
          have apart : key ≠ different := fun equal => counted (equal ▸ other)
          exact Function.update_of_ne apart _ _
      rw [kept, same]
      exact ⟨absent, summary⟩

variable {platform : Platform}

theorem timestamp_truncate_hour (t : Time) :
    timestamp (truncate t hour) = truncate (timestamp t) hour := by
  have floors (n : Int) : n / 3600000000000 * 3600000000000 / 1000 * 1000 =
      n / 1000 * 1000 / 3600000000000 * 3600000000000 := by omega
  exact floors t

/-- What the insert keeps of an event. The key that the upsert computes from the
event is the key of the stored row. -/
structure Represents (platform : Platform) (event : GatewayAccessEvent) (row : EventRow) : Prop where
  id : row.eventID = event.eventID
  checked : row.Checked
  increment : row.increment =
    Analytics.increment event.statusCode event.durationMS event.responseBytes event.rateLimited
  aggregated : shouldAggregate event = true → row.key = statsKey platform event
  ignored : shouldAggregate event = false → row.key = none

theorem eventRow_represents {event : GatewayAccessEvent} {row : EventRow}
    (built : eventRow platform event = some row) : Represents platform event row := by
  simp only [eventRow, Option.bind_eq_bind, Option.bind_eq_some_iff, Option.ite_none_right_eq_some,
    Option.some.injEq] at built
  obtain ⟨projectID, cast, ⟨_, _, _, _, _, low, high, range, duration, _, bytes, _⟩, rfl⟩ := built
  simp only [int8Ok, Bool.and_eq_true, decide_eq_true_eq] at range
  refine ⟨rfl, ⟨⟨low, high⟩, ⟨duration, range.2⟩, bytes⟩, rfl, ?_, ?_⟩
  · intro aggregated
    simp only [shouldAggregate, Bool.and_eq_true, bne_iff_ne, ne_eq] at aggregated
    obtain ⟨⟨project, name⟩, path⟩ := aggregated
    simp only [castProject, if_neg project, Option.map_eq_some_iff] at cast
    obtain ⟨id, parsed, rfl⟩ := cast
    simp only [EventRow.key, nullIf, if_neg name, if_neg path, statsKey, parsed, Option.map_some,
      timestamp_truncate_hour]
  · intro ignored
    simp only [shouldAggregate, Bool.and_eq_false_iff, bne_eq_false_iff_eq] at ignored
    rcases ignored with (project | name) | path
    · simp only [castProject, if_pos project, Option.some.injEq] at cast
      subst cast
      rfl
    · simp [EventRow.key, nullIf, name]
    · simp [EventRow.key, nullIf, path]

/-- Two open transactions hold different identifiers and statistics rows. -/
structure Apart (a b : Tx) : Prop where
  session : a.session ≠ b.session
  row : ∀ left right, a.row = some left → b.row = some right → left.eventID ≠ right.eventID
  stat : ∀ left right, a.stat = some left → b.stat = some right → left.1 ≠ right.1

instance : Std.Symm Apart where
  symm _ _ apart := ⟨apart.session.symm, fun left right l r => (apart.row right left r l).symm,
    fun left right l r => (apart.stat right left r l).symm⟩

/-- The uncommitted writes of a transaction fit the committed tables. -/
structure Tx.Pending (platform : Platform) (events : List EventRow) (stats : Key → Option Stats)
    (tx : Tx) : Prop where
  built : ∀ row, tx.row = some row → eventRow platform tx.event = some row
  fresh : ∀ row, tx.row = some row → ∀ stored ∈ events, stored.eventID ≠ row.eventID
  counted : ∀ key value, tx.stat = some (key, value) →
    ∃ row, tx.row = some row ∧ row.key = some key ∧ value = upserted (stats key) row.increment

structure Store.Valid (platform : Platform) (s : Store) : Prop where
  folded : s.stats = recorded s.events
  checked : ∀ row ∈ s.events, row.Checked
  distinct : (s.events.map (·.eventID)).Nodup
  pending : ∀ tx ∈ s.active, tx.Pending platform s.events s.stats
  apart : s.active.Pairwise Apart

theorem Store.valid_empty (platform : Platform) : Store.empty.Valid platform :=
  ⟨rfl, by simp [empty], by simp [empty], by simp [empty], List.Pairwise.nil⟩

variable {s t : Store}

inductive StoreEffect (platform : Platform) (s : Store) : Action → Store → Prop
  | begin (session : Nat) (event : GatewayAccessEvent) (free : ∀ tx ∈ s.active, tx.session ≠ session) :
      StoreEffect platform s (.begin session event)
        { s with active := ⟨session, event, none, none⟩ :: s.active }
  | close (action : Action) (session : Nat) : StoreEffect platform s action (s.close session)
  | insert (tx : Tx) (row : EventRow) (member : tx ∈ s.active) (first : tx.row = none)
      (built : eventRow platform tx.event = some row)
      (fresh : ∀ stored ∈ s.events, stored.eventID ≠ row.eventID)
      (unlocked : ∀ other ∈ s.others tx.session, other.row.map (·.eventID) ≠ some row.eventID) :
      StoreEffect platform s (.insert tx.session)
        { s with active := { tx with row := some row } :: s.others tx.session }
  | upsert (tx : Tx) (row : EventRow) (key : Key) (member : tx ∈ s.active)
      (inserted : tx.row = some row) (aggregated : shouldAggregate tx.event = true)
      (located : statsKey platform tx.event = some key)
      (unlocked : ∀ other ∈ s.others tx.session, other.stat.map Prod.fst ≠ some key) :
      StoreEffect platform s (.upsert tx.session) { s with active :=
        { tx with stat := some (key, upserted (s.stats key) (Analytics.increment tx.event.statusCode
          tx.event.durationMS tx.event.responseBytes tx.event.rateLimited)) } :: s.others tx.session }
  | commit (tx : Tx) (row : EventRow) (member : tx ∈ s.active) (inserted : tx.row = some row)
      (complete : shouldAggregate tx.event = true → tx.stat ≠ none) :
      StoreEffect platform s (.commit tx.session)
        ⟨s.events ++ [row], publish s.stats tx.stat, s.others tx.session⟩

theorem find_spec {session : Nat} {tx : Tx} (found : s.find session = some tx) :
    tx ∈ s.active ∧ tx.session = session :=
  ⟨List.mem_of_find?_eq_some found, by simpa using List.find?_some found⟩

theorem insertEvent_inserted {events : List EventRow} {event : GatewayAccessEvent} {row : EventRow}
    (outcome : insertEvent platform events event = .inserted row) :
    eventRow platform event = some row ∧ (∀ stored ∈ events, stored.eventID ≠ row.eventID) ∧
      row.indexed platform = true := by
  unfold insertEvent at outcome
  split at outcome
  · contradiction
  · split at outcome
    · contradiction
    · rename_i _ built fresh
      split at outcome
      · contradiction
      · rename_i indexed
        cases outcome
        exact ⟨built, fun stored present same => fresh ⟨stored, present, same⟩, by simpa using indexed⟩

theorem step_effect {action : Action} (stepped : step platform s action = some t) :
    StoreEffect platform s action t := by
  cases action with
  | begin session event =>
    simp only [step, Option.ite_none_right_eq_some, Option.some.injEq] at stepped
    obtain ⟨⟨_, free⟩, rfl⟩ := stepped
    exact .begin session event free
  | insert session =>
    simp only [step, Option.bind_eq_bind, Option.bind_eq_some_iff] at stepped
    obtain ⟨tx, found, stepped⟩ := stepped
    obtain ⟨member, rfl⟩ := find_spec found
    split at stepped
    · contradiction
    rename_i first
    split at stepped
    · cases stepped
      exact .close _ _
    · cases stepped
      exact .close _ _
    · simp only [Option.ite_none_right_eq_some, Option.some.injEq] at stepped
      obtain ⟨_, rfl⟩ := stepped
      exact .close _ _
    · rename_i row outcome
      simp only [Option.ite_none_right_eq_some, Option.some.injEq] at stepped
      obtain ⟨unlocked, rfl⟩ := stepped
      obtain ⟨built, fresh, _⟩ := insertEvent_inserted outcome
      exact .insert tx row member (by simpa using first) built fresh unlocked
  | upsert session =>
    simp only [step, Option.bind_eq_bind, Option.bind_eq_some_iff] at stepped
    obtain ⟨tx, found, stepped⟩ := stepped
    obtain ⟨member, rfl⟩ := find_spec found
    split at stepped
    · contradiction
    rename_i ready
    simp only [not_or, Bool.not_eq_true, Option.isNone_eq_false_iff, Bool.not_eq_false] at ready
    obtain ⟨inserted, _, aggregated⟩ := ready
    obtain ⟨row, inserted⟩ := Option.isSome_iff_exists.mp inserted
    split at stepped
    · cases stepped
      exact .close _ _
    · rename_i key value outcome
      simp only [Option.ite_none_right_eq_some, Option.some.injEq] at stepped
      obtain ⟨unlocked, rfl⟩ := stepped
      simp only [upsertStats, Option.bind_eq_bind, Option.bind_eq_some_iff,
        Option.ite_none_right_eq_some, Option.some.injEq, Prod.mk.injEq] at outcome
      obtain ⟨_, located, _, rfl, rfl⟩ := outcome
      exact .upsert tx row _ member inserted aggregated located unlocked
  | commit session =>
    simp only [step, Option.bind_eq_bind, Option.bind_eq_some_iff] at stepped
    obtain ⟨tx, found, row, inserted, stepped⟩ := stepped
    obtain ⟨member, rfl⟩ := find_spec found
    split at stepped
    · contradiction
    · rename_i complete
      cases stepped
      exact .commit tx row member inserted (fun aggregated none => complete ⟨aggregated, none⟩)
  | abort session =>
    simp only [step, Option.map_eq_some_iff] at stepped
    obtain ⟨_, _, rfl⟩ := stepped
    exact .close _ session

theorem mem_others {session : Nat} {tx : Tx} :
    tx ∈ s.others session ↔ tx ∈ s.active ∧ tx.session ≠ session := by
  simp [Store.others]

theorem Store.Valid.others_apart (valid : s.Valid platform) {tx other : Tx} (member : tx ∈ s.active)
    (rest : other ∈ s.others tx.session) : Apart tx other := by
  obtain ⟨present, different⟩ := mem_others.mp rest
  refine valid.apart.forall member present ?_
  rintro rfl
  exact different rfl

/-- The remaining transactions keep their invariants, and a changed one joins
them. -/
theorem Store.Valid.replace (valid : s.Valid platform) {tx changed : Tx}
    (pending : changed.Pending platform s.events s.stats)
    (apart : ∀ other ∈ s.others tx.session, Apart changed other) :
    ({ s with active := changed :: s.others tx.session } : Store).Valid platform := by
  refine ⟨valid.folded, valid.checked, valid.distinct, ?_, ?_⟩
  · intro other member
    rcases List.mem_cons.mp member with rfl | rest
    · exact pending
    · exact valid.pending other (mem_others.mp rest).1
  · exact List.Pairwise.cons apart (valid.apart.filter _)

theorem valid_begin (valid : s.Valid platform) (session : Nat) (event : GatewayAccessEvent)
    (free : ∀ tx ∈ s.active, tx.session ≠ session) :
    ({ s with active := ⟨session, event, none, none⟩ :: s.active } : Store).Valid platform := by
  refine ⟨valid.folded, valid.checked, valid.distinct, ?_, ?_⟩
  · intro tx member
    rcases List.mem_cons.mp member with rfl | rest
    · exact ⟨by simp, by simp, by simp⟩
    · exact valid.pending tx rest
  · refine List.Pairwise.cons ?_ valid.apart
    intro tx member
    exact ⟨(free tx member).symm, by simp, by simp⟩

theorem valid_close (valid : s.Valid platform) (session : Nat) : (s.close session).Valid platform :=
  ⟨valid.folded, valid.checked, valid.distinct,
    fun tx member => valid.pending tx (mem_others.mp member).1, valid.apart.filter _⟩

theorem valid_insert (valid : s.Valid platform) {tx : Tx} {row : EventRow} (member : tx ∈ s.active)
    (first : tx.row = none) (built : eventRow platform tx.event = some row)
    (fresh : ∀ stored ∈ s.events, stored.eventID ≠ row.eventID)
    (unlocked : ∀ other ∈ s.others tx.session, other.row.map (·.eventID) ≠ some row.eventID) :
    ({ s with active := { tx with row := some row } :: s.others tx.session } : Store).Valid
      platform := by
  apply valid.replace
  · refine ⟨?_, ?_, ?_⟩
    · rintro _ ⟨⟩
      exact built
    · rintro _ ⟨⟩
      exact fresh
    · intro key value counted
      obtain ⟨other, inserted, _⟩ := (valid.pending tx member).counted key value counted
      rw [first] at inserted
      contradiction
  · intro other rest
    have apart := valid.others_apart member rest
    refine ⟨apart.session, ?_, apart.stat⟩
    rintro _ right ⟨⟩ held same
    apply unlocked other rest
    rw [held, same]
    rfl

theorem valid_upsert (valid : s.Valid platform) {tx : Tx} {row : EventRow} {key : Key}
    (member : tx ∈ s.active) (inserted : tx.row = some row)
    (aggregated : shouldAggregate tx.event = true) (located : statsKey platform tx.event = some key)
    (unlocked : ∀ other ∈ s.others tx.session, other.stat.map Prod.fst ≠ some key) :
    ({ s with active := { tx with stat := some (key, upserted (s.stats key)
      (increment tx.event.statusCode tx.event.durationMS tx.event.responseBytes
        tx.event.rateLimited)) } :: s.others tx.session } : Store).Valid platform := by
  have pending := valid.pending tx member
  have represents := eventRow_represents (pending.built row inserted)
  apply valid.replace
  · refine ⟨pending.built, pending.fresh, ?_⟩
    rintro _ _ ⟨⟩
    refine ⟨row, inserted, ?_, ?_⟩
    · rw [represents.aggregated aggregated, located]
    · rw [represents.increment]
  · intro other rest
    have apart := valid.others_apart member rest
    refine ⟨apart.session, apart.row, ?_⟩
    rintro _ right ⟨⟩ held same
    apply unlocked other rest
    rw [held, Option.map_some]
    exact congrArg some same.symm

/-- The pending statistics row is the fold's next value, because nobody else could
change it meanwhile. -/
theorem publish_eq_record (valid : s.Valid platform) {tx : Tx} {row : EventRow}
    (member : tx ∈ s.active) (inserted : tx.row = some row)
    (complete : shouldAggregate tx.event = true → tx.stat ≠ none) :
    publish s.stats tx.stat = record s.stats row := by
  have pending := valid.pending tx member
  have represents := eventRow_represents (pending.built row inserted)
  cases held : tx.stat with
  | none =>
    cases aggregated : shouldAggregate tx.event with
    | true => exact absurd held (complete aggregated)
    | false => simp only [publish, record, represents.ignored aggregated]
  | some stat =>
    obtain ⟨key, value⟩ := stat
    obtain ⟨own, same, located, rfl⟩ := pending.counted key value held
    rw [inserted] at same
    cases same
    simp only [publish, record, located]

theorem valid_commit (valid : s.Valid platform) {tx : Tx} {row : EventRow}
    (member : tx ∈ s.active) (inserted : tx.row = some row)
    (complete : shouldAggregate tx.event = true → tx.stat ≠ none) :
    (⟨s.events ++ [row], publish s.stats tx.stat, s.others tx.session⟩ : Store).Valid platform := by
  have pending := valid.pending tx member
  refine ⟨?_, ?_, ?_, ?_, valid.apart.filter _⟩
  · rw [recorded_append, ← valid.folded]
    exact publish_eq_record valid member inserted complete
  · intro stored present
    rcases List.mem_append.mp present with old | new
    · exact valid.checked stored old
    · cases List.mem_singleton.mp new
      exact (eventRow_represents (pending.built row inserted)).checked
  · exact Postgres.unique_insert.mpr ⟨valid.distinct, pending.fresh row inserted⟩
  · intro other rest
    have apart := valid.others_apart member rest
    have before := valid.pending other (mem_others.mp rest).1
    refine ⟨before.built, ?_, ?_⟩
    · intro held holds stored present
      rcases List.mem_append.mp present with old | new
      · exact before.fresh held holds stored old
      · cases List.mem_singleton.mp new
        exact apart.row row held inserted holds
    · intro key value holds
      obtain ⟨own, inserted, located, counted⟩ := before.counted key value holds
      refine ⟨own, inserted, located, ?_⟩
      rw [counted]
      cases mine : tx.stat with
      | none => rfl
      | some stat =>
        have different := (apart.stat stat (key, value) mine holds).symm
        simp only [publish, Function.update_of_ne different]

theorem step_valid {action : Action} (valid : s.Valid platform)
    (stepped : step platform s action = some t) : t.Valid platform := by
  cases step_effect stepped with
  | begin session event free => exact valid_begin valid session event free
  | close _ session => exact valid_close valid session
  | insert tx row member first built fresh unlocked =>
    exact valid_insert valid member first built fresh unlocked
  | upsert tx row key member inserted aggregated located unlocked =>
    exact valid_upsert valid member inserted aggregated located unlocked
  | commit tx row member inserted complete => exact valid_commit valid member inserted complete

/-- The events that a run hands to `StoreGatewayAccess`, once for each delivery. -/
def delivered (actions : List Action) : List GatewayAccessEvent :=
  actions.filterMap (fun action => match action with
    | .begin _ event => some event
    | _ => none)

/-- Open transactions and stored rows are those of events with a property. -/
structure Store.Within (platform : Platform) (P : GatewayAccessEvent → Prop) (s : Store) : Prop where
  active : ∀ tx ∈ s.active, P tx.event
  stored : ∀ row ∈ s.events, ∃ event, P event ∧ eventRow platform event = some row

theorem Store.Within.mono {P Q : GatewayAccessEvent → Prop} (within : s.Within platform P)
    (kept : ∀ event, P event → Q event) : s.Within platform Q where
  active := fun tx member => kept tx.event (within.active tx member)
  stored := by
    intro row member
    obtain ⟨event, holds, built⟩ := within.stored row member
    exact ⟨event, kept event holds, built⟩

theorem Store.Within.close {P : GatewayAccessEvent → Prop} (within : s.Within platform P) (session : Nat) :
    (s.close session).Within platform P :=
  ⟨fun tx member => within.active tx (mem_others.mp member).1, within.stored⟩

theorem step_within {P : GatewayAccessEvent → Prop} {action : Action}
    (opened : ∀ session event, action = .begin session event → P event) (valid : s.Valid platform)
    (within : s.Within platform P) (stepped : step platform s action = some t) : t.Within platform P := by
  cases step_effect stepped with
  | begin session event free =>
    refine ⟨?_, within.stored⟩
    intro tx member
    rcases List.mem_cons.mp member with rfl | rest
    · exact opened session event rfl
    · exact within.active tx rest
  | close _ session => exact within.close session
  | insert tx row member first built fresh unlocked =>
    refine ⟨?_, within.stored⟩
    intro other present
    rcases List.mem_cons.mp present with rfl | rest
    · exact within.active tx member
    · exact within.active other (mem_others.mp rest).1
  | upsert tx row key member inserted aggregated located unlocked =>
    refine ⟨?_, within.stored⟩
    intro other present
    rcases List.mem_cons.mp present with rfl | rest
    · exact within.active tx member
    · exact within.active other (mem_others.mp rest).1
  | commit tx row member inserted complete =>
    refine ⟨fun other rest => within.active other (mem_others.mp rest).1, ?_⟩
    intro stored present
    rcases List.mem_append.mp present with old | new
    · exact within.stored stored old
    · cases List.mem_singleton.mp new
      exact ⟨tx.event, within.active tx member, (valid.pending tx member).built row inserted⟩

theorem run_valid {actions : List Action}
    (path : Transition.run (step platform) Store.empty actions = some s) : s.Valid platform :=
  Transition.run_invariant step_valid path (Store.valid_empty platform)

theorem stored_delivered {actions : List Action}
    (path : Transition.run (step platform) Store.empty actions = some s) :
    ∀ row ∈ s.events, ∃ event ∈ delivered actions, eventRow platform event = some row := by
  have supplied : ∀ (_ : Store), ∀ action ∈ actions, ∀ session event, action = .begin session event →
      event ∈ delivered actions := by
    rintro _ _ member session event rfl
    exact List.mem_filterMap.mpr ⟨.begin session event, member, rfl⟩
  have initial : Store.empty.Valid platform ∧ Store.empty.Within platform (· ∈ delivered actions) :=
    ⟨Store.valid_empty platform, by simp [Store.empty], by simp [Store.empty]⟩
  exact (Transition.run_invariant_along
    (P := fun s : Store => s.Valid platform ∧ s.Within platform (· ∈ delivered actions))
    (fun opened before stepped => ⟨step_valid before.1 stepped, step_within opened before.1 before.2 stepped⟩)
    path (Transition.along_of_forall supplied Store.empty) initial).2.stored

theorem valid_summary (valid : s.Valid platform) (key : Key) :
    (s.stats key = none ↔ rowsFor s.events key = []) ∧
      ∀ stats, s.stats key = some stats → Summarizes stats (rowsFor s.events key) := by
  have summary := recorded_summarizes valid.checked key
  rwa [← valid.folded] at summary

theorem stats_eq_of_same_events (left : s.Valid platform) (right : t.Valid platform)
    (same : ∀ row, row ∈ s.events ↔ row ∈ t.events) : s.stats = t.stats := by
  have shuffled : s.events.Perm t.events :=
    (List.perm_ext_iff_of_nodup (left.distinct.of_map _) (right.distinct.of_map _)).mpr same
  funext key
  have rows : (rowsFor s.events key).Perm (rowsFor t.events key) := shuffled.filter _
  obtain ⟨noneLeft, summaryLeft⟩ := valid_summary left key
  obtain ⟨noneRight, summaryRight⟩ := valid_summary right key
  cases first : s.stats key with
  | none =>
    have empty : rowsFor t.events key = [] := by
      rw [← List.perm_nil, ← noneLeft.mp first]
      exact rows.symm
    exact (noneRight.mpr empty).symm
  | some stats =>
    cases second : t.stats key with
    | none =>
      have empty : rowsFor s.events key = [] := by
        rw [← List.perm_nil, ← noneRight.mp second]
        exact rows
      rw [noneLeft.mpr empty] at first
      contradiction
    | some other =>
      exact congrArg some ((summaryLeft stats first).unique (summaryRight other second) rows)

/-- Where an identifier stands for one event, rows with the same identifier that
two runs stored are the same row. -/
theorem same_row_of_same_id {source : List GatewayAccessEvent}
    (identifies : ∀ a ∈ source, ∀ b ∈ source, a.eventID = b.eventID → a = b)
    {left right : EventRow} (a : ∃ event ∈ source, eventRow platform event = some left)
    (b : ∃ event ∈ source, eventRow platform event = some right)
    (same : left.eventID = right.eventID) : left = right := by
  obtain ⟨first, firstSource, firstBuilt⟩ := a
  obtain ⟨second, secondSource, secondBuilt⟩ := b
  have equal : first = second := by
    apply identifies first firstSource second secondSource
    rw [← (eventRow_represents firstBuilt).id, ← (eventRow_represents secondBuilt).id, same]
  rw [equal, secondBuilt] at firstBuilt
  exact (Option.some.inj firstBuilt).symm

/-- In every state that statements of any number of sessions reach, each row of the
hourly statistics summarizes exactly the stored events with its key, and a key
without stored events has no row. The statistics therefore depend on the stored
events only: not on the order in which they were delivered, and, when an identifier
stands for one event, not on how often either. -/
theorem hourly_stats_summarize_events (platform : Platform) {actions : List Action} {s : Store}
    (path : Transition.run (step platform) Store.empty actions = some s) :
    (∀ key, (s.stats key = none ↔ rowsFor s.events key = []) ∧
      ∀ stats, s.stats key = some stats → Summarizes stats (rowsFor s.events key)) ∧
    (s.events.map (·.eventID)).Nodup ∧
    (∀ (others : List Action) (t : Store),
      Transition.run (step platform) Store.empty others = some t →
      (∀ row, row ∈ s.events ↔ row ∈ t.events) → s.stats = t.stats) ∧
    (∀ (others : List Action) (t : Store),
      Transition.run (step platform) Store.empty others = some t →
      (∀ a ∈ delivered actions ++ delivered others, ∀ b ∈ delivered actions ++ delivered others,
        a.eventID = b.eventID → a = b) →
      (∀ id, id ∈ s.events.map (·.eventID) ↔ id ∈ t.events.map (·.eventID)) →
      s.stats = t.stats) := by
  have valid := run_valid path
  refine ⟨valid_summary valid, valid.distinct, ?_, ?_⟩
  · intro others t route same
    exact stats_eq_of_same_events valid (run_valid route) same
  · intro others t route identifies same
    apply stats_eq_of_same_events valid (run_valid route)
    have left : ∀ row ∈ s.events, ∃ event ∈ delivered actions ++ delivered others,
        eventRow platform event = some row := by
      intro row member
      obtain ⟨event, given, built⟩ := stored_delivered path row member
      exact ⟨event, List.mem_append_left _ given, built⟩
    have right : ∀ row ∈ t.events, ∃ event ∈ delivered actions ++ delivered others,
        eventRow platform event = some row := by
      intro row member
      obtain ⟨event, given, built⟩ := stored_delivered route row member
      exact ⟨event, List.mem_append_right _ given, built⟩
    intro row
    constructor
    · intro member
      obtain ⟨other, present, id⟩ := List.mem_map.mp ((same row.eventID).mp (List.mem_map_of_mem member))
      rw [same_row_of_same_id identifies (left row member) (right other present) id.symm]
      exact present
    · intro member
      obtain ⟨other, present, id⟩ := List.mem_map.mp ((same row.eventID).mpr (List.mem_map_of_mem member))
      rw [same_row_of_same_id identifies (right row member) (left other present) id.symm]
      exact present

/-- A server that indexes every short text. -/
def asciiPlatform : Platform where
  unicode := .plain
  indexRowFits := fun columns => columns.all (·.length ≤ 256)

def sampleEvent (id : Str) (durationMS : Int) : GatewayAccessEvent where
  schemaVersion := 1
  eventID := id
  occurredAt := 1700000000 * second
  requestID := lit "request"
  projectID := lit "01010101-0101-0101-0101-010101010101"
  routeName := lit "orders"
  routePathPrefix := lit "/orders"
  method := lit " get"
  requestPath := lit "/orders/7"
  statusCode := 200
  durationMS := durationMS
  responseBytes := 512
  clientType := clientTypeIP
  clientID := lit "10.0.0.1"
  authRequired := false
  rateLimitEnabled := false
  rateLimited := false

/-- Two consumers receive the same event, one of them loses its transaction, and a
second event follows. -/
def sampleActions : List Action := [
  .begin 0 (sampleEvent (lit "a") 40), .begin 1 (sampleEvent (lit "a") 40), .insert 0, .abort 0,
  .insert 1, .upsert 1, .commit 1, .begin 0 (sampleEvent (lit "a") 40), .insert 0,
  .begin 0 (sampleEvent (lit "b") 7), .insert 0, .upsert 0, .commit 0]

def sampleKey : Key where
  bucketStart := 1699999200 * second
  projectID := .repeated 1
  routeName := lit "orders"
  routePathPrefix := lit "/orders"
  method := lit "GET"

theorem sample_deliveries_are_summarized :
    ∃ s, Transition.run (step asciiPlatform) Store.empty sampleActions = some s ∧
      s.stats sampleKey = some ⟨2, ⟨0, 2, 0, 0, 0⟩, 0, 47, 40, 1024⟩ ∧
      Summarizes ⟨2, ⟨0, 2, 0, 0, 0⟩, 0, 47, 40, 1024⟩ (rowsFor s.events sampleKey) := by
  have counted : (Transition.run (step asciiPlatform) Store.empty sampleActions).map
      (fun s => s.stats sampleKey) = some (some ⟨2, ⟨0, 2, 0, 0, 0⟩, 0, 47, 40, 1024⟩) := by
    decide +kernel
  obtain ⟨s, path, stats⟩ := Option.map_eq_some_iff.mp counted
  exact ⟨s, path, stats, ((hourly_stats_summarize_events asciiPlatform path).1 sampleKey).2 _ stats⟩

end EdgeGuard.Analytics
