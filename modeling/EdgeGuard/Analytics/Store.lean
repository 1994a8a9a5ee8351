import EdgeGuard.Analytics.Event
import EdgeGuard.Go.Case
import EdgeGuard.Postgres
import EdgeGuard.Transition
import Mathlib.Logic.Function.Basic

/-! `StoreGatewayAccess` as interleaved transactions on the raw events and the
hourly statistics. Every statement of every session is a step of its own; a
session waits while another open transaction holds its event identifier or its
statistics row. -/
namespace EdgeGuard.Analytics
open Go Postgres

/-- The case table of the Go library, and whether the database server finds room for
the text columns of an index entry. -/
structure Platform where
  unicode : CaseTable
  indexRowFits : List Str → Bool

def Platform.toUpper (platform : Platform) (text : Str) : Str := platform.unicode.toUpper text

/-- A row of `gateway_access_events`. -/
structure EventRow where
  eventID : Str
  schemaVersion : Int
  occurredAt : Time
  requestID : Str
  projectID : Option Uuid
  routeName : Option Str
  routePathPrefix : Option Str
  method : Str
  requestPath : Str
  statusCode : Int
  durationMS : Int
  responseBytes : Int
  clientType : Str
  clientID : Str
  authRequired : Bool
  rateLimitEnabled : Bool
  rateLimited : Bool
  deriving DecidableEq

/-- The primary key of `gateway_route_stats_hourly`. -/
structure Key where
  bucketStart : Time
  projectID : Uuid
  routeName : Str
  routePathPrefix : Str
  method : Str
  deriving DecidableEq

@[ext]
structure StatusCounts where
  status1xx : Int
  status2xx : Int
  status3xx : Int
  status4xx : Int
  status5xx : Int
  deriving DecidableEq, Repr

/-- The other columns of `gateway_route_stats_hourly`. -/
@[ext]
structure Stats where
  requestCount : Int
  status : StatusCounts
  rateLimitedCount : Int
  totalDurationMS : Int
  maxDurationMS : Int
  totalResponseBytes : Int
  deriving DecidableEq, Repr

def nullIf (text : Str) : Option Str := if text = [] then none else some text

/-- `NULLIF(text, '')::uuid`; the outer `none` is a failed cast. -/
def castProject (text : Str) : Option (Option Uuid) :=
  if text = [] then some none else (Uuid.parse text).map some

def textColumns (platform : Platform) (event : GatewayAccessEvent) : List Str :=
  [event.eventID, event.requestID, trimSpace event.projectID, trimSpace event.routeName,
    trimSpace event.routePathPrefix, platform.toUpper (trimSpace event.method), event.requestPath,
    event.clientType, event.clientID]

/-- The row that `insertGatewayAccessEventQuery` builds, or `none` where a value is
outside its column type or breaks a `CHECK`. -/
def eventRow (platform : Platform) (event : GatewayAccessEvent) : Option EventRow := do
  let projectID ← castProject (trimSpace event.projectID)
  if (∀ text ∈ textColumns platform event, textOk text = true) ∧
      int4Ok event.schemaVersion = true ∧ 0 < event.schemaVersion ∧
      timestampOk event.occurredAt = true ∧
      int4Ok event.statusCode = true ∧ 100 ≤ event.statusCode ∧ event.statusCode ≤ 599 ∧
      int8Ok event.durationMS = true ∧ 0 ≤ event.durationMS ∧
      int8Ok event.responseBytes = true ∧ 0 ≤ event.responseBytes ∧
      (event.clientType = clientTypeAPIKey ∨ event.clientType = clientTypeIP) then
    some {
      eventID := event.eventID
      schemaVersion := event.schemaVersion
      occurredAt := timestamp event.occurredAt
      requestID := event.requestID
      projectID
      routeName := nullIf (trimSpace event.routeName)
      routePathPrefix := nullIf (trimSpace event.routePathPrefix)
      method := platform.toUpper (trimSpace event.method)
      requestPath := event.requestPath
      statusCode := event.statusCode
      durationMS := event.durationMS
      responseBytes := event.responseBytes
      clientType := event.clientType
      clientID := event.clientID
      authRequired := event.authRequired
      rateLimitEnabled := event.rateLimitEnabled
      rateLimited := event.rateLimited }
  else none

/-- The entries of a row in the two indexes with text: the primary key, and the index on
project and route. -/
def EventRow.indexed (platform : Platform) (row : EventRow) : Bool :=
  platform.indexRowFits [row.eventID] &&
    (row.projectID.isNone || platform.indexRowFits [row.routeName.getD []])

def shouldAggregate (event : GatewayAccessEvent) : Bool :=
  trimSpace event.projectID != [] && trimSpace event.routeName != [] &&
    trimSpace event.routePathPrefix != []

def statusClassCounts (statusCode : Int) : StatusCounts :=
  match statusCode.tdiv 100 with
  | 1 => ⟨1, 0, 0, 0, 0⟩
  | 2 => ⟨0, 1, 0, 0, 0⟩
  | 3 => ⟨0, 0, 1, 0, 0⟩
  | 4 => ⟨0, 0, 0, 1, 0⟩
  | 5 => ⟨0, 0, 0, 0, 1⟩
  | _ => ⟨0, 0, 0, 0, 0⟩

/-- The non-key arguments of `upsertGatewayRouteStatsHourlyQuery`. -/
structure Increment where
  counts : StatusCounts
  rateLimited : Int
  durationMS : Int
  responseBytes : Int
  deriving DecidableEq, Repr

def increment (statusCode durationMS responseBytes : Int) (rateLimited : Bool) : Increment :=
  ⟨statusClassCounts statusCode, if rateLimited then 1 else 0, durationMS, responseBytes⟩

def Stats.first (inc : Increment) : Stats :=
  ⟨1, inc.counts, inc.rateLimited, inc.durationMS, inc.durationMS, inc.responseBytes⟩

def StatusCounts.add (a b : StatusCounts) : StatusCounts :=
  ⟨a.status1xx + b.status1xx, a.status2xx + b.status2xx, a.status3xx + b.status3xx,
    a.status4xx + b.status4xx, a.status5xx + b.status5xx⟩

def Stats.add (stats : Stats) (inc : Increment) : Stats where
  requestCount := stats.requestCount + 1
  status := stats.status.add inc.counts
  rateLimitedCount := stats.rateLimitedCount + inc.rateLimited
  totalDurationMS := stats.totalDurationMS + inc.durationMS
  maxDurationMS := max stats.maxDurationMS inc.durationMS
  totalResponseBytes := stats.totalResponseBytes + inc.responseBytes

def upserted (current : Option Stats) (inc : Increment) : Stats :=
  match current with
  | none => .first inc
  | some stats => stats.add inc

def countOk (value : Int) : Bool := 0 ≤ value && value ≤ int8Max

def Stats.columnsOk (stats : Stats) : Bool :=
  countOk stats.requestCount && countOk stats.status.status1xx && countOk stats.status.status2xx &&
    countOk stats.status.status3xx && countOk stats.status.status4xx &&
    countOk stats.status.status5xx && countOk stats.rateLimitedCount &&
    countOk stats.totalDurationMS && countOk stats.maxDurationMS && countOk stats.totalResponseBytes

def statsKey (platform : Platform) (event : GatewayAccessEvent) : Option Key :=
  (Uuid.parse (trimSpace event.projectID)).map (fun projectID =>
    { bucketStart := timestamp (truncate event.occurredAt hour)
      projectID
      routeName := trimSpace event.routeName
      routePathPrefix := trimSpace event.routePathPrefix
      method := platform.toUpper (trimSpace event.method) })

/-- `upsertGatewayRouteStatsHourlyQuery`: the key and the new columns, or `none`
where the database refuses them. -/
def upsertStats (platform : Platform) (stats : Key → Option Stats) (event : GatewayAccessEvent) :
    Option (Key × Stats) := do
  let key ← statsKey platform event
  let value := upserted (stats key)
    (increment event.statusCode event.durationMS event.responseBytes event.rateLimited)
  if timestampOk (truncate event.occurredAt hour) = true ∧ textOk key.routeName = true ∧
      textOk key.routePathPrefix = true ∧ textOk key.method = true ∧
      platform.indexRowFits [key.routeName, key.routePathPrefix, key.method] = true ∧
      value.columnsOk = true then
    some (key, value)
  else none

inductive InsertOutcome where
  | failed
  | duplicate
  | unindexed (row : EventRow)
  | inserted (row : EventRow)

/-- `INSERT .. ON CONFLICT (event_id) DO NOTHING RETURNING event_id`. The conflict is
looked for before an index takes an entry. -/
def insertEvent (platform : Platform) (events : List EventRow) (event : GatewayAccessEvent) :
    InsertOutcome :=
  match eventRow platform event with
  | none => .failed
  | some row =>
    if ∃ stored ∈ events, stored.eventID = row.eventID then .duplicate
    else if row.indexed platform = false then .unindexed row
    else .inserted row

/-- One open call of `StoreGatewayAccess` with its uncommitted writes. -/
structure Tx where
  session : Nat
  event : GatewayAccessEvent
  row : Option EventRow
  stat : Option (Key × Stats)

structure Store where
  events : List EventRow
  stats : Key → Option Stats
  active : List Tx

namespace Store

def empty : Store := ⟨[], fun _ => none, []⟩

def find (s : Store) (session : Nat) : Option Tx := s.active.find? (·.session = session)

def others (s : Store) (session : Nat) : List Tx := s.active.filter (·.session ≠ session)

def close (s : Store) (session : Nat) : Store := { s with active := s.others session }

end Store

/-- A statement of a session, or the end of its transaction by an error, a lost
connection or a crash. -/
inductive Action where
  | begin (session : Nat) (event : GatewayAccessEvent)
  | insert (session : Nat)
  | upsert (session : Nat)
  | commit (session : Nat)
  | abort (session : Nat)

def publish (stats : Key → Option Stats) : Option (Key × Stats) → Key → Option Stats
  | none => stats
  | some (key, value) => Function.update stats key (some value)

def step (platform : Platform) (s : Store) : Action → Option Store
  | .begin session event =>
    if event.validate = .ok () ∧ ∀ tx ∈ s.active, tx.session ≠ session then
      some { s with active := ⟨session, event, none, none⟩ :: s.active }
    else none
  | .insert session => do
    let tx ← s.find session
    if tx.row.isSome then none
    else match insertEvent platform s.events tx.event with
      | .failed => some (s.close session)
      | .duplicate => some (s.close session)
      -- a session that meets an uncommitted row with its identifier waits
      | .unindexed row =>
        if ∀ other ∈ s.others session, other.row.map (·.eventID) ≠ some row.eventID then
          some (s.close session)
        else none
      | .inserted row =>
        if ∀ other ∈ s.others session, other.row.map (·.eventID) ≠ some row.eventID then
          some { s with active := { tx with row := some row } :: s.others session }
        else none
  | .upsert session => do
    let tx ← s.find session
    if tx.row.isNone ∨ tx.stat.isSome ∨ shouldAggregate tx.event = false then none
    else match upsertStats platform s.stats tx.event with
      | none => some (s.close session)
      | some (key, value) =>
        if ∀ other ∈ s.others session, other.stat.map Prod.fst ≠ some key then
          some { s with active := { tx with stat := some (key, value) } :: s.others session }
        else none
  | .commit session => do
    let tx ← s.find session
    let row ← tx.row
    if shouldAggregate tx.event = true ∧ tx.stat = none then none
    else some ⟨s.events ++ [row], publish s.stats tx.stat, s.others session⟩
  | .abort session => (s.find session).map (fun _ => s.close session)

end EdgeGuard.Analytics
