import EdgeGuard.Analytics.Aggregates

/-! The Kafka consumer over the analytics tables: decoding, retries and the commit
of an offset. -/
namespace EdgeGuard.Analytics
open Go Postgres

structure IngestionResult where
  duplicate : Bool
  aggregated : Bool
  deriving DecidableEq, Repr

/-- `StoreGatewayAccess` while the database answers and no other session is open:
the result and the tables afterwards, or `none` when a statement is refused. -/
def storeGatewayAccess (platform : Platform) (s : Store) (event : GatewayAccessEvent) :
    Option (IngestionResult × Store) :=
  match insertEvent platform s.events event with
  | .failed | .unindexed _ => none
  | .duplicate => some (⟨true, false⟩, s)
  | .inserted row =>
    if shouldAggregate event = false then
      some (⟨false, false⟩, { s with events := s.events ++ [row] })
    else match upsertStats platform s.stats event with
      | none => none
      | some stat => some (⟨false, true⟩,
          { s with events := s.events ++ [row], stats := publish s.stats (some stat) })

inductive ProcessError where
  | invalidEvent (cause : EventError)
  | store
  deriving DecidableEq, Repr

def processGatewayAccess (platform : Platform) (s : Store) (event : GatewayAccessEvent) :
    Except ProcessError IngestionResult :=
  match event.validate with
  | .error cause => .error (.invalidEvent cause)
  | .ok () => match storeGatewayAccess platform s event with
    | none => .error .store
    | some (result, _) => .ok result

def nextRetryDelay (current maximum : Duration) : Duration :=
  if maximum ≤ current then maximum
  else if maximum.tdiv 2 < current then maximum
  else wrap64 (current * 2)

inductive RetryError where
  | invalidEvent (cause : EventError)
  | cancelled
  | exhausted (attempts : Nat)
  | loopEnded
  deriving DecidableEq, Repr

structure Retry where
  waits : List Duration
  result : Except RetryError IngestionResult

/-- What the calls of `processWithRetry` meet: the outcome of each attempt, and
whether the context is done after it or during the wait that follows. -/
structure RetryEnv where
  process : Nat → Except ProcessError IngestionResult
  cancelled : Nat → Bool
  interrupted : Nat → Bool

def retryLoop (env : RetryEnv) (retryMax : Duration) (maxProcessAttempts : Nat) :
    Nat → Duration → Retry
  | 0, _ => ⟨[], .error .loopEnded⟩
  | remaining + 1, delay =>
    let attempt := maxProcessAttempts - remaining
    match env.process attempt with
    | .ok result => ⟨[], .ok result⟩
    | .error (.invalidEvent cause) => ⟨[], .error (.invalidEvent cause)⟩
    | .error .store =>
      if env.cancelled attempt then ⟨[], .error .cancelled⟩
      else if attempt = maxProcessAttempts then ⟨[], .error (.exhausted maxProcessAttempts)⟩
      else if env.interrupted attempt then ⟨[delay], .error .cancelled⟩
      else
        let later := retryLoop env retryMax maxProcessAttempts remaining (nextRetryDelay delay retryMax)
        ⟨delay :: later.waits, later.result⟩

structure Config where
  retryMin : Duration
  retryMax : Duration
  maxProcessAttempts : Nat

def processWithRetry (config : Config) (env : RetryEnv) : Retry :=
  retryLoop env config.retryMax config.maxProcessAttempts config.maxProcessAttempts config.retryMin

/-- `decodeGatewayAccessEvent`, over `json.Unmarshal`; `none` is either error. -/
def decodeGatewayAccessEvent (unmarshal : Str → Option GatewayAccessEvent) (payload : Str) :
    Option GatewayAccessEvent :=
  match unmarshal payload with
  | none => none
  | some event => match event.validate with
    | .error _ => none
    | .ok () => some event

inductive HandleError where
  | commit
  | retry (cause : RetryError)
  deriving DecidableEq, Repr

def commitRecord (accepted : Bool) : Except HandleError Unit :=
  if accepted then .ok () else .error .commit

/-- `handleRecord`. The record is committed when it returns without error. -/
def handleRecord (config : Config) (unmarshal : Str → Option GatewayAccessEvent)
    (env : GatewayAccessEvent → RetryEnv) (accepted : Bool) (payload : Str) :
    Except HandleError Unit :=
  match decodeGatewayAccessEvent unmarshal payload with
  | none => commitRecord accepted
  | some event => match (processWithRetry config (env event)).result with
    | .ok _ => commitRecord accepted
    | .error (.invalidEvent _) => commitRecord accepted
    | .error cause => .error (.retry cause)

/-- The database answers every attempt from the given tables and the context
stays open. -/
def available (platform : Platform) (s : Store) (event : GatewayAccessEvent) : RetryEnv where
  process := fun _ => processGatewayAccess platform s event
  cancelled := fun _ => false
  interrupted := fun _ => false

variable {platform : Platform} {s t : Store} {event : GatewayAccessEvent}

/-- A call on its own is a run of the interleaved statements. -/
theorem storeGatewayAccess_run {result : IngestionResult} (valid : event.validate = .ok ())
    (alone : s.active = []) (stored : storeGatewayAccess platform s event = some (result, t)) :
    ∃ actions, Transition.run (step platform) s actions = some t := by
  obtain ⟨events, stats, active⟩ := s
  cases alone
  unfold storeGatewayAccess at stored
  split at stored
  · contradiction
  · contradiction
  · cases stored
    exact ⟨[], rfl⟩
  · rename_i row inserted
    dsimp only at inserted
    split at stored
    · rename_i ignored
      cases stored
      refine ⟨[.begin 0 event, .insert 0, .commit 0], ?_⟩
      simp [Transition.run, step, valid, Store.find, Store.others, inserted, ignored, publish]
    · rename_i aggregated
      split at stored
      · contradiction
      · rename_i stat counted
        obtain ⟨key, value⟩ := stat
        cases stored
        refine ⟨[.begin 0 event, .insert 0, .upsert 0, .commit 0], ?_⟩
        simp [Transition.run, step, valid, Store.find, Store.others, inserted, aggregated, counted]

theorem decoded_valid {unmarshal : Str → Option GatewayAccessEvent} {payload : Str}
    (decoded : decodeGatewayAccessEvent unmarshal payload = some event) :
    event.validate = .ok () := by
  unfold decodeGatewayAccessEvent at decoded
  split at decoded
  · contradiction
  · split at decoded
    · contradiction
    · rename_i accepted
      cases decoded
      exact accepted

/-- While the database gives the same answer to every attempt, a valid event is
committed exactly when that answer is a success. -/
theorem handleRecord_available_iff (config : Config) (positive : 0 < config.maxProcessAttempts)
    {unmarshal : Str → Option GatewayAccessEvent} {payload : Str}
    (decoded : decodeGatewayAccessEvent unmarshal payload = some event) :
    handleRecord config unmarshal (available platform s) true payload = .ok () ↔
      ∃ outcome, storeGatewayAccess platform s event = some outcome := by
  have valid := decoded_valid decoded
  simp only [handleRecord, decoded]
  cases stored : storeGatewayAccess platform s event with
  | some outcome =>
    have result : (processWithRetry config (available platform s event)).result = .ok outcome.1 := by
      obtain ⟨count, same⟩ := Nat.exists_eq_succ_of_ne_zero positive.ne'
      simp [processWithRetry, same, retryLoop, available, processGatewayAccess, valid, stored]
    rw [result]
    simp [commitRecord]
  | none =>
    -- every attempt fails the same way, until the last one is reported
    have fails : ∀ remaining delay, remaining ≠ 0 → remaining ≤ config.maxProcessAttempts →
        (retryLoop (available platform s event) config.retryMax config.maxProcessAttempts remaining
          delay).result = .error (.exhausted config.maxProcessAttempts) := by
      intro remaining
      induction remaining with
      | zero => simp
      | succ remaining ih =>
        intro delay _ bound
        by_cases last : config.maxProcessAttempts - remaining = config.maxProcessAttempts
        · simp [retryLoop, available, processGatewayAccess, valid, stored, last]
        · have later := ih (nextRetryDelay delay config.retryMax) (by omega) (by omega)
          simpa [retryLoop, available, processGatewayAccess, valid, stored, last] using later
    rw [processWithRetry, fails _ _ positive.ne' (Nat.le_refl _)]
    simp

end EdgeGuard.Analytics
