import EdgeGuard.Analytics.Storable

/-! The consumer group over the partitions of the topic and the analytics tables:
what the committed offsets leave behind. Any number of processes run the consumer;
each statement of an attempt is a step of its own, and a process can stop, fail or
lose a reply between any two of them. -/
namespace EdgeGuard.Analytics
open Go

/-- A polled record until `handleRecord` returns: the outcomes of the attempts made
so far, and the session of the attempt under way. -/
structure Handling where
  partition : Nat
  offset : Nat
  payload : Str
  outcomes : List (Except ProcessError IngestionResult)
  session : Option Nat

namespace Handling

def done (h : Handling) (outcome : Except ProcessError IngestionResult) : Handling :=
  { h with outcomes := h.outcomes ++ [outcome], session := none }

/-- The loop of `processWithRetry` calls the processor once more. -/
def ready (config : Config) (h : Handling) : Bool :=
  h.session.isNone && h.outcomes.length < config.maxProcessAttempts &&
    h.outcomes.all (· = .error .store)

/-- What `processWithRetry` has met when the context is done, or not, after the
last of its attempts. -/
def env (cancelled interrupted : Bool) (h : Handling) : RetryEnv where
  process := fun attempt => (h.outcomes[attempt - 1]?).getD (.error .store)
  cancelled := fun attempt => cancelled && attempt = h.outcomes.length
  interrupted := fun attempt => interrupted && attempt = h.outcomes.length

/-- No further attempt is made, so that the calls of `env` are all there are. -/
def complete (config : Config) (unmarshal : Str → Option GatewayAccessEvent)
    (cancelled interrupted : Bool) (h : Handling) : Bool :=
  match decodeGatewayAccessEvent unmarshal h.payload with
  | none => true
  | some _ => h.session.isNone && !h.outcomes.isEmpty &&
      (h.outcomes.length = config.maxProcessAttempts || h.outcomes.any (· ≠ .error .store) ||
        cancelled || interrupted)

end Handling

/-- A statement of `ProcessGatewayAccess`, or its failure. The reply to a commit can
be lost. -/
inductive Attempt where
  | begin
  | insert
  | upsert
  | commit (lost : Bool)
  | fail

/-- The tables and the record after a statement of the attempt; `session` is a new
session number. -/
def attempt (config : Config) (platform : Platform) (unmarshal : Str → Option GatewayAccessEvent)
    (s : Store) (session : Nat) (h : Handling) : Attempt → Option (Store × Handling)
  | .begin => do
    let event ← decodeGatewayAccessEvent unmarshal h.payload
    if h.ready config = false then none
    else match event.validate with
      | .error cause => some (s, h.done (.error (.invalidEvent cause)))
      | .ok () =>
        (step platform s (.begin session event)).map
          (fun t => (t, { h with session := some session }))
  | .insert => do
    let own ← h.session
    let tx ← s.find own
    let t ← step platform s (.insert own)
    match insertEvent platform s.events tx.event with
    | .failed | .unindexed _ => some (t, h.done (.error .store))
    | .duplicate => some (t, h.done (.ok ⟨true, false⟩))
    | .inserted _ => some (t, h)
  | .upsert => do
    let own ← h.session
    let tx ← s.find own
    let t ← step platform s (.upsert own)
    match upsertStats platform s.stats tx.event with
    | none => some (t, h.done (.error .store))
    | some _ => some (t, h)
  | .commit lost => do
    let own ← h.session
    let tx ← s.find own
    let t ← step platform s (.commit own)
    some (t, h.done (if lost then .error .store else .ok ⟨false, shouldAggregate tx.event⟩))
  | .fail =>
    match h.session with
    | some own => some (s.close own, h.done (.error .store))
    | none => do
      let _ ← decodeGatewayAccessEvent unmarshal h.payload
      if h.ready config then some (s, h.done (.error .store)) else none

/-- The error that `Run` keeps of the records of one poll: that of the last. -/
def handleAll (results : List (Except HandleError Unit)) : Except HandleError Unit :=
  results.foldl (fun _ result => result) (.ok ())

/-- A process with its client: the next offset of every assigned partition, and the
record in hand. `PollRecords` is asked for one record at a time. -/
structure Member where
  positions : Nat → Option Nat
  handling : Option Handling

structure Group where
  log : Nat → List Str
  committed : Nat → Nat
  members : Nat → Option Member
  store : Store
  sessions : Nat

namespace Group

def initial : Group := ⟨fun _ => [], fun _ => 0, fun _ => none, .empty, 0⟩

def place (g : Group) (name : Nat) (member : Option Member) : Group :=
  { g with members := Function.update g.members name member }

end Group

/-- What happens next. Partitions are assigned and revoked between polls only. The
broker can store an offset (`stored`) whose commit it does not confirm
(`accepted`); the server can end any transaction. `stop` is a crash, or the return
of `Run` once its context is done. -/
inductive GroupAction where
  | produce (partition : Nat) (payload : Str)
  | start (name : Nat)
  | assign (name partition : Nat)
  | revoke (name partition : Nat)
  | poll (name partition : Nat)
  | attempt (name : Nat) (statement : Attempt)
  | rollback (session : Nat)
  | finish (name : Nat) (cancelled interrupted accepted stored : Bool)
  | stop (name : Nat)

def Group.step (config : Config) (platform : Platform)
    (unmarshal : Str → Option GatewayAccessEvent) (g : Group) : GroupAction → Option Group
  | .produce partition payload =>
    some { g with log := Function.update g.log partition (g.log partition ++ [payload]) }
  | .start name =>
    match g.members name with
    | some _ => none
    | none => some (g.place name (some ⟨fun _ => none, none⟩))
  | .assign name partition => do
    let member ← g.members name
    if member.handling.isSome then none
    else some (g.place name (some { member with
      positions := Function.update member.positions partition (some (g.committed partition)) }))
  | .revoke name partition => do
    let member ← g.members name
    if member.handling.isSome then none
    else some (g.place name (some { member with
      positions := Function.update member.positions partition none }))
  | .poll name partition => do
    let member ← g.members name
    if member.handling.isSome then none
    else
      let offset ← member.positions partition
      let payload ← (g.log partition)[offset]?
      some (g.place name (some ⟨Function.update member.positions partition (some (offset + 1)),
        some ⟨partition, offset, payload, [], none⟩⟩))
  | .attempt name statement => do
    let member ← g.members name
    let h ← member.handling
    let after ← attempt config platform unmarshal g.store g.sessions h statement
    some { g.place name (some { member with handling := some after.2 }) with
      store := after.1, sessions := g.sessions + 1 }
  | .rollback session =>
    (Analytics.step platform g.store (.abort session)).map (fun store => { g with store })
  | .finish name cancelled interrupted accepted stored => do
    let member ← g.members name
    let h ← member.handling
    if h.complete config unmarshal cancelled interrupted then
      let result := handleRecord config unmarshal (fun _ => h.env cancelled interrupted) accepted
        h.payload
      let committed :=
        if result = .ok () ∨ (result = .error .commit ∧ stored = true) then
          Function.update g.committed h.partition (h.offset + 1)
        else g.committed
      -- an error ends `Run`, and with it the process
      match handleAll [result] with
      | .ok () => some { g.place name (some { member with handling := none }) with committed }
      | .error _ => some { g.place name none with committed }
    else none
  | .stop name => (g.members name).map (fun _ => g.place name none)

variable {config : Config} {platform : Platform} {unmarshal : Str → Option GatewayAccessEvent}

/-- The record needs no further work: it fails decoding or validation, or its event
is stored. -/
def Settled (unmarshal : Str → Option GatewayAccessEvent) (events : List EventRow)
    (payload : Str) : Prop :=
  decodeGatewayAccessEvent unmarshal payload = none ∨
    ∃ event, decodeGatewayAccessEvent unmarshal payload = some event ∧
      ∃ row ∈ events, row.eventID = event.eventID

def SettledBelow (unmarshal : Str → Option GatewayAccessEvent) (log : List Str)
    (events : List EventRow) (bound : Nat) : Prop :=
  ∀ offset < bound, ∃ payload, log[offset]? = some payload ∧ Settled unmarshal events payload

/-- Stored events stay, and an open transaction is an old one of the same event or
has the new session number. -/
structure Store.Grows (session : Nat) (s t : Store) : Prop where
  events : ∀ row ∈ s.events, row ∈ t.events
  active : ∀ tx ∈ t.active,
    (∃ old ∈ s.active, old.session = tx.session ∧ old.event = tx.event) ∨ tx.session = session

theorem Store.Grows.refl (session : Nat) (s : Store) : s.Grows session s :=
  ⟨fun _ stored => stored, fun tx member => .inl ⟨tx, member, rfl, rfl⟩⟩

theorem Store.Grows.close (session own : Nat) (s : Store) : s.Grows session (s.close own) :=
  ⟨fun _ stored => stored, fun tx member => .inl ⟨tx, (mem_others.mp member).1, rfl, rfl⟩⟩

theorem step_grows {s t : Store} {action : Action} {session : Nat}
    (new : ∀ own event, action = .begin own event → own = session)
    (stepped : step platform s action = some t) : s.Grows session t := by
  have rest {tx : Tx} {own : Nat} (member : tx ∈ s.others own) :
      (∃ old ∈ s.active, old.session = tx.session ∧ old.event = tx.event) ∨ tx.session = session :=
    .inl ⟨tx, (mem_others.mp member).1, rfl, rfl⟩
  cases step_effect stepped with
  | begin own event free =>
    refine ⟨fun _ stored => stored, ?_⟩
    intro tx member
    rcases List.mem_cons.mp member with rfl | old
    · exact .inr (new own event rfl)
    · exact .inl ⟨tx, old, rfl, rfl⟩
  | close _ own => exact .close session own s
  | insert held row member first built fresh unlocked =>
    refine ⟨fun _ stored => stored, ?_⟩
    intro tx present
    rcases List.mem_cons.mp present with rfl | other
    · exact .inl ⟨held, member, rfl, rfl⟩
    · exact rest other
  | upsert held row key member inserted aggregated located unlocked =>
    refine ⟨fun _ stored => stored, ?_⟩
    intro tx present
    rcases List.mem_cons.mp present with rfl | other
    · exact .inl ⟨held, member, rfl, rfl⟩
    · exact rest other
  | commit held row member inserted complete =>
    exact ⟨fun _ stored => List.mem_append_left _ stored, fun _ other => rest other⟩

section Monotone
variable {log later : List Str} {events grown : List EventRow}

theorem Settled.mono {payload : Str} (settled : Settled unmarshal events payload)
    (kept : ∀ row ∈ events, row ∈ grown) : Settled unmarshal grown payload := by
  rcases settled with invalid | ⟨event, decoded, row, stored, same⟩
  · exact .inl invalid
  · exact .inr ⟨event, decoded, row, kept row stored, same⟩

theorem record_of_prefix {offset : Nat} {payload : Str} (appended : log <+: later)
    (found : log[offset]? = some payload) : later[offset]? = some payload := by
  obtain ⟨bound, rfl⟩ := List.getElem?_eq_some_iff.mp found
  exact List.prefix_iff_getElem?.mp appended offset bound

theorem SettledBelow.mono {bound : Nat} (settled : SettledBelow unmarshal log events bound)
    (appended : log <+: later) (kept : ∀ row ∈ events, row ∈ grown) :
    SettledBelow unmarshal later grown bound := by
  intro offset below
  obtain ⟨payload, found, done⟩ := settled offset below
  exact ⟨payload, record_of_prefix appended found, done.mono kept⟩

theorem SettledBelow.succ {offset : Nat} {payload : Str}
    (settled : SettledBelow unmarshal log events offset) (found : log[offset]? = some payload)
    (done : Settled unmarshal events payload) : SettledBelow unmarshal log events (offset + 1) := by
  intro earlier below
  rcases Nat.lt_succ_iff_lt_or_eq.mp below with before | rfl
  · exact settled earlier before
  · exact ⟨payload, found, done⟩

end Monotone

/-- The records before the one in hand are settled, a success was reported for a
stored event only, and the open transaction is for the decoded event. -/
structure Handling.Sound (unmarshal : Str → Option GatewayAccessEvent) (log : Nat → List Str)
    (s : Store) (sessions : Nat) (h : Handling) : Prop where
  record : (log h.partition)[h.offset]? = some h.payload
  before : SettledBelow unmarshal (log h.partition) s.events h.offset
  outcomes : ∀ outcome ∈ h.outcomes, outcome = .error .store ∨
    ((∃ result, outcome = .ok result) ∧ Settled unmarshal s.events h.payload)
  numbered : ∀ own, h.session = some own → own < sessions
  own : ∀ own, h.session = some own → ∀ tx ∈ s.active, tx.session = own →
    decodeGatewayAccessEvent unmarshal h.payload = some tx.event

variable {log later : Nat → List Str} {s t : Store} {sessions next : Nat} {h : Handling}

theorem Handling.Sound.mono (sound : h.Sound unmarshal log s sessions)
    (appended : ∀ partition, log partition <+: later partition)
    (grows : s.Grows sessions t) (larger : sessions ≤ next) : h.Sound unmarshal later t next where
  record := record_of_prefix (appended h.partition) sound.record
  before := sound.before.mono (appended h.partition) grows.events
  outcomes := fun outcome made => (sound.outcomes outcome made).imp_right
    (fun reported => ⟨reported.1, reported.2.mono grows.events⟩)
  numbered := fun own held => (sound.numbered own held).trans_le larger
  own := by
    intro own held tx member same
    rcases grows.active tx member with ⟨old, present, number, event⟩ | new
    · exact event ▸ sound.own own held old present (number.trans same)
    · have bound := sound.numbered own held
      omega

theorem Handling.Sound.grown (sound : h.Sound unmarshal log s sessions)
    (grows : s.Grows sessions t) : h.Sound unmarshal log t (sessions + 1) :=
  sound.mono (fun _ => List.prefix_rfl) grows (Nat.le_succ sessions)

theorem Handling.Sound.done {outcome : Except ProcessError IngestionResult}
    (sound : h.Sound unmarshal log s sessions)
    (reported : outcome = .error .store ∨
      ((∃ result, outcome = .ok result) ∧ Settled unmarshal s.events h.payload)) :
    (h.done outcome).Sound unmarshal log s sessions where
  record := sound.record
  before := sound.before
  outcomes := by
    intro made member
    rcases List.mem_append.mp member with old | new
    · exact sound.outcomes made old
    · cases List.mem_singleton.mp new
      exact reported
  numbered := by simp [Handling.done]
  own := by simp [Handling.done]

theorem duplicate_stored {event : GatewayAccessEvent}
    (conflict : insertEvent platform s.events event = .duplicate) :
    ∃ row ∈ s.events, row.eventID = event.eventID := by
  unfold insertEvent at conflict
  split at conflict
  · contradiction
  · rename_i row built
    split at conflict
    · rename_i present
      obtain ⟨stored, member, same⟩ := present
      exact ⟨stored, member, same.trans (eventRow_represents built).id⟩
    · split at conflict
      · contradiction
      · contradiction

theorem commit_stored {tx : Tx} (valid : s.Valid platform) (found : s.find tx.session = some tx)
    (stepped : step platform s (.commit tx.session) = some t) :
    ∃ row ∈ t.events, row.eventID = tx.event.eventID := by
  simp only [step, found, Option.bind_eq_bind, Option.bind_some, Option.bind_eq_some_iff] at stepped
  obtain ⟨row, inserted, stepped⟩ := stepped
  split at stepped
  · contradiction
  · cases stepped
    have built := (valid.pending tx (find_spec found).1).built row inserted
    exact ⟨row, by simp, (eventRow_represents built).id⟩

theorem Handling.Sound.statement {action : Action} (sound : h.Sound unmarshal log s sessions)
    (valid : s.Valid platform) (inside : ∀ own event, action ≠ .begin own event)
    (stepped : step platform s action = some t) :
    t.Valid platform ∧ s.Grows sessions t ∧ h.Sound unmarshal log t (sessions + 1) := by
  have grows : s.Grows sessions t :=
    step_grows (fun own event opens => absurd opens (inside own event)) stepped
  exact ⟨step_valid valid stepped, grows, sound.grown grows⟩

theorem Handling.Sound.begin {event : GatewayAccessEvent} (sound : h.Sound unmarshal log s sessions)
    (bounded : ∀ tx ∈ s.active, tx.session < sessions)
    (decoded : decodeGatewayAccessEvent unmarshal h.payload = some event)
    (begun : step platform s (.begin sessions event) = some t) (grows : s.Grows sessions t) :
    { h with session := some sessions }.Sound unmarshal log t (sessions + 1) := by
  have kept := sound.grown grows
  refine ⟨kept.record, kept.before, kept.outcomes, by simp, ?_⟩
  rintro _ ⟨⟩ tx member number
  cases step_effect begun with
  | begin =>
    rcases List.mem_cons.mp member with rfl | old
    · exact decoded
    · exact absurd number (bounded tx old).ne
  | close => exact absurd number (bounded tx (mem_others.mp member).1).ne

theorem attempt_sound {statement : Attempt} {after : Store × Handling} (valid : s.Valid platform)
    (bounded : ∀ tx ∈ s.active, tx.session < sessions) (sound : h.Sound unmarshal log s sessions)
    (stepped : attempt config platform unmarshal s sessions h statement = some after) :
    after.1.Valid platform ∧ s.Grows sessions after.1 ∧
      after.2.Sound unmarshal log after.1 (sessions + 1) ∧
      after.2.partition = h.partition ∧ after.2.offset = h.offset := by
  cases statement with
  | begin =>
    simp only [attempt, Option.bind_eq_bind, Option.bind_eq_some_iff,
      Option.ite_none_left_eq_some] at stepped
    obtain ⟨event, decoded, _, stepped⟩ := stepped
    simp only [decoded_valid decoded, Option.map_eq_some_iff] at stepped
    obtain ⟨t, begun, rfl⟩ := stepped
    have grows : s.Grows sessions t := step_grows (by rintro _ _ ⟨⟩; rfl) begun
    exact ⟨step_valid valid begun, grows, sound.begin bounded decoded begun grows, rfl, rfl⟩
  | insert =>
    simp only [attempt, Option.bind_eq_bind, Option.bind_eq_some_iff] at stepped
    obtain ⟨own, held, tx, found, t, inserted, stepped⟩ := stepped
    obtain ⟨still, grows, kept⟩ := sound.statement valid (by simp) inserted
    split at stepped
    · cases stepped
      exact ⟨still, grows, kept.done (.inl rfl), rfl, rfl⟩
    · cases stepped
      exact ⟨still, grows, kept.done (.inl rfl), rfl, rfl⟩
    · rename_i conflict
      cases stepped
      have decoded := sound.own own held tx (find_spec found).1 (find_spec found).2
      have stored : Settled unmarshal s.events h.payload :=
        .inr ⟨tx.event, decoded, duplicate_stored conflict⟩
      exact ⟨still, grows, kept.done (.inr ⟨⟨_, rfl⟩, stored.mono grows.events⟩), rfl, rfl⟩
    · cases stepped
      exact ⟨still, grows, kept, rfl, rfl⟩
  | upsert =>
    simp only [attempt, Option.bind_eq_bind, Option.bind_eq_some_iff] at stepped
    obtain ⟨own, held, tx, found, t, upserted, stepped⟩ := stepped
    obtain ⟨still, grows, kept⟩ := sound.statement valid (by simp) upserted
    split at stepped
    · cases stepped
      exact ⟨still, grows, kept.done (.inl rfl), rfl, rfl⟩
    · cases stepped
      exact ⟨still, grows, kept, rfl, rfl⟩
  | commit lost =>
    simp only [attempt, Option.bind_eq_bind, Option.bind_eq_some_iff, Option.some.injEq] at stepped
    obtain ⟨own, held, tx, found, t, committed, rfl⟩ := stepped
    obtain ⟨still, grows, kept⟩ := sound.statement valid (by simp) committed
    obtain ⟨member, rfl⟩ := find_spec found
    have decoded := sound.own tx.session held tx member rfl
    refine ⟨still, grows, kept.done ?_, rfl, rfl⟩
    cases lost with
    | true => exact .inl rfl
    | false =>
      exact .inr ⟨⟨_, rfl⟩, .inr ⟨tx.event, decoded, commit_stored valid found committed⟩⟩
  | fail =>
    simp only [attempt] at stepped
    split at stepped
    · rename_i own held
      cases stepped
      have grows : s.Grows sessions (s.close own) := .close sessions own s
      exact ⟨valid_close valid own, grows, (sound.grown grows).done (.inl rfl), rfl, rfl⟩
    · simp only [Option.bind_eq_bind, Option.bind_eq_some_iff, Option.ite_none_right_eq_some,
        Option.some.injEq] at stepped
      obtain ⟨_, _, _, rfl⟩ := stepped
      have grows : s.Grows sessions s := .refl sessions s
      exact ⟨valid, grows, (sound.grown grows).done (.inl rfl), rfl, rfl⟩

theorem retryLoop_result (env : RetryEnv) (retryMax : Duration) (attempts remaining : Nat)
    (delay : Duration) :
    (∀ result, (retryLoop env retryMax attempts remaining delay).result = .ok result →
      ∃ n, env.process n = .ok result) ∧
    ∀ cause, (retryLoop env retryMax attempts remaining delay).result = .error (.invalidEvent cause) →
      ∃ n, env.process n = .error (.invalidEvent cause) := by
  induction remaining generalizing delay with
  | zero => simp [retryLoop]
  | succ remaining ih =>
    cases outcome : env.process (attempts - remaining) with
    | ok result =>
      simp only [retryLoop, outcome]
      exact ⟨fun _ same => ⟨_, by rw [outcome]; simpa using same⟩, by simp⟩
    | error failure =>
      cases failure with
      | invalidEvent cause =>
        simp only [retryLoop, outcome]
        exact ⟨by simp, fun _ same => ⟨_, by rw [outcome]; simpa using same⟩⟩
      | store =>
        simp only [retryLoop, outcome]
        split
        · simp
        · split
          · simp
          · split
            · simp
            · exact ih (nextRetryDelay delay retryMax)

/-- The offset of a record is sent to the broker only after the record is
settled. -/
theorem handleRecord_settled {cancelled interrupted accepted : Bool}
    (sound : h.Sound unmarshal log s sessions)
    (sent : handleRecord config unmarshal (fun _ => h.env cancelled interrupted) accepted h.payload =
        .ok () ∨
      handleRecord config unmarshal (fun _ => h.env cancelled interrupted) accepted h.payload =
        .error .commit) : Settled unmarshal s.events h.payload := by
  -- an attempt that was not made has no outcome to report
  have made {n : Nat} {outcome : Except ProcessError IngestionResult}
      (answered : (h.env cancelled interrupted).process n = outcome)
      (other : outcome ≠ .error .store) : outcome ∈ h.outcomes := by
    cases found : h.outcomes[n - 1]? with
    | none => exact absurd (by simpa [Handling.env, found] using answered.symm) other
    | some reported =>
      have same : reported = outcome := by simpa [Handling.env, found] using answered
      exact same ▸ List.mem_of_getElem? found
  cases decoded : decodeGatewayAccessEvent unmarshal h.payload with
  | none => exact .inl decoded
  | some event =>
    obtain ⟨success, permanent⟩ := retryLoop_result (h.env cancelled interrupted) config.retryMax
      config.maxProcessAttempts config.maxProcessAttempts config.retryMin
    simp only [handleRecord, decoded, processWithRetry] at sent
    split at sent
    · rename_i result returned
      obtain ⟨n, answered⟩ := success result returned
      rcases sound.outcomes _ (made answered (by simp)) with failed | ⟨_, settled⟩
      · contradiction
      · exact settled
    · rename_i cause returned
      obtain ⟨n, answered⟩ := permanent cause returned
      rcases sound.outcomes _ (made answered (by simp)) with failed | ⟨⟨_, wrong⟩, _⟩
      · cases failed
      · cases wrong
    · simp at sent

/-- An idle process has settled what lies before its positions. -/
structure Member.Sound (unmarshal : Str → Option GatewayAccessEvent) (log : Nat → List Str)
    (s : Store) (sessions : Nat) (member : Member) : Prop where
  positions : ∀ partition offset, member.positions partition = some offset →
    SettledBelow unmarshal (log partition) s.events offset ∨
      ∃ h, member.handling = some h ∧ h.partition = partition ∧ h.offset + 1 = offset
  handling : ∀ h, member.handling = some h → h.Sound unmarshal log s sessions

theorem Member.Sound.mono {member : Member} (sound : member.Sound unmarshal log s sessions)
    (appended : ∀ partition, log partition <+: later partition)
    (grows : s.Grows sessions t) (larger : sessions ≤ next) :
    member.Sound unmarshal later t next where
  positions := fun partition offset reached => (sound.positions partition offset reached).imp_left
    (fun settled => settled.mono (appended partition) grows.events)
  handling := fun h held => (sound.handling h held).mono appended grows larger

theorem Member.Sound.move {member : Member} {partition : Nat} {position : Option Nat}
    (sound : member.Sound unmarshal log s sessions)
    (settled : ∀ offset, position = some offset →
      SettledBelow unmarshal (log partition) s.events offset) :
    { member with positions := Function.update member.positions partition position }.Sound
      unmarshal log s sessions := by
  refine ⟨?_, sound.handling⟩
  intro other offset reached
  rcases Transition.update_found reached with ⟨before, _⟩ | ⟨rfl, moved⟩
  · exact sound.positions other offset before
  · exact .inl (settled offset moved)

theorem Member.Sound.idle {member : Member} (sound : member.Sound unmarshal log s sessions)
    (idle : member.handling = none) {partition offset : Nat}
    (reached : member.positions partition = some offset) :
    SettledBelow unmarshal (log partition) s.events offset := by
  rcases sound.positions partition offset reached with before | ⟨h, held, _⟩
  · exact before
  · rw [idle] at held
    cases held

structure Group.Sound (platform : Platform) (unmarshal : Str → Option GatewayAccessEvent)
    (g : Group) : Prop where
  valid : g.store.Valid platform
  bounded : ∀ tx ∈ g.store.active, tx.session < g.sessions
  committed : ∀ partition,
    SettledBelow unmarshal (g.log partition) g.store.events (g.committed partition)
  members : ∀ name member, g.members name = some member →
    member.Sound unmarshal g.log g.store g.sessions

theorem Group.initial_sound : Group.initial.Sound platform unmarshal where
  valid := Store.valid_empty platform
  bounded := by simp [initial, Store.empty]
  committed := by simp [initial, SettledBelow]
  members := by simp [initial]

variable {g : Group} {name : Nat}

/-- Only the process that acts has something to show, while the tables and the
offsets stay. -/
theorem Group.Sound.place (sound : g.Sound platform unmarshal) {changed : Option Member}
    (own : ∀ member, changed = some member → member.Sound unmarshal g.log g.store g.sessions) :
    (g.place name changed).Sound platform unmarshal where
  valid := sound.valid
  bounded := sound.bounded
  committed := sound.committed
  members := by
    intro other member found
    rcases Transition.update_found found with ⟨earlier, _⟩ | ⟨_, acts⟩
    · exact sound.members other member earlier
    · exact own member acts

/-- Records are appended and stored events stay, so that what is settled stays
settled. -/
theorem Group.Sound.grow (sound : g.Sound platform unmarshal)
    (appended : ∀ partition, g.log partition <+: later partition)
    (valid : t.Valid platform) (grows : g.store.Grows g.sessions t) (larger : g.sessions ≤ next)
    (bounded : ∀ tx ∈ t.active, tx.session < next) :
    { g with log := later, store := t, sessions := next }.Sound platform unmarshal where
  valid := valid
  bounded := bounded
  committed := fun partition => (sound.committed partition).mono (appended partition) grows.events
  members := fun name member found => (sound.members name member found).mono appended grows larger

theorem Group.Sound.advance {committed : Nat → Nat} (sound : g.Sound platform unmarshal)
    (passed : ∀ partition,
      SettledBelow unmarshal (g.log partition) g.store.events (committed partition)) :
    { g with committed }.Sound platform unmarshal :=
  ⟨sound.valid, sound.bounded, passed, sound.members⟩

variable {after : Group}

theorem Group.Sound.finish {cancelled interrupted accepted stored : Bool}
    (sound : g.Sound platform unmarshal)
    (stepped : g.step config platform unmarshal (.finish name cancelled interrupted accepted stored) =
      some after) : after.Sound platform unmarshal := by
  simp only [Group.step, Option.bind_eq_bind, Option.bind_eq_some_iff,
    Option.ite_none_right_eq_some] at stepped
  obtain ⟨member, found, h, held, _, stepped⟩ := stepped
  have own := sound.members name member found
  have handling := own.handling h held
  have settled : _ → Settled unmarshal g.store.events h.payload :=
    @handleRecord_settled config unmarshal g.log g.store g.sessions h cancelled interrupted accepted
      handling
  generalize handleRecord config unmarshal (fun _ => h.env cancelled interrupted) accepted h.payload =
    result at stepped settled
  have through (sent : result = .ok () ∨ result = .error .commit) :
      SettledBelow unmarshal (g.log h.partition) g.store.events (h.offset + 1) :=
    handling.before.succ handling.record (settled sent)
  have passed : ∀ partition, SettledBelow unmarshal (g.log partition) g.store.events
      ((if result = .ok () ∨ (result = .error .commit ∧ stored = true) then
        Function.update g.committed h.partition (h.offset + 1) else g.committed) partition) := by
    intro partition
    split
    · rename_i sent
      by_cases same : partition = h.partition
      · subst same
        rw [Function.update_self]
        exact through (sent.imp_right And.left)
      · rw [Function.update_of_ne same]
        exact sound.committed partition
    · exact sound.committed partition
  cases result with
  | error cause =>
    cases stepped
    exact (sound.place (by simp)).advance passed
  | ok value =>
    cases stepped
    refine (sound.place ?_).advance passed
    rintro _ ⟨⟩
    refine ⟨?_, by simp⟩
    -- the position was moved past the record when it was polled
    intro partition offset reached
    rcases own.positions partition offset reached with before | ⟨polled, same, rfl, rfl⟩
    · exact .inl before
    · cases Option.some.inj (same.symm.trans held)
      exact .inl (through (.inl rfl))

theorem Group.Sound.poll {partition : Nat} (sound : g.Sound platform unmarshal)
    (stepped : g.step config platform unmarshal (.poll name partition) = some after) :
    after.Sound platform unmarshal := by
  simp only [Group.step, Option.bind_eq_bind, Option.bind_eq_some_iff,
    Option.ite_none_left_eq_some, Option.some.injEq] at stepped
  obtain ⟨member, found, free, offset, position, payload, record, rfl⟩ := stepped
  have idle : member.handling = none := by simpa using free
  have own := sound.members name member found
  apply sound.place
  rintro _ ⟨⟩
  constructor
  · intro other place reached
    rcases Transition.update_found reached with ⟨before, _⟩ | ⟨rfl, moved⟩
    · exact .inl (own.idle idle before)
    · exact .inr ⟨_, rfl, rfl, Option.some.inj moved⟩
  · rintro _ ⟨⟩
    exact ⟨record, own.idle idle position, by simp, by simp, by simp⟩

theorem Group.Sound.attempt {statement : Attempt} (sound : g.Sound platform unmarshal)
    (stepped : g.step config platform unmarshal (.attempt name statement) = some after) :
    after.Sound platform unmarshal := by
  simp only [Group.step, Option.bind_eq_bind, Option.bind_eq_some_iff, Option.some.injEq] at stepped
  obtain ⟨member, found, h, held, made, tried, rfl⟩ := stepped
  have own := sound.members name member found
  obtain ⟨valid, grows, handling, partition, offset⟩ :=
    attempt_sound sound.valid sound.bounded (own.handling h held) tried
  have bounded : ∀ tx ∈ made.1.active, tx.session < g.sessions + 1 := by
    intro tx member
    rcases grows.active tx member with ⟨old, present, number, _⟩ | new
    · exact Nat.lt_succ_of_lt (number ▸ sound.bounded old present)
    · exact Nat.lt_succ_of_le new.le
  have unchanged (partition : Nat) : g.log partition <+: g.log partition := List.prefix_rfl
  have grown := sound.grow unchanged valid grows (Nat.le_succ g.sessions) bounded
  apply grown.place
  rintro _ ⟨⟩
  constructor
  · intro other place reached
    rcases own.positions other place reached with before | ⟨polled, same, rfl, rfl⟩
    · exact .inl (before.mono (unchanged other) grows.events)
    · cases Option.some.inj (same.symm.trans held)
      exact .inr ⟨made.2, rfl, partition, by rw [offset]⟩
  · rintro _ ⟨⟩
    exact handling

theorem Group.step_sound {action : GroupAction} (sound : g.Sound platform unmarshal)
    (stepped : g.step config platform unmarshal action = some after) :
    after.Sound platform unmarshal := by
  cases action with
  | produce partition payload =>
    cases stepped
    have appended (other : Nat) : g.log other <+:
        Function.update g.log partition (g.log partition ++ [payload]) other := by
      by_cases same : other = partition
      · subst same
        rw [Function.update_self]
        exact List.prefix_append _ _
      · rw [Function.update_of_ne same]
    exact sound.grow appended sound.valid (.refl g.sessions g.store) (Nat.le_refl _) sound.bounded
  | start name =>
    simp only [Group.step] at stepped
    split at stepped
    · contradiction
    · cases stepped
      exact sound.place (by rintro _ ⟨⟩; exact ⟨by simp, by simp⟩)
  | assign name partition =>
    simp only [Group.step, Option.bind_eq_bind, Option.bind_eq_some_iff,
      Option.ite_none_left_eq_some, Option.some.injEq] at stepped
    obtain ⟨member, found, _, rfl⟩ := stepped
    apply sound.place
    rintro _ ⟨⟩
    apply (sound.members name member found).move
    rintro offset ⟨⟩
    exact sound.committed partition
  | revoke name partition =>
    simp only [Group.step, Option.bind_eq_bind, Option.bind_eq_some_iff,
      Option.ite_none_left_eq_some, Option.some.injEq] at stepped
    obtain ⟨member, found, _, rfl⟩ := stepped
    apply sound.place
    rintro _ ⟨⟩
    exact (sound.members name member found).move nofun
  | poll name partition => exact sound.poll stepped
  | attempt name statement => exact sound.attempt stepped
  | rollback session =>
    simp only [Group.step, Option.map_eq_some_iff] at stepped
    obtain ⟨store, aborted, rfl⟩ := stepped
    have closed : store = g.store.close session := by
      simp only [Analytics.step, Option.map_eq_some_iff] at aborted
      obtain ⟨_, _, rfl⟩ := aborted
      rfl
    subst closed
    exact sound.grow (fun _ => List.prefix_rfl) (valid_close sound.valid session)
      (.close g.sessions session g.store) (Nat.le_refl _)
      (fun tx member => sound.bounded tx (mem_others.mp member).1)
  | finish name cancelled interrupted accepted stored => exact sound.finish stepped
  | stop name =>
    simp only [Group.step, Option.map_eq_some_iff] at stepped
    obtain ⟨member, found, rfl⟩ := stepped
    exact sound.place (by simp)

/-- In every run, a record that the group has moved past, because its offset is
below the committed one or below the position of an idle process, failed decoding
or validation or has its event stored. -/
theorem passed_records_are_stored {actions : List GroupAction}
    (path : Transition.run (Group.step config platform unmarshal) Group.initial actions = some g)
    {partition offset : Nat} (passed : offset < g.committed partition ∨
      ∃ name member position, g.members name = some member ∧ member.handling = none ∧
        member.positions partition = some position ∧ offset < position) :
    ∃ payload, (g.log partition)[offset]? = some payload ∧
      (decodeGatewayAccessEvent unmarshal payload = none ∨
        ∃ event, decodeGatewayAccessEvent unmarshal payload = some event ∧
          ∃ row ∈ g.store.events, row.eventID = event.eventID) := by
  have sound : g.Sound platform unmarshal :=
    Transition.run_invariant Group.step_sound path Group.initial_sound
  rcases passed with committed | ⟨name, member, position, found, idle, reached, before⟩
  · exact sound.committed partition offset committed
  · exact (sound.members name member found).idle idle reached offset before

/-- A process loses the reply to its transaction, meets its own row at the second
attempt and fails to commit the offset. Another process takes over, and goes on to
a record that is not JSON. -/
def takeover : List GroupAction := [
  .produce 0 (samplePayload (lit "/orders/7")), .produce 0 (lit "x"),
  .start 1, .assign 1 0, .poll 1 0,
  .attempt 1 .begin, .attempt 1 .insert, .attempt 1 .upsert, .attempt 1 (.commit true),
  .attempt 1 .begin, .attempt 1 .insert, .finish 1 false false false false,
  .start 2, .assign 2 0, .poll 2 0, .attempt 2 .begin, .attempt 2 .insert,
  .finish 2 false false true true, .poll 2 0, .finish 2 false false true true]

theorem takeover_stores_record :
    ∃ g, Transition.run (Group.step sampleConfig asciiPlatform sampleUnmarshal) Group.initial takeover =
        some g ∧ g.committed 0 = 2 ∧
      ∃ payload, (g.log 0)[0]? = some payload ∧
        (decodeGatewayAccessEvent sampleUnmarshal payload = none ∨
          ∃ event, decodeGatewayAccessEvent sampleUnmarshal payload = some event ∧
            ∃ row ∈ g.store.events, row.eventID = event.eventID) := by
  have both : (Transition.run (Group.step sampleConfig asciiPlatform sampleUnmarshal) Group.initial
      takeover).any (fun g => g.committed 0 = 2) = true := by decide +kernel
  obtain ⟨g, path, committed⟩ := (Option.any_eq_true _ _).mp both
  have two : g.committed 0 = 2 := of_decide_eq_true committed
  exact ⟨g, path, two, passed_records_are_stored path (.inl (two ▸ by decide))⟩

end EdgeGuard.Analytics
