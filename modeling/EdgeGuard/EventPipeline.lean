import EdgeGuard.Analytics.EventRecords
import EdgeGuard.Analytics.Offsets
import EdgeGuard.Go.JsonStream
import EdgeGuard.Topic

/-! Access events from the gateways to the tables of Analytics. Gateways publish to one
topic, each through a client with a bounded buffer, and the consumers of the group store
what they read there. Processes end and connections break at any moment. -/
namespace EdgeGuard.EventPipeline
open Go Go.Json Transition Analytics

/-- `published` are the calls of `PublishGatewayAccess` that returned no error, each with
its gateway. -/
structure State (τ : Type) where
  topic : τ
  published : List (Nat × GatewayAccessEvent)
  group : Group

/-- `client` is what a client of a gateway does besides storing records, `consume` a step
of the consumers. -/
inductive Action where
  | publish (gateway : Nat) (trace : List (Str × Str)) (event : GatewayAccessEvent)
  | deliver (gateway partition : Nat)
  | client (action : Topic.Action AccessRecord)
  | consume (action : GroupAction)

/-- The actions of a client that neither hand over a record nor store one. -/
def background : Topic.Action AccessRecord → Bool
  | .produce _ _ | .append _ _ => false
  | _ => true

/-- Records come to the partitions from the gateways only. -/
def consuming : GroupAction → Bool
  | .produce _ _ => false
  | _ => true

/-- The size of the buffer, the partition of a key, the topic, and the rest of the
consumers. -/
structure Setting where
  maxBufferedRecords : Nat
  partitioner : Str → Nat
  topic : Str
  config : Config
  platform : Platform

def Setting.partitionOf (setting : Setting) (record : AccessRecord) : Nat := setting.partitioner record.key

section Steps
variable {ν τ : Type} (json : Stream ν) (setting : Setting) (cluster : Topic.Cluster τ AccessRecord)

def State.start : State τ := ⟨cluster.new, [], .initial⟩

def groupStep (group : Group) (action : GroupAction) : Option Group :=
  group.step setting.config setting.platform (unmarshalEvent json) action

def step (s : State τ) : Action → Option (State τ)
  | .publish gateway trace event =>
    if event.Int64 then match publishGatewayAccess json trace setting.topic event with
      | .error _ => ((cluster.view s.topic).producers gateway).map (fun _ => s)
      | .ok record => (cluster.act s.topic (.produce gateway record)).map
        (fun topic => { s with topic, published := s.published ++ [(gateway, event)] })
    else none
  | .deliver gateway partition => do
    let producer ← (cluster.view s.topic).producers gateway
    let record ← producer.first setting.partitionOf partition
    let topic ← cluster.act s.topic (.append gateway partition)
    let group ← groupStep json setting s.group (.produce partition record.value)
    some { s with topic, group }
  | .client action =>
    if background action then (cluster.act s.topic action).map ({ s with topic := · }) else none
  | .consume action =>
    if consuming action then (groupStep json setting s.group action).map ({ s with group := · }) else none

end Steps

section Origin
variable {platform : Platform} {config : Config} {unmarshal : Str → Option GatewayAccessEvent}
  {P : GatewayAccessEvent → Prop}

theorem attempt_within {s : Store} {sessions : Nat} {h : Handling} {statement : Attempt}
    {after : Store × Handling} (valid : s.Valid platform)
    (read : ∀ event, decodeGatewayAccessEvent unmarshal h.payload = some event → P event)
    (within : s.Within platform P)
    (stepped : attempt config platform unmarshal s sessions h statement = some after) :
    after.1.Within platform P := by
  cases statement with
  | begin =>
    simp only [attempt, Option.bind_eq_bind, Option.bind_eq_some_iff, Option.ite_none_left_eq_some] at stepped
    obtain ⟨event, decoded, _, stepped⟩ := stepped
    split at stepped
    · cases stepped
      exact within
    · obtain ⟨t, begun, rfl⟩ := Option.map_eq_some_iff.mp stepped
      refine step_within ?_ valid within begun
      intro session other opens
      cases opens
      exact read event decoded
  | insert =>
    simp only [attempt, Option.bind_eq_bind, Option.bind_eq_some_iff] at stepped
    obtain ⟨own, _, tx, _, t, inserted, stepped⟩ := stepped
    have kept := step_within (by simp) valid within inserted
    split at stepped
    all_goals
      cases stepped
      exact kept
  | upsert =>
    simp only [attempt, Option.bind_eq_bind, Option.bind_eq_some_iff] at stepped
    obtain ⟨own, _, tx, _, t, upserted, stepped⟩ := stepped
    have kept := step_within (by simp) valid within upserted
    split at stepped
    all_goals
      cases stepped
      exact kept
  | commit lost =>
    simp only [attempt, Option.bind_eq_bind, Option.bind_eq_some_iff, Option.some.injEq] at stepped
    obtain ⟨own, _, tx, _, t, committed, rfl⟩ := stepped
    exact step_within (by simp) valid within committed
  | fail =>
    simp only [attempt] at stepped
    split at stepped
    · cases stepped
      exact within.close _
    · simp only [Option.bind_eq_bind, Option.bind_eq_some_iff, Option.ite_none_right_eq_some,
        Option.some.injEq] at stepped
      obtain ⟨_, _, _, rfl⟩ := stepped
      exact within

/-- What a step of the group does to the partitions and the tables. -/
inductive GroupEffect (config : Config) (platform : Platform) (unmarshal : Str → Option GatewayAccessEvent)
    (g : Group) : GroupAction → (Nat → List Str) → Store → Prop
  | produce (partition : Nat) (payload : Str) : GroupEffect config platform unmarshal g (.produce partition payload)
      (Function.update g.log partition (g.log partition ++ [payload])) g.store
  | keep (action : GroupAction) : GroupEffect config platform unmarshal g action g.log g.store
  | rollback (session : Nat) (store : Store) (aborted : Analytics.step platform g.store (.abort session) = some store) :
      GroupEffect config platform unmarshal g (.rollback session) g.log store
  | attempt (name : Nat) (statement : Attempt) (member : Member) (h : Handling) (made : Store × Handling)
      (found : g.members name = some member) (held : member.handling = some h)
      (tried : attempt config platform unmarshal g.store g.sessions h statement = some made) :
      GroupEffect config platform unmarshal g (.attempt name statement) g.log made.1

theorem group_effect {g after : Group} {action : GroupAction}
    (stepped : g.step config platform unmarshal action = some after) :
    GroupEffect config platform unmarshal g action after.log after.store := by
  cases action with
  | produce partition payload =>
    cases stepped
    exact .produce partition payload
  | start name =>
    simp only [Group.step] at stepped
    split at stepped
    · cases stepped
    · cases stepped
      exact .keep _
  | assign name partition =>
    simp only [Group.step, Option.bind_eq_bind, Option.bind_eq_some_iff, Option.ite_none_left_eq_some,
      Option.some.injEq] at stepped
    obtain ⟨_, _, _, rfl⟩ := stepped
    exact .keep _
  | revoke name partition =>
    simp only [Group.step, Option.bind_eq_bind, Option.bind_eq_some_iff, Option.ite_none_left_eq_some,
      Option.some.injEq] at stepped
    obtain ⟨_, _, _, rfl⟩ := stepped
    exact .keep _
  | poll name partition =>
    simp only [Group.step, Option.bind_eq_bind, Option.bind_eq_some_iff, Option.ite_none_left_eq_some,
      Option.some.injEq] at stepped
    obtain ⟨_, _, _, _, _, _, _, rfl⟩ := stepped
    exact .keep _
  | attempt name statement =>
    simp only [Group.step, Option.bind_eq_bind, Option.bind_eq_some_iff, Option.some.injEq] at stepped
    obtain ⟨member, found, h, held, made, tried, rfl⟩ := stepped
    exact .attempt name statement member h made found held tried
  | rollback session =>
    simp only [Group.step, Option.map_eq_some_iff] at stepped
    obtain ⟨store, aborted, rfl⟩ := stepped
    exact .rollback session store aborted
  | finish name cancelled interrupted accepted stored =>
    simp only [Group.step, Option.bind_eq_bind, Option.bind_eq_some_iff, Option.ite_none_right_eq_some] at stepped
    obtain ⟨_, _, _, _, _, stepped⟩ := stepped
    split at stepped
    all_goals
      cases stepped
      exact .keep _
  | stop name =>
    simp only [Group.step, Option.map_eq_some_iff] at stepped
    obtain ⟨_, _, rfl⟩ := stepped
    exact .keep _

theorem group_within {g after : Group} {action : GroupAction} (sound : g.Sound platform unmarshal)
    (read : ∀ h : Handling, h.Sound unmarshal g.log g.store g.sessions → ∀ event,
      decodeGatewayAccessEvent unmarshal h.payload = some event → P event)
    (within : g.store.Within platform P)
    (stepped : g.step config platform unmarshal action = some after) : after.store.Within platform P := by
  have effect := group_effect stepped
  generalize after.log = log, after.store = store at effect
  cases effect with
  | produce => exact within
  | keep => exact within
  | rollback session store aborted => exact step_within (by simp) sound.valid within aborted
  | attempt name statement member h made found held tried =>
    exact attempt_within sound.valid (read h ((sound.members name member found).handling h held)) within tried

theorem group_log {g after : Group} {action : GroupAction} (consumes : consuming action = true)
    (stepped : g.step config platform unmarshal action = some after) : after.log = g.log := by
  have effect := group_effect stepped
  generalize after.log = log, after.store = store at effect ⊢
  cases effect with
  | produce => cases consumes
  | keep => rfl
  | rollback => rfl
  | attempt => rfl

end Origin

section Runs
variable {ν τ : Type} {json : Stream ν} {setting : Setting} {cluster : Topic.Cluster τ AccessRecord} {s t : State τ}

/-- The record that a call has handed over. -/
def Recorded (json : Stream ν) (setting : Setting) (event : GatewayAccessEvent) (record : AccessRecord) : Prop :=
  event.Int64 ∧ ∃ trace, publishGatewayAccess json trace setting.topic event = .ok record

/-- The events that a gateway has published, in the order of the calls. -/
def State.calls (s : State τ) (gateway : Nat) : List GatewayAccessEvent :=
  (s.published.filter (·.1 = gateway)).map Prod.snd

def State.sources (s : State τ) : List GatewayAccessEvent := s.published.map (fun call => call.2.coerced)

/-- The partitions hold the records of the gateways, every handed record is that of a call,
and every stored event is that of a call. -/
structure Invariant (json : Stream ν) (setting : Setting) (cluster : Topic.Cluster τ AccessRecord) (s : State τ) :
    Prop where
  balanced : Topic.Balanced setting.maxBufferedRecords setting.partitionOf (cluster.view s.topic)
  sound : s.group.Sound setting.platform (unmarshalEvent json)
  log : ∀ partition, s.group.log partition = ((cluster.view s.topic).log partition).map (fun entry => entry.2.value)
  handed : ∀ gateway, List.Forall₂ (Recorded json setting) (s.calls gateway)
    ((cluster.view s.topic).history gateway).handed
  origin : s.group.store.Within setting.platform (· ∈ s.sources)

theorem Recorded.decoded (laws : json.Documented) {event : GatewayAccessEvent} {record : AccessRecord}
    (recorded : Recorded json setting event record) :
    decodeGatewayAccessEvent (unmarshalEvent json) record.value = some event.coerced := by
  obtain ⟨int64, trace, published⟩ := recorded
  obtain ⟨valid, marshalled, _⟩ := publishGatewayAccess_ok published
  exact decode_marshal laws valid int64 marshalled

theorem forall₂_mem {α β : Type} {R : α → β → Prop} {xs : List α} {ys : List β} (related : List.Forall₂ R xs ys)
    {y : β} (member : y ∈ ys) : ∃ x ∈ xs, R x y := by
  induction related with
  | nil => cases member
  | @cons x other xs ys first _ ih =>
    rcases List.mem_cons.mp member with rfl | later
    · exact ⟨x, List.mem_cons_self, first⟩
    · obtain ⟨found, listed, is⟩ := ih later
      exact ⟨found, List.mem_cons_of_mem _ listed, is⟩

theorem Invariant.call (inv : Invariant json setting cluster s) {gateway : Nat} {record : AccessRecord}
    (member : record ∈ ((cluster.view s.topic).history gateway).handed) :
    ∃ event, (gateway, event) ∈ s.published ∧ Recorded json setting event record := by
  obtain ⟨event, listed, recorded⟩ := forall₂_mem (inv.handed gateway) member
  obtain ⟨⟨caller, _⟩, present, rfl⟩ := List.mem_map.mp listed
  rw [List.mem_filter, decide_eq_true_eq] at present
  obtain ⟨present, rfl⟩ := present
  exact ⟨_, present, recorded⟩

theorem Invariant.supplied (laws : json.Documented) (inv : Invariant json setting cluster s) {partition : Nat}
    {payload : Str} (member : payload ∈ s.group.log partition) {event : GatewayAccessEvent}
    (decoded : decodeGatewayAccessEvent (unmarshalEvent json) payload = some event) : event ∈ s.sources := by
  rw [inv.log] at member
  obtain ⟨⟨gateway, record⟩, entry, rfl⟩ := List.mem_map.mp member
  obtain ⟨_, handed⟩ := (inv.balanced gateway).entry entry
  obtain ⟨original, call, recorded⟩ := inv.call handed
  cases (recorded.decoded laws).symm.trans decoded
  exact List.mem_map_of_mem call

theorem Invariant.group_origin (laws : json.Documented) (inv : Invariant json setting cluster s) {action : GroupAction}
    {after : Group} (stepped : groupStep json setting s.group action = some after) :
    after.store.Within setting.platform (· ∈ s.sources) := by
  refine group_within inv.sound ?_ inv.origin stepped
  intro h sound event decoded
  exact inv.supplied laws (List.mem_of_getElem? sound.record) decoded

theorem start_invariant (kafka : cluster.Documented setting.maxBufferedRecords setting.partitionOf) :
    Invariant json setting cluster (.start cluster) where
  balanced := by
    change Topic.Balanced _ _ (cluster.view cluster.new)
    rw [kafka.new]
    exact Topic.start_balanced
  sound := Group.initial_sound
  log := fun partition => by
    change [] = ((cluster.view cluster.new).log partition).map _
    rw [kafka.new]
    rfl
  handed := fun gateway => by
    change List.Forall₂ _ [] ((cluster.view cluster.new).history gateway).handed
    rw [kafka.new]
    exact .nil
  origin := by constructor <;> simp [State.start, Group.initial, Store.empty]

theorem calls_append (s : State τ) (topic : τ) (caller gateway : Nat) (event : GatewayAccessEvent) :
    State.calls { s with topic, published := s.published ++ [(caller, event)] } gateway =
      s.calls gateway ++ if caller = gateway then [event] else [] := by
  rw [State.calls, List.filter_append, List.map_append]
  congr 1
  by_cases same : caller = gateway
  · simp [same]
  · simp [same]

theorem step_invariant (laws : json.Documented)
    (kafka : cluster.Documented setting.maxBufferedRecords setting.partitionOf) {action : Action}
    (inv : Invariant json setting cluster s)
    (stepped : step json setting cluster s action = some t) : Invariant json setting cluster t := by
  cases action with
  | publish gateway trace event =>
    simp only [step, Option.ite_none_right_eq_some] at stepped
    obtain ⟨int64, stepped⟩ := stepped
    split at stepped
    · obtain ⟨_, _, rfl⟩ := Option.map_eq_some_iff.mp stepped
      exact inv
    · rename_i record published
      obtain ⟨topic, produced, rfl⟩ := Option.map_eq_some_iff.mp stepped
      obtain ⟨log, handed⟩ := Topic.step_effect (kafka.act produced)
      refine ⟨Topic.step_balanced inv.balanced (kafka.act produced), inv.sound, ?_, ?_, ?_⟩
      · intro partition
        change _ = ((cluster.view topic).log partition).map _
        rw [log (by simp)]
        exact inv.log partition
      · intro other
        rw [calls_append]
        change List.Forall₂ _ _ ((cluster.view topic).history other).handed
        rw [handed other]
        refine List.rel_append (inv.handed other) ?_
        change List.Forall₂ _ _ (if gateway = other then [record] else [])
        by_cases own : gateway = other
        · rw [if_pos own, if_pos own]
          exact .cons ⟨int64, trace, published⟩ .nil
        · rw [if_neg own, if_neg own]
          exact .nil
      · exact inv.origin.mono (by simp +contextual [State.sources])
  | deliver gateway partition =>
    simp only [step, Option.bind_eq_bind, Option.bind_eq_some_iff, Option.some.injEq] at stepped
    obtain ⟨producer, found, record, first, topic, appended, group, produced, rfl⟩ := stepped
    have appended := kafka.act appended
    refine ⟨Topic.step_balanced inv.balanced appended, Group.step_sound inv.sound produced, ?_, ?_, ?_⟩
    · intro other
      simp only [Topic.step, found, first, Option.bind_eq_bind, Option.bind_some, Option.some.injEq]
        at appended
      cases produced
      change _ = ((cluster.view topic).log other).map _
      rw [← appended]
      by_cases here : other = partition
      · subst here
        simp [inv.log]
      · simp [here, inv.log]
    · intro other
      have same : ((cluster.view topic).history other).handed = ((cluster.view s.topic).history other).handed :=
        ((Topic.step_effect appended).2 other).trans (List.append_nil _)
      exact same ▸ inv.handed other
    · exact inv.group_origin laws produced
  | client action =>
    simp only [step, Option.ite_none_right_eq_some] at stepped
    obtain ⟨quiet, stepped⟩ := stepped
    obtain ⟨topic, moved, rfl⟩ := Option.map_eq_some_iff.mp stepped
    have moved := kafka.act moved
    obtain ⟨log, handed⟩ := Topic.step_effect moved
    refine ⟨Topic.step_balanced inv.balanced moved, inv.sound, ?_, ?_, inv.origin⟩
    · intro partition
      have same : (cluster.view topic).log = (cluster.view s.topic).log := by
        refine log ?_
        rintro _ _ rfl
        cases quiet
      change s.group.log partition = ((cluster.view topic).log partition).map _
      rw [same]
      exact inv.log partition
    · intro gateway
      have same : ((cluster.view topic).history gateway).handed = ((cluster.view s.topic).history gateway).handed := by
        rw [handed gateway]
        cases action with
        | produce => cases quiet
        | _ => exact List.append_nil _
      exact same ▸ inv.handed gateway
  | consume action =>
    simp only [step, Option.ite_none_right_eq_some] at stepped
    obtain ⟨consumes, stepped⟩ := stepped
    obtain ⟨group, moved, rfl⟩ := Option.map_eq_some_iff.mp stepped
    refine ⟨inv.balanced, Group.step_sound inv.sound moved, ?_, inv.handed, ?_⟩
    · intro partition
      exact (congrFun (group_log consumes moved) partition).trans (inv.log partition)
    · exact inv.group_origin laws moved

section Path
variable (laws : json.Documented) (kafka : cluster.Documented setting.maxBufferedRecords setting.partitionOf)
  {actions : List Action} (path : run (step json setting cluster) (.start cluster) actions = some s)
include laws kafka path

theorem run_pipeline : Invariant json setting cluster s :=
  run_invariant (step_invariant laws kafka) path (start_invariant kafka)

end Path

def sampleSetting : Setting := ⟨2, fun key => key.length, lit "gateway.access", sampleConfig, asciiPlatform⟩

def sampleCluster : Topic.Cluster (Topic.State AccessRecord) AccessRecord :=
  Topic.State.cluster sampleSetting.maxBufferedRecords sampleSetting.partitionOf

def recordOf (event : GatewayAccessEvent) : AccessRecord :=
  (publishGatewayAccess compactStream [] sampleSetting.topic event).toOption.getD ⟨[], [], [], 0, []⟩

/-- Three events for a buffer of two. The first is acknowledged and stored, the second is
under way when the process ends. -/
def threeEvents : List Action := [
  .client (.start 0), .publish 0 [] (sampleEvent (lit "a") 40), .publish 0 [] (sampleEvent (lit "b") 7),
  .publish 0 [] (sampleEvent (lit "c") 9), .deliver 0 43, .deliver 0 43,
  .client (.ack 0 (recordOf (sampleEvent (lit "a") 40))), .consume (.start 1), .consume (.assign 1 43),
  .consume (.poll 1 43), .consume (.attempt 1 .begin), .consume (.attempt 1 .insert), .consume (.attempt 1 .upsert),
  .consume (.attempt 1 (.commit false)), .consume (.finish 1 false false true true), .client (.stop 0)]

theorem threeEvents_run : ∃ s,
    run (step compactStream sampleSetting sampleCluster) (.start sampleCluster) threeEvents = some s ∧
    s.group.store.events.map (·.eventID) = [lit "a"] ∧ s.group.committed 43 = 1 ∧
    (s.topic.history 0).acked = [recordOf (sampleEvent (lit "a") 40)] ∧
    (s.topic.history 0).failed = [recordOf (sampleEvent (lit "c") 9)] ∧
    (s.topic.history 0).lost = [recordOf (sampleEvent (lit "b") 7)] := by
  have observed : (run (step compactStream sampleSetting sampleCluster) (.start sampleCluster) threeEvents).map
      (fun s => (s.group.store.events.map (·.eventID), s.group.committed 43, (s.topic.history 0).acked,
        (s.topic.history 0).failed, (s.topic.history 0).lost)) =
      some ([lit "a"], 1, [recordOf (sampleEvent (lit "a") 40)], [recordOf (sampleEvent (lit "c") 9)],
        [recordOf (sampleEvent (lit "b") 7)]) := by decide +kernel
  obtain ⟨s, path, same⟩ := Option.map_eq_some_iff.mp observed
  simp only [Prod.mk.injEq] at same
  exact ⟨s, path, same⟩

/-- Identifiers tell the published events apart. -/
def State.Distinct (s : State τ) : Prop :=
  ∀ a ∈ s.sources, ∀ b ∈ s.sources, a.eventID = b.eventID → a = b

end Runs

end EdgeGuard.EventPipeline
