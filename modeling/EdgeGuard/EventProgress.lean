import EdgeGuard.EventPipeline
import EdgeGuard.Gateway.AccessEvents
import Mathlib.Data.List.NodupEquivFin

/-! How far the consumers of access events come: a record whose event the tables refuse is
never passed, and neither is anything behind it in its partition. -/
namespace EdgeGuard.EventPipeline
open Go Go.Json Transition Analytics

section Groups
variable {platform : Platform} {config : Config} {unmarshal : Str → Option GatewayAccessEvent} {g after : Group}

/-- The event is that of a record, and all records before it are settled. -/
def Reached (unmarshal : Str → Option GatewayAccessEvent) (log : Nat → List Str) (events : List EventRow)
    (event : GatewayAccessEvent) : Prop :=
  ∃ partition offset payload, (log partition)[offset]? = some payload ∧
    decodeGatewayAccessEvent unmarshal payload = some event ∧
    SettledBelow unmarshal (log partition) events offset

theorem group_grows {action : GroupAction} (sound : g.Sound platform unmarshal)
    (stepped : g.step config platform unmarshal action = some after) :
    (∀ partition, g.log partition <+: after.log partition) ∧
      ∀ row ∈ g.store.events, row ∈ after.store.events := by
  have effect := group_effect stepped
  generalize after.log = log, after.store = store at effect ⊢
  cases effect with
  | produce partition payload =>
    refine ⟨?_, fun _ stored => stored⟩
    intro other
    by_cases same : other = partition
    · subst same
      rw [Function.update_self]
      exact List.prefix_append _ _
    · rw [Function.update_of_ne same]
  | keep => exact ⟨fun _ => List.prefix_rfl, fun _ stored => stored⟩
  | rollback session store aborted =>
    have grows : g.store.Grows g.sessions store := step_grows (by simp) aborted
    exact ⟨fun _ => List.prefix_rfl, grows.events⟩
  | attempt name statement member h made found held tried =>
    have own := (sound.members name member found).handling h held
    obtain ⟨_, grows, _⟩ := attempt_sound sound.valid sound.bounded own tried
    exact ⟨fun _ => List.prefix_rfl, grows.events⟩

theorem group_reached {action : GroupAction} (sound : g.Sound platform unmarshal)
    (within : g.store.Within platform (Reached unmarshal g.log g.store.events))
    (stepped : g.step config platform unmarshal action = some after) :
    after.store.Within platform (Reached unmarshal after.log after.store.events) := by
  obtain ⟨appended, kept⟩ := group_grows sound stepped
  have read : ∀ h : Handling, h.Sound unmarshal g.log g.store g.sessions → ∀ event,
      decodeGatewayAccessEvent unmarshal h.payload = some event →
      Reached unmarshal g.log g.store.events event := by
    intro h own event decoded
    exact ⟨h.partition, h.offset, h.payload, own.record, decoded, own.before⟩
  refine (group_within sound read within stepped).mono ?_
  rintro event ⟨partition, offset, payload, placed, decoded, before⟩
  exact ⟨partition, offset, payload, record_of_prefix (appended partition) placed, decoded,
    before.mono (appended partition) kept⟩

/-- No two records have events with one identifier. -/
def Unrepeated (unmarshal : Str → Option GatewayAccessEvent) (log : Nat → List Str) : Prop :=
  ∀ {partition other offset place : Nat} {payload text : Str} {event source : GatewayAccessEvent},
    (log partition)[offset]? = some payload → (log other)[place]? = some text →
    decodeGatewayAccessEvent unmarshal payload = some event →
    decodeGatewayAccessEvent unmarshal text = some source → event.eventID = source.eventID →
    partition = other ∧ offset = place

theorem bound_of_unsettled {log : List Str} {events : List EventRow} {bound offset : Nat} {payload : Str}
    (settled : SettledBelow unmarshal log events bound) (placed : log[offset]? = some payload)
    (unsettled : ¬ Settled unmarshal events payload) : bound ≤ offset := by
  apply Nat.le_of_not_lt
  intro below
  obtain ⟨found, same, done⟩ := settled offset below
  cases placed.symm.trans same
  exact unsettled done

theorem refused_blocks (sound : g.Sound platform unmarshal)
    (within : g.store.Within platform (Reached unmarshal g.log g.store.events))
    (unrepeated : Unrepeated unmarshal g.log) {partition offset : Nat} {payload : Str} {event : GatewayAccessEvent}
    (placed : (g.log partition)[offset]? = some payload)
    (decoded : decodeGatewayAccessEvent unmarshal payload = some event)
    (refused : eventRow platform event = none) :
    g.committed partition ≤ offset ∧
      ∀ row ∈ g.store.events, ∃ other earlier text source, (g.log other)[earlier]? = some text ∧
        decodeGatewayAccessEvent unmarshal text = some source ∧ eventRow platform source = some row ∧
        (other = partition → earlier < offset) := by
  have unsettled : ¬ Settled unmarshal g.store.events payload := by
    rintro (invalid | ⟨same, read, row, stored, id⟩)
    · cases invalid.symm.trans decoded
    · cases read.symm.trans decoded
      obtain ⟨source, ⟨other, earlier, text, found, reading, _⟩, built⟩ := within.stored row stored
      have ids : source.eventID = event.eventID := (eventRow_represents built).id.symm.trans id
      obtain ⟨rfl, rfl⟩ := unrepeated found placed reading decoded ids
      cases found.symm.trans placed
      cases reading.symm.trans decoded
      cases built.symm.trans refused
  refine ⟨bound_of_unsettled (sound.committed partition) placed unsettled, ?_⟩
  intro row stored
  obtain ⟨source, ⟨other, earlier, text, found, reading, before⟩, built⟩ := within.stored row stored
  refine ⟨other, earlier, text, source, found, reading, built, ?_⟩
  rintro rfl
  refine Nat.lt_of_le_of_ne (bound_of_unsettled before placed unsettled) ?_
  rintro rfl
  cases found.symm.trans placed
  cases reading.symm.trans decoded
  cases built.symm.trans refused

end Groups

section Blocked
variable {ν τ : Type} {json : Stream ν} {setting : Setting} {cluster : Topic.Cluster τ AccessRecord} {s t : State τ}

/-- Every published event has an identifier of its own. -/
def State.Fresh (s : State τ) : Prop := (s.sources.map (·.eventID)).Nodup

theorem step_group {action : Action} (stepped : step json setting cluster s action = some t) :
    t.group = s.group ∨ ∃ consumed, groupStep json setting s.group consumed = some t.group := by
  cases action with
  | publish gateway trace event =>
    simp only [step, Option.ite_none_right_eq_some] at stepped
    obtain ⟨_, stepped⟩ := stepped
    split at stepped
    · obtain ⟨_, _, rfl⟩ := Option.map_eq_some_iff.mp stepped
      exact .inl rfl
    · obtain ⟨_, _, rfl⟩ := Option.map_eq_some_iff.mp stepped
      exact .inl rfl
  | deliver gateway partition =>
    simp only [step, Option.bind_eq_bind, Option.bind_eq_some_iff, Option.some.injEq] at stepped
    obtain ⟨_, _, _, _, _, _, _, produced, rfl⟩ := stepped
    exact .inr ⟨_, produced⟩
  | client action =>
    simp only [step, Option.ite_none_right_eq_some] at stepped
    obtain ⟨_, _, rfl⟩ := (Option.map_eq_some_iff.mp stepped.2)
    exact .inl rfl
  | consume action =>
    simp only [step, Option.ite_none_right_eq_some] at stepped
    obtain ⟨_, moved, rfl⟩ := (Option.map_eq_some_iff.mp stepped.2)
    exact .inr ⟨_, moved⟩

/-- What is stored was taken up behind settled records. -/
def State.Ordered (json : Stream ν) (setting : Setting) (s : State τ) : Prop :=
  s.group.store.Within setting.platform (Reached (unmarshalEvent json) s.group.log s.group.store.events)

theorem run_ordered (laws : json.Documented)
    (kafka : cluster.Documented setting.maxBufferedRecords setting.partitionOf) {actions : List Action}
    (path : run (step json setting cluster) (.start cluster) actions = some s) : s.Ordered json setting := by
  have start : (State.start cluster).Ordered json setting := by
    constructor <;> simp [State.start, Group.initial, Store.empty]
  refine (run_invariant (P := fun s => Invariant json setting cluster s ∧ s.Ordered json setting) ?_ path
    ⟨start_invariant kafka, start⟩).2
  rintro s t action ⟨inv, ordered⟩ stepped
  refine ⟨step_invariant laws kafka inv stepped, ?_⟩
  rcases step_group stepped with same | ⟨consumed, moved⟩
  · rw [State.Ordered, same]
    exact ordered
  · exact group_reached inv.sound ordered moved

def identifier (json : Stream ν) (record : AccessRecord) : Option Str :=
  (decodeGatewayAccessEvent (unmarshalEvent json) record.value).map (·.eventID)

theorem handed_identifiers (laws : json.Documented) {calls : List GatewayAccessEvent} {handed : List AccessRecord}
    (related : List.Forall₂ (Recorded json setting) calls handed) :
    handed.map (identifier json) = calls.map (fun event => some event.coerced.eventID) := by
  induction related with
  | nil => rfl
  | cons recorded _ ih =>
    rw [List.map_cons, List.map_cons, ih, identifier, recorded.decoded laws]
    rfl

theorem Invariant.handed_fresh (laws : json.Documented) (inv : Invariant json setting cluster s) (fresh : s.Fresh)
    (gateway : Nat) : (((cluster.view s.topic).history gateway).handed.map (identifier json)).Nodup := by
  rw [handed_identifiers laws (inv.handed gateway), State.calls, List.map_map]
  have part : ((s.published.filter (·.1 = gateway)).map
      ((fun event : GatewayAccessEvent => some event.coerced.eventID) ∘ Prod.snd)).Sublist
      ((s.sources.map (·.eventID)).map some) := by
    rw [State.sources, List.map_map, List.map_map]
    exact List.filter_sublist.map _
  exact part.nodup (fresh.map (Option.some_injective _))

theorem entry_once {gateway : Nat} {record : AccessRecord} {entries : List (Nat × AccessRecord)}
    (once : ((Topic.storedBy gateway entries).map (identifier json)).Nodup) {offset place : Nat}
    (first : entries[offset]? = some (gateway, record)) (second : entries[place]? = some (gateway, record)) :
    offset = place := by
  by_contra apart
  have twice : List.Duplicate (gateway, record) entries := by
    rw [List.duplicate_iff_exists_distinct_get]
    obtain ⟨inside, here⟩ := List.getElem?_eq_some_iff.mp first
    obtain ⟨within, there⟩ := List.getElem?_eq_some_iff.mp second
    rcases Nat.lt_or_gt_of_ne apart with less | more
    · exact ⟨⟨offset, inside⟩, ⟨place, within⟩, less, here.symm, there.symm⟩
    · exact ⟨⟨place, within⟩, ⟨offset, inside⟩, more, there.symm, here.symm⟩
  have pair := (((List.duplicate_iff_sublist.mp twice).filter (fun entry => decide (entry.1 = gateway))).map
    Prod.snd).map (identifier json)
  have distinct := pair.nodup once
  simp at distinct

theorem Invariant.unrepeated (laws : json.Documented) (inv : Invariant json setting cluster s) (fresh : s.Fresh) :
    Unrepeated (unmarshalEvent json) s.group.log := by
  intro partition other offset place payload text event source placed found decoded reading ids
  rw [inv.log, List.getElem?_map] at placed found
  obtain ⟨⟨gateway, record⟩, here, rfl⟩ := Option.map_eq_some_iff.mp placed
  obtain ⟨⟨second, copy⟩, there, rfl⟩ := Option.map_eq_some_iff.mp found
  obtain ⟨at_first, handed⟩ := (inv.balanced gateway).entry (List.mem_of_getElem? here)
  obtain ⟨at_second, taken⟩ := (inv.balanced second).entry (List.mem_of_getElem? there)
  obtain ⟨call, made, recorded⟩ := inv.call handed
  obtain ⟨again, repeated, noted⟩ := inv.call taken
  cases (recorded.decoded laws).symm.trans decoded
  cases (noted.decoded laws).symm.trans reading
  -- one identifier is one call, so that both records are of one gateway
  have calls := fresh
  rw [State.Fresh, State.sources, List.map_map] at calls
  cases List.inj_on_of_nodup_map calls made repeated ids
  have unique := inv.handed_fresh laws fresh gateway
  have same : record = copy := by
    refine List.inj_on_of_nodup_map unique handed taken ?_
    rw [identifier, identifier, recorded.decoded laws, noted.decoded laws]
  subst same
  cases at_first.symm.trans at_second
  have part := ((List.sublist_append_left _ _).trans ((inv.balanced gateway).order partition)).trans
    List.filter_sublist
  exact ⟨rfl, entry_once ((part.map _).nodup unique) here there⟩

theorem eventRow_zero {platform : Platform} {event : GatewayAccessEvent} (zero : 0 ∈ event.requestPath) :
    eventRow platform event = none := by
  rw [Option.eq_none_iff_forall_ne_some]
  intro row built
  simp only [eventRow, Option.bind_eq_bind, Option.bind_eq_some_iff, Option.ite_none_right_eq_some] at built
  obtain ⟨_, _, ⟨texts, _⟩, _⟩ := built
  have path := texts event.requestPath (by simp [textColumns])
  simp [Postgres.textOk, zero] at path

/-- `GET /orders/%00`. -/
def zeroRequest : Gateway.IncomingRequest := { Gateway.ordersRequest [] with path := lit "/orders/" ++ [0] }

def zeroEvent : GatewayAccessEvent :=
  Gateway.buildAccessEvent Gateway.addressSHA256 (Gateway.ordersGateway Gateway.ordersProject) zeroRequest
    (Gateway.servedWith .ok)

/-- Two consumers, one after the other, meet the record before that of another event. -/
def zeroFirst : List Action := [
  .client (.start 0), .publish 0 [] zeroEvent, .publish 0 [] (sampleEvent (lit "b") 7), .deliver 0 43, .deliver 0 43,
  .consume (.start 1), .consume (.assign 1 43), .consume (.poll 1 43),
  .consume (.attempt 1 .begin), .consume (.attempt 1 .insert), .consume (.attempt 1 .begin),
  .consume (.attempt 1 .insert), .consume (.attempt 1 .begin), .consume (.attempt 1 .insert),
  .consume (.finish 1 false false true true), .consume (.start 2), .consume (.assign 2 43), .consume (.poll 2 43)]

end Blocked
end EdgeGuard.EventPipeline
