import EdgeGuard.Transition
import Mathlib.Algebra.Order.Group.Multiset
import Mathlib.Logic.Function.Basic
import Mathlib.Tactic.Abel

/-! A partitioned topic and the clients that produce to it. A client buffers the records it
is handed up to a limit and sends them in the background, those of one partition in their
order and each at most once; of every record it reports once that it was stored or that it
failed. A process can end at any moment, and nothing is reported of what it still had. The
topic of a system is a parameter, and `Cluster.Documented` is what is asked of it. -/
namespace EdgeGuard.Topic
open Transition

variable {ρ : Type}

/-- The records of a client that it has not reported yet: `waiting` were not stored, `sent`
were stored and the answer is under way. -/
structure Producer (ρ : Type) where
  waiting : List ρ
  sent : List ρ
  closed : Bool
  deriving DecidableEq

def Producer.new : Producer ρ := ⟨[], [], false⟩

/-- All records that were handed to the clients of a process and its successors, and what
became of them. -/
structure History (ρ : Type) where
  handed : List ρ
  acked : List ρ
  failed : List ρ
  lost : List ρ
  deriving DecidableEq

def History.empty : History ρ := ⟨[], [], [], []⟩

structure State (ρ : Type) where
  log : Nat → List (Nat × ρ)
  producers : Nat → Option (Producer ρ)
  history : Nat → History ρ

def State.start : State ρ := ⟨fun _ => [], fun _ => none, fun _ => .empty⟩

/-- A record fails before it is stored or after, when the answer does not come. -/
inductive Action (ρ : Type) where
  | start (name : Nat)
  | produce (name : Nat) (record : ρ)
  | append (name partition : Nat)
  | ack (name : Nat) (record : ρ)
  | fail (name : Nat) (record : ρ) (stored : Bool)
  | close (name : Nat)
  | stop (name : Nat)

section Steps
variable [DecidableEq ρ] (limit : Nat) (partitionOf : ρ → Nat)

def State.place (s : State ρ) (name : Nat) (producer : Option (Producer ρ)) (history : History ρ) : State ρ :=
  { s with
    producers := Function.update s.producers name producer
    history := Function.update s.history name history }

/-- The record that is stored next in a partition. -/
def Producer.first (p : Producer ρ) (partition : Nat) : Option ρ :=
  p.waiting.find? (partitionOf · = partition)

def Producer.store (p : Producer ρ) (partition : Nat) (record : ρ) : Producer ρ :=
  { p with waiting := p.waiting.eraseP (partitionOf · = partition), sent := p.sent ++ [record] }

/-- A record that the buffer does not take has failed. -/
def State.produced (s : State ρ) (name : Nat) (p : Producer ρ) (record : ρ) : State ρ :=
  let h := s.history name
  if p.closed = false ∧ p.waiting.length + p.sent.length < limit then
    s.place name (some { p with waiting := p.waiting ++ [record] }) { h with handed := h.handed ++ [record] }
  else s.place name (some p) { h with handed := h.handed ++ [record], failed := h.failed ++ [record] }

def step (s : State ρ) : Action ρ → Option (State ρ)
  | .start name => match s.producers name with
    | some _ => none
    | none => some (s.place name (some .new) (s.history name))
  | .produce name record => (s.producers name).map (s.produced limit name · record)
  | .append name partition => do
    let p ← s.producers name
    let record ← p.first partitionOf partition
    some { s.place name (some (p.store partitionOf partition record)) (s.history name) with
      log := Function.update s.log partition (s.log partition ++ [(name, record)]) }
  | .ack name record => do
    let p ← s.producers name
    if record ∈ p.sent then
      let h := s.history name
      some (s.place name (some { p with sent := p.sent.erase record }) { h with acked := h.acked ++ [record] })
    else none
  | .fail name record stored => do
    let p ← s.producers name
    let h := { s.history name with failed := (s.history name).failed ++ [record] }
    if stored then
      if record ∈ p.sent then some (s.place name (some { p with sent := p.sent.erase record }) h) else none
    else
      if record ∈ p.waiting then some (s.place name (some { p with waiting := p.waiting.erase record }) h) else none
  | .close name => do
    let p ← s.producers name
    let h := s.history name
    some (s.place name (some ⟨[], [], true⟩) { h with failed := h.failed ++ p.waiting ++ p.sent })
  | .stop name => do
    let p ← s.producers name
    let h := s.history name
    some (s.place name none { h with lost := h.lost ++ p.waiting ++ p.sent })

/-- A topic and its clients as a program finds them: what can happen to them, and what they
show of their state. -/
structure Cluster (τ ρ : Type) where
  view : τ → State ρ
  new : τ
  act : τ → Action ρ → Option τ

/-- Whatever happens is a step. -/
structure Cluster.Documented {τ : Type} (cluster : Cluster τ ρ) : Prop where
  new : cluster.view cluster.new = .start
  act : ∀ {before after action}, cluster.act before action = some after →
    step limit partitionOf (cluster.view before) action = some (cluster.view after)

/-- The topic that is no more than what it shows. -/
def State.cluster : Cluster (State ρ) ρ := ⟨id, .start, step limit partitionOf⟩

theorem State.cluster_documented : (cluster limit partitionOf : Cluster (State ρ) ρ).Documented limit partitionOf :=
  ⟨rfl, id⟩

end Steps

/-- What an action hands to a client. -/
def Action.handedTo (name : Nat) : Action ρ → List ρ
  | .produce other record => if other = name then [record] else []
  | _ => []

theorem place_handed {s : State ρ} {name : Nat} {producer : Option (Producer ρ)} {history : History ρ}
    (same : history.handed = (s.history name).handed) (other : Nat) :
    ((s.place name producer history).history other).handed = (s.history other).handed := by
  by_cases here : other = name
  · subst here
    simpa [State.place] using same
  · simp [State.place, here]

theorem step_effect [DecidableEq ρ] {limit : Nat} {partitionOf : ρ → Nat} {s t : State ρ} {action : Action ρ}
    (stepped : step limit partitionOf s action = some t) :
    ((∀ name partition, action ≠ .append name partition) → t.log = s.log) ∧
      ∀ name, (t.history name).handed = (s.history name).handed ++ action.handedTo name := by
  have placed {name : Nat} {producer : Option (Producer ρ)} {history : History ρ}
      (same : history.handed = (s.history name).handed) (quiet : ∀ other, action.handedTo other = []) (other : Nat) :
      ((s.place name producer history).history other).handed =
        (s.history other).handed ++ action.handedTo other := by
    rw [place_handed same, quiet, List.append_nil]
  cases action with
  | start name =>
    simp only [step] at stepped
    split at stepped
    · cases stepped
    · cases stepped
      exact ⟨fun _ => rfl, placed rfl (fun _ => rfl)⟩
  | produce name record =>
    obtain ⟨p, found, rfl⟩ := Option.map_eq_some_iff.mp stepped
    have added (producer : Option (Producer ρ)) (failed : List ρ) (other : Nat) :
        ((s.place name producer { s.history name with handed := (s.history name).handed ++ [record], failed }).history
          other).handed = (s.history other).handed ++ Action.handedTo other (.produce name record) := by
      by_cases here : other = name
      · subst here
        simp [State.place, Action.handedTo]
      · simp [State.place, here, Action.handedTo, Ne.symm here]
    unfold State.produced
    split
    · exact ⟨fun _ => rfl, added _ _⟩
    · exact ⟨fun _ => rfl, added _ _⟩
  | append name partition =>
    simp only [step, Option.bind_eq_bind, Option.bind_eq_some_iff, Option.some.injEq] at stepped
    obtain ⟨p, found, record, first, rfl⟩ := stepped
    exact ⟨fun other => absurd rfl (other name partition), @placed name (some (p.store partitionOf partition record))
      (s.history name) rfl (fun _ => rfl)⟩
  | ack name record =>
    simp only [step, Option.bind_eq_bind, Option.bind_eq_some_iff, Option.ite_none_right_eq_some,
      Option.some.injEq] at stepped
    obtain ⟨p, found, member, rfl⟩ := stepped
    exact ⟨fun _ => rfl, placed rfl (fun _ => rfl)⟩
  | fail name record stored =>
    simp only [step, Option.bind_eq_bind, Option.bind_eq_some_iff] at stepped
    obtain ⟨p, found, stepped⟩ := stepped
    split at stepped
    all_goals
      obtain ⟨member, ⟨⟩⟩ := Option.ite_none_right_eq_some.mp stepped
      exact ⟨fun _ => rfl, placed rfl (fun _ => rfl)⟩
  | close name =>
    simp only [step, Option.bind_eq_bind, Option.bind_eq_some_iff, Option.some.injEq] at stepped
    obtain ⟨p, found, rfl⟩ := stepped
    exact ⟨fun _ => rfl, placed rfl (fun _ => rfl)⟩
  | stop name =>
    simp only [step, Option.bind_eq_bind, Option.bind_eq_some_iff, Option.some.injEq] at stepped
    obtain ⟨p, found, rfl⟩ := stepped
    exact ⟨fun _ => rfl, placed rfl (fun _ => rfl)⟩

/-- The records of a client in a partition, in their order there. -/
def storedBy (name : Nat) (entries : List (Nat × ρ)) : List ρ := (entries.filter (·.1 = name)).map Prod.snd

theorem storedBy_append (name : Nat) (entries more : List (Nat × ρ)) :
    storedBy name (entries ++ more) = storedBy name entries ++ storedBy name more := by
  rw [storedBy, List.filter_append, List.map_append]
  rfl

/-- Every record that was handed over is in one place, acknowledged records are stored, and
the partitions keep the order of the records. -/
structure Accounted (limit : Nat) (partitionOf : ρ → Nat) (log : Nat → List (Nat × ρ)) (name : Nat)
    (p : Producer ρ) (h : History ρ) : Prop where
  balance : (h.handed : Multiset ρ) = p.waiting + p.sent + h.acked + h.failed + h.lost
  bound : p.waiting.length + p.sent.length ≤ limit
  stored : ∀ record ∈ p.sent ++ h.acked, (name, record) ∈ log (partitionOf record)
  order : ∀ partition, (storedBy name (log partition) ++ p.waiting.filter (partitionOf · = partition)).Sublist
    (h.handed.filter (partitionOf · = partition))

/-- The accounts of all clients. -/
def Balanced (limit : Nat) (partitionOf : ρ → Nat) (s : State ρ) : Prop :=
  ∀ name, Accounted limit partitionOf s.log name ((s.producers name).getD .new) (s.history name)

section Rules
variable {limit : Nat} {partitionOf : ρ → Nat} {log later : Nat → List (Nat × ρ)} {name : Nat} {p : Producer ρ}
  {h : History ρ} {record : ρ}

theorem Accounted.others (accounted : Accounted limit partitionOf log name p h)
    (kept : ∀ partition, ∀ entry ∈ log partition, entry ∈ later partition)
    (same : ∀ partition, storedBy name (later partition) = storedBy name (log partition)) :
    Accounted limit partitionOf later name p h where
  balance := accounted.balance
  bound := accounted.bound
  stored := fun record member => kept _ _ (accounted.stored record member)
  order := fun partition => same partition ▸ accounted.order partition

theorem Accounted.entry (accounted : Accounted limit partitionOf log name p h) {partition : Nat}
    (member : (name, record) ∈ log partition) : partitionOf record = partition ∧ record ∈ h.handed := by
  have own : record ∈ storedBy name (log partition) :=
    List.mem_map.mpr ⟨(name, record), List.mem_filter.mpr ⟨member, by simp⟩, rfl⟩
  have listed := (accounted.order partition).subset (List.mem_append_left _ own)
  rw [List.mem_filter, decide_eq_true_eq] at listed
  exact listed.symm

theorem Accounted.take (accounted : Accounted limit partitionOf log name p h)
    (room : p.waiting.length + p.sent.length < limit) :
    Accounted limit partitionOf log name { p with waiting := p.waiting ++ [record] }
      { h with handed := h.handed ++ [record] } where
  balance := by
    simp only [← Multiset.coe_add, accounted.balance]
    abel
  bound := by
    simp only [List.length_append, List.length_singleton]
    omega
  stored := accounted.stored
  order := by
    intro partition
    rw [List.filter_append, List.filter_append, ← List.append_assoc]
    exact (accounted.order partition).append (List.Sublist.refl _)

theorem Accounted.refuse (accounted : Accounted limit partitionOf log name p h) :
    Accounted limit partitionOf log name p
      { h with handed := h.handed ++ [record], failed := h.failed ++ [record] } where
  balance := by
    simp only [← Multiset.coe_add, accounted.balance]
    abel
  bound := accounted.bound
  stored := accounted.stored
  order := by
    intro partition
    rw [List.filter_append]
    exact (accounted.order partition).trans (List.sublist_append_left _ _)

theorem filter_of_first {P : ρ → Bool} {xs : List ρ} (found : xs.find? P = some record) :
    xs.filter P = record :: (xs.eraseP P).filter P := by
  induction xs with
  | nil => cases found
  | cons x xs ih =>
    by_cases here : P x = true
    · rw [List.find?_cons_of_pos here] at found
      cases found
      rw [List.filter_cons_of_pos here, List.eraseP_cons_of_pos here]
    · rw [List.find?_cons_of_neg here] at found
      rw [List.filter_cons_of_neg here, List.eraseP_cons_of_neg here, List.filter_cons_of_neg here]
      exact ih found

theorem filter_eraseP {P Q : ρ → Bool} (disjoint : ∀ x, P x = true → Q x = false) (xs : List ρ) :
    (xs.eraseP P).filter Q = xs.filter Q := by
  induction xs with
  | nil => rfl
  | cons x xs ih =>
    by_cases here : P x = true
    · rw [List.eraseP_cons_of_pos here, List.filter_cons_of_neg (by simp [disjoint x here])]
    · rw [List.eraseP_cons_of_neg here, List.filter_cons, List.filter_cons, ih]

theorem perm_of_first {P : ρ → Bool} {xs : List ρ} (found : xs.find? P = some record) :
    (xs : Multiset ρ) = ({record} : Multiset ρ) + (xs.eraseP P : Multiset ρ) := by
  rw [Multiset.singleton_add, Multiset.cons_coe, Multiset.coe_eq_coe]
  induction xs with
  | nil => cases found
  | cons x xs ih =>
    by_cases here : P x = true
    · rw [List.find?_cons_of_pos here] at found
      cases found
      rw [List.eraseP_cons_of_pos here]
    · rw [List.find?_cons_of_neg here] at found
      rw [List.eraseP_cons_of_neg here]
      exact ((ih found).cons x).trans (.swap _ _ _)

theorem Accounted.store (accounted : Accounted limit partitionOf log name p h) {partition : Nat}
    (found : p.first partitionOf partition = some record) :
    Accounted limit partitionOf (Function.update log partition (log partition ++ [(name, record)])) name
      (p.store partitionOf partition record) h := by
  have place : partitionOf record = partition := by simpa using List.find?_some found
  have moved := perm_of_first found
  refine ⟨?_, ?_, ?_, ?_⟩
  · simp only [Producer.store, accounted.balance, moved, ← Multiset.coe_add, Multiset.coe_singleton]
    abel
  · have size := congrArg Multiset.card moved
    simp only [Multiset.card_add, Multiset.coe_card, Multiset.card_singleton] at size
    have bound := accounted.bound
    simp only [Producer.store, List.length_append, List.length_singleton]
    omega
  · intro other member
    have cases : other ∈ p.sent ++ h.acked ∨ other = record := by
      simp only [Producer.store, List.mem_append, List.mem_singleton] at member ⊢
      tauto
    by_cases here : partitionOf other = partition
    · rw [here, Function.update_self, List.mem_append]
      rcases cases with before | rfl
      · exact .inl (here ▸ accounted.stored other before)
      · exact .inr List.mem_cons_self
    · rw [Function.update_of_ne here]
      rcases cases with before | rfl
      · exact accounted.stored other before
      · exact absurd place here
  · intro other
    by_cases here : other = partition
    · subst here
      rw [Function.update_self, storedBy_append, List.append_assoc]
      have order := accounted.order other
      rw [filter_of_first found] at order
      simpa [storedBy, Producer.store] using order
    · rw [Function.update_of_ne here, Producer.store, filter_eraseP]
      · exact accounted.order other
      · intro x there
        simp only [decide_eq_true_eq] at there
        simp only [decide_eq_false_iff_not, there]
        exact fun same => here same.symm

theorem Accounted.close (accounted : Accounted limit partitionOf log name p h) (closed : Bool) {failed lost : List ρ}
    (kept : (failed : Multiset ρ) + lost = h.failed + h.lost + p.waiting + p.sent) :
    Accounted limit partitionOf log name ⟨[], [], closed⟩ { h with failed, lost } where
  balance := by
    simp only [accounted.balance, add_assoc, kept, Multiset.coe_nil, zero_add]
    abel
  bound := Nat.zero_le _
  stored := fun record member => accounted.stored record (List.mem_append_right _ member)
  order := fun partition => by
    rw [List.filter_nil, List.append_nil]
    exact (List.sublist_append_left _ _).trans (accounted.order partition)

theorem start_balanced : Balanced limit partitionOf (.start : State ρ) := by
  intro name
  exact ⟨rfl, Nat.zero_le _, nofun, fun partition => List.Sublist.refl _⟩

theorem Balanced.place {s : State ρ} (balanced : Balanced limit partitionOf s) {producer : Option (Producer ρ)}
    (own : Accounted limit partitionOf s.log name (producer.getD .new) h) :
    Balanced limit partitionOf (s.place name producer h) := by
  intro other
  by_cases same : other = name
  · subst same
    simpa [State.place] using own
  · simpa [State.place, same] using balanced other

variable [DecidableEq ρ]

theorem coe_erase_add {xs : List ρ} (member : record ∈ xs) :
    (xs : Multiset ρ) = ({record} : Multiset ρ) + (xs.erase record : Multiset ρ) := by
  rw [Multiset.singleton_add, Multiset.cons_coe]
  exact Multiset.coe_eq_coe.mpr (List.perm_cons_erase member)

theorem Accounted.report (accounted : Accounted limit partitionOf log name p h) (member : record ∈ p.sent)
    {acked failed : List ρ} (kept : (acked : Multiset ρ) + failed = h.acked + h.failed + {record})
    (known : ∀ other ∈ acked, other ∈ h.acked ∨ other = record) :
    Accounted limit partitionOf log name { p with sent := p.sent.erase record } { h with acked, failed } where
  balance := by
    simp only [accounted.balance, coe_erase_add member, add_assoc]
    rw [← add_assoc (acked : Multiset ρ), kept]
    abel
  bound := by
    have bound := accounted.bound
    have shorter := (List.erase_sublist (a := record) (l := p.sent)).length_le
    simp only
    omega
  stored := by
    intro other present
    refine accounted.stored other ?_
    rw [List.mem_append] at present ⊢
    rcases present with sent | reported
    · exact .inl (List.mem_of_mem_erase sent)
    · rcases known other reported with before | rfl
      · exact .inr before
      · exact .inl member
  order := accounted.order

theorem Accounted.failWaiting (accounted : Accounted limit partitionOf log name p h) (member : record ∈ p.waiting) :
    Accounted limit partitionOf log name { p with waiting := p.waiting.erase record }
      { h with failed := h.failed ++ [record] } where
  balance := by
    simp only [accounted.balance, coe_erase_add member, ← Multiset.coe_add, Multiset.coe_singleton]
    abel
  bound := by
    have bound := accounted.bound
    have shorter := (List.erase_sublist (a := record) (l := p.waiting)).length_le
    simp only
    omega
  stored := accounted.stored
  order := fun partition =>
    ((List.Sublist.refl _).append (List.erase_sublist.filter _)).trans (accounted.order partition)

theorem step_balanced {s t : State ρ} {action : Action ρ} (balanced : Balanced limit partitionOf s)
    (stepped : step limit partitionOf s action = some t) : Balanced limit partitionOf t := by
  have at' {name : Nat} {p : Producer ρ} (found : s.producers name = some p) :
      Accounted limit partitionOf s.log name p (s.history name) := by
    simpa [found] using balanced name
  cases action with
  | start name =>
    simp only [step] at stepped
    split at stepped
    · cases stepped
    · rename_i unused
      cases stepped
      refine balanced.place ?_
      simpa [unused] using balanced name
  | produce name record =>
    obtain ⟨p, found, rfl⟩ := Option.map_eq_some_iff.mp stepped
    unfold State.produced
    split
    · rename_i room
      exact balanced.place ((at' found).take room.2)
    · exact balanced.place (at' found).refuse
  | append name partition =>
    simp only [step, Option.bind_eq_bind, Option.bind_eq_some_iff, Option.some.injEq] at stepped
    obtain ⟨p, found, record, first, rfl⟩ := stepped
    have kept (place : Nat) (entry : Nat × ρ) (member : entry ∈ s.log place) :
        entry ∈ Function.update s.log partition (s.log partition ++ [(name, record)]) place := by
      by_cases same : place = partition
      · subst same
        rw [Function.update_self]
        exact List.mem_append_left _ member
      · rwa [Function.update_of_ne same]
    intro other
    by_cases same : other = name
    · subst same
      simpa [State.place] using (at' found).store first
    · have foreign (place : Nat) :
          storedBy other (Function.update s.log partition (s.log partition ++ [(name, record)]) place) =
            storedBy other (s.log place) := by
        by_cases here : place = partition
        · subst here
          rw [Function.update_self, storedBy_append]
          simp [storedBy, Ne.symm same]
        · rw [Function.update_of_ne here]
      simpa [State.place, same] using (balanced other).others kept foreign
  | ack name record =>
    simp only [step, Option.bind_eq_bind, Option.bind_eq_some_iff, Option.ite_none_right_eq_some,
      Option.some.injEq] at stepped
    obtain ⟨p, found, member, rfl⟩ := stepped
    refine balanced.place ((at' found).report member ?_ (by simp))
    simp only [← Multiset.coe_add, Multiset.coe_singleton]
    abel
  | fail name record stored =>
    simp only [step, Option.bind_eq_bind, Option.bind_eq_some_iff] at stepped
    obtain ⟨p, found, stepped⟩ := stepped
    split at stepped
    · obtain ⟨member, ⟨⟩⟩ := Option.ite_none_right_eq_some.mp stepped
      refine balanced.place ((at' found).report member ?_ (fun _ acked => .inl acked))
      simp only [← Multiset.coe_add, Multiset.coe_singleton]
      abel
    · obtain ⟨member, ⟨⟩⟩ := Option.ite_none_right_eq_some.mp stepped
      exact balanced.place ((at' found).failWaiting member)
  | close name =>
    simp only [step, Option.bind_eq_bind, Option.bind_eq_some_iff, Option.some.injEq] at stepped
    obtain ⟨p, found, rfl⟩ := stepped
    refine balanced.place ((at' found).close true ?_)
    simp only [← Multiset.coe_add]
    abel
  | stop name =>
    simp only [step, Option.bind_eq_bind, Option.bind_eq_some_iff, Option.some.injEq] at stepped
    obtain ⟨p, found, rfl⟩ := stepped
    refine balanced.place ((at' found).close false ?_)
    simp only [← Multiset.coe_add]
    abel

end Rules

end EdgeGuard.Topic
