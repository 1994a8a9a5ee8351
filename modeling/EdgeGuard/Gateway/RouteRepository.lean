import EdgeGuard.Concurrent
import EdgeGuard.Gateway.Routes
import EdgeGuard.Transition
import Mathlib.Data.List.GetD

/-! The repository of the current routes, on the memory it shares. A call copies a slice
cell by cell, and what other threads do comes between any two of its steps. The calls
still take effect one at a time: `ListRoutes` returns a whole snapshot, the one that was
current at a moment of the call. -/
namespace EdgeGuard.Gateway.RouteRepository
open Go Transition Concurrent

def zeroRoute : Route := ⟨[], [], [], [], false, 0, false, ⟨false, 0, 0⟩⟩

/-- A slice spans the whole array at its address, and `nil` has none. -/
abbrev Slice := Option Nat

abbrev Heap := Nat → List Route

def Heap.contents (heap : Heap) (slice : Slice) : Option (List Route) := slice.map heap

inductive Caller where
  | listRoutes
  | replaceRoutes
  deriving DecidableEq, Repr

/-- Where a thread is: `ListRoutes` waits for `RLock` and then reads under it,
`ReplaceRoutes` writes under `Lock`, and both call `cloneRoutes`. In a copy, `index` cells
of the target are written. -/
inductive Thread where
  | idle
  | waiting
  | reading
  | cloning (caller : Caller) (routes : Slice)
  | copying (caller : Caller) (source target index : Nat)
  | cloned (caller : Caller) (result : Slice)
  | writing (next : Slice)
  | stored
  deriving DecidableEq, Repr

structure State where
  heap : Heap
  fresh : Nat
  mu : RWMutex
  routes : Slice
  threads : Nat → Thread

/-- `NewRouteRepository`, which no other thread knows yet. -/
def State.start (routes : Option (List Route)) : State where
  heap := fun _ => routes.getD []
  fresh := 1
  mu := .free
  routes := routes.map (fun _ => 0)
  threads := fun _ => .idle

/-- A call, with the argument that its caller made, or the next step of a thread. -/
inductive Action where
  | listRoutes (thread : Nat)
  | replaceRoutes (thread : Nat) (routes : Option (List Route))
  | advance (thread : Nat)
  deriving DecidableEq, Repr

namespace State

def go (s : State) (thread : Nat) (next : Thread) : State :=
  { s with threads := Function.update s.threads thread next }

def allocate (s : State) (cells : List Route) : State :=
  { s with heap := Function.update s.heap s.fresh cells, fresh := s.fresh + 1 }

/-- `make([]domain.Route, len(routes))`. -/
def make (s : State) (source : Nat) : State := s.allocate (List.replicate (s.heap source).length zeroRoute)

/-- One cell of `copy(result, routes)`. -/
def copyCell (s : State) (source target index : Nat) : State :=
  let cells := (s.heap target).set index ((s.heap source).getD index zeroRoute)
  { s with heap := Function.update s.heap target cells }

/-- The next step of a thread; none where it waits for the lock or is in no call. -/
def advance (s : State) (thread : Nat) : Option State :=
  match s.threads thread with
  | .idle => none
  | .waiting => (s.mu.rlock thread).map (fun mu => { s with mu }.go thread .reading)
  | .reading => some (s.go thread (.cloning .listRoutes s.routes))
  | .cloning caller none => some (s.go thread (.cloned caller none))
  | .cloning caller (some source) => some ((s.make source).go thread (.copying caller source s.fresh 0))
  | .copying caller source target index =>
    if index < (s.heap source).length then
      some ((s.copyCell source target index).go thread (.copying caller source target (index + 1)))
    else some (s.go thread (.cloned caller (some target)))
  | .cloned .listRoutes _ => (s.mu.runlock thread).map (fun mu => { s with mu }.go thread .idle)
  | .cloned .replaceRoutes next => (s.mu.lock thread).map (fun mu => { s with mu }.go thread (.writing next))
  | .writing next => some ({ s with routes := next }.go thread .stored)
  | .stored => (s.mu.unlock thread).map (fun mu => { s with mu }.go thread .idle)

end State

def step (s : State) : Action → Option State
  | .listRoutes thread => if s.threads thread = .idle then some (s.go thread .waiting) else none
  | .replaceRoutes thread routes =>
    if s.threads thread = .idle then match routes with
      | none => some (s.go thread (.cloning .replaceRoutes none))
      | some cells => some ((s.allocate cells).go thread (.cloning .replaceRoutes (some s.fresh)))
    else none
  | .advance thread => s.advance thread

/-- The calls as the callers see them, and the steps at which they take effect. -/
def events (s : State) : Action → List (Event (Option (List Route)))
  | .listRoutes thread => [.invokeRead thread]
  | .replaceRoutes thread routes => [.invokeWrite thread routes]
  | .advance thread => match s.threads thread with
    | .reading => [.read thread]
    | .cloned .listRoutes result => [.returnRead thread (s.heap.contents result)]
    | .writing _ => [.write thread]
    | .stored => [.returnWrite thread]
    | _ => []

/-- A target that holds the first cells of its source. -/
structure Copies (heap : Heap) (source target index : Nat) : Prop where
  apart : source ≠ target
  bound : index ≤ (heap source).length
  cells : heap target =
    (heap source).take index ++ List.replicate ((heap source).length - index) zeroRoute

theorem copied_cells {cells : List Route} {index : Nat} (inside : index < cells.length) :
    (cells.take index ++ List.replicate (cells.length - index) zeroRoute).set index
      (cells.getD index zeroRoute) =
    cells.take (index + 1) ++ List.replicate (cells.length - (index + 1)) zeroRoute := by
  have room : cells.length - index = (cells.length - (index + 1)) + 1 := by omega
  have size : (cells.take index).length = index := by simp; omega
  rw [room, List.replicate_succ, List.set_append_right _ _ (by omega), size, Nat.sub_self, List.set_cons_zero,
    List.take_succ_eq_append_getElem inside, List.getD_eq_getElem _ _ inside, List.append_assoc,
    List.singleton_append]

namespace Copies
variable {heap : Heap} {source target index : Nat}

theorem start (apart : source ≠ target)
    (made : heap target = List.replicate (heap source).length zeroRoute) : Copies heap source target 0 :=
  ⟨apart, Nat.zero_le _, by simpa using made⟩

theorem next (copies : Copies heap source target index) (inside : index < (heap source).length) :
    Copies (Function.update heap target ((heap target).set index ((heap source).getD index zeroRoute)))
      source target (index + 1) := by
  have same : Function.update heap target ((heap target).set index ((heap source).getD index zeroRoute)) source =
      heap source := Function.update_of_ne copies.apart ..
  refine ⟨copies.apart, by rw [same]; omega, ?_⟩
  rw [same, Function.update_self, copies.cells, copied_cells inside]

theorem done (copies : Copies heap source target index) (full : ¬ index < (heap source).length) :
    heap target = heap source := by
  have all : index = (heap source).length := Nat.le_antisymm copies.bound (Nat.not_lt.mp full)
  rw [copies.cells, all, List.take_length, Nat.sub_self, List.replicate_zero, List.append_nil]

theorem congr {other : Heap} (copies : Copies heap source target index)
    (same : other source = heap source) (same' : other target = heap target) :
    Copies other source target index :=
  ⟨copies.apart, same ▸ copies.bound, by rw [same, same', copies.cells]⟩

end Copies

def Caller.phase : Caller → Option (List Route) → Phase (Option (List Route))
  | .listRoutes => .took
  | .replaceRoutes => .writing

namespace Thread

/-- The addresses that a thread still needs. -/
def uses : Thread → List Nat
  | .copying _ source target _ => [source, target]
  | .cloning _ slice | .cloned _ slice | .writing slice => slice.toList
  | _ => []

/-- The address that a thread writes to. -/
def owns : Thread → Option Nat
  | .copying _ _ target _ => some target
  | _ => none

/-- What a thread has done of its call. -/
inductive Matches (heap : Heap) : Thread → Phase (Option (List Route)) → Prop
  | idle : Matches heap .idle .idle
  | waiting : Matches heap .waiting .reading
  | reading : Matches heap .reading .reading
  | cloning (caller : Caller) (routes : Slice) :
      Matches heap (.cloning caller routes) (caller.phase (heap.contents routes))
  | copying (caller : Caller) {source target index : Nat} (copies : Copies heap source target index) :
      Matches heap (.copying caller source target index) (caller.phase (some (heap source)))
  | cloned (caller : Caller) (result : Slice) :
      Matches heap (.cloned caller result) (caller.phase (heap.contents result))
  | writing (next : Slice) : Matches heap (.writing next) (.writing (heap.contents next))
  | stored : Matches heap .stored .wrote

end Thread

theorem contents_congr {heap other : Heap} {slice : Slice}
    (same : ∀ address ∈ slice.toList, other address = heap address) :
    other.contents slice = heap.contents slice := by
  cases slice with
  | none => rfl
  | some address => exact congrArg some (same address (by simp))

theorem Thread.Matches.congr {heap other : Heap} {thread : Thread} {phase : Phase (Option (List Route))}
    (matched : thread.Matches heap phase) (same : ∀ address ∈ thread.uses, other address = heap address) :
    thread.Matches other phase := by
  cases matched with
  | idle => exact .idle
  | waiting => exact .waiting
  | reading => exact .reading
  | cloning caller routes =>
    rw [← contents_congr same]
    exact .cloning caller routes
  | @copying caller source target index copies =>
    have kept := same source (by simp [Thread.uses])
    rw [← kept]
    exact .copying caller (copies.congr kept (same target (by simp [Thread.uses])))
  | cloned caller result =>
    rw [← contents_congr same]
    exact .cloned caller result
  | writing next =>
    rw [← contents_congr same]
    exact .writing next
  | stored => exact .stored

/-- The register that the state stands for. No thread writes to what another one needs, nor
to the current snapshot. -/
structure Refines (s : State) (register : Register (Option (List Route))) : Prop where
  value : register.value = s.heap.contents s.routes
  calls : ∀ thread, (s.threads thread).Matches s.heap (register.calls thread)
  allocated : ∀ thread, ∀ address ∈ (s.threads thread).uses, address < s.fresh
  current : ∀ address ∈ s.routes.toList, address < s.fresh
  owned : ∀ thread address, (s.threads thread).owns = some address → address ∉ s.routes.toList ∧
    ∀ other, other ≠ thread → address ∉ (s.threads other).uses

theorem start_refines (routes : Option (List Route)) : Refines (.start routes) (.start routes) where
  value := by cases routes <;> rfl
  calls := fun _ => .idle
  allocated := nofun
  current := by cases routes <;> simp [State.start]
  owned := nofun

theorem Thread.owns_uses {thread : Thread} {address : Nat} (owns : thread.owns = some address) :
    address ∈ thread.uses := by
  cases thread <;> simp_all [Thread.owns, Thread.uses]

namespace Refines
variable {s : State} {register : Register (Option (List Route))} (refines : Refines s register) {thread : Nat}
include refines

theorem needed {address : Nat} (used : address ∈ (s.threads thread).uses) :
    address < s.fresh ∧ ∀ other, other ≠ thread → (s.threads other).owns ≠ some address :=
  ⟨refines.allocated thread address used,
    fun other different owns => (refines.owned other address owns).2 thread different.symm used⟩

theorem shared {address : Nat} (current : address ∈ s.routes.toList) :
    address < s.fresh ∧ ∀ other, (s.threads other).owns ≠ some address :=
  ⟨refines.current address current, fun other owns => (refines.owned other address owns).1 current⟩

theorem unowned_fresh (other : Nat) : (s.threads other).owns ≠ some s.fresh := fun owns =>
  Nat.lt_irrefl _ (refines.allocated other _ (Thread.owns_uses owns))

theorem move {heap : Heap} {fresh : Nat} {mu : RWMutex} {next : Thread} {phase : Phase (Option (List Route))}
    (grows : s.fresh ≤ fresh) (current : ∀ address ∈ s.routes.toList, heap address = s.heap address)
    (others : ∀ other, other ≠ thread → ∀ address ∈ (s.threads other).uses, heap address = s.heap address)
    (matched : next.Matches heap phase)
    (needs : ∀ address ∈ next.uses, address < fresh ∧
      ∀ other, other ≠ thread → (s.threads other).owns ≠ some address)
    (takes : ∀ address, next.owns = some address → address ∉ s.routes.toList ∧
      ∀ other, other ≠ thread → address ∉ (s.threads other).uses) :
    Refines ({ s with heap, fresh, mu }.go thread next) (register.go thread phase) := by
  have mover : Function.update s.threads thread next thread = next := Function.update_self ..
  have rest {other : Nat} (different : other ≠ thread) :
      Function.update s.threads thread next other = s.threads other := Function.update_of_ne different ..
  refine ⟨?_, ?_, ?_, ?_, ?_⟩
  · exact refines.value.trans (contents_congr current).symm
  · intro other
    change (Function.update s.threads thread next other).Matches heap
      (Function.update register.calls thread phase other)
    by_cases same : other = thread
    · subst same
      rw [mover, Function.update_self]
      exact matched
    · rw [rest same, Function.update_of_ne same]
      exact (refines.calls other).congr (others other same)
  · intro other address used
    change address ∈ (Function.update s.threads thread next other).uses at used
    by_cases same : other = thread
    · subst same
      rw [mover] at used
      exact (needs address used).1
    · rw [rest same] at used
      exact Nat.lt_of_lt_of_le (refines.allocated other address used) grows
  · intro address shared
    exact Nat.lt_of_lt_of_le (refines.current address shared) grows
  · intro other address owns
    change (Function.update s.threads thread next other).owns = some address at owns
    change _ ∧ ∀ third, third ≠ other → address ∉ (Function.update s.threads thread next third).uses
    by_cases same : other = thread
    · subst same
      rw [mover] at owns
      obtain ⟨unshared, unused⟩ := takes address owns
      refine ⟨unshared, ?_⟩
      intro third different
      rw [rest different]
      exact unused third different
    · rw [rest same] at owns
      obtain ⟨unshared, unused⟩ := refines.owned other address owns
      refine ⟨unshared, ?_⟩
      intro third different
      by_cases moved : third = thread
      · subst moved
        rw [mover]
        exact fun used => (needs address used).2 other same owns
      · rw [rest moved]
        exact unused third different

theorem goOn {mu : RWMutex} {next : Thread} {phase : Phase (Option (List Route))}
    (matched : next.Matches s.heap phase) (uses : next.uses ⊆ (s.threads thread).uses) (owns : next.owns = none) :
    Refines ({ s with mu }.go thread next) (register.go thread phase) :=
  refines.move (Nat.le_refl _) (fun _ _ => rfl) (fun _ _ _ _ => rfl) matched
    (fun _ used => refines.needed (uses used)) (fun _ same => nomatch owns.symm.trans same)

theorem allocate {cells : List Route} {next : Thread} {phase : Phase (Option (List Route))}
    (matched : next.Matches (Function.update s.heap s.fresh cells) phase)
    (needs : ∀ address ∈ next.uses, address = s.fresh ∨ address < s.fresh ∧
      ∀ other, other ≠ thread → (s.threads other).owns ≠ some address)
    (takes : ∀ address, next.owns = some address → address = s.fresh) :
    Refines ((s.allocate cells).go thread next) (register.go thread phase) := by
  have old {address : Nat} (below : address < s.fresh) :
      Function.update s.heap s.fresh cells address = s.heap address :=
    Function.update_of_ne (Nat.ne_of_lt below) ..
  refine refines.move (Nat.le_succ _) (fun address shared => old (refines.current address shared))
    (fun other _ address used => old (refines.allocated other address used)) matched ?_ ?_
  · intro address used
    rcases needs address used with rfl | ⟨below, unowned⟩
    · exact ⟨Nat.lt_succ_self _, fun other _ => refines.unowned_fresh other⟩
    · exact ⟨Nat.lt_succ_of_lt below, unowned⟩
  · intro address owns
    cases takes address owns
    exact ⟨fun shared => Nat.lt_irrefl _ (refines.current _ shared),
      fun other _ used => Nat.lt_irrefl _ (refines.allocated other _ used)⟩

theorem copyCell {source target index : Nat} {next : Thread} {phase : Phase (Option (List Route))}
    (owns : (s.threads thread).owns = some target)
    (matched : next.Matches (s.copyCell source target index).heap phase)
    (uses : next.uses ⊆ (s.threads thread).uses) (same : next.owns = (s.threads thread).owns) :
    Refines ((s.copyCell source target index).go thread next) (register.go thread phase) := by
  obtain ⟨unshared, unused⟩ := refines.owned thread target owns
  refine refines.move (Nat.le_refl _) ?_ ?_ matched (fun _ used => refines.needed (uses used)) ?_
  · intro address shared
    refine Function.update_of_ne ?_ ..
    rintro rfl
    exact unshared shared
  · intro other different address used
    refine Function.update_of_ne ?_ ..
    rintro rfl
    exact unused other different used
  · intro address owner
    exact refines.owned thread address (same.symm.trans owner)

theorem store {next : Slice} (held : s.threads thread = .writing next) :
    Refines ({ s with routes := next }.go thread .stored)
      { register.go thread .wrote with value := s.heap.contents next } := by
  have moved := @Refines.goOn s register refines thread s.mu .stored .wrote .stored
    (List.nil_subset _) rfl
  have used : ∀ address ∈ next.toList, address ∈ (s.threads thread).uses := by
    rw [held]
    exact fun _ member => member
  refine { moved with value := rfl, current := ?_, owned := ?_ }
  · exact fun address member => refines.allocated thread address (used address member)
  · intro other address owns
    refine ⟨?_, (moved.owned other address owns).2⟩
    intro member
    by_cases same : other = thread
    · subst same
      change (Function.update s.threads other .stored other).owns = some address at owns
      rw [Function.update_self] at owns
      cases owns
    · change (Function.update s.threads thread .stored other).owns = some address at owns
      rw [Function.update_of_ne same] at owns
      exact (refines.needed (used address member)).2 other same owns

/-- `cloneRoutes` starts to copy into an array of its own. -/
theorem make {caller : Caller} {source : Nat} (at' : s.threads thread = .cloning caller (some source)) :
    Refines ((s.make source).go thread (.copying caller source s.fresh 0))
      (register.go thread (caller.phase (some (s.heap source)))) := by
  obtain ⟨below, unowned⟩ := @needed s register refines thread source (by simp [at', Thread.uses])
  have kept : (s.make source).heap source = s.heap source := Function.update_of_ne (Nat.ne_of_lt below) ..
  have made : (s.make source).heap s.fresh = List.replicate ((s.make source).heap source).length zeroRoute :=
    (Function.update_self ..).trans (congrArg (List.replicate ·.length zeroRoute) kept.symm)
  have matched := Thread.Matches.copying caller (Copies.start (Nat.ne_of_lt below) made)
  rw [kept] at matched
  refine refines.allocate matched ?_ ?_
  · intro address used
    rcases List.mem_pair.mp used with rfl | rfl
    · exact .inr ⟨below, unowned⟩
    · exact .inl rfl
  · rintro _ ⟨⟩
    rfl

theorem advance {t : State} (stepped : s.advance thread = some t) :
    ∃ next, run Register.step register (events s (.advance thread)) = some next ∧ Refines t next := by
  have matched := refines.calls thread
  generalize called : register.calls thread = phase at matched
  have quiet := Register.go_same called
  unfold State.advance at stepped
  simp only [events]
  cases at' : s.threads thread with
  | idle =>
    rw [at'] at stepped
    cases stepped
  | waiting =>
    rw [at'] at stepped matched
    cases matched
    obtain ⟨mu, _, rfl⟩ := Option.map_eq_some_iff.mp stepped
    refine ⟨register, rfl, ?_⟩
    rw [← quiet]
    exact refines.goOn .reading (List.nil_subset _) rfl
  | reading =>
    rw [at'] at stepped matched
    cases matched
    cases stepped
    refine ⟨register.go thread (.took register.value), by simp [run, Register.step, called], ?_⟩
    rw [refines.value]
    refine refines.move (Nat.le_refl _) (fun _ _ => rfl) (fun _ _ _ _ => rfl) (.cloning .listRoutes s.routes)
      (fun _ shared => ⟨(refines.shared shared).1, fun other _ => (refines.shared shared).2 other⟩) ?_
    intros
    contradiction
  | cloning caller routes =>
    rw [at'] at stepped matched
    cases matched
    refine ⟨register, rfl, ?_⟩
    rw [← quiet]
    cases routes with
    | none =>
      cases stepped
      exact refines.goOn (.cloned caller none) (List.nil_subset _) rfl
    | some source =>
      cases stepped
      exact refines.make at'
  | copying caller source target index =>
    rw [at'] at stepped matched
    cases matched with
    | copying _ copies =>
      refine ⟨register, rfl, ?_⟩
      rw [← quiet]
      dsimp only at stepped
      split at stepped
      · rename_i inside
        cases stepped
        have kept : (s.copyCell source target index).heap source = s.heap source :=
          Function.update_of_ne copies.apart ..
        refine refines.copyCell (by rw [at']; rfl) ?_ (by rw [at']; exact List.Subset.refl _) (by rw [at']; rfl)
        rw [← kept]
        exact .copying caller (copies.next inside)
      · rename_i full
        cases stepped
        rw [← copies.done full]
        refine refines.goOn (.cloned caller (some target)) ?_ rfl
        simp [at', Thread.uses]
  | cloned caller result =>
    rw [at'] at stepped matched
    cases matched
    cases caller with
    | listRoutes =>
      obtain ⟨mu, _, rfl⟩ := Option.map_eq_some_iff.mp stepped
      refine ⟨register.go thread .idle, by simp [run, Register.step, called, Caller.phase], ?_⟩
      exact refines.goOn .idle (List.nil_subset _) rfl
    | replaceRoutes =>
      obtain ⟨mu, _, rfl⟩ := Option.map_eq_some_iff.mp stepped
      refine ⟨register, rfl, ?_⟩
      rw [← quiet]
      refine refines.goOn (.writing result) ?_ rfl
      rw [at']
      exact List.Subset.refl _
  | writing next =>
    rw [at'] at stepped matched
    cases matched
    cases stepped
    exact ⟨_, by simp [run, Register.step, called], refines.store at'⟩
  | stored =>
    rw [at'] at stepped matched
    cases matched
    obtain ⟨mu, _, rfl⟩ := Option.map_eq_some_iff.mp stepped
    refine ⟨register.go thread .idle, by simp [run, Register.step, called], ?_⟩
    exact refines.goOn .idle (List.nil_subset _) rfl

theorem step {t : State} {action : Action} (stepped : RouteRepository.step s action = some t) :
    ∃ next, run Register.step register (events s action) = some next ∧ Refines t next := by
  cases action with
  | listRoutes thread =>
    obtain ⟨idle, ⟨⟩⟩ := Option.ite_none_right_eq_some.mp stepped
    have matched := refines.calls thread
    generalize called : register.calls thread = phase at matched
    rw [idle] at matched
    cases matched
    refine ⟨register.go thread .reading, by simp [run, events, Register.step, called], ?_⟩
    exact refines.goOn .waiting (List.nil_subset _) rfl
  | replaceRoutes thread routes =>
    obtain ⟨idle, stepped⟩ := Option.ite_none_right_eq_some.mp stepped
    have matched := refines.calls thread
    generalize called : register.calls thread = phase at matched
    rw [idle] at matched
    cases matched
    refine ⟨register.go thread (.writing routes), by simp [run, events, Register.step, called], ?_⟩
    cases routes with
    | none =>
      cases stepped
      exact refines.goOn (.cloning .replaceRoutes none) (List.nil_subset _) rfl
    | some cells =>
      cases stepped
      refine refines.allocate ?_ ?_ ?_
      · have made : (Function.update s.heap s.fresh cells) s.fresh = cells := Function.update_self ..
        have cloning := @Thread.Matches.cloning (Function.update s.heap s.fresh cells) .replaceRoutes (some s.fresh)
        rw [Heap.contents, Option.map_some, made] at cloning
        exact cloning
      · intro address used
        exact .inl (List.mem_singleton.mp used)
      · intros
        contradiction
  | advance thread => exact refines.advance stepped

end Refines

namespace Thread

def reads : Thread → Bool
  | .reading | .cloning .listRoutes _ | .copying .listRoutes _ _ _ | .cloned .listRoutes _ => true
  | _ => false

def writes : Thread → Bool
  | .writing _ | .stored => true
  | _ => false

end Thread

/-- The lock is held by the threads that are between taking and releasing it. -/
structure Locked (s : State) : Prop where
  exclusive : s.mu.Exclusive
  readers : ∀ thread, thread ∈ s.mu.readers ↔ (s.threads thread).reads = true
  writer : ∀ thread, s.mu.writer = some thread ↔ (s.threads thread).writes = true

theorem start_locked (routes : Option (List Route)) : Locked (.start routes) where
  exclusive := RWMutex.free_exclusive
  readers := by simp [State.start, RWMutex.free, Thread.reads]
  writer := by simp [State.start, RWMutex.free, Thread.writes]

namespace Locked
variable {s t : State} (locked : Locked s) {thread : Nat}
include locked

theorem go {heap : Heap} {fresh : Nat} {routes : Slice} {mu : RWMutex} {next : Thread} (exclusive : mu.Exclusive)
    (readers : ∀ other, other ≠ thread → (other ∈ mu.readers ↔ other ∈ s.mu.readers))
    (writer : ∀ other, other ≠ thread → (mu.writer = some other ↔ s.mu.writer = some other))
    (reads : thread ∈ mu.readers ↔ next.reads = true) (writes : mu.writer = some thread ↔ next.writes = true) :
    Locked (State.go ⟨heap, fresh, mu, routes, s.threads⟩ thread next) := by
  refine ⟨exclusive, ?_, ?_⟩
  · intro other
    change other ∈ mu.readers ↔ (Function.update s.threads thread next other).reads = true
    by_cases same : other = thread
    · subst same
      rw [Function.update_self, reads]
    · rw [Function.update_of_ne same, readers other same]
      exact locked.readers other
  · intro other
    change mu.writer = some other ↔ (Function.update s.threads thread next other).writes = true
    by_cases same : other = thread
    · subst same
      rw [Function.update_self, writes]
    · rw [Function.update_of_ne same, writer other same]
      exact locked.writer other

theorem keep {heap : Heap} {fresh : Nat} {routes : Slice} {next : Thread}
    (reads : next.reads = (s.threads thread).reads) (writes : next.writes = (s.threads thread).writes) :
    Locked (State.go ⟨heap, fresh, s.mu, routes, s.threads⟩ thread next) :=
  locked.go locked.exclusive (fun _ _ => Iff.rfl) (fun _ _ => Iff.rfl)
    (by rw [reads, locked.readers]) (by rw [writes, locked.writer])

theorem advance (stepped : s.advance thread = some t) : Locked t := by
  unfold State.advance at stepped
  have reads := locked.readers thread
  have writes := locked.writer thread
  cases at' : s.threads thread with
  | idle =>
    rw [at'] at stepped
    cases stepped
  | waiting =>
    rw [at'] at stepped reads writes
    obtain ⟨mu, acquired, rfl⟩ := Option.map_eq_some_iff.mp stepped
    have outside : thread ∉ s.mu.readers := fun held => nomatch reads.mp held
    have exclusive := locked.exclusive.rlock acquired outside
    obtain ⟨free, ⟨⟩⟩ := Option.ite_none_right_eq_some.mp acquired
    refine locked.go exclusive ?_ (fun _ _ => Iff.rfl) ?_ ?_
    · intro other different
      simp [different]
    · simp [Thread.reads]
    · simp [free, Thread.writes]
  | reading =>
    rw [at'] at stepped
    cases stepped
    exact locked.keep (by rw [at']; rfl) (by rw [at']; rfl)
  | cloning caller routes =>
    rw [at'] at stepped
    cases routes with
    | none =>
      cases stepped
      exact locked.keep (by rw [at']; cases caller <;> rfl) (by rw [at']; rfl)
    | some source =>
      cases stepped
      exact locked.keep (by rw [at']; cases caller <;> rfl) (by rw [at']; rfl)
  | copying caller source target index =>
    rw [at'] at stepped
    dsimp only at stepped
    split at stepped
    · cases stepped
      exact locked.keep (by rw [at']; cases caller <;> rfl) (by rw [at']; rfl)
    · cases stepped
      exact locked.keep (by rw [at']; cases caller <;> rfl) (by rw [at']; rfl)
  | cloned caller result =>
    rw [at'] at stepped reads writes
    cases caller with
    | listRoutes =>
      obtain ⟨mu, released, rfl⟩ := Option.map_eq_some_iff.mp stepped
      have exclusive := locked.exclusive.runlock released
      obtain ⟨_, ⟨⟩⟩ := Option.ite_none_right_eq_some.mp released
      refine locked.go exclusive ?_ (fun _ _ => Iff.rfl) ?_ writes
      · intro other different
        exact List.mem_erase_of_ne different
      · have gone : thread ∉ s.mu.readers.erase thread := locked.exclusive.once.not_mem_erase
        simp [Thread.reads, gone]
    | replaceRoutes =>
      obtain ⟨mu, acquired, rfl⟩ := Option.map_eq_some_iff.mp stepped
      have exclusive := locked.exclusive.lock acquired
      obtain ⟨⟨free, _⟩, ⟨⟩⟩ := Option.ite_none_right_eq_some.mp acquired
      refine locked.go exclusive (fun _ _ => Iff.rfl) ?_ reads ?_
      · intro other different
        simp [free, different.symm]
      · simp [Thread.writes]
  | writing next =>
    rw [at'] at stepped
    cases stepped
    exact locked.keep (by rw [at']; rfl) (by rw [at']; rfl)
  | stored =>
    rw [at'] at stepped reads writes
    obtain ⟨mu, released, rfl⟩ := Option.map_eq_some_iff.mp stepped
    have exclusive := locked.exclusive.unlock released
    obtain ⟨held, ⟨⟩⟩ := Option.ite_none_right_eq_some.mp released
    refine locked.go exclusive (fun _ _ => Iff.rfl) ?_ reads ?_
    · intro other different
      simp [held, different.symm]
    · simp [Thread.writes]

theorem step {action : Action} (stepped : RouteRepository.step s action = some t) : Locked t := by
  cases action with
  | listRoutes thread =>
    obtain ⟨idle, ⟨⟩⟩ := Option.ite_none_right_eq_some.mp stepped
    exact locked.keep (by rw [idle]; rfl) (by rw [idle]; rfl)
  | replaceRoutes thread routes =>
    obtain ⟨idle, stepped⟩ := Option.ite_none_right_eq_some.mp stepped
    cases routes with
    | none =>
      cases stepped
      exact locked.keep (by rw [idle]; rfl) (by rw [idle]; rfl)
    | some cells =>
      cases stepped
      exact locked.keep (by rw [idle]; rfl) (by rw [idle]; rfl)
  | advance thread => exact locked.advance stepped

/-- While a thread is about to store the slice, no other one reads or stores it. -/
theorem alone {next : Slice} (storing : s.threads thread = .writing next) {other : Nat} (different : other ≠ thread) :
    (s.threads other).reads = false ∧ (s.threads other).writes = false := by
  have held : s.mu.writer = some thread := (locked.writer thread).mpr (by rw [storing]; rfl)
  constructor
  · rw [← Bool.not_eq_true, ← locked.readers other, locked.exclusive.alone (by simp [held])]
    exact List.not_mem_nil
  · rw [← Bool.not_eq_true, ← locked.writer other, held]
    exact fun same => different (Option.some.inj same).symm

theorem enabled (busy : s.threads thread ≠ .idle)
    (free : (s.threads thread).reads = true ∨ (s.threads thread).writes = true ∨ s.mu = .free) :
    ∃ t, s.advance thread = some t := by
  have reads := locked.readers thread
  have writes := locked.writer thread
  unfold State.advance
  cases at' : s.threads thread with
  | idle => exact absurd at' busy
  | waiting =>
    rw [at'] at free
    rcases free with ⟨⟨⟩⟩ | ⟨⟨⟩⟩ | unlocked
    simp [unlocked, RWMutex.free, RWMutex.rlock]
  | reading => exact ⟨_, rfl⟩
  | cloning caller routes =>
    cases routes with
    | none => exact ⟨_, rfl⟩
    | some source => exact ⟨_, rfl⟩
  | copying caller source target index =>
    dsimp only
    split
    · exact ⟨_, rfl⟩
    · exact ⟨_, rfl⟩
  | cloned caller result =>
    rw [at'] at free reads
    cases caller with
    | listRoutes => simp [RWMutex.runlock, reads.mpr rfl]
    | replaceRoutes =>
      rcases free with ⟨⟨⟩⟩ | ⟨⟨⟩⟩ | unlocked
      simp [unlocked, RWMutex.free, RWMutex.lock]
  | writing next => exact ⟨_, rfl⟩
  | stored =>
    rw [at'] at writes
    simp [RWMutex.unlock, writes.mpr rfl]

/-- Calls do not block each other for ever: somebody can always go on. -/
theorem progress (busy : s.threads thread ≠ .idle) : ∃ other t, s.advance other = some t := by
  cases held : s.mu.writer with
  | some writer =>
    have writes := (locked.writer writer).mp held
    refine ⟨writer, locked.enabled ?_ (.inr (.inl writes))⟩
    intro idle
    rw [idle] at writes
    cases writes
  | none =>
    cases waiting : s.mu.readers with
    | nil =>
      have unlocked : s.mu = .free := by
        rw [RWMutex.free, ← held, ← waiting]
      exact ⟨thread, locked.enabled busy (.inr (.inr unlocked))⟩
    | cons reader rest =>
      have reads := (locked.readers reader).mp (by simp [waiting])
      refine ⟨reader, locked.enabled ?_ (.inl reads)⟩
      intro idle
      rw [idle] at reads
      cases reads

end Locked

/-- Every run is one of a register with the same invocations and returns, in the same
order: each call takes effect at one moment between its own. What is stored in the memory
is not disturbed on the way, for no thread touches the slice while another stores it and
none uses the array that another one fills, and some call can always go on. -/
theorem repository_is_a_register {routes : Option (List Route)} {actions : List Action} {s : State}
    (path : run step (.start routes) actions = some s) :
    (∃ register, run Register.step (.start routes) (writes step events (.start routes) actions) = some register ∧
      register.value = s.heap.contents s.routes) ∧
    (∀ thread next, s.threads thread = .writing next → ∀ other, other ≠ thread →
      (s.threads other).reads = false ∧ (s.threads other).writes = false) ∧
    (∀ thread address, (s.threads thread).owns = some address →
      s.routes ≠ some address ∧ ∀ other, other ≠ thread → address ∉ (s.threads other).uses) ∧
    ∀ thread, s.threads thread ≠ .idle → ∃ other t, s.advance other = some t := by
  have locked : Locked s := run_invariant (fun locked stepped => locked.step stepped) path (start_locked routes)
  obtain ⟨register, followed, refines⟩ :=
    run_simulation (fun refines stepped => refines.step stepped) (start_refines routes) path
  refine ⟨⟨register, followed, refines.value⟩, ?_, ?_, ?_⟩
  · exact fun thread next storing other different => locked.alone storing different
  · intro thread address owns
    obtain ⟨unshared, unused⟩ := refines.owned thread address owns
    refine ⟨?_, unused⟩
    intro same
    exact unshared (by simp [same])
  · exact fun thread busy => locked.progress busy

def orders : Route := { zeroRoute with name := lit "orders", pathPrefix := lit "/orders" }

/-- A list is read while another thread replaces it. -/
def overlapping : List Action :=
  [.listRoutes 0, .advance 0, .replaceRoutes 1 (some [orders, orders]), .advance 0, .advance 1, .advance 1, .advance 0,
    .advance 1, .advance 0, .advance 1, .advance 0, .advance 0, .advance 1, .advance 1, .advance 1]

theorem overlapping_calls_are_atomic : ∃ s, run step (.start (some [zeroRoute])) overlapping = some s ∧
    s.heap.contents s.routes = some [orders, orders] ∧ ∃ register,
      run Register.step (.start (some [zeroRoute]))
        [.invokeRead 0, .invokeWrite 1 (some [orders, orders]), .read 0, .returnRead 0 (some [zeroRoute]),
          .write 1, .returnWrite 1] = some register ∧ register.value = some [orders, orders] := by
  have ran : (run step (.start (some [zeroRoute])) overlapping).map (fun s => s.heap.contents s.routes) =
      some (some [orders, orders]) := by decide +kernel
  have written : writes step events (.start (some [zeroRoute])) overlapping =
      [.invokeRead 0, .invokeWrite 1 (some [orders, orders]), .read 0, .returnRead 0 (some [zeroRoute]),
        .write 1, .returnWrite 1] := by decide +kernel
  obtain ⟨s, path, contents⟩ := Option.map_eq_some_iff.mp ran
  obtain ⟨⟨register, followed, value⟩, _⟩ := repository_is_a_register path
  exact ⟨s, path, contents, register, written ▸ followed, value.trans contents⟩

end EdgeGuard.Gateway.RouteRepository
