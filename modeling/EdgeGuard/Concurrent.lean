import Mathlib.Logic.Function.Basic

/-! Parts of concurrent objects: a lock for readers and writers, and the register that an
object with reading and writing calls stands for. In the register every call takes effect
at one moment between its invocation and its return. -/
namespace EdgeGuard.Concurrent

/-- The threads that hold the lock for reading, and the one that holds it for writing. -/
structure RWMutex where
  readers : List Nat
  writer : Option Nat
  deriving DecidableEq, Repr

namespace RWMutex

def free : RWMutex := ⟨[], none⟩

def rlock (m : RWMutex) (thread : Nat) : Option RWMutex :=
  if m.writer = none then some { m with readers := thread :: m.readers } else none

def runlock (m : RWMutex) (thread : Nat) : Option RWMutex :=
  if thread ∈ m.readers then some { m with readers := m.readers.erase thread } else none

def lock (m : RWMutex) (thread : Nat) : Option RWMutex :=
  if m.writer = none ∧ m.readers = [] then some { m with writer := some thread } else none

def unlock (m : RWMutex) (thread : Nat) : Option RWMutex :=
  if m.writer = some thread then some { m with writer := none } else none

/-- A thread writes only while no other one reads or writes, and no thread reads twice. -/
structure Exclusive (m : RWMutex) : Prop where
  alone : m.writer ≠ none → m.readers = []
  once : m.readers.Nodup

theorem free_exclusive : free.Exclusive := ⟨fun _ => rfl, .nil⟩

variable {m next : RWMutex} {thread : Nat}

section Steps
variable (exclusive : m.Exclusive)
include exclusive

theorem Exclusive.rlock (locked : m.rlock thread = some next) (outside : thread ∉ m.readers) :
    next.Exclusive := by
  obtain ⟨free, ⟨⟩⟩ := Option.ite_none_right_eq_some.mp locked
  exact ⟨fun held => absurd free held, List.nodup_cons.mpr ⟨outside, exclusive.once⟩⟩

theorem Exclusive.runlock (unlocked : m.runlock thread = some next) : next.Exclusive := by
  obtain ⟨_, ⟨⟩⟩ := Option.ite_none_right_eq_some.mp unlocked
  refine ⟨?_, exclusive.once.erase thread⟩
  intro held
  rw [exclusive.alone held]
  rfl

theorem Exclusive.lock (locked : m.lock thread = some next) : next.Exclusive := by
  obtain ⟨⟨_, unread⟩, ⟨⟩⟩ := Option.ite_none_right_eq_some.mp locked
  exact ⟨fun _ => unread, exclusive.once⟩

theorem Exclusive.unlock (unlocked : m.unlock thread = some next) : next.Exclusive := by
  obtain ⟨_, ⟨⟩⟩ := Option.ite_none_right_eq_some.mp unlocked
  exact ⟨fun held => absurd rfl held, exclusive.once⟩

end Steps

end RWMutex

/-- Where a thread is in a call. -/
inductive Phase (α : Type) where
  | idle
  | reading
  | took (value : α)
  | writing (value : α)
  | wrote
  deriving DecidableEq, Repr

structure Register (α : Type) where
  value : α
  calls : Nat → Phase α

/-- Invocations, returns, and the moments between them that calls take effect at. -/
inductive Event (α : Type) where
  | invokeRead (thread : Nat)
  | read (thread : Nat)
  | returnRead (thread : Nat) (value : α)
  | invokeWrite (thread : Nat) (value : α)
  | write (thread : Nat)
  | returnWrite (thread : Nat)
  deriving DecidableEq, Repr

namespace Register
variable {α : Type}

def start (value : α) : Register α := ⟨value, fun _ => .idle⟩

def go (r : Register α) (thread : Nat) (phase : Phase α) : Register α :=
  { r with calls := Function.update r.calls thread phase }

/-- A read returns the value that it took, and no other. -/
def step [DecidableEq α] (r : Register α) : Event α → Option (Register α)
  | .invokeRead thread => if r.calls thread = .idle then some (r.go thread .reading) else none
  | .read thread => if r.calls thread = .reading then some (r.go thread (.took r.value)) else none
  | .returnRead thread value =>
    if r.calls thread = .took value then some (r.go thread .idle) else none
  | .invokeWrite thread value =>
    if r.calls thread = .idle then some (r.go thread (.writing value)) else none
  | .write thread => match r.calls thread with
    | .writing value => some { r.go thread .wrote with value }
    | _ => none
  | .returnWrite thread => if r.calls thread = .wrote then some (r.go thread .idle) else none

theorem go_same {r : Register α} {thread : Nat} {phase : Phase α} (called : r.calls thread = phase) :
    r.go thread phase = r := by
  rw [go, ← called, Function.update_eq_self]

end Register

end EdgeGuard.Concurrent
