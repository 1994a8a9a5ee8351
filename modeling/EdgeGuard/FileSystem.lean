import EdgeGuard.Go.Strings
import Mathlib.Logic.Function.Basic

/-! A file system with entries that name files. What was written and not synced can be
lost with the power, and so can the latest changes of every entry. -/
namespace EdgeGuard.FileSystem
open Go (Str)

structure File where
  content : Str
  synced : Bool
  deriving DecidableEq, Repr

/-- What is on the disk at the start: every entry names one of the files. -/
structure Mount where
  entries : Str → Option Nat
  contents : Nat → Str
  next : Nat
  bounded : ∀ path file, entries path = some file → file < next

/-- The entries at the start, their changes since then, the latest first, and the files. -/
structure Disk where
  first : Str → Option Nat
  links : Str → List (Option Nat)
  files : Nat → File
  next : Nat

def Disk.mount (m : Mount) : Disk := ⟨m.entries, fun _ => [], fun file => ⟨m.contents file, true⟩, m.next⟩

namespace Disk

def entry (d : Disk) (path : Str) : Option Nat := (d.links path).headD (d.first path)

def read (d : Disk) (path : Str) : Option Str := (d.entry path).map (fun file => (d.files file).content)

def link (d : Disk) (path : Str) (file : Option Nat) : Disk :=
  { d with links := Function.update d.links path (file :: d.links path) }

/-- `open(2)` with `O_CREAT` and `O_EXCL`: a new file, where there was no entry. -/
def create (d : Disk) (path : Str) : Option (Disk × Nat) :=
  if d.entry path = none then
    some ({ d.link path (some d.next) with
      files := Function.update d.files d.next ⟨[], false⟩, next := d.next + 1 }, d.next)
  else none

def append (d : Disk) (file : Nat) (bytes : Str) : Disk :=
  { d with files := Function.update d.files file ⟨(d.files file).content ++ bytes, false⟩ }

def fsync (d : Disk) (file : Nat) : Disk :=
  { d with files := Function.update d.files file ⟨(d.files file).content, true⟩ }

/-- `rename(2)`: the new entry takes the place of the old one at once. -/
def rename (d : Disk) (source target : Str) : Option Disk :=
  (d.entry source).map (fun file => (d.link target (some file)).link source none)

def unlink (d : Disk) (path : Str) : Disk := d.link path none

/-- Every entry goes back by some of its changes, and files that were not synced have any
content. -/
def powerLoss (d : Disk) (lost : Str → Nat) (garbage : Nat → Str) : Disk :=
  { d with
    links := fun path => (d.links path).drop (lost path)
    files := fun file => if (d.files file).synced then d.files file else ⟨garbage file, true⟩ }

@[simp] theorem entry_link (d : Disk) (path : Str) (file : Option Nat) (other : Str) :
    (d.link path file).entry other = if other = path then file else d.entry other := by
  by_cases same : other = path
  · subst same
    simp [entry, link]
  · simp [entry, link, same]

/-- A file that an operation did not write, and whose entries it did not change. -/
structure Keeps (d t : Disk) (file : Nat) : Prop where
  files : t.files file = d.files file
  next : d.next ≤ t.next
  entry : ∀ path, t.entry path = some file ↔ d.entry path = some file

theorem Keeps.refl (d : Disk) (file : Nat) : Keeps d d file := ⟨rfl, le_rfl, fun _ => Iff.rfl⟩

theorem Keeps.trans {d t u : Disk} {file : Nat} (first : Keeps d t file) (second : Keeps t u file) :
    Keeps d u file where
  files := second.files.trans first.files
  next := first.next.trans second.next
  entry path := (second.entry path).trans (first.entry path)

theorem keeps_link {d : Disk} {path : Str} {linked : Option Nat} {file : Nat} (before : d.entry path ≠ some file)
    (after : linked ≠ some file) : Keeps d (d.link path linked) file := by
  refine ⟨rfl, le_rfl, ?_⟩
  intro other
  rw [entry_link]
  split
  · rename_i same
    subst same
    exact ⟨fun named => absurd named after, fun named => absurd named before⟩
  · exact Iff.rfl

theorem create_eq {d t : Disk} {path : Str} {created : Nat} (made : d.create path = some (t, created)) :
    d.entry path = none ∧ created = d.next ∧
      t = { d.link path (some d.next) with
        files := Function.update d.files d.next ⟨[], false⟩, next := d.next + 1 } := by
  simp only [create, Option.ite_none_right_eq_some, Option.some.injEq, Prod.mk.injEq] at made
  exact ⟨made.1, made.2.2.symm, made.2.1.symm⟩

theorem keeps_create {d t : Disk} {path : Str} {created file : Nat} (made : d.create path = some (t, created))
    (older : file < d.next) : Keeps d t file := by
  obtain ⟨absent, _, rfl⟩ := create_eq made
  have linked := @keeps_link d path (some d.next) file (by simp [absent]) (by simp [Nat.ne_of_gt older])
  exact ⟨Function.update_of_ne (Nat.ne_of_lt older) _ _, Nat.le_succ _, linked.entry⟩

theorem keeps_rename {d t : Disk} {source target : Str} {file : Nat} (renamed : d.rename source target = some t)
    (atSource : d.entry source ≠ some file) (atTarget : d.entry target ≠ some file) : Keeps d t file := by
  obtain ⟨moved, found, rfl⟩ := Option.map_eq_some_iff.mp renamed
  have linked := keeps_link atTarget (found ▸ atSource)
  exact linked.trans (keeps_link (mt (linked.entry source).mp atSource) nofun)

theorem keeps_write {d : Disk} {file other : Nat} (different : other ≠ file) (value : File) :
    Keeps d { d with files := Function.update d.files file value } other :=
  ⟨Function.update_of_ne different _ _, le_rfl, fun _ => Iff.rfl⟩

/-- The numbers from `next` on are unused, also in the entries that power loss can bring back. -/
def Bounded (d : Disk) : Prop := ∀ path file, some file ∈ d.first path :: d.links path → file < d.next

theorem Bounded.entry {d : Disk} (bounded : d.Bounded) {path : Str} {file : Nat} (named : d.entry path = some file) :
    file < d.next := by
  apply bounded path file
  cases changes : d.links path with
  | nil =>
    rw [Disk.entry, changes] at named
    exact List.mem_cons.mpr (.inl named.symm)
  | cons latest earlier =>
    rw [Disk.entry, changes] at named
    exact List.mem_cons.mpr (.inr (List.mem_cons.mpr (.inl named.symm)))

theorem bounded_mount (m : Mount) : (mount m).Bounded := by
  intro path file member
  exact m.bounded path file (List.mem_singleton.mp member).symm

theorem Bounded.link {d : Disk} (bounded : d.Bounded) {path : Str} {linked : Option Nat}
    (older : ∀ file, linked = some file → file < d.next) : (d.link path linked).Bounded := by
  intro other file member
  by_cases same : other = path
  · subst same
    simp only [Disk.link, Function.update_self, List.mem_cons] at member
    rcases member with at_first | latest | earlier
    · exact bounded other file (List.mem_cons.mpr (.inl at_first))
    · exact older file latest.symm
    · exact bounded other file (List.mem_cons.mpr (.inr earlier))
  · simp only [Disk.link, Function.update_of_ne same] at member
    exact bounded other file member

theorem Bounded.create {d t : Disk} {path : Str} {created : Nat} (bounded : d.Bounded)
    (made : d.create path = some (t, created)) : t.Bounded := by
  obtain ⟨_, _, rfl⟩ := create_eq made
  have grown : Bounded { d with next := d.next + 1 } :=
    fun path file member => Nat.lt_succ_of_lt (bounded path file member)
  exact @Bounded.link _ grown path (some d.next) (by rintro file ⟨⟩; exact Nat.lt_succ_self _)

theorem Bounded.rename {d t : Disk} {source target : Str} (bounded : d.Bounded)
    (renamed : d.rename source target = some t) : t.Bounded := by
  obtain ⟨file, found, rfl⟩ := Option.map_eq_some_iff.mp renamed
  exact (bounded.link (by rintro _ ⟨⟩; exact bounded.entry found)).link nofun

theorem Bounded.powerLoss {d : Disk} (bounded : d.Bounded) (lost : Str → Nat) (garbage : Nat → Str) :
    (d.powerLoss lost garbage).Bounded := by
  intro path file member
  apply bounded path file
  rcases List.mem_cons.mp member with at_first | change
  · exact List.mem_cons.mpr (.inl at_first)
  · exact List.mem_cons.mpr (.inr (List.mem_of_mem_drop change))

/-- A new file has one entry. -/
theorem create_only {d t : Disk} {path : Str} {created : Nat} (bounded : d.Bounded)
    (made : d.create path = some (t, created)) :
    created = d.next ∧ t.next = d.next + 1 ∧ ∀ other, t.entry other = some created ↔ other = path := by
  obtain ⟨_, rfl, rfl⟩ := create_eq made
  refine ⟨rfl, rfl, ?_⟩
  intro other
  have linked := entry_link d path (some d.next) other
  constructor
  · intro named
    by_contra different
    have older := bounded.entry ((if_neg different ▸ linked).symm.trans named)
    exact Nat.lt_irrefl _ older
  · rintro rfl
    exact linked.trans (if_pos rfl)

end Disk

end EdgeGuard.FileSystem
