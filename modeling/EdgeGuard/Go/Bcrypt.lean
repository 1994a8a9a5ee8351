import EdgeGuard.Go.Strings
import Mathlib.Data.List.TakeWhile

/-! What a program asks of `bcrypt`. The library is a parameter. By its description a password
enters the digest through a key schedule of 72 bytes: the password and a closing zero byte,
over and over. Two passwords with one schedule are one password to the digest. -/
namespace EdgeGuard.Go.Bcrypt

def keySize : Nat := 72

def keyOf (password : Str) : Str := (List.replicate keySize (password ++ [0])).flatten.take keySize

/-- `salt` is what `GenerateFromPassword` draws. -/
structure Hasher where
  generateFromPassword : (cost : Nat) → (salt password : Str) → Option Str
  compareHashAndPassword : (stored password : Str) → Bool

structure Hasher.Documented (hasher : Hasher) : Prop where
  agrees : ∀ {cost salt password stored other}, hasher.generateFromPassword cost salt password = some stored →
    keyOf other = keyOf password → hasher.compareHashAndPassword stored other = true
  shown : ∀ {cost salt password stored}, hasher.generateFromPassword cost salt password = some stored →
    ∀ c ∈ stored, visible c = true

theorem keyOf_eq (password : Str) :
    ∃ rest, keyOf password = (password ++ 0 :: rest).take keySize := by
  refine ⟨(List.replicate 71 (password ++ [0])).flatten, ?_⟩
  rw [keyOf, show keySize = 71 + 1 from rfl, List.replicate_succ, List.flatten_cons, List.append_assoc]
  rfl

theorem keyOf_long {password : Str} (long : keySize ≤ password.length) : keyOf password = password.take keySize := by
  obtain ⟨rest, same⟩ := keyOf_eq password
  rw [same, List.take_append_of_le_length long]

/-- A password without a zero byte can be told from its key. -/
theorem keyOf_takeWhile {password : Str} (plain : 0 ∉ password) (short : password.length ≤ keySize) :
    (keyOf password).takeWhile (· != 0) = password := by
  have all : ∀ byte ∈ password, (byte != 0) = true := by
    intro byte member
    rw [bne_iff_ne]
    rintro rfl
    exact plain member
  rcases Nat.lt_or_ge password.length keySize with inside | full
  · obtain ⟨rest, same⟩ := keyOf_eq password
    obtain ⟨more, size⟩ := Nat.exists_eq_add_of_lt inside
    rw [same, size, Nat.add_assoc, List.take_length_add_append, List.take_succ_cons,
      List.takeWhile_append_of_pos all]
    simp
  · rw [keyOf_long full, List.take_of_length_le short]
    exact List.takeWhile_eq_self_iff.mpr all

theorem keyOf_injective {password other : Str} (plain : 0 ∉ password) (short : password.length ≤ keySize)
    (plainOther : 0 ∉ other) (shortOther : other.length ≤ keySize) :
    keyOf password = keyOf other ↔ password = other := by
  constructor
  · intro same
    rw [← keyOf_takeWhile plain short, same, keyOf_takeWhile plainOther shortOther]
  · rintro rfl
    rfl

end EdgeGuard.Go.Bcrypt
