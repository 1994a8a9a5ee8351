import EdgeGuard.Go.NetIP
import Mathlib.Algebra.Group.Nat.Defs

/-! Address blocks. A block holds the addresses of its length whose leading bits are
those of its base; the rules take a block apart byte by byte. -/
namespace EdgeGuard.Go

/-- Bytes as a number, the first one highest. -/
def number : List UInt8 → Nat
  | [] => 0
  | byte :: rest => byte.toNat * 2 ^ (8 * rest.length) + number rest

theorem number_lt (bytes : List UInt8) : number bytes < 2 ^ (8 * bytes.length) := by
  induction bytes with
  | nil => decide
  | cons byte rest ih =>
    have bound : byte.toNat + 1 ≤ 2 ^ 8 := byte.toNat_lt
    calc number (byte :: rest) < byte.toNat * 2 ^ (8 * rest.length) + 2 ^ (8 * rest.length) := by
          simpa only [number, Nat.add_lt_add_iff_left] using ih
      _ = (byte.toNat + 1) * 2 ^ (8 * rest.length) := by rw [Nat.add_mul, Nat.one_mul]
      _ ≤ 2 ^ 8 * 2 ^ (8 * rest.length) := Nat.mul_le_mul_right _ bound
      _ = 2 ^ (8 * (byte :: rest).length) := by rw [← Nat.pow_add, List.length_cons]; congr 1; omega

/-- Two addresses of one length have the same first bits. -/
def SameLeading (bits : Nat) (base address : List UInt8) : Prop :=
  address.length = base.length ∧
    number address / 2 ^ (8 * base.length - bits) = number base / 2 ^ (8 * base.length - bits)

instance (bits : Nat) (base address : List UInt8) : Decidable (SameLeading bits base address) :=
  inferInstanceAs (Decidable (_ ∧ _))

private theorem digits_eq_iff {unit low low' : Nat} (high high' : Nat) (small : low < unit) (small' : low' < unit) :
    high * unit + low = high' * unit + low' ↔ high = high' ∧ low = low' := by
  constructor
  · intro same
    have first := congrArg (· / unit) same
    have second := congrArg (· % unit) same
    simp only [Nat.mul_add_mod_self_right, Nat.mod_eq_of_lt small, Nat.mod_eq_of_lt small'] at second
    have positive : 0 < unit := Nat.zero_lt_of_lt small
    simp only [Nat.mul_comm _ unit, Nat.mul_add_div positive, Nat.div_eq_of_lt small,
      Nat.div_eq_of_lt small', Nat.add_zero] at first
    exact ⟨first, second⟩
  · rintro ⟨rfl, rfl⟩
    rfl

variable {bits : Nat} {a b : UInt8} {address base : List UInt8}

theorem sameLeading_whole (inside : 8 ≤ bits) (fits : bits ≤ 8 * (base.length + 1)) :
    SameLeading bits (b :: base) (a :: address) ↔ a = b ∧ SameLeading (bits - 8) base address := by
  unfold SameLeading
  simp only [List.length_cons, Nat.add_right_cancel_iff, number]
  have width : 8 * (base.length + 1) - bits = 8 * base.length - (bits - 8) := by omega
  rw [width, and_left_comm]
  refine and_congr_right ?_
  intro size
  generalize opened : 8 * base.length - (bits - 8) = low
  have below : 8 * base.length = low + (8 * base.length - low) := by omega
  -- Cutting whole low bits off keeps the byte and the cut rest apart as two digits.
  have cut {byte : UInt8} {tail : List UInt8} (same : tail.length = base.length) :
      (byte.toNat * 2 ^ (8 * tail.length) + number tail) / 2 ^ low =
          byte.toNat * 2 ^ (8 * base.length - low) + number tail / 2 ^ low ∧
        number tail / 2 ^ low < 2 ^ (8 * base.length - low) := by
    have small := number_lt tail
    rw [same, below, Nat.pow_add] at small
    rw [same, below, Nat.pow_add, Nat.mul_left_comm, Nat.mul_add_div (Nat.two_pow_pos _), ← below]
    exact ⟨rfl, Nat.div_lt_of_lt_mul small⟩
  obtain ⟨cutAddress, small⟩ := @cut a address size
  obtain ⟨cutBase, small'⟩ := @cut b base rfl
  rw [cutAddress, cutBase, digits_eq_iff _ _ small small', UInt8.toNat_inj]

theorem sameLeading_part (ends : bits < 8) :
    SameLeading bits (b :: base) (a :: address) ↔
      address.length = base.length ∧ a.toNat / 2 ^ (8 - bits) = b.toNat / 2 ^ (8 - bits) := by
  unfold SameLeading
  simp only [List.length_cons, Nat.add_right_cancel_iff, number]
  refine and_congr_right ?_
  intro size
  have width : 8 * (base.length + 1) - bits = 8 * base.length + (8 - bits) := by omega
  have upper {byte : UInt8} {low : List UInt8} (same : low.length = base.length) :
      (byte.toNat * 2 ^ (8 * low.length) + number low) / 2 ^ (8 * base.length + (8 - bits)) =
        byte.toNat / 2 ^ (8 - bits) := by
    have small := number_lt low
    rw [same] at small ⊢
    rw [Nat.pow_add, ← Nat.div_div_eq_div_mul, Nat.mul_comm, Nat.mul_add_div (Nat.two_pow_pos _),
      Nat.div_eq_of_lt small, Nat.add_zero]
  rw [width, upper size, upper rfl]

theorem sameLeading_zero : SameLeading 0 base address ↔ address.length = base.length := by
  have small := number_lt base
  refine and_iff_left_of_imp ?_
  intro size
  have small' := number_lt address
  rw [size] at small'
  rw [Nat.sub_zero, Nat.div_eq_of_lt small, Nat.div_eq_of_lt small']

theorem sameLeading_all (width : bits = 8 * base.length) : SameLeading bits base address ↔ address = base := by
  induction base generalizing bits address with
  | nil =>
    subst width
    exact sameLeading_zero.trans List.length_eq_zero_iff
  | cons b base ih =>
    cases address with
    | nil => simp [SameLeading]
    | cons a address =>
      rw [List.length_cons] at width
      rw [sameLeading_whole (by omega) (by omega), ih (by omega), List.cons.injEq]

/-- A mask of leading ones keeps what a division leaves. -/
theorem masked_eq_iff (kept : bits ≤ 8) :
    a &&& UInt8.ofNat (256 - 2 ^ (8 - bits)) = b &&& UInt8.ofNat (256 - 2 ^ (8 - bits)) ↔
      a.toNat / 2 ^ (8 - bits) = b.toNat / 2 ^ (8 - bits) := by
  have masks : ∀ n < 256, ∀ k ≤ 8,
      n &&& (256 - 2 ^ (8 - k)) % 256 = n / 2 ^ (8 - k) * 2 ^ (8 - k) := by
    decide +kernel
  rw [← UInt8.toNat_inj, UInt8.toNat_and, UInt8.toNat_and, UInt8.toNat_ofNat',
    masks _ a.toNat_lt bits kept, masks _ b.toNat_lt bits kept, Nat.mul_left_inj (Nat.two_pow_pos _).ne']

/-- `base/bits`. -/
structure Cidr where
  base : List UInt8
  bits : Nat
  fits : bits ≤ 8 * base.length := by decide

def Cidr.Contains (block : Cidr) (address : List UInt8) : Prop := SameLeading block.bits block.base address

instance (block : Cidr) (address : List UInt8) : Decidable (block.Contains address) :=
  inferInstanceAs (Decidable (SameLeading _ _ _))

/-- The address is in one of the blocks. -/
def Cidr.Any (blocks : List Cidr) (address : List UInt8) : Prop := ∃ block ∈ blocks, block.Contains address

instance (blocks : List Cidr) (address : List UInt8) : Decidable (Cidr.Any blocks address) :=
  inferInstanceAs (Decidable (∃ block ∈ blocks, _))

end EdgeGuard.Go
