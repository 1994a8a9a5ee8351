import EdgeGuard.Go.Encoding

/-! Decimal and base-36 text of integers, and texts put together from parts with a separator. -/
namespace EdgeGuard.Go

/-- The digits of a number below `10 ^ fuel`. -/
def decimalDigits : Nat → Nat → Str
  | 0, _ => []
  | fuel + 1, n =>
    if n < 10 then [UInt8.ofNat (48 + n)] else decimalDigits fuel (n / 10) ++ [UInt8.ofNat (48 + n % 10)]

/-- `fmt.Sprintf("%d", value)`. -/
def formatInt (value : Int) : Str :=
  let digits := decimalDigits (value.natAbs + 1) value.natAbs
  if value < 0 then 45 :: digits else digits

def decimalValue (digits : Str) : Nat := digits.foldl (fun value c => value * 10 + (c.toNat - 48)) 0

theorem decimalValue_append (digits : Str) (c : UInt8) :
    decimalValue (digits ++ [c]) = decimalValue digits * 10 + (c.toNat - 48) := by
  simp [decimalValue]

private theorem digit_value {n : Nat} (small : n < 10) : (UInt8.ofNat (48 + n)).toNat - 48 = n := by
  rw [UInt8.toNat_ofNat']
  omega

theorem decimalValue_digits {fuel n : Nat} (enough : n < fuel) : decimalValue (decimalDigits fuel n) = n := by
  induction fuel generalizing n with
  | zero => omega
  | succ fuel ih =>
    unfold decimalDigits
    split
    · rename_i small
      simpa [decimalValue] using digit_value small
    · rw [decimalValue_append, ih (by omega), digit_value (by omega)]
      omega

theorem minus_not_mem_digits (fuel n : Nat) : 45 ∉ decimalDigits fuel n := by
  have digit {n : Nat} (small : n < 10) : (45 : UInt8) ≠ UInt8.ofNat (48 + n) := by
    intro same
    have value := congrArg UInt8.toNat same
    rw [UInt8.toNat_ofNat'] at value
    change 45 = _ at value
    omega
  induction fuel generalizing n with
  | zero => exact List.not_mem_nil
  | succ fuel ih =>
    unfold decimalDigits
    split
    · rename_i small
      rw [List.mem_singleton]
      exact digit small
    · rw [List.mem_append, List.mem_singleton]
      rintro (inside | last)
      · exact ih (n / 10) inside
      · exact digit (Nat.mod_lt n (Nat.succ_pos 9)) last

theorem formatInt_injective : Function.Injective formatInt := by
  have magnitude {a b : Int} (same : decimalDigits (a.natAbs + 1) a.natAbs =
      decimalDigits (b.natAbs + 1) b.natAbs) : a.natAbs = b.natAbs := by
    have value := congrArg decimalValue same
    rwa [decimalValue_digits (by omega), decimalValue_digits (by omega)] at value
  intro a b same
  unfold formatInt at same
  by_cases first : a < 0 <;> by_cases second : b < 0 <;> simp only [first, second, if_true, if_false] at same
  · have := magnitude (List.cons.inj same).2
    omega
  · exact absurd (same ▸ List.mem_cons_self) (minus_not_mem_digits (b.natAbs + 1) b.natAbs)
  · exact absurd (same ▸ List.mem_cons_self) (minus_not_mem_digits (a.natAbs + 1) a.natAbs)
  · have := magnitude same
    omega

/-- The number that a text of `formatInt` stands for. -/
def parseInt : Str → Int
  | 45 :: digits => -decimalValue digits
  | digits => decimalValue digits

theorem parseInt_formatInt (value : Int) : parseInt (formatInt value) = value := by
  have digits := @decimalValue_digits (value.natAbs + 1) value.natAbs (by omega)
  have plain := minus_not_mem_digits (value.natAbs + 1) value.natAbs
  unfold formatInt
  dsimp only
  split
  · rw [parseInt, digits]
    omega
  · generalize decimalDigits (value.natAbs + 1) value.natAbs = text at digits plain
    have positive : parseInt text = decimalValue text := by
      unfold parseInt
      split
      · exact absurd List.mem_cons_self plain
      · rfl
    rw [positive, digits]
    omega

def numeric (c : UInt8) : Bool := c == 45 || (48 ≤ c && c ≤ 57)

theorem formatInt_numeric (value : Int) : ∀ c ∈ formatInt value, numeric c = true := by
  have digit : ∀ n < 10, numeric (UInt8.ofNat (48 + n)) = true := by decide
  have digits (fuel n : Nat) : ∀ c ∈ decimalDigits fuel n, numeric c = true := by
    induction fuel generalizing n with
    | zero => simp [decimalDigits]
    | succ fuel ih =>
      unfold decimalDigits
      split
      · rename_i small
        simpa using digit n small
      · intro c member
        rcases List.mem_append.mp member with inside | last
        · exact ih (n / 10) c inside
        · rw [List.mem_singleton.mp last]
          exact digit (n % 10) (Nat.mod_lt n (Nat.succ_pos 9))
  intro c member
  unfold formatInt at member
  dsimp only at member
  split at member
  · rcases List.mem_cons.mp member with rfl | inside
    · rfl
    · exact digits _ _ c inside
  · exact digits _ _ c member

theorem formatInt_ne_nil (value : Int) : formatInt value ≠ [] := by
  have digits (fuel n : Nat) : decimalDigits (fuel + 1) n ≠ [] := by
    unfold decimalDigits
    split
    · simp
    · simp
  unfold formatInt
  dsimp only
  split
  · simp
  · exact digits _ _

def base36Digit (value : Nat) : UInt8 := (lit "0123456789abcdefghijklmnopqrstuvwxyz").getD value 48

/-- The digits of a number below `36 ^ fuel`. -/
def base36Digits : Nat → Nat → Str
  | 0, _ => []
  | fuel + 1, n =>
    if n < 36 then [base36Digit n] else base36Digits fuel (n / 36) ++ [base36Digit (n % 36)]

/-- `strconv.FormatInt(value, 36)`. -/
def formatBase36 (value : Int) : Str :=
  let digits := base36Digits (value.natAbs + 1) value.natAbs
  if value < 0 then 45 :: digits else digits

private theorem base36Digit_visible : ∀ value < 36, visible (base36Digit value) = true := by decide

theorem formatBase36_visible (value : Int) : ∃ c ∈ formatBase36 value, visible c = true := by
  have digits (fuel n : Nat) : ∃ c ∈ base36Digits (fuel + 1) n, visible c = true := by
    unfold base36Digits
    split
    · next small => exact ⟨_, List.mem_singleton_self _, base36Digit_visible n small⟩
    · exact ⟨_, List.mem_append_right _ (List.mem_singleton_self _),
        base36Digit_visible (n % 36) (Nat.mod_lt n (Nat.succ_pos 35))⟩
  obtain ⟨c, member, shown⟩ := digits value.natAbs value.natAbs
  unfold formatBase36
  dsimp only
  split
  · exact ⟨c, List.mem_cons_of_mem _ member, shown⟩
  · exact ⟨c, member, shown⟩

/-- A text is cut at its first separator in one way only. -/
theorem separated_inj {sep : UInt8} {part other rest more : Str} (absent : sep ∉ part)
    (absent' : sep ∉ other) (same : part ++ sep :: rest = other ++ sep :: more) :
    part = other ∧ rest = more := by
  induction part generalizing other with
  | nil =>
    cases other with
    | nil => exact ⟨rfl, (List.cons.inj same).2⟩
    | cons c tail => exact absurd ((List.cons.inj same).1 ▸ List.mem_cons_self) absent'
  | cons c part ih =>
    cases other with
    | nil => exact absurd ((List.cons.inj same).1 ▸ List.mem_cons_self) absent
    | cons d tail =>
      obtain ⟨rfl, tails⟩ := List.cons.inj same
      obtain ⟨rfl, rest⟩ := ih (fun member => absent (List.mem_cons_of_mem _ member))
        (fun member => absent' (List.mem_cons_of_mem _ member)) tails
      exact ⟨rfl, rest⟩

end EdgeGuard.Go
