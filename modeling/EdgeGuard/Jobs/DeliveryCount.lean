import EdgeGuard.Jobs.Settlement

/-! The attempt a delivery is handled under, read from the `x-delivery-count` header.
A table holds integers of nine types; `headerInt64` brings each of them to `int64` and
`deliveryAttempt` adds one in machine arithmetic. -/
namespace EdgeGuard.Jobs.Amqp
open Go Transition

/-- A value of an `amqp.Table`. `int` has 64 bits; floating point values are their bits. -/
inductive Field where
  | int (value : Int64)
  | int8 (value : Int8)
  | int16 (value : Int16)
  | int32 (value : Int32)
  | int64 (value : Int64)
  | uint8 (value : UInt8)
  | uint16 (value : UInt16)
  | uint32 (value : UInt32)
  | uint64 (value : UInt64)
  | null
  | bool (value : Bool)
  | float32 (bits : UInt32)
  | float64 (bits : UInt64)
  | decimal (scale : UInt8) (value : Int32)
  | string (value : Str)
  | bytes (value : Str)
  | timestamp (value : Time)
  | array (values : List Field)
  | table (entries : List (Str × Field))

abbrev Table := List (Str × Field)

def headerInt64 (headers : Table) (key : Str) : Int64 :=
  match headers.lookup key with
  | none => 0
  | some value => match value with
    | .int typed => typed
    | .int8 typed => typed.toInt64
    | .int16 typed => typed.toInt64
    | .int32 typed => typed.toInt64
    | .int64 typed => typed
    | .uint8 typed => typed.toUInt64.toInt64
    | .uint16 typed => typed.toUInt64.toInt64
    | .uint32 typed => typed.toUInt64.toInt64
    | .uint64 typed => if typed > ~~~(0 : UInt64) >>> 1 then 0 else typed.toInt64
    | _ => 0

def deliveryAttempt (headers : Table) : Int64 :=
  let count := headerInt64 headers (lit "x-delivery-count")
  let count := if count < 0 then 0 else count
  count + 1

/-- What the worker tells apart. -/
def Field.header : Field → HeaderValue
  | .int value | .int64 value => .signed value
  | .int8 value => .signed value.toInt64
  | .int16 value => .signed value.toInt64
  | .int32 value => .signed value.toInt64
  | .uint8 value => .unsigned value.toUInt64
  | .uint16 value => .unsigned value.toUInt64
  | .uint32 value => .unsigned value.toUInt64
  | .uint64 value => .unsigned value
  | _ => .other

def Table.headers (table : Table) : Headers := table.map (fun entry => (entry.1, entry.2.header))

theorem Table.headers_lookup (table : Table) (key : Str) :
    table.headers.lookup key = (table.lookup key).map Field.header := by
  induction table with
  | nil => rfl
  | cons entry rest ih =>
    obtain ⟨name, value⟩ := entry
    simp only [Table.headers, List.map_cons, List.lookup_cons] at ih ⊢
    cases key == name with
    | true => rfl
    | false => exact ih

/-- The narrow unsigned types stay below the bound that `uint64` is checked against. -/
theorem narrow_unsigned {value : UInt64} (narrow : value.toNat < 2 ^ 32) : ¬ value > 9223372036854775807 := by
  rw [gt_iff_lt, UInt64.lt_iff_toNat_lt]
  have : (9223372036854775807 : UInt64).toNat = 9223372036854775807 := rfl
  omega

theorem headerInt64_headers (table : Table) (key : Str) :
    Jobs.headerInt64 table.headers key = headerInt64 table key := by
  unfold Jobs.headerInt64 headerInt64
  rw [Table.headers_lookup]
  cases table.lookup key with
  | none => rfl
  | some value =>
    cases value with
    | uint8 value =>
      have : value.toUInt64.toNat = value.toNat := UInt8.toNat_toUInt64 value
      exact if_neg (narrow_unsigned (by have := value.toNat_lt; omega))
    | uint16 value =>
      have : value.toUInt64.toNat = value.toNat := UInt16.toNat_toUInt64 value
      exact if_neg (narrow_unsigned (by have := value.toNat_lt; omega))
    | uint32 value =>
      have : value.toUInt64.toNat = value.toNat := UInt32.toNat_toUInt64 value
      exact if_neg (narrow_unsigned (by have := value.toNat_lt; omega))
    | _ => rfl

theorem deliveryAttempt_headers (table : Table) :
    Jobs.deliveryAttempt table.headers = (deliveryAttempt table).toInt := by
  simp only [Jobs.deliveryAttempt, deliveryAttempt, headerInt64_headers]

/-- The number a value stands for, when it is one. -/
def Field.integer : Field → Option Int
  | .int value | .int64 value => some value.toInt
  | .int8 value => some value.toInt
  | .int16 value => some value.toInt
  | .int32 value => some value.toInt
  | .uint8 value => some value.toNat
  | .uint16 value => some value.toNat
  | .uint32 value => some value.toNat
  | .uint64 value => some value.toNat
  | _ => none

/-- The number under `x-delivery-count`; none when it is absent or no integer. -/
def Table.deliveryCount (table : Table) : Option Int :=
  (table.lookup (lit "x-delivery-count")).bind Field.integer

def maxInt64 : Int := 9223372036854775807

/-- What the attempt of a delivery is to be. -/
structure CountsAttempt (table : Table) : Prop where
  positive : 1 ≤ (deliveryAttempt table).toInt
  first : (∀ count, table.deliveryCount = some count → count < 0) → (deliveryAttempt table).toInt = 1
  next : ∀ count, table.deliveryCount = some count → 0 ≤ count → count + 1 ≤ maxInt64 →
    (deliveryAttempt table).toInt = count + 1

theorem toInt64_toInt {value : UInt64} (fits : value.toNat < 2 ^ 63) :
    value.toInt64.toInt = value.toNat := by
  rw [← Int64.toInt_toBitVec, UInt64.toBitVec_toInt64, BitVec.toInt_eq_toNat_of_lt]
  · rfl
  · change 2 * value.toNat < 2 ^ 64
    omega

theorem uint64_guard (value : UInt64) : value > ~~~(0 : UInt64) >>> 1 ↔ maxInt64 < value.toNat := by
  rw [gt_iff_lt, UInt64.lt_iff_toNat_lt]
  have bound : (~~~(0 : UInt64) >>> 1).toNat = 9223372036854775807 := by decide
  unfold maxInt64
  omega

theorem within_int64 {value : Int64} {count : Int} (same : value.toInt = count) :
    value.toInt = ((some count).filter (· ≤ maxInt64)).getD 0 := by
  have fits : count ≤ maxInt64 := by
    have := value.toInt_lt
    unfold maxInt64
    omega
  rw [Option.filter_some, if_pos (by simpa using fits)]
  exact same

theorem narrow_toInt {value : UInt64} {narrow : Nat} (same : value.toNat = narrow) (fits : narrow < 2 ^ 32) :
    value.toInt64.toInt = narrow := by
  rw [toInt64_toInt (by omega), same]

/-- Every integer that `int64` has is brought over unchanged; anything else counts as zero. -/
theorem headerInt64_toInt (table : Table) :
    (headerInt64 table (lit "x-delivery-count")).toInt =
      (table.deliveryCount.filter (· ≤ maxInt64)).getD 0 := by
  unfold headerInt64 Table.deliveryCount
  cases table.lookup (lit "x-delivery-count") with
  | none => rfl
  | some value =>
    cases value with
    | int value | int64 value => exact within_int64 rfl
    | int8 value => exact within_int64 value.toInt_toInt64
    | int16 value => exact within_int64 value.toInt_toInt64
    | int32 value => exact within_int64 value.toInt_toInt64
    | uint8 value =>
      exact within_int64 (narrow_toInt value.toNat_toUInt64 (value.toNat_lt.trans (by decide)))
    | uint16 value =>
      exact within_int64 (narrow_toInt value.toNat_toUInt64 (value.toNat_lt.trans (by decide)))
    | uint32 value => exact within_int64 (narrow_toInt value.toNat_toUInt64 value.toNat_lt)
    | uint64 value =>
      simp only [Option.bind_some, Field.integer]
      by_cases large : value > ~~~(0 : UInt64) >>> 1
      · have beyond := (uint64_guard value).mp large
        rw [if_pos large, Option.filter_some, if_neg (by simpa using beyond)]
        rfl
      · have fits : (value.toNat : Int) ≤ maxInt64 := not_lt.mp (large ∘ (uint64_guard value).mpr)
        rw [if_neg large]
        exact within_int64 (toInt64_toInt (by unfold maxInt64 at fits; omega))
    | _ => rfl

theorem deliveryAttempt_toInt (table : Table) :
    (deliveryAttempt table).toInt =
      wrap64 (max ((table.deliveryCount.filter (· ≤ maxInt64)).getD 0) 0 + 1) := by
  rw [← headerInt64_toInt]
  have clamped : (if headerInt64 table (lit "x-delivery-count") < 0 then 0
      else headerInt64 table (lit "x-delivery-count")).toInt =
      max (headerInt64 table (lit "x-delivery-count")).toInt 0 := by
    have zero : (0 : Int64).toInt = 0 := rfl
    split
    · rename_i negative
      rw [Int64.lt_iff_toInt_lt] at negative
      omega
    · rename_i nonneg
      rw [Int64.lt_iff_toInt_lt] at nonneg
      omega
  simp only [deliveryAttempt, Int64.toInt_add, clamped]
  rfl

theorem deliveryAttempt_at_max {table : Table} (largest : table.deliveryCount = some maxInt64) :
    (deliveryAttempt table).toInt = -9223372036854775808 := by
  rw [deliveryAttempt_toInt, largest]
  decide

theorem deliveryAttempt_first {table : Table}
    (zero : max ((table.deliveryCount.filter (· ≤ maxInt64)).getD 0) 0 = 0) :
    (deliveryAttempt table).toInt = 1 := by
  rw [deliveryAttempt_toInt, zero]
  rfl

theorem deliveryAttempt_next {table : Table} {count : Int} (found : table.deliveryCount = some count)
    (nonneg : 0 ≤ count) (fits : count + 1 ≤ maxInt64) : (deliveryAttempt table).toInt = count + 1 := by
  have within : count ≤ maxInt64 := by omega
  rw [deliveryAttempt_toInt, found, Option.filter_some, if_pos (by simpa using within), Option.getD_some,
    max_eq_left nonneg, wrap64_eq_self_iff]
  unfold maxInt64 at fits
  omega

theorem countsAttempt_of_ne_max {table : Table} (below : table.deliveryCount ≠ some maxInt64) :
    CountsAttempt table := by
  cases found : table.deliveryCount with
  | none =>
    have one : (deliveryAttempt table).toInt = 1 := deliveryAttempt_first (by rw [found]; rfl)
    refine ⟨one.ge, fun _ => one, ?_⟩
    intro count some
    rw [found] at some
    contradiction
  | some count =>
    by_cases next : 0 ≤ count ∧ count + 1 ≤ maxInt64
    · have attempt := deliveryAttempt_next found next.1 next.2
      refine ⟨by omega, ?_, ?_⟩
      · intro negative
        have := negative count found
        omega
      · intro other same _ _
        cases found.symm.trans same
        exact attempt
    · -- A negative count, or one that `uint64` has and `int64` has not.
      have one : (deliveryAttempt table).toInt = 1 := by
        apply deliveryAttempt_first
        have : count ≠ maxInt64 := by
          rintro rfl
          exact below found
        rw [found, Option.filter_some]
        split
        · rename_i fits
          simp only [decide_eq_true_eq] at fits
          simp only [Option.getD_some]
          omega
        · rfl
      refine ⟨one.ge, fun _ => one, ?_⟩
      intro other same nonneg fits
      cases found.symm.trans same
      exact absurd ⟨nonneg, fits⟩ next

/-- A delivery comes with a table whose count can be incremented. -/
def Incrementable : Action → Prop
  | .deliver _ headers _ => ∃ table : Table, headers = table.headers ∧ table.deliveryCount ≠ some maxInt64
  | _ => True

structure AttemptsPositive (s : System) : Prop where
  handled : ∀ worker handling, s.workers worker = some handling → 1 ≤ handling.attempt
  processed : ∀ entry ∈ s.processed, 1 ≤ entry.2

theorem start_attemptsPositive (rows : Jobs.Table) : AttemptsPositive (.start rows) :=
  ⟨by rintro _ _ ⟨⟩, by rintro _ ⟨⟩⟩

theorem step_attemptsPositive {validJSON : Str → Bool} {s t : System} {action : Action}
    (counted : Incrementable action) (before : AttemptsPositive s)
    (stepped : step validJSON s action = some t) : AttemptsPositive t := by
  constructor
  · intro worker handling found
    cases step_moved stepped found with
    | same _ busy => exact before.handled worker handling busy
    | delivered headers body took _ =>
      subst took
      obtain ⟨table, rfl, below⟩ := counted
      rw [deliveryAttempt_headers]
      exact (countsAttempt_of_ne_max below).positive
    | replied earlier _ _ _ _ _ busy _ _ _ _ => exact before.handled worker earlier busy
    | processed earlier _ _ _ busy _ _ => exact before.handled worker earlier busy
  · rcases step_processed stepped with same | ⟨worker, handling, envelope, busy, more⟩
    · rw [same]
      exact before.processed
    · rw [more]
      intro entry member
      rcases List.mem_append.mp member with old | new
      · exact before.processed entry old
      · cases List.mem_singleton.mp new
        exact before.handled worker handling busy

/-- The attempt is the header's count and one more, from one on, exactly when the count
is not the largest `int64`; and while no delivery brings that one, every attempt that a
worker prepares, processes or compares with `MaxAttempts` is positive. -/
theorem attempts_count_iff (validJSON : Str → Bool) (rows : Jobs.Table) :
    (∀ table : Table, CountsAttempt table ↔ table.deliveryCount ≠ some maxInt64) ∧
    ∀ actions s, run (step validJSON) (.start rows) actions = some s →
      (∀ action ∈ actions, Incrementable action) → AttemptsPositive s := by
  constructor
  · intro table
    refine ⟨?_, countsAttempt_of_ne_max⟩
    rintro counts largest
    have positive := counts.positive
    rw [deliveryAttempt_at_max largest] at positive
    omega
  · intro actions s path counted
    exact run_invariant_along step_attemptsPositive path
      (along_of_forall (fun _ action member => counted action member) _) (start_attemptsPositive rows)

def counted (value : Field) : Table := [(lit "x-delivery-count", value)]

theorem eighth_delivery_is_positive :
    CountsAttempt (counted (.uint64 7)) ∧
    ∃ s, run (step emptyObject) (.start fun _ => none)
        [.deliver 0 (counted (.uint64 7)).headers (some reportJob), .store 0 1 none] = some s ∧
      AttemptsPositive s ∧ s.workers 0 = some ⟨some reportJob, 8, .process⟩ := by
  have ⟨counts, positive⟩ := attempts_count_iff emptyObject (fun _ => none)
  have below : (counted (.uint64 7)).deliveryCount ≠ some maxInt64 := by decide
  refine ⟨(counts _).mpr below, ?_⟩
  have ran : (run (step emptyObject) (.start fun _ => none)
      [.deliver 0 (counted (.uint64 7)).headers (some reportJob), .store 0 1 none]).map (·.workers 0) =
      some (some ⟨some reportJob, 8, .process⟩) := by
    decide +kernel
  obtain ⟨s, path, busy⟩ := Option.map_eq_some_iff.mp ran
  refine ⟨s, path, positive _ s path ?_, busy⟩
  simp only [List.mem_cons, List.not_mem_nil, or_false, forall_eq_or_imp, forall_eq]
  exact ⟨⟨_, rfl, below⟩, trivial⟩

/-- `int64(9223372036854775807)`, and the same number as `uint64`, pass the guards; the
statement of `PrepareAttempt` is then refused and the delivery is handled no further. -/
theorem largest_count_wraps :
    ¬ CountsAttempt (counted (.int64 9223372036854775807)) ∧
    (deliveryAttempt (counted (.int64 9223372036854775807))).toInt = -9223372036854775808 ∧
    (deliveryAttempt (counted (.uint64 9223372036854775807))).toInt = -9223372036854775808 ∧
    (run (step emptyObject) (.start fun _ => none)
        [.deliver 0 (counted (.int64 9223372036854775807)).headers (some reportJob), .store 0 1 none]).map
      (fun s => (s.workers 0, s.table reportJob.id)) = some (none, none) := by
  have wraps : (deliveryAttempt (counted (.int64 9223372036854775807))).toInt = -9223372036854775808 := by
    decide
  refine ⟨?_, wraps, by decide, by decide +kernel⟩
  intro counts
  have positive := counts.positive
  rw [wraps] at positive
  omega

end EdgeGuard.Jobs.Amqp
