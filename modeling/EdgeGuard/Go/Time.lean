import Mathlib.Algebra.Group.Int.Defs
import Mathlib.Algebra.Group.Nat.Defs
import Mathlib.Data.Int.Init

/-! Instants and durations of Go's `time` package as integers: nanoseconds since
the Unix epoch, and nanoseconds. -/
namespace EdgeGuard.Go

abbrev Time := Int
abbrev Duration := Int

/-- Two's-complement result of a 64-bit integer operation. -/
def wrap64 (value : Int) : Int := value.bmod (2 ^ 64)

theorem wrap64_eq (value : Int) : wrap64 value =
    if value % 2 ^ 64 < 2 ^ 63 then value % 2 ^ 64 else value % 2 ^ 64 - 2 ^ 64 := rfl

theorem wrap64_eq_self_iff {value : Int} : wrap64 value = value ↔ -2 ^ 63 ≤ value ∧ value < 2 ^ 63 := by
  rw [wrap64_eq]
  constructor
  · intro same
    split at same <;> omega
  · rintro ⟨lower, upper⟩
    split <;> omega

theorem wrap64_nonpos_iff {value : Int} :
    wrap64 value ≤ 0 ↔ value % 2 ^ 64 = 0 ∨ 2 ^ 63 ≤ value % 2 ^ 64 := by
  rw [wrap64_eq]
  split <;> omega

def microsecond : Duration := 1000
def millisecond : Duration := 1000000
def second : Duration := 1000000000
def hour : Duration := 3600 * second

/-- The zero `time.Time`: January 1 of year 1, UTC. -/
def zeroTime : Time := -62135596800 * second

/-- `Time.UnixMilli`: whole milliseconds, rounded down. -/
def unixMilli (t : Time) : Int := t / millisecond

/-- `Duration.Milliseconds`: whole milliseconds, rounded toward zero. -/
def milliseconds (d : Duration) : Int := d.tdiv millisecond

/-- `Time.Truncate` for a unit that divides the distance between the zero time
and the epoch, such as the hour. -/
def truncate (t : Time) (unit : Duration) : Time := t / unit * unit

private theorem tdiv_pos {d : Int} (long : 1000000 ≤ d) : 0 < d.tdiv 1000000 := by
  rw [Int.tdiv_eq_ediv_of_nonneg (by omega)]
  omega

theorem milliseconds_pos {d : Duration} (long : millisecond ≤ d) : 0 < milliseconds d := tdiv_pos long

end EdgeGuard.Go
