import EdgeGuard.Gateway.RateLimit

/-! When a client may come back. The end of a window is a whole second, but the reset
that a client is told is the clock reading plus the rest of the counter's life, which
Redis has in whole milliseconds, rounded down; and the header drops what is left of
the second. -/
namespace EdgeGuard.Gateway
open Go

/-- The value of `X-RateLimit-Reset`: `ResetAt.Unix()`. -/
def RateLimitResult.resetHeader (result : RateLimitResult) : Int := result.resetAt / second

namespace Attempt

def retriedAt (a : Attempt) (instant : Time) : Attempt := { a with now := instant }

/-- The client is told to come back when the window of its call is over: neither the
reset nor its header lies before the end of that window, and a call from then on, or
after the time to wait, is counted in a later one. -/
structure ResetsAfterWindow (a : Attempt) (result : RateLimitResult) : Prop where
  reset : a.resetAt ≤ result.resetAt
  header : a.resetAt ≤ result.resetHeader * second
  retried : ∀ instant, result.resetHeader * second ≤ instant →
    a.currentWindow < (a.retriedAt instant).currentWindow
  waited : ∀ instant, a.now + result.retryAfter ≤ instant →
    a.currentWindow < (a.retriedAt instant).currentWindow

def left (a : Attempt) : Duration := a.resetAt - a.now

end Attempt

section Window
variable {a : Attempt} {seconds : Int}

theorem windowMilliseconds_seconds (whole : a.request.policy.window = seconds * second) :
    a.windowMilliseconds = seconds * 1000 := by
  rw [Attempt.windowMilliseconds, whole, milliseconds,
    show seconds * second = seconds * 1000 * millisecond by simp only [second, millisecond]; ring]
  exact Int.mul_tdiv_cancel _ (by decide)

theorem windowMilliseconds_pos (positive : 0 < seconds)
    (whole : a.request.policy.window = seconds * second) : 0 < a.windowMilliseconds := by
  rw [windowMilliseconds_seconds whole]
  omega

theorem resetAt_seconds (whole : a.request.policy.window = seconds * second) :
    a.resetAt = (a.currentWindow + 1) * seconds * second := by
  rw [Attempt.resetAt, windowMilliseconds_seconds whole]
  simp only [second, millisecond]
  ring

theorem currentWindow_lt_of_resetAt_le (window : 0 < a.windowMilliseconds) {instant : Time}
    (ended : a.resetAt ≤ instant) : a.currentWindow < (a.retriedAt instant).currentWindow := by
  have read : (a.currentWindow + 1) * a.windowMilliseconds ≤ unixMilli instant := by
    rw [unixMilli, Int.le_ediv_iff_mul_le (by decide)]
    exact ended
  have number := Int.tdiv_le_tdiv window read
  rw [Int.mul_tdiv_cancel _ window.ne'] at number
  exact Int.lt_of_add_one_le number

theorem resetAt_le_header_iff (whole : a.request.policy.window = seconds * second)
    (result : RateLimitResult) :
    a.resetAt ≤ result.resetHeader * second ↔ a.resetAt ≤ result.resetAt := by
  rw [resetAt_seconds whole, RateLimitResult.resetHeader]
  constructor
  · intro late
    exact Int.le_trans late (Int.ediv_mul_le _ (by decide))
  · intro late
    exact Int.mul_le_mul_of_nonneg_right ((Int.le_ediv_iff_mul_le (by decide)).mpr late) (by decide)

end Window

section Answer
variable {sha256 : Str → Str} {keyPrefix : Str} {a : Attempt} {seconds : Int} {result : RateLimitResult}

theorem answer_result {before : List (Attempt × Bool)} {gone : Bool}
    (answered : answer sha256 keyPrefix before (a, gone) = .ok result) :
    ∃ current, result = a.result current := by
  unfold answer allow at answered
  split at answered
  · contradiction
  · dsimp only at answered
    split at answered
    · cases answered
      exact ⟨_, rfl⟩
    · contradiction

/-- With a reset taken from Redis, the four conditions are one: the counter is said
to live as long as the window. -/
theorem resetsAfterWindow_iff (positive : 0 < seconds)
    (whole : a.request.policy.window = seconds * second) (alive : 0 < a.pttl) (current : Int) :
    a.ResetsAfterWindow (a.result current) ↔ a.left ≤ a.pttl * millisecond := by
  have reset : (a.result current).resetAt = a.now + a.pttl * millisecond := by
    simp only [Attempt.result, if_pos alive]
  have wait : a.now + a.pttl * millisecond ≤ a.now + (a.result current).retryAfter := by
    have longer : (a.result current).resetAt - a.now ≤ (a.result current).retryAfter := le_max_left _ _
    rw [reset] at longer
    exact sub_le_iff_le_add'.mp longer
  have window := windowMilliseconds_pos positive whole
  have covers : a.left ≤ a.pttl * millisecond ↔ a.resetAt ≤ (a.result current).resetAt := by
    rw [reset, Attempt.left]
    exact sub_le_iff_le_add'
  rw [covers]
  constructor
  · intro resets
    exact resets.reset
  · intro late
    have header := (resetAt_le_header_iff whole (a.result current)).mpr late
    refine ⟨late, header, ?_, ?_⟩
    · intro instant waited
      exact currentWindow_lt_of_resetAt_le window (header.trans waited)
    · intro instant waited
      rw [reset] at late
      exact currentWindow_lt_of_resetAt_le window (late.trans (wait.trans waited))

private theorem covered_iff {reset now rest : Int} (end_whole : reset % 1000000 = 0) (alive : 0 < rest)
    (lives : rest ≤ if reset - now < 1000000 then 1 else (reset - now) / 1000000) :
    reset - now ≤ rest * 1000000 ↔
      (now % 1000000 = 0 ∧ rest = if reset - now < 1000000 then 1 else (reset - now) / 1000000) ∨
        reset - now < 1000000 := by
  split at lives <;> split <;> omega

theorem milliseconds_ttl (a : Attempt) :
    milliseconds a.ttl = if a.left < millisecond then 1 else a.left / millisecond := by
  by_cases short : a.left < millisecond
  · have raised : a.ttl = millisecond := if_pos short
    rw [if_pos short, raised]
    rfl
  · have kept : a.ttl = a.left := if_neg short
    rw [if_neg short, kept]
    exact Int.tdiv_eq_ediv_of_nonneg (Int.le_trans (by decide) (Int.not_lt.mp short))

/-- A call that may itself have given the counter its life is covered only if nothing
was rounded off. -/
theorem left_le_own_life_iff (alive : 0 < a.pttl) (own : a.pttl ≤ milliseconds a.ttl) :
    a.left ≤ a.pttl * millisecond ↔
      (a.now % millisecond = 0 ∧ a.pttl = milliseconds a.ttl) ∨ a.left < millisecond := by
  rw [milliseconds_ttl] at own ⊢
  exact covered_iff (Int.mul_emod_left _ _) alive own

end Answer

/-- The reset that the limiter returns is safe to wait for exactly when the counter is
said to live for all that was left of the window at the clock reading. If the call
gave the counter its life, the reading has to be a whole millisecond and no time lost
since, unless less than a millisecond was left. -/
theorem reset_after_window_iff (sha256 : Str → Str) (keyPrefix : Str)
    (before : List (Attempt × Bool)) (a : Attempt) (gone : Bool) (result : RateLimitResult)
    (seconds : Int) (positive : 0 < seconds) (whole : a.request.policy.window = seconds * second)
    (alive : 0 < a.pttl) (answered : answer sha256 keyPrefix before (a, gone) = .ok result) :
    (a.ResetsAfterWindow result ↔ a.left ≤ a.pttl * millisecond) ∧
    (a.pttl ≤ milliseconds a.ttl → (a.ResetsAfterWindow result ↔
      (a.now % millisecond = 0 ∧ a.pttl = milliseconds a.ttl) ∨ a.left < millisecond)) := by
  obtain ⟨current, rfl⟩ := answer_result answered
  refine ⟨resetsAfterWindow_iff positive whole alive current, ?_⟩
  intro own
  rw [resetsAfterWindow_iff positive whole alive current, left_le_own_life_iff alive own]

def secondCall (now : Time) (pttl : Int) : Attempt :=
  ⟨⟨ordersKey, addressKey, ⟨true, 10, second⟩⟩, now, now, pttl, true⟩

theorem whole_millisecond_is_safe :
    answer keySHA256 (lit "edgeguard:rate-limit") [] (secondCall 1000000 999, false) =
        .ok ((secondCall 1000000 999).result 1) ∧
      (secondCall 1000000 999).ResetsAfterWindow ((secondCall 1000000 999).result 1) := by
  have answered : answer keySHA256 (lit "edgeguard:rate-limit") [] (secondCall 1000000 999, false) =
      .ok ((secondCall 1000000 999).result 1) := by decide +kernel
  exact ⟨answered, (reset_after_window_iff _ _ _ _ _ _ 1 (by decide) (by decide) (by decide)
    answered).1.mpr (by decide)⟩

/-- Half a millisecond into its second, a call is told a reset half a millisecond
before the end, and a header at the second's beginning; a client that waits for
either is counted in the same window. -/
theorem half_millisecond_is_told_too_early :
    let call := secondCall 500000 999
    milliseconds call.ttl = 999 ∧
      answer keySHA256 (lit "edgeguard:rate-limit") [] (call, false) = .ok (call.result 1) ∧
      call.resetAt = 1000000000 ∧ (call.result 1).resetAt = 999500000 ∧
      (call.result 1).resetHeader = 0 ∧ call.now + (call.result 1).retryAfter = 999500000 ∧
      (call.retriedAt 999500000).currentWindow = call.currentWindow := by
  decide +kernel

end EdgeGuard.Gateway
