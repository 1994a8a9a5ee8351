import EdgeGuard.Gateway.Fallback
import EdgeGuard.Gateway.Handler

/-! The durations of loaded routes. Both sources check the whole numbers of a row and
multiply afterwards, in 64 bits of nanoseconds; the route has the durations of its
row exactly when no product leaves those bits, and then its rate limit policy is
never refused. -/
namespace EdgeGuard.Gateway
open Go

/-- The route has a positive timeout and, with a rate limit, a positive window, both
the given ones, and `CheckRateLimit` does not refuse its policy. -/
structure Timed (timeout window : Duration) (route : Route) : Prop where
  timeout : 0 < route.timeout ∧ route.timeout = timeout
  window : route.rateLimit.enabled = true →
    0 < route.rateLimit.window ∧ route.rateLimit.window = window
  accepted : ∀ limiter clientID,
    checkRateLimit limiter route clientID ≠ ([], .error .invalidRateLimitPolicy)

theorem policy_refused_iff {limiter : Option Limiter} {route : Route} {clientID : Str} :
    checkRateLimit limiter route clientID = ([], .error .invalidRateLimitPolicy) ↔
      route.rateLimit.enabled = true ∧ (route.rateLimit.limit ≤ 0 ∨ route.rateLimit.window ≤ 0) := by
  unfold checkRateLimit
  by_cases disabled : route.rateLimit.enabled = false
  · simp [disabled]
  rw [if_neg disabled]
  have enabled : route.rateLimit.enabled = true := by simpa using disabled
  by_cases invalid : route.rateLimit.limit ≤ 0 ∨ route.rateLimit.window ≤ 0
  · simp [enabled, invalid]
  · rw [if_neg invalid]
    simp only [enabled, invalid, and_false, iff_false]
    split
    · simp
    · cases limiter <;> simp

theorem timed_iff {timeout window : Duration} {route : Route}
    (limit : route.rateLimit.enabled = true → 0 < route.rateLimit.limit) :
    Timed timeout window route ↔ (0 < route.timeout ∧ route.timeout = timeout) ∧
      (route.rateLimit.enabled = true →
        0 < route.rateLimit.window ∧ route.rateLimit.window = window) := by
  constructor
  · intro timed
    exact ⟨timed.timeout, timed.window⟩
  · rintro ⟨time, long⟩
    refine ⟨time, long, ?_⟩
    intro limiter clientID refused
    obtain ⟨enabled, invalid⟩ := policy_refused_iff.mp refused
    rcases invalid with limited | short
    · exact absurd limited (Int.not_le.mpr (limit enabled))
    · exact absurd short (Int.not_le.mpr (long enabled).1)

theorem product_kept_iff {count : Int} {unit : Duration} (positive : 0 < count * unit) :
    0 < wrap64 (count * unit) ∧ wrap64 (count * unit) = count * unit ↔ count * unit < 2 ^ 63 := by
  constructor
  · rintro ⟨_, kept⟩
    exact (wrap64_eq_self_iff.mp kept).2
  · intro fits
    have kept := wrap64_eq_self_iff.mpr ⟨by omega, fits⟩
    exact ⟨by rw [kept]; exact positive, kept⟩

theorem toRateLimitPolicy_policy {row : RouteResponse} {policy : RateLimitPolicy}
    (loaded : row.toRateLimitPolicy = .ok policy) :
    (row.rateLimitEnabled = false ∧ policy = ⟨false, 0, 0⟩) ∨
      (row.rateLimitEnabled = true ∧ 0 < row.rateLimitRequests ∧ 0 < row.rateLimitWindowSeconds ∧
        policy = ⟨true, row.rateLimitRequests, wrap64 (row.rateLimitWindowSeconds * second)⟩) := by
  unfold RouteResponse.toRateLimitPolicy at loaded
  by_cases disabled : row.rateLimitEnabled = false
  · rw [if_pos disabled] at loaded
    obtain ⟨_, loaded⟩ := check_passed loaded
    cases loaded
    exact .inl ⟨disabled, rfl⟩
  · rw [if_neg disabled] at loaded
    obtain ⟨requests, loaded⟩ := check_passed loaded
    obtain ⟨window, loaded⟩ := check_passed loaded
    cases loaded
    exact .inr ⟨by simpa using disabled, by omega, by omega, rfl⟩

namespace RouteResponse

/-- The products of the row fit into 64 bits. -/
def Fits (row : RouteResponse) : Prop :=
  row.timeoutMS * millisecond < 2 ^ 63 ∧
    (row.rateLimitEnabled = true → row.rateLimitWindowSeconds * second < 2 ^ 63)

theorem timed_iff_fits {parse : Str → Except String URL} {row : RouteResponse} {route : Route}
    (loaded : row.toDomain parse = .ok route) :
    Timed (row.timeoutMS * millisecond) (row.rateLimitWindowSeconds * second) route ↔ row.Fits := by
  obtain ⟨limited, same⟩ := toDomain_route loaded
  have accepted := toDomain_ok_iff.mp ⟨route, loaded⟩
  have timeout : route.timeout = wrap64 (row.timeoutMS * millisecond) := congrArg Route.timeout same
  have long : 0 < row.timeoutMS * millisecond := Int.mul_pos accepted.timeout (by decide)
  rcases toRateLimitPolicy_policy limited with ⟨disabled, policy⟩ | ⟨enabled, requests, seconds, policy⟩
  · rw [timed_iff (by simp [policy]), timeout, product_kept_iff long]
    simp [Fits, policy, disabled]
  · have window : 0 < row.rateLimitWindowSeconds * second := Int.mul_pos seconds (by decide)
    rw [timed_iff (by simp [policy, requests]), timeout, product_kept_iff long, policy,
      product_kept_iff window]
    simp [Fits, enabled]

end RouteResponse

namespace RouteConfig

def expectedTimeout (route : RouteConfig) : Duration :=
  if 0 < route.timeoutMS then route.timeoutMS * millisecond else 5 * second

/-- The products of the row fit into 64 bits; a number that is not positive may
leave them if what remains is read as not positive or happens to be the default. -/
def Fits (route : RouteConfig) : Prop :=
  (if 0 < route.timeoutMS then route.timeoutMS * millisecond < 2 ^ 63
    else (route.timeoutMS * millisecond) % 2 ^ 64 = 0 ∨
      2 ^ 63 ≤ (route.timeoutMS * millisecond) % 2 ^ 64 ∨
      (route.timeoutMS * millisecond) % 2 ^ 64 = 5 * second) ∧
  (route.rateLimitEnabled = true → 0 < route.rateLimitRequests → 0 < route.rateLimitWindowSeconds →
    route.rateLimitWindowSeconds * second < 2 ^ 63)

theorem timeout_expected_iff (route : RouteConfig) :
    (0 < route.domainRoute.timeout ∧ route.domainRoute.timeout = route.expectedTimeout) ↔
      if 0 < route.timeoutMS then route.timeoutMS * millisecond < 2 ^ 63
      else (route.timeoutMS * millisecond) % 2 ^ 64 = 0 ∨
        2 ^ 63 ≤ (route.timeoutMS * millisecond) % 2 ^ 64 ∨
        (route.timeoutMS * millisecond) % 2 ^ 64 = 5 * second := by
  by_cases positive : 0 < route.timeoutMS
  · have long : 0 < route.timeoutMS * millisecond := Int.mul_pos positive (by decide)
    simp only [domainRoute, expectedTimeout, if_pos positive]
    by_cases short : wrap64 (route.timeoutMS * millisecond) ≤ 0
    · -- The default of five seconds is not what the row asks for.
      have wraps : ¬ route.timeoutMS * millisecond < 2 ^ 63 := by
        intro fits
        have kept := wrap64_eq_self_iff.mpr ⟨by omega, fits⟩
        rw [kept] at short
        exact absurd long (Int.not_lt.mpr short)
      simp only [if_pos short, wraps, iff_false, not_and]
      intro _ same
      rw [← same] at wraps
      exact wraps (by decide)
    · simp only [if_neg short]
      exact product_kept_iff long
  · simp only [domainRoute, expectedTimeout, if_neg positive]
    rw [← or_assoc, ← wrap64_nonpos_iff]
    by_cases short : wrap64 (route.timeoutMS * millisecond) ≤ 0
    · simp only [short, if_true, true_or, iff_true]
      decide
    · have small := (not_or.mp (mt wrap64_nonpos_iff.mpr short)).2
      have read := wrap64_eq (route.timeoutMS * millisecond)
      rw [if_pos (Int.not_le.mp small)] at read
      simp only [short, if_false, false_or]
      rw [read]
      constructor
      · rintro ⟨_, same⟩
        exact same
      · intro same
        refine ⟨?_, same⟩
        rw [same]
        decide

theorem timed_iff_fits (route : RouteConfig) :
    Timed route.expectedTimeout (route.rateLimitWindowSeconds * second) route.domainRoute ↔
      route.Fits := by
  unfold Fits
  rw [← timeout_expected_iff]
  by_cases enabled : route.rateLimitEnabled = true ∧ 0 < route.rateLimitRequests ∧
      0 < route.rateLimitWindowSeconds
  · have policy : route.domainRoute.rateLimit =
        ⟨true, route.rateLimitRequests, wrap64 (route.rateLimitWindowSeconds * second)⟩ := if_pos enabled
    have window : 0 < route.rateLimitWindowSeconds * second := Int.mul_pos enabled.2.2 (by decide)
    rw [timed_iff (by simp [policy, enabled]), policy, product_kept_iff window]
    simp [enabled]
  · have policy : route.domainRoute.rateLimit = ⟨false, 0, 0⟩ := if_neg enabled
    rw [timed_iff (by simp [policy]), policy]
    simp only [Bool.false_eq_true, false_implies, and_true, iff_self_and]
    intro _ on requests seconds
    exact absurd ⟨on, requests, seconds⟩ enabled

end RouteConfig

/-- A route loaded from either source has the durations of its row, and a policy
that is never refused, exactly when the products of the row fit into 64 bits. -/
theorem durations_kept_iff (parse : Str → Except String URL) (row : RouteResponse) (route : Route)
    (config : RouteConfig) :
    (row.toDomain parse = .ok route →
      (Timed (row.timeoutMS * millisecond) (row.rateLimitWindowSeconds * second) route ↔ row.Fits)) ∧
    (Timed config.expectedTimeout (config.rateLimitWindowSeconds * second) config.domainRoute ↔ config.Fits) :=
  ⟨fun loaded => RouteResponse.timed_iff_fits loaded, RouteConfig.timed_iff_fits config⟩

def limitedRow (timeoutMS windowSeconds : Int) : RouteResponse :=
  { shopRow (lit "/orders") with
    timeoutMS, rateLimitEnabled := true, rateLimitRequests := 10,
    rateLimitWindowSeconds := windowSeconds }

def limitedRoute (timeout window : Duration) : Route :=
  { shopRoute (lit "/orders") with timeout, rateLimit := ⟨true, 10, window⟩ }

theorem minute_window_is_kept :
    (limitedRow 3000 60).toDomain parsePlain = .ok (limitedRoute (3 * second) (60 * second)) ∧
      Timed (3000 * millisecond) (60 * second) (limitedRoute (3 * second) (60 * second)) := by
  have loaded : (limitedRow 3000 60).toDomain parsePlain =
      .ok (limitedRoute (3 * second) (60 * second)) := by decide
  refine ⟨loaded, ((durations_kept_iff parsePlain _ _ (limitedRow 3000 60).toConfig).1 loaded).mpr ⟨by decide, ?_⟩⟩
  intro _
  decide

/-- Both sources take numbers whose products wrap: a timeout below zero, a window
below zero for which every request is answered with 500, and in the file the default
timeout for a number that is positive. -/
theorem large_numbers_wrap :
    (limitedRow 9223372036855 9223372037).toDomain parsePlain =
        .ok (limitedRoute (-9223372036854551616) (-9223372036709551616)) ∧
      checkRateLimit none (limitedRoute (-9223372036854551616) (-9223372036709551616))
        (lit "ip:10.0.0.1") = ([], .error .invalidRateLimitPolicy) ∧
      (proxyRequest id ⟨[limitedRoute (-9223372036854551616) (-9223372036709551616)], none, none,
        fun _ => none⟩ ⟨lit "/orders/7", [], lit "10.0.0.1"⟩).answer =
        some (500, "internal error\n") ∧
      (limitedRow 9223372036855 60).toConfig.domainRoute = limitedRoute (5 * second) (60 * second) := by
  decide

end EdgeGuard.Gateway
