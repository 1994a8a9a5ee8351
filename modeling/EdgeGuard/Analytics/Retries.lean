import EdgeGuard.Analytics.Consumer
import Mathlib.Tactic.Positivity
import Mathlib.Order.Nat

/-! The waits of `processWithRetry`. The loop runs on machine integers: the counter is
incremented and the delay doubled in 64 bits, with a halved maximum as the guard. For a
configuration that `New` accepts, the calls and waits are those of an exact schedule. -/
namespace EdgeGuard.Analytics
open Go

/-- What `New` is given. -/
structure ConsumerConfig where
  brokers : List Str
  topic : Str
  consumerGroup : Str
  clientID : Str
  retryMin : Duration
  retryMax : Duration
  maxProcessAttempts : Int
  deriving DecidableEq, Repr

structure ConsumerConfig.Machine (config : ConsumerConfig) : Prop where
  retryMin : wrap64 config.retryMin = config.retryMin
  retryMax : wrap64 config.retryMax = config.retryMax
  maxProcessAttempts : wrap64 config.maxProcessAttempts = config.maxProcessAttempts

inductive NewError where
  | brokersRequired
  | topicRequired
  | consumerGroupRequired
  | clientIDRequired
  | processorRequired
  | loggerRequired
  | retryMinPositive
  | retryMaxBelowMin
  | maxProcessAttemptsPositive
  | createClient
  | ping
  deriving DecidableEq, Repr

/-- `normalized`: trimmed, without blanks and repetitions. -/
def normalized : List Str → List Str → List Str
  | [], _ => []
  | value :: rest, seen =>
    let item := trimSpace value
    if item = [] ∨ item ∈ seen then normalized rest seen else item :: normalized rest (item :: seen)

/-- What `New` meets besides its configuration: its other arguments, and the client
library and the broker, which may refuse. -/
structure NewEnv where
  processor : Bool
  log : Bool
  createsClient : List Str → Str → Str → Str → Bool
  pings : Bool

/-- `New`. -/
def newConsumer (env : NewEnv) (config : ConsumerConfig) : Except NewError Config :=
  let brokers := normalized config.brokers []
  let topic := trimSpace config.topic
  let consumerGroup := trimSpace config.consumerGroup
  let clientID := trimSpace config.clientID
  if brokers = [] then .error .brokersRequired
  else if topic = [] then .error .topicRequired
  else if consumerGroup = [] then .error .consumerGroupRequired
  else if clientID = [] then .error .clientIDRequired
  else if env.processor = false then .error .processorRequired
  else if env.log = false then .error .loggerRequired
  else if config.retryMin ≤ 0 then .error .retryMinPositive
  else if config.retryMax < config.retryMin then .error .retryMaxBelowMin
  else if config.maxProcessAttempts ≤ 0 then .error .maxProcessAttemptsPositive
  else if env.createsClient brokers topic consumerGroup clientID = false then .error .createClient
  else if env.pings = false then .error .ping
  else .ok ⟨config.retryMin, config.retryMax, config.maxProcessAttempts.toNat⟩

structure Config.Accepted (config : Config) : Prop where
  retryMin : 0 < config.retryMin
  retryMax : config.retryMin ≤ config.retryMax
  fits : config.retryMax < 2 ^ 63
  attempts : 0 < config.maxProcessAttempts
  counts : (config.maxProcessAttempts : Int) < 2 ^ 63

theorem newConsumer_accepted {env : NewEnv} {given : ConsumerConfig} {config : Config}
    (machine : given.Machine) (created : newConsumer env given = .ok config) : config.Accepted := by
  simp only [newConsumer, check_ok_iff, Except.ok.injEq] at created
  obtain ⟨_, _, _, _, _, _, minimum, maximum, attempts, _, _, rfl⟩ := created
  have upper := (wrap64_eq_self_iff.mp machine.retryMax).2
  have most := (wrap64_eq_self_iff.mp machine.maxProcessAttempts).2
  constructor
  · exact Int.not_le.mp minimum
  · exact Int.not_lt.mp maximum
  · exact upper
  · dsimp only
    omega
  · dsimp only
    omega

/-- What `processWithRetry` does, in order. -/
inductive RetryEvent where
  | call (attempt : Int)
  | wait (delay : Duration)
  deriving DecidableEq, Repr

structure RetryRun where
  trace : List RetryEvent
  result : Except RetryError IngestionResult

/-- The loop of `processWithRetry` in 64-bit arithmetic, for a number of iterations;
`none` while it is still running. -/
def retryWhile (env : RetryEnv) (retryMax : Duration) (maxProcessAttempts : Int) :
    Nat → Int → Duration → Option RetryRun
  | 0, _, _ => none
  | fuel + 1, attempt, delay =>
    if attempt ≤ maxProcessAttempts then
      match env.process attempt.toNat with
      | .ok result => some ⟨[.call attempt], .ok result⟩
      | .error (.invalidEvent cause) => some ⟨[.call attempt], .error (.invalidEvent cause)⟩
      | .error .store =>
        if env.cancelled attempt.toNat then some ⟨[.call attempt], .error .cancelled⟩
        else if attempt = maxProcessAttempts then
          some ⟨[.call attempt], .error (.exhausted maxProcessAttempts.toNat)⟩
        else if env.interrupted attempt.toNat then
          some ⟨[.call attempt, .wait delay], .error .cancelled⟩
        else
          (retryWhile env retryMax maxProcessAttempts fuel (wrap64 (attempt + 1))
            (nextRetryDelay delay retryMax)).map
            (fun later => ⟨.call attempt :: .wait delay :: later.trace, later.result⟩)
    else some ⟨[], .error .loopEnded⟩

def waitsOf (trace : List RetryEvent) : List Duration :=
  trace.filterMap (fun event => match event with
    | .wait delay => some delay
    | .call _ => none)

/-- The loop that counts the remaining attempts down is this one. -/
theorem retryWhile_eq_retryLoop (env : RetryEnv) (retryMax : Duration) {maxProcessAttempts : Nat}
    (counts : (maxProcessAttempts : Int) < 2 ^ 63) {remaining fuel : Nat}
    (some_left : remaining < maxProcessAttempts) (enough : remaining < fuel) (delay : Duration) :
    ∃ run, retryWhile env retryMax maxProcessAttempts fuel (maxProcessAttempts - remaining : Nat) delay =
        some run ∧
      waitsOf run.trace = (retryLoop env retryMax maxProcessAttempts (remaining + 1) delay).waits ∧
      run.result = (retryLoop env retryMax maxProcessAttempts (remaining + 1) delay).result := by
  induction remaining generalizing fuel delay with
  | zero =>
    obtain ⟨fuel, rfl⟩ := Nat.exists_eq_succ_of_ne_zero enough.ne'
    simp only [retryWhile, retryLoop, Nat.sub_zero, le_refl, if_true, Int.toNat_natCast]
    cases env.process maxProcessAttempts with
    | ok result => exact ⟨_, rfl, rfl, rfl⟩
    | error err =>
      cases err with
      | invalidEvent cause => exact ⟨_, rfl, rfl, rfl⟩
      | store =>
        dsimp only
        split
        · exact ⟨_, rfl, rfl, rfl⟩
        · exact ⟨_, rfl, rfl, rfl⟩
  | succ remaining ih =>
    obtain ⟨fuel, rfl⟩ := Nat.exists_eq_succ_of_ne_zero (Nat.ne_zero_of_lt enough)
    have within : ((maxProcessAttempts - (remaining + 1) : Nat) : Int) ≤ maxProcessAttempts := by omega
    have before : ((maxProcessAttempts - (remaining + 1) : Nat) : Int) ≠ maxProcessAttempts := by omega
    have notLast : maxProcessAttempts - (remaining + 1) ≠ maxProcessAttempts := by omega
    rw [retryWhile, if_pos within, Int.toNat_natCast, retryLoop]
    dsimp only
    cases env.process (maxProcessAttempts - (remaining + 1)) with
    | ok result => exact ⟨_, rfl, rfl, rfl⟩
    | error err =>
      cases err with
      | invalidEvent cause => exact ⟨_, rfl, rfl, rfl⟩
      | store =>
        dsimp only
        rw [if_neg before, if_neg notLast]
        split
        · exact ⟨_, rfl, rfl, rfl⟩
        split
        · exact ⟨_, rfl, rfl, rfl⟩
        have next : wrap64 ((maxProcessAttempts - (remaining + 1) : Nat) + 1) =
            ((maxProcessAttempts - remaining : Nat) : Int) := by
          rw [wrap64_eq_self_iff.mpr (by omega)]
          omega
        obtain ⟨later, ran, waits, result⟩ :=
          @ih fuel (by omega) (Nat.lt_of_succ_lt_succ enough) (nextRetryDelay delay retryMax)
        rw [next, ran]
        refine ⟨_, rfl, ?_, result⟩
        rw [← waits]
        rfl

section Schedule
variable (config : Config) (env : RetryEnv)

def Config.delay (attempt : Nat) : Duration :=
  min (config.retryMin * 2 ^ (attempt - 1)) config.retryMax

def Config.schedule : Nat → Nat → List RetryEvent
  | _, 0 => []
  | attempt, 1 => [.call attempt]
  | attempt, calls + 2 => .call attempt :: .wait (config.delay attempt) :: Config.schedule (attempt + 1) (calls + 1)

/-- The attempt is the last one: it does not fail, fails for good, the context is done,
or no attempt is left. -/
def RetryEnv.Stops (attempt : Nat) : Prop :=
  env.process attempt ≠ .error .store ∨ env.cancelled attempt = true ∨
    attempt = config.maxProcessAttempts ∨ env.interrupted attempt = true

instance (attempt : Nat) : Decidable (env.Stops config attempt) := inferInstanceAs (Decidable (_ ∨ _))

/-- What is returned after the last attempt, and the wait that was interrupted. -/
def RetryEnv.ending (attempt : Nat) : RetryRun :=
  match env.process attempt with
  | .ok result => ⟨[], .ok result⟩
  | .error (.invalidEvent cause) => ⟨[], .error (.invalidEvent cause)⟩
  | .error .store =>
    if env.cancelled attempt then ⟨[], .error .cancelled⟩
    else if attempt = config.maxProcessAttempts then ⟨[], .error (.exhausted config.maxProcessAttempts)⟩
    else ⟨[.wait (config.delay attempt)], .error .cancelled⟩

end Schedule

variable {config : Config} {env : RetryEnv}

private theorem halved_guard {current maximum : Int} (positive : 0 < current) (within : current ≤ maximum)
    (fits : maximum < 2 ^ 63) :
    (if maximum ≤ current then maximum else if maximum.tdiv 2 < current then maximum
      else wrap64 (current * 2)) = min (current * 2) maximum := by
  rw [Int.tdiv_eq_ediv_of_nonneg (by omega)]
  split
  · omega
  · split
    · omega
    · rw [wrap64_eq_self_iff.mpr (by omega)]
      omega

/-- Doubling below half of the maximum, and the maximum from there on, is the capped
double, for odd maxima too. -/
theorem nextRetryDelay_eq {current maximum : Duration} (positive : 0 < current) (within : current ≤ maximum)
    (fits : maximum < 2 ^ 63) : nextRetryDelay current maximum = min (current * 2) maximum :=
  halved_guard positive within fits

private theorem capped_pos {value maximum : Int} (positive : 0 < value) (limit : 0 < maximum) :
    0 < min value maximum := by omega

private theorem capped_double {value maximum : Int} (limit : 0 < maximum) :
    min (min value maximum * 2) maximum = min (value * 2) maximum := by omega

theorem delay_pos (accepted : config.Accepted) (attempt : Nat) : 0 < config.delay attempt := by
  have doubled : 0 < config.retryMin * 2 ^ (attempt - 1) := Int.mul_pos accepted.retryMin (by positivity)
  exact capped_pos doubled (accepted.retryMin.trans_le accepted.retryMax)

theorem delay_first (accepted : config.Accepted) : config.delay 1 = config.retryMin := by
  unfold Config.delay
  rw [Nat.sub_self, pow_zero, mul_one]
  exact min_eq_left accepted.retryMax

theorem delay_next (accepted : config.Accepted) {attempt : Nat} (started : 1 ≤ attempt) :
    nextRetryDelay (config.delay attempt) config.retryMax = config.delay (attempt + 1) := by
  rw [nextRetryDelay_eq (delay_pos accepted attempt) (min_le_right _ _) accepted.fits]
  obtain ⟨before, rfl⟩ := Nat.exists_eq_add_of_le' started
  unfold Config.delay
  rw [Nat.add_sub_cancel, Nat.add_sub_cancel, pow_succ, ← mul_assoc]
  exact capped_double (accepted.retryMin.trans_le accepted.retryMax)

theorem ending_ne_loopEnded (attempt : Nat) : (env.ending config attempt).result ≠ .error .loopEnded := by
  unfold RetryEnv.ending
  split
  · nofun
  · nofun
  · split
    · nofun
    · split
      · nofun
      · nofun

theorem retryWhile_last {attempt : Nat} (within : attempt ≤ config.maxProcessAttempts)
    (stops : env.Stops config attempt) (fuel : Nat) :
    retryWhile env config.retryMax config.maxProcessAttempts (fuel + 1) attempt (config.delay attempt) =
      some ⟨.call attempt :: (env.ending config attempt).trace, (env.ending config attempt).result⟩ := by
  have reached : (attempt : Int) ≤ config.maxProcessAttempts := by omega
  rw [retryWhile, if_pos reached, Int.toNat_natCast, RetryEnv.ending]
  cases outcome : env.process attempt with
  | ok result => rfl
  | error err =>
    cases err with
    | invalidEvent cause => rfl
    | store =>
      dsimp only
      by_cases cancelled : env.cancelled attempt = true
      · rw [if_pos cancelled, if_pos cancelled]
      rw [if_neg cancelled, if_neg cancelled]
      by_cases last : attempt = config.maxProcessAttempts
      · rw [if_pos last, if_pos (by omega)]
        rfl
      · rw [if_neg last, if_neg (by omega)]
        have interrupted : env.interrupted attempt = true := by
          rcases stops with failed | done | final | interrupted
          · exact absurd outcome failed
          · exact absurd done cancelled
          · exact absurd final last
          · exact interrupted
        rw [if_pos interrupted]

theorem retryWhile_again (accepted : config.Accepted) {attempt : Nat} (started : 1 ≤ attempt)
    (within : attempt < config.maxProcessAttempts) (goes : ¬ env.Stops config attempt) (fuel : Nat) :
    retryWhile env config.retryMax config.maxProcessAttempts (fuel + 1) attempt (config.delay attempt) =
      (retryWhile env config.retryMax config.maxProcessAttempts fuel (attempt + 1 : Nat)
        (config.delay (attempt + 1))).map
        (fun later => ⟨.call attempt :: .wait (config.delay attempt) :: later.trace, later.result⟩) := by
  simp only [RetryEnv.Stops, not_or, not_not, Bool.not_eq_true] at goes
  obtain ⟨failed, uncancelled, _, uninterrupted⟩ := goes
  have counts := accepted.counts
  have reached : (attempt : Int) ≤ config.maxProcessAttempts := by omega
  have before : (attempt : Int) ≠ config.maxProcessAttempts := by omega
  have next : wrap64 ((attempt : Int) + 1) = ((attempt + 1 : Nat) : Int) := by
    rw [wrap64_eq_self_iff.mpr (by omega)]
    rfl
  rw [retryWhile, if_pos reached, Int.toNat_natCast, failed]
  simp only [uncancelled, uninterrupted, Bool.false_eq_true, if_false, if_neg before, next,
    delay_next accepted started]

theorem retryWhile_schedule (accepted : config.Accepted) {calls attempt fuel : Nat} (started : 1 ≤ attempt)
    (within : attempt + calls ≤ config.maxProcessAttempts) (stops : env.Stops config (attempt + calls))
    (earlier : ∀ k, attempt ≤ k → k < attempt + calls → ¬ env.Stops config k) (enough : calls < fuel) :
    retryWhile env config.retryMax config.maxProcessAttempts fuel attempt (config.delay attempt) =
      some ⟨config.schedule attempt (calls + 1) ++ (env.ending config (attempt + calls)).trace,
        (env.ending config (attempt + calls)).result⟩ := by
  induction calls generalizing attempt fuel with
  | zero =>
    obtain ⟨fuel, rfl⟩ := Nat.exists_eq_succ_of_ne_zero enough.ne'
    exact retryWhile_last within stops fuel
  | succ calls ih =>
    obtain ⟨fuel, rfl⟩ := Nat.exists_eq_succ_of_ne_zero (Nat.ne_zero_of_lt enough)
    have shifted : attempt + 1 + calls = attempt + (calls + 1) := by omega
    have later := @ih (attempt + 1) fuel (by omega) (by omega) (shifted ▸ stops)
      (fun k after below => earlier k (by omega) (by omega)) (by omega)
    have here := earlier attempt (Nat.le_refl _) (by omega)
    rw [retryWhile_again accepted started (by omega) here, later, Option.map_some, shifted]
    rfl

theorem exists_first_stop (accepted : config.Accepted) (env : RetryEnv) :
    ∃ calls, 1 ≤ calls ∧ calls ≤ config.maxProcessAttempts ∧ env.Stops config calls ∧
      ∀ k, 1 ≤ k → k < calls → ¬ env.Stops config k := by
  have exists_stop : ∃ k, 1 ≤ k ∧ env.Stops config k :=
    ⟨config.maxProcessAttempts, accepted.attempts, .inr (.inr (.inl rfl))⟩
  obtain ⟨started, stops⟩ := Nat.find_spec exists_stop
  refine ⟨Nat.find exists_stop, started, ?_, stops, ?_⟩
  · exact Nat.find_min' exists_stop ⟨accepted.attempts, .inr (.inr (.inl rfl))⟩
  · intro k positive below early
    exact Nat.find_min exists_stop below ⟨positive, early⟩

theorem waitsOf_schedule (attempt calls : Nat) :
    waitsOf (config.schedule attempt (calls + 1)) =
      (List.range calls).map (fun k => config.delay (attempt + k)) := by
  induction calls generalizing attempt with
  | zero => rfl
  | succ calls ih =>
    have later := ih (attempt + 1)
    simp only [waitsOf, Config.schedule, List.filterMap_cons] at later ⊢
    rw [later, List.range_succ_eq_map, List.map_cons, List.map_map]
    congr 1
    apply List.map_congr_left
    intro k _
    rw [Function.comp_apply, Nat.succ_eq_add_one, Nat.add_assoc, Nat.add_comm 1 k]

/-- For every configuration that `New` accepts, and whatever the processor answers and
the context does, the loop ends. It makes the calls up to the first that is not
followed by another, at most `MaxProcessAttempts` of them, and waits the minimum,
doubled for every call and capped at the maximum, between two calls. A call that does
not fail with a passing error is followed by no wait, and the statement after the loop
is not reached. -/
theorem retries_follow_schedule {setup : NewEnv} {given : ConsumerConfig} {config : Config}
    (machine : given.Machine) (created : newConsumer setup given = .ok config) (env : RetryEnv) :
    ∃ calls, 1 ≤ calls ∧ calls ≤ config.maxProcessAttempts ∧ env.Stops config calls ∧
      (∀ k, 1 ≤ k → k < calls → ¬ env.Stops config k) ∧
      (∀ fuel, config.maxProcessAttempts ≤ fuel →
        retryWhile env config.retryMax config.maxProcessAttempts fuel 1 config.retryMin =
          some ⟨config.schedule 1 calls ++ (env.ending config calls).trace,
            (env.ending config calls).result⟩) ∧
      waitsOf (config.schedule 1 calls) =
        (List.range (calls - 1)).map (fun k => min (given.retryMin * 2 ^ k) given.retryMax) ∧
      (env.process calls ≠ .error .store → (env.ending config calls).trace = []) ∧
      (env.ending config calls).result ≠ .error .loopEnded ∧
      (processWithRetry config env).waits =
        waitsOf (config.schedule 1 calls ++ (env.ending config calls).trace) ∧
      (processWithRetry config env).result = (env.ending config calls).result := by
  have accepted := newConsumer_accepted machine created
  obtain ⟨calls, started, within, stops, earlier⟩ := exists_first_stop accepted env
  have ran : ∀ fuel, config.maxProcessAttempts ≤ fuel →
      retryWhile env config.retryMax config.maxProcessAttempts fuel 1 config.retryMin =
        some ⟨config.schedule 1 calls ++ (env.ending config calls).trace,
          (env.ending config calls).result⟩ := by
    intro fuel enough
    obtain ⟨more, rfl⟩ := Nat.exists_eq_add_of_le started
    have scheduled := @retryWhile_schedule config env accepted more 1 fuel (Nat.le_refl _) within stops
      earlier (by omega)
    rwa [delay_first accepted, Nat.add_comm more 1] at scheduled
  obtain ⟨run, same, waits, result⟩ := @retryWhile_eq_retryLoop env config.retryMax
    config.maxProcessAttempts accepted.counts (config.maxProcessAttempts - 1) config.maxProcessAttempts
    (Nat.sub_lt accepted.attempts Nat.one_pos) (Nat.sub_lt accepted.attempts Nat.one_pos) config.retryMin
  have first : config.maxProcessAttempts - (config.maxProcessAttempts - 1) = 1 :=
    Nat.sub_sub_self accepted.attempts
  rw [first, Nat.cast_one, ran _ (Nat.le_refl _)] at same
  obtain rfl := Option.some.inj same
  rw [Nat.sub_add_cancel accepted.attempts] at waits result
  refine ⟨calls, started, within, stops, earlier, ran, ?_, ?_, ending_ne_loopEnded calls,
    waits.symm, result.symm⟩
  · have listed := @waitsOf_schedule config 1 (calls - 1)
    rw [Nat.sub_add_cancel started] at listed
    rw [listed]
    simp only [newConsumer, check_ok_iff, Except.ok.injEq] at created
    obtain ⟨_, _, _, _, _, _, _, _, _, _, _, rfl⟩ := created
    simp only [Config.delay, Nat.add_sub_cancel_left]
  · intro settled
    unfold RetryEnv.ending
    split
    · rfl
    · rfl
    · next outcome => exact absurd outcome settled

/-- Bounds near the ends of the type: the maximum is odd and the largest duration. -/
def wideConfig : ConsumerConfig where
  brokers := [lit " kafka:9092 "]
  topic := lit "gateway.access"
  consumerGroup := lit "analytics"
  clientID := lit "worker-1"
  retryMin := 3000000000000000000
  retryMax := 9223372036854775807
  maxProcessAttempts := 5

def recovering : RetryEnv where
  process := fun attempt => if attempt < 4 then .error .store else .ok ⟨false, true⟩
  cancelled := fun _ => false
  interrupted := fun _ => false

theorem wide_bounds_do_not_overflow :
    ∃ config, newConsumer ⟨true, true, fun _ _ _ _ => true, true⟩ wideConfig = .ok config ∧
      ∀ fuel, 5 ≤ fuel →
        (retryWhile recovering config.retryMax config.maxProcessAttempts fuel 1 config.retryMin).map
          (·.trace) = some [.call 1, .wait 3000000000000000000, .call 2, .wait 6000000000000000000,
            .call 3, .wait 9223372036854775807, .call 4] := by
  have created : newConsumer ⟨true, true, fun _ _ _ _ => true, true⟩ wideConfig =
      .ok ⟨3000000000000000000, 9223372036854775807, 5⟩ := by rfl
  refine ⟨_, created, ?_⟩
  intro fuel enough
  obtain ⟨calls, started, within, stops, earlier, ran, _⟩ :=
    retries_follow_schedule ⟨by decide, by decide, by decide⟩ created recovering
  have fourth : calls = 4 := by
    have least : ¬ 4 < calls := fun below => earlier 4 (by decide) below (by decide)
    have most : ¬ calls < 4 := by
      intro below
      obtain rfl | rfl | rfl : calls = 1 ∨ calls = 2 ∨ calls = 3 := by omega
      all_goals exact absurd stops (by decide)
    omega
  subst fourth
  rw [ran fuel enough]
  rfl

end EdgeGuard.Analytics
