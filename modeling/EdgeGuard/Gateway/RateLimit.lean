import EdgeGuard.Gateway.Handler
import EdgeGuard.Go.Format
import Mathlib.Data.List.Induction
import Mathlib.Data.Int.Interval

/-! The fixed-window limiter over Redis. A call reads the clock, names the window by
its number and lets Redis count; Redis runs the script later than that, and may drop
a counter once the time to live that its first call gave it has passed. -/
namespace EdgeGuard.Gateway
open Go

/-- A counter and the instant up to which Redis keeps it. -/
structure Counter where
  count : Int
  deadline : Time
  deriving DecidableEq, Repr

abbrev Redis := Str → Option Counter

/-- `fixedWindowScript` at an instant, with its counter. `gone` says that Redis has
dropped a counter it need not keep any more. -/
def fixedWindowScript (redis : Redis) (key : Str) (ttl : Int) (instant : Time) (gone : Bool) : Redis × Int :=
  match (redis key).filter (fun counter => !(gone && counter.deadline ≤ instant)) with
  | none => (Function.update redis key (some ⟨1, instant + ttl * millisecond⟩), 1)
  | some counter =>
    (Function.update redis key (some { counter with count := counter.count + 1 }), counter.count + 1)

/-- A call of `Allow`: its clock reading, when Redis runs its script, the `PTTL` it is
told, and whether the answer arrives. -/
structure Attempt where
  request : RateLimitRequest
  now : Time
  runsAt : Time
  pttl : Int
  answered : Bool
  deriving DecidableEq, Repr

namespace Attempt

def windowMilliseconds (a : Attempt) : Int := milliseconds a.request.policy.window

def currentWindow (a : Attempt) : Int := (unixMilli a.now).tdiv a.windowMilliseconds

/-- `time.UnixMilli((currentWindow + 1) * windowMilliseconds)`. -/
def resetAt (a : Attempt) : Time := (a.currentWindow + 1) * a.windowMilliseconds * millisecond

def ttl (a : Attempt) : Duration :=
  let ttl := a.resetAt - a.now
  if ttl < millisecond then millisecond else ttl

/-- The instant up to which a counter lives that this call starts. -/
def deadline (a : Attempt) : Time := a.runsAt + milliseconds a.ttl * millisecond

/-- The result for a counter; with a positive `PTTL` the reset is taken from it. -/
def result (a : Attempt) (current : Int) : RateLimitResult :=
  let resetAt := if 0 < a.pttl then a.now + a.pttl * millisecond else a.resetAt
  { enabled := true
    allowed := current ≤ a.request.policy.limit
    limit := a.request.policy.limit
    remaining := if current < a.request.policy.limit then a.request.policy.limit - current else 0
    resetAt := resetAt
    retryAfter := max (resetAt - a.now) millisecond }

def check (a : Attempt) : Except GatewayError Unit :=
  if a.request.policy.limit ≤ 0 ∨ a.request.policy.window ≤ 0 then .error .invalidRateLimitPolicy
  else if trimSpace a.request.routeKey = [] ∨ trimSpace a.request.clientID = [] then
    .error .invalidRateLimitClient
  else if a.windowMilliseconds ≤ 0 then .error .invalidRateLimitPolicy
  else .ok ()

end Attempt

section Keys
variable (sha256 : Str → Str) (keyPrefix : Str)

def hashKeyPart (value : Str) : Str := hexEncode ((sha256 value).take 16)

def redisKey (routeKey clientID : Str) (window : Int) : Str :=
  keyPrefix ++ 58 :: (hashKeyPart sha256 routeKey ++ 58 :: (hashKeyPart sha256 clientID ++ 58 :: formatInt window))

def Attempt.key (a : Attempt) : Str :=
  redisKey sha256 keyPrefix a.request.routeKey a.request.clientID a.currentWindow

/-- `Allow`. -/
def allow (redis : Redis) (a : Attempt) (gone : Bool) : Redis × Except GatewayError RateLimitResult :=
  match a.check with
  | .error err => (redis, .error err)
  | .ok () =>
    let (redis, current) :=
      fixedWindowScript redis (a.key sha256 keyPrefix) (milliseconds a.ttl) a.runsAt gone
    (redis, if a.answered then .ok (a.result current) else .error .rateLimiterFailed)

/-- Redis after a sequence of calls, each with the choice of a dropped counter. -/
def serve (calls : List (Attempt × Bool)) : Redis :=
  calls.foldl (fun redis call => (allow sha256 keyPrefix redis call.1 call.2).1) (fun _ => none)

/-- The answer to a call that comes after others. -/
def answer (before : List (Attempt × Bool)) (call : Attempt × Bool) : Except GatewayError RateLimitResult :=
  (allow sha256 keyPrefix (serve sha256 keyPrefix before) call.1 call.2).2

end Keys

variable {sha256 : Str → Str} {keyPrefix : Str}

theorem serve_append (before : List (Attempt × Bool)) (call : Attempt × Bool) :
    serve sha256 keyPrefix (before ++ [call]) =
      (allow sha256 keyPrefix (serve sha256 keyPrefix before) call.1 call.2).1 := by
  simp [serve]

theorem colon_not_mem_hashKeyPart (value : Str) : 58 ∉ hashKeyPart sha256 value := by
  have plain : hexDigits.contains 58 = false := by decide
  intro member
  have present := List.contains_iff_mem.mpr (hexEncode_digits _ 58 member)
  rw [plain] at present
  contradiction

theorem redisKey_inj {routeKey clientID routeKey' clientID' : Str} {window window' : Int}
    (same : redisKey sha256 keyPrefix routeKey clientID window =
      redisKey sha256 keyPrefix routeKey' clientID' window') :
    hashKeyPart sha256 routeKey = hashKeyPart sha256 routeKey' ∧
      hashKeyPart sha256 clientID = hashKeyPart sha256 clientID' ∧ window = window' := by
  have parts := (List.cons.inj (List.append_cancel_left same)).2
  obtain ⟨route, rest⟩ := separated_inj (colon_not_mem_hashKeyPart _) (colon_not_mem_hashKeyPart _) parts
  obtain ⟨client, number⟩ := separated_inj (colon_not_mem_hashKeyPart _) (colon_not_mem_hashKeyPart _) rest
  exact ⟨route, client, formatInt_injective number⟩

/-- A client on a route, with the policy of the route. -/
structure Client where
  routeKey : Str
  clientID : Str
  limit : Int
  window : Duration

namespace Client

def Makes (client : Client) (a : Attempt) : Prop :=
  a.request.routeKey = client.routeKey ∧ a.request.clientID = client.clientID

instance (client : Client) (a : Attempt) : Decidable (client.Makes a) := inferInstanceAs (Decidable (_ ∧ _))

/-- It is counted in the window with this number. -/
def counts (client : Client) (window : Int) (a : Attempt) : Bool :=
  client.Makes a ∧ a.currentWindow = window

/-- A run in the order in which Redis serves the calls. All calls of the client come
under one policy, and no other call has both of its hashes. -/
structure Steady (sha256 : Str → Str) (client : Client) (calls : List Attempt) : Prop where
  limit : 0 < client.limit
  window : millisecond ≤ client.window
  named : trimSpace client.routeKey ≠ [] ∧ trimSpace client.clientID ≠ []
  policy : ∀ a ∈ calls, client.Makes a →
    a.request.policy.limit = client.limit ∧ a.request.policy.window = client.window
  apart : ∀ a ∈ calls, hashKeyPart sha256 a.request.routeKey = hashKeyPart sha256 client.routeKey →
    hashKeyPart sha256 a.request.clientID = hashKeyPart sha256 client.clientID → client.Makes a
  ordered : calls.Pairwise (·.runsAt ≤ ·.runsAt)

end Client

variable {client : Client} {calls : List Attempt}

theorem Client.Steady.start {rest : List Attempt} (steady : client.Steady sha256 (calls ++ rest)) :
    client.Steady sha256 calls where
  limit := steady.limit
  window := steady.window
  named := steady.named
  policy a member := steady.policy a (List.mem_append_left _ member)
  apart a member := steady.apart a (List.mem_append_left _ member)
  ordered := (List.pairwise_append.mp steady.ordered).1

theorem check_ok (steady : client.Steady sha256 calls) {a : Attempt} (member : a ∈ calls)
    (makes : client.Makes a) : a.check = .ok () := by
  obtain ⟨limit, window⟩ := steady.policy a member makes
  have whole : 0 < a.windowMilliseconds := by
    rw [Attempt.windowMilliseconds, window]
    exact milliseconds_pos steady.window
  have long : 0 < client.window := lt_of_lt_of_le (by decide) steady.window
  have policy : ¬ (a.request.policy.limit ≤ 0 ∨ a.request.policy.window ≤ 0) := by
    rw [limit, window]
    exact not_or.mpr ⟨not_le.mpr steady.limit, not_le.mpr long⟩
  have named : ¬ (trimSpace a.request.routeKey = [] ∨ trimSpace a.request.clientID = []) := by
    rw [makes.1, makes.2]
    exact not_or.mpr steady.named
  rw [Attempt.check, if_neg policy, if_neg named, if_neg (not_le.mpr whole)]

theorem counts_iff {window : Int} {a : Attempt} :
    client.counts window a = true ↔ client.Makes a ∧ a.currentWindow = window := by
  simp [Client.counts]

theorem key_iff (steady : client.Steady sha256 calls) {a : Attempt} (member : a ∈ calls) (window : Int) :
    a.key sha256 keyPrefix = redisKey sha256 keyPrefix client.routeKey client.clientID window ↔
      client.counts window a = true := by
  rw [counts_iff]
  constructor
  · intro same
    obtain ⟨route, id, number⟩ := redisKey_inj same
    exact ⟨steady.apart a member route id, number⟩
  · rintro ⟨⟨route, id⟩, number⟩
    rw [Attempt.key, route, id, number]

section Script
variable {redis : Redis} {key : Str} {counter : Counter} {ttl : Int} {instant : Time} {gone : Bool}

theorem script_starts (missing : redis key = none) :
    fixedWindowScript redis key ttl instant gone =
      (Function.update redis key (some ⟨1, instant + ttl * millisecond⟩), 1) := by
  simp [fixedWindowScript, missing]

theorem script_counts (found : redis key = some counter) (kept : gone = true → instant < counter.deadline) :
    fixedWindowScript redis key ttl instant gone =
      (Function.update redis key (some { counter with count := counter.count + 1 }), counter.count + 1) := by
  have stays : (gone && decide (counter.deadline ≤ instant)) = false := by
    cases gone with
    | false => rfl
    | true => simpa using kept rfl
  simp [fixedWindowScript, found, Option.filter, stays]

theorem script_restarts (found : redis key = some counter) (late : counter.deadline ≤ instant) :
    (fixedWindowScript redis key ttl instant true).2 = 1 := by
  simp [fixedWindowScript, found, Option.filter, late]

theorem script_other {other : Str} (different : other ≠ key) :
    (fixedWindowScript redis key ttl instant gone).1 other = redis other := by
  unfold fixedWindowScript
  split <;> exact Function.update_of_ne different _ _

end Script

section Checked
variable {redis : Redis} {a : Attempt}

theorem allow_state (passed : a.check = .ok ()) (gone : Bool) :
    (allow sha256 keyPrefix redis a gone).1 =
      (fixedWindowScript redis (a.key sha256 keyPrefix) (milliseconds a.ttl) a.runsAt gone).1 := by
  simp only [allow, passed]

theorem allow_answer (passed : a.check = .ok ()) (answered : a.answered = true) (gone : Bool) :
    (allow sha256 keyPrefix redis a gone).2 =
      .ok (a.result (fixedWindowScript redis (a.key sha256 keyPrefix) (milliseconds a.ttl) a.runsAt gone).2) := by
  simp only [allow, passed, answered, if_true]

theorem allow_other {key : Str} (different : a.key sha256 keyPrefix ≠ key)
    (gone : Bool) : (allow sha256 keyPrefix redis a gone).1 key = redis key := by
  cases checked : a.check with
  | error err => simp only [allow, checked]
  | ok _ =>
    rw [allow_state checked]
    exact script_other different.symm

end Checked

/-- The counter of a window while none was dropped: all calls so far, kept up to the
deadline of the first of them. -/
def expected (client : Client) (window : Int) (calls : List Attempt) : Option Counter :=
  (calls.find? (client.counts window)).map (fun first =>
    ⟨calls.countP (client.counts window), first.deadline⟩)

/-- A counter that is dropped was kept up to its deadline. -/
def Kept (client : Client) (window : Int) (before : List (Attempt × Bool)) : Prop :=
  ∀ first, (before.map Prod.fst).find? (client.counts window) = some first →
    ∀ call ∈ before, client.counts window call.1 = true → call.2 = true → call.1.runsAt < first.deadline

theorem serve_expected {before : List (Attempt × Bool)} {window : Int}
    (steady : client.Steady sha256 (before.map Prod.fst)) (kept : Kept client window before) :
    serve sha256 keyPrefix before (redisKey sha256 keyPrefix client.routeKey client.clientID window) =
      expected client window (before.map Prod.fst) := by
  induction before using List.reverseRecOn with
  | nil => rfl
  | append_singleton before call ih =>
    rw [List.map_append, List.map_singleton] at steady ⊢
    have member : call.1 ∈ before.map Prod.fst ++ [call.1] := by simp
    have sofar := ih steady.start (fun first found other present counted gone =>
      kept first (by simp [found]) other (List.mem_append_left _ present) counted gone)
    rw [serve_append]
    by_cases counted : client.counts window call.1 = true
    · rw [allow_state (check_ok steady member (counts_iff.mp counted).1), (key_iff steady member window).mpr counted]
      cases found : (before.map Prod.fst).find? (client.counts window) with
      | none =>
        rw [expected, found, Option.map_none] at sofar
        have none : (before.map Prod.fst).countP (client.counts window) = 0 :=
          List.countP_eq_zero.mpr (List.find?_eq_none.mp found)
        rw [script_starts sofar]
        simp [expected, List.find?_append, found, counted, List.countP_append, none, Attempt.deadline]
      | some first =>
        rw [expected, found, Option.map_some] at sofar
        have stays := kept first (by simp [List.find?_append, found]) call (by simp) counted
        rw [script_counts sofar stays]
        simp [expected, List.find?_append, found, counted, List.countP_append]
    · rw [allow_other (fun same => counted ((key_iff steady member window).mp same)), sofar]
      simp [expected, counted]

/-- Each call of the client that is answered gets the answer for its place in its
window, and no more than the limit of them are allowed. -/
def Enforced (sha256 : Str → Str) (keyPrefix : Str) (client : Client) (run : List (Attempt × Bool)) : Prop :=
  (∀ n call, run[n]? = some call → client.Makes call.1 → call.1.answered = true →
    let k : Int := ((run.take n).map Prod.fst).countP (client.counts call.1.currentWindow) + 1
    ∃ result, answer sha256 keyPrefix (run.take n) call = .ok result ∧
      (result.allowed = true ↔ k ≤ client.limit) ∧ result.remaining = max 0 (client.limit - k)) ∧
  ∀ window, ∀ positions : Finset ℕ, (∀ n ∈ positions, ∃ call result, run[n]? = some call ∧
      client.counts window call.1 = true ∧ answer sha256 keyPrefix (run.take n) call = .ok result ∧
      result.allowed = true) → (positions.card : Int) ≤ client.limit

/-- Every answered call is served before the deadline that the first call of its
window has set. -/
def InTime (client : Client) (calls : List Attempt) : Prop :=
  ∀ n a, calls[n]? = some a → client.Makes a → a.answered = true →
    ∀ first, (calls.take n).find? (client.counts a.currentWindow) = some first → a.runsAt < first.deadline

theorem result_fields (a : Attempt) (k : Int) :
    ((a.result k).allowed = true ↔ k ≤ a.request.policy.limit) ∧
      (a.result k).remaining = max 0 (a.request.policy.limit - k) := by
  refine ⟨by simp [Attempt.result], ?_⟩
  simp only [Attempt.result]
  split <;> omega

/-- The place of a call in its window is what the script counts, if no counter was
dropped before. -/
theorem answer_in_time {before : List (Attempt × Bool)} {call : Attempt × Bool}
    (steady : client.Steady sha256 (before.map Prod.fst ++ [call.1])) (makes : client.Makes call.1)
    (answered : call.1.answered = true) (kept : Kept client call.1.currentWindow before)
    (soon : ∀ first, (before.map Prod.fst).find? (client.counts call.1.currentWindow) = some first →
      call.1.runsAt < first.deadline) :
    answer sha256 keyPrefix before call =
      .ok (call.1.result ((before.map Prod.fst).countP (client.counts call.1.currentWindow) + 1)) := by
  have member : call.1 ∈ before.map Prod.fst ++ [call.1] := by simp
  have counted : client.counts call.1.currentWindow call.1 = true := counts_iff.mpr ⟨makes, rfl⟩
  have state : serve sha256 keyPrefix before
      (redisKey sha256 keyPrefix client.routeKey client.clientID call.1.currentWindow) =
        expected client call.1.currentWindow (before.map Prod.fst) := serve_expected steady.start kept
  rw [answer, allow_answer (check_ok steady member makes) answered, (key_iff steady member _).mpr counted]
  cases found : (before.map Prod.fst).find? (client.counts call.1.currentWindow) with
  | none =>
    rw [expected, found, Option.map_none] at state
    rw [script_starts state, List.countP_eq_zero.mpr (List.find?_eq_none.mp found)]
    rfl
  | some first =>
    rw [expected, found, Option.map_some] at state
    rw [script_counts state (fun _ => soon first found)]

theorem answer_late {before : List (Attempt × Bool)} {a first : Attempt}
    (steady : client.Steady sha256 (before.map Prod.fst ++ [a])) (makes : client.Makes a)
    (answered : a.answered = true) (kept : Kept client a.currentWindow before)
    (found : (before.map Prod.fst).find? (client.counts a.currentWindow) = some first)
    (late : first.deadline ≤ a.runsAt) :
    answer sha256 keyPrefix before (a, true) = .ok (a.result 1) := by
  have member : a ∈ before.map Prod.fst ++ [a] := by simp
  have counted : client.counts a.currentWindow a = true := counts_iff.mpr ⟨makes, rfl⟩
  have state : serve sha256 keyPrefix before
      (redisKey sha256 keyPrefix client.routeKey client.clientID a.currentWindow) =
        some ⟨(before.map Prod.fst).countP (client.counts a.currentWindow), first.deadline⟩ := by
    rw [serve_expected steady.start kept, expected, found, Option.map_some]
  rw [answer, allow_answer (check_ok steady member makes) answered, (key_iff steady member _).mpr counted,
    script_restarts state late]

theorem place_lt {run : List (Attempt × Bool)} {window : Int} {n m : ℕ} {call : Attempt × Bool}
    (found : run[n]? = some call) (counted : client.counts window call.1 = true) (before : n < m) :
    ((run.take n).map Prod.fst).countP (client.counts window) <
      ((run.take m).map Prod.fst).countP (client.counts window) := by
  have longer : run.take (n + 1) <+: run.take m := List.take_prefix_take_left before
  have one : run.take (n + 1) = run.take n ++ [call] := by rw [List.take_add_one, found, Option.toList_some]
  have more := (longer.sublist.map Prod.fst).countP_le (p := client.counts window)
  rw [one, List.map_append, List.countP_append, List.map_singleton, List.countP_singleton, if_pos counted] at more
  omega

theorem positions_le {run : List (Attempt × Bool)} {window limit : Int} (positive : 0 < limit)
    {positions : Finset ℕ}
    (placed : ∀ n ∈ positions, ∃ call, run[n]? = some call ∧ client.counts window call.1 = true ∧
      ((run.take n).map Prod.fst).countP (client.counts window) + 1 ≤ limit) :
    (positions.card : Int) ≤ limit := by
  let place (n : ℕ) : Int := ((run.take n).map Prod.fst).countP (client.counts window) + 1
  have inside : positions.image place ⊆ Finset.Icc 1 limit := by
    intro value member
    obtain ⟨n, chosen, rfl⟩ := Finset.mem_image.mp member
    obtain ⟨_, _, _, low⟩ := placed n chosen
    rw [Finset.mem_Icc]
    exact ⟨by simp [place], low⟩
  have distinct : Set.InjOn place positions := by
    intro n first m second same
    obtain ⟨call, found, counted, _⟩ := placed n first
    obtain ⟨other, found', counted', _⟩ := placed m second
    rcases lt_trichotomy n m with before | rfl | after
    · have := place_lt found counted before
      simp only [place] at same
      omega
    · rfl
    · have := place_lt found' counted' after
      simp only [place] at same
      omega
  have count := Finset.card_le_card inside
  rw [Finset.card_image_of_injOn distinct, Int.card_Icc] at count
  omega

theorem answer_answered {before : List (Attempt × Bool)} {call : Attempt × Bool} {result : RateLimitResult}
    (done : answer sha256 keyPrefix before call = .ok result) : call.1.answered = true := by
  unfold answer allow at done
  split at done
  · contradiction
  · cases answered : call.1.answered with
    | true => rfl
    | false => simp [answered] at done

theorem enforced_of_inTime (steady : client.Steady sha256 calls) (inTime : InTime client calls)
    {run : List (Attempt × Bool)} (timed : run.map Prod.fst = calls) :
    Enforced sha256 keyPrefix client run := by
  subst timed
  have place (n : ℕ) (call : Attempt × Bool) (found : run[n]? = some call) (makes : client.Makes call.1)
      (answered : call.1.answered = true) : answer sha256 keyPrefix (run.take n) call =
        .ok (call.1.result (((run.take n).map Prod.fst).countP (client.counts call.1.currentWindow) + 1)) := by
    have upTo : run.take n ++ [call] = run.take (n + 1) := by
      rw [List.take_add_one, found, Option.toList_some]
    have begun : client.Steady sha256 ((run.take n).map Prod.fst ++ [call.1]) := by
      rw [← List.map_singleton, ← List.map_append, upTo]
      rw [← List.take_append_drop (n + 1) run, List.map_append] at steady
      exact steady.start
    have soon (first : Attempt)
        (earliest : ((run.take n).map Prod.fst).find? (client.counts call.1.currentWindow) = some first) :
        call.1.runsAt < first.deadline := by
      refine inTime n call.1 (by rw [List.getElem?_map, found]; rfl) makes answered first ?_
      rwa [← List.map_take]
    refine answer_in_time begun makes answered ?_ soon
    -- calls are served in order, so that those before this one come before the deadline too
    intro first earliest other present _ _
    have order := (List.pairwise_append.mp begun.ordered).2.2 other.1 (List.mem_map_of_mem present) call.1 (by simp)
    exact lt_of_le_of_lt order (soon first earliest)
  refine ⟨?_, ?_⟩
  · intro n call found makes answered
    refine ⟨_, place n call found makes answered, ?_⟩
    have fields := result_fields call.1
      (((run.take n).map Prod.fst).countP (client.counts call.1.currentWindow) + 1)
    rwa [(steady.policy call.1 (List.mem_map_of_mem (List.mem_of_getElem? found)) makes).1] at fields
  · intro window positions allowed
    have placed : ∀ n ∈ positions, ∃ call, run[n]? = some call ∧ client.counts window call.1 = true ∧
        ((run.take n).map Prod.fst).countP (client.counts window) + 1 ≤ client.limit := by
      intro n member
      obtain ⟨call, result, found, counted, done, admitted⟩ := allowed n member
      obtain ⟨makes, rfl⟩ := counts_iff.mp counted
      refine ⟨call, found, counted, ?_⟩
      rw [place n call found makes (answer_answered done)] at done
      cases done
      have fields := (result_fields call.1 _).1.mp admitted
      rwa [(steady.policy call.1 (List.mem_map_of_mem (List.mem_of_getElem? found)) makes).1] at fields
    exact positions_le steady.limit placed

theorem inTime_of_enforced (steady : client.Steady sha256 calls)
    (enforced : ∀ run, run.map Prod.fst = calls → Enforced sha256 keyPrefix client run) :
    InTime client calls := by
  intro n a found makes answered first earliest
  by_contra late
  rw [not_lt] at late
  -- every counter is kept but the one of this call
  obtain ⟨inside, rfl⟩ := List.getElem?_eq_some_iff.mp found
  let before : List (Attempt × Bool) := (calls.take n).map (·, false)
  let run := before ++ (calls[n], true) :: (calls.drop (n + 1)).map (·, false)
  have times (part : List Attempt) : (part.map (·, false)).map Prod.fst = part := by
    rw [List.map_map]
    exact List.map_id _
  have size : before.length = n := by
    simp only [before, List.length_map, List.length_take]
    omega
  have whole : calls.take n ++ calls[n] :: calls.drop (n + 1) = calls := by
    rw [← List.drop_eq_getElem_cons inside, List.take_append_drop]
  have timed : run.map Prod.fst = calls := by
    rw [List.map_append, List.map_cons, times, times, whole]
  have begun : client.Steady sha256 (before.map Prod.fst ++ [calls[n]]) := by
    rw [← whole, ← List.singleton_append, ← List.append_assoc] at steady
    rw [times]
    exact steady.start
  have here : run[n]? = some (calls[n], true) := by
    rw [List.getElem?_append_right (by omega), size, Nat.sub_self, List.getElem?_cons_zero]
  have kept : Kept client calls[n].currentWindow before := by
    intro _ _ call present _ gone
    obtain ⟨_, _, rfl⟩ := List.mem_map.mp present
    contradiction
  rw [← times (calls.take n)] at earliest
  obtain ⟨result, done, allowed, remaining⟩ := (enforced run timed).1 n (calls[n], true) here makes answered
  rw [show run.take n = before from List.take_left' size] at done allowed remaining
  rw [answer_late begun makes answered kept earliest late] at done
  cases done
  have policy := (steady.policy calls[n] (List.getElem_mem inside) makes).1
  have fields := result_fields calls[n] 1
  rw [policy] at fields
  have counted : 0 < (before.map Prod.fst).countP (client.counts calls[n].currentWindow) :=
    List.countP_pos_iff.mpr ⟨first, List.mem_of_find?_eq_some earliest, List.find?_some earliest⟩
  have low := allowed.mp (fields.1.mpr (Int.add_one_le_iff.mpr steady.limit))
  have positive := steady.limit
  rw [fields.2] at remaining
  dsimp only at low remaining
  omega

/-- A client gets exactly its limit in each window, whatever Redis does with expired
counters, if and only if every answered call is served before the deadline that the
first call of its window has set. -/
theorem limit_enforced_iff_in_time (steady : client.Steady sha256 calls) :
    (∀ run, run.map Prod.fst = calls → Enforced sha256 keyPrefix client run) ↔ InTime client calls :=
  ⟨inTime_of_enforced steady, fun inTime _ timed => enforced_of_inTime steady inTime timed⟩

def ordersKey : Str := lit "project-1" ++ 0 :: (lit "orders" ++ 0 :: lit "/api/orders")

def addressKey : Str := lit "ip:192.0.2.1"

/-- SHA-256 at the two parts of the sample's keys. -/
def keySHA256 (value : Str) : Str :=
  if value = ordersKey then
    (hexDecode (lit "972cd29ba34490a7fc38668a4bb70d8658a9ececedf09dd81f30cf2aaf1ff082")).getD []
  else if value = addressKey then
    (hexDecode (lit "4fa79423ef2fc7de17ee7d26e3373b1d0dfe93b99c8f26d2334d1c74c13eaf8b")).getD []
  else []

/-- A call that Redis serves at the instant of its clock reading. -/
def callAt (limit : Int) (now : Time) (pttl : Int) : Attempt :=
  ⟨⟨ordersKey, addressKey, ⟨true, limit, 10 * millisecond⟩⟩, now, now, pttl, true⟩

def threeCalls : List Attempt :=
  [callAt 2 500000 9, callAt 2 4500000 5, callAt 2 8500000 1]

theorem three_calls_are_limited :
    let client : Client := ⟨ordersKey, addressKey, 2, 10 * millisecond⟩
    (∀ run, run.map Prod.fst = threeCalls → Enforced keySHA256 (lit "edgeguard:rate-limit") client run) ∧
    threeCalls.map Attempt.currentWindow = [0, 0, 0] := by
  intro client
  refine ⟨?_, by decide⟩
  have makes : ∀ a ∈ threeCalls, client.Makes a := by decide
  have steady : client.Steady keySHA256 threeCalls := by
    refine ⟨by decide, by decide, by decide, by decide, ?_, by decide⟩
    intro a member _ _
    exact makes a member
  refine (limit_enforced_iff_in_time steady).mpr ?_
  have served : ∀ n < 3, ∀ a ∈ threeCalls[n]?, ∀ first ∈ (threeCalls.take n).find? (client.counts a.currentWindow),
      a.runsAt < first.deadline := by decide
  intro n a found _ _ first earliest
  obtain ⟨inside, _⟩ := List.getElem?_eq_some_iff.mp found
  exact served n inside a found first earliest

/-- The first call gives its counter 9 of the 9.5 milliseconds that are left of the window. -/
def lateCall : List Attempt := [callAt 1 500000 9, callAt 1 9700000 1]

theorem second_call_above_limit_is_allowed :
    lateCall.map Attempt.currentWindow = [0, 0] ∧
    ∃ first second : Attempt, lateCall = [first, second] ∧ first.now ≤ first.runsAt ∧ second.now ≤ second.runsAt ∧
      answer keySHA256 (lit "edgeguard:rate-limit") [] (first, false) = .ok (first.result 1) ∧
      answer keySHA256 (lit "edgeguard:rate-limit") [(first, false)] (second, true) = .ok (second.result 1) ∧
      (first.result 1).allowed = true ∧ (second.result 1).allowed = true ∧ second.request.policy.limit = 1 := by
  refine ⟨by decide, _, _, rfl, ?_⟩
  decide +kernel

end EdgeGuard.Gateway
