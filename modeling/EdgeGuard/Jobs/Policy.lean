import EdgeGuard.Go.Strings
import EdgeGuard.Go.Time
import EdgeGuard.Regex

/-! The policy that the worker installs for its queue. Its pattern is the quoted name of
the queue between anchors; the broker applies the policy to the quorum queues in whose
name the pattern is found. -/
namespace EdgeGuard.Jobs.Broker
open Go Regex

structure PolicyConfig where
  queue : Str
  deadExchange : Str
  retryMin : Duration
  retryMax : Duration
  deriving DecidableEq, Repr

/-- The arguments of `strings.NewReplacer` in `regexpQuote`. -/
def regexpQuotePairs : List (Str × Str) :=
  [(lit "\\", lit "\\\\"), (lit ".", lit "\\."), (lit "+", lit "\\+"), (lit "*", lit "\\*"),
    (lit "?", lit "\\?"), (lit "(", lit "\\("), (lit ")", lit "\\)"), (lit "[", lit "\\["),
    (lit "]", lit "\\]"), (lit "\x7b", lit "\\\x7b"), (lit "\x7d", lit "\\\x7d"), (lit "^", lit "\\^"),
    (lit "$", lit "\\$"), (lit "|", lit "\\|")]

def regexpQuote (value : Str) : Str := replace regexpQuotePairs value

structure Definition where
  deadLetterExchange : Str
  deadLetterStrategy : Str
  overflow : Str
  delayedRetryType : Str
  delayedRetryMin : Int
  delayedRetryMax : Int
  deriving DecidableEq, Repr

structure Policy where
  pattern : Str
  definition : Definition
  priority : Int
  applyTo : Str
  deriving DecidableEq, Repr

/-- What `Install` sends. -/
def PolicyConfig.payload (config : PolicyConfig) : Policy where
  pattern := lit "^" ++ regexpQuote config.queue ++ lit "$"
  definition :=
    { deadLetterExchange := config.deadExchange
      deadLetterStrategy := lit "at-least-once"
      overflow := lit "reject-publish"
      delayedRetryType := lit "failed"
      delayedRetryMin := milliseconds config.retryMin
      delayedRetryMax := milliseconds config.retryMax }
  priority := 10
  applyTo := lit "quorum_queues"

inductive QueueType where
  | classic
  | quorum
  | stream
  deriving DecidableEq, Repr

structure Queue where
  name : Str
  type : QueueType
  deriving DecidableEq, Repr

/-- `apply-to`. -/
def covers (applyTo : Str) (type : QueueType) : Prop :=
  applyTo = lit "quorum_queues" ∧ type = .quorum ∨ applyTo = lit "classic_queues" ∧ type = .classic ∨
    applyTo = lit "streams" ∧ type = .stream ∨ applyTo = lit "queues" ∨ applyTo = lit "all"

def Policy.AppliesTo (policy : Policy) (queue : Queue) : Prop :=
  covers policy.applyTo queue.type ∧ MatchesText policy.pattern queue.name

theorem regexpQuotePairs_eq :
    regexpQuotePairs = (Special.all.map fun special => (special.byte, [92, special.byte])).map
      fun entry => ([entry.1], entry.2) := by
  decide

theorem regexpQuote_eq (value : Str) : regexpQuote value = quote value := by
  rw [regexpQuote, regexpQuotePairs_eq, replace_bytes]
  unfold quote
  congr 1
  funext c
  rw [List.find?_map]
  change ((Option.map _ (Special.ofByte c)).map _).getD [c] = quoteByte c
  cases found : Special.ofByte c with
  | none => simp [quoteByte, found]
  | some special => simp [quoteByte, found, Special.byte_of_ofByte found]

/-- The pattern matches the name of the configured queue and nothing else, so the policy
applies to this one queue. -/
theorem policy_applies_iff (config : PolicyConfig) :
    (∀ subject, MatchesText config.payload.pattern subject ↔ subject = config.queue) ∧
    ∀ queue, config.payload.AppliesTo queue ↔ queue.type = .quorum ∧ queue.name = config.queue := by
  have pattern : ∀ subject, MatchesText config.payload.pattern subject ↔ subject = config.queue := by
    intro subject
    have anchored : config.payload.pattern =
        Special.caret.byte :: (quote config.queue ++ [Special.dollar.byte]) := by
      change lit "^" ++ regexpQuote config.queue ++ lit "$" = _
      rw [regexpQuote_eq, List.append_assoc]
      rfl
    rw [anchored]
    exact matchesText_anchored_iff config.queue subject
  refine ⟨pattern, ?_⟩
  intro queue
  have quorum : covers config.payload.applyTo queue.type ↔ queue.type = .quorum := by
    have classic : lit "quorum_queues" ≠ lit "classic_queues" := by decide
    have stream : lit "quorum_queues" ≠ lit "streams" := by decide
    have queues : lit "quorum_queues" ≠ lit "queues" := by decide
    have all : lit "quorum_queues" ≠ lit "all" := by decide
    simp [covers, PolicyConfig.payload, classic, stream, queues, all]
  exact and_congr quorum (pattern queue.name)

end EdgeGuard.Jobs.Broker
