import CompanyFactory.Connector.Models

/-!
# `Orchestrator.RateLimit` — the token buckets of the senders

One bucket a sender, one configuration for all of them: `configure` resets the bucket of one agent and
replaces the configuration that every bucket is refilled by. Times are readings of the monotonic clock in
seconds, tokens exact rationals; `system_exempt` is a field that nothing reads.
-/

namespace CompanyFactory

namespace Orchestrator

/-- `RateLimitConfig` -/
structure RateLimitConfig where
  capacity : Nat := 60
  refill_per_second : Rat := 1
  deriving DecidableEq

structure RateLimiter where
  cfg : RateLimitConfig
  buckets : String → Option Bucket

namespace RateLimiter

/-- A limiter without a bucket. -/
def fresh (cfg : RateLimitConfig) : RateLimiter := { cfg, buckets := fun _ => none }

def configure (limiter : RateLimiter) (agent_id : String) (cfg : RateLimitConfig) (now : Rat) :
    RateLimiter :=
  { cfg, buckets := Function.update limiter.buckets agent_id (some ⟨cfg.capacity, now⟩) }

/-- The bucket of an agent after the refill; an unknown agent starts with a full one. -/
def refilled (limiter : RateLimiter) (agent_id : String) (now : Rat) : Rat :=
  let bucket := (limiter.buckets agent_id).getD ⟨limiter.cfg.capacity, now⟩
  let elapsed := max 0 (now - bucket.last)
  min (limiter.cfg.capacity : Rat) (bucket.tokens + elapsed * limiter.cfg.refill_per_second)

/-- `try_consume` of one token. -/
def try_consume (limiter : RateLimiter) (agent_id : String) (now : Rat) : Bool × RateLimiter :=
  let tokens := limiter.refilled agent_id now
  if 1 ≤ tokens then
    (true, { limiter with
      buckets := Function.update limiter.buckets agent_id (some ⟨tokens - 1, now⟩) })
  else
    (false, { limiter with
      buckets := Function.update limiter.buckets agent_id (some ⟨tokens, now⟩) })

end RateLimiter

end Orchestrator

end CompanyFactory
