import CompanyFactory.Cost.Budget
import Mathlib.Algebra.Order.Floor.Defs
import Mathlib.Data.Rat.Floor

/-!
# `Connector.Models` — services, actions and the gates in front of them

Actions are third-party code behind four callables: the argument schema, the cost estimator, the executor
and the sanitizer. Schema, estimator and sanitizer are functions that may raise; what an executor answers
is an input of a call (`Connector.Service`). Times are seconds, durations and tokens exact rationals.
-/

namespace CompanyFactory

inductive RiskLevel where
  | LOW | MEDIUM | HIGH | CRITICAL
  deriving DecidableEq, Repr

def RiskLevel.value : RiskLevel → String
  | .LOW => "low"
  | .MEDIUM => "medium"
  | .HIGH => "high"
  | .CRITICAL => "critical"

/-- Token-bucket configuration. -/
structure RateLimit where
  capacity : Nat
  refill_per_second : Rat
  deriving DecidableEq

/-- A pydantic model instance: the name of its class, and its fields. -/
structure Instance where
  cls : String
  dump : Fields
  deriving DecidableEq

structure ActionDef where
  /-- `args_schema.model_validate`; a failure carries the text of the `ValidationError` -/
  args_schema : Fields → Except String Fields
  /-- the name of the output class, and whether an instance is one of it -/
  output_schema : String
  conforms : Instance → Bool
  cost_estimator : Fields → Except Exn Money
  sanitizer : Json → Except Exn Instance
  rate_limit : Option RateLimit := none
  auto_approve_threshold : Option Money := none
  idempotent : Bool := true

structure ServiceDef where
  name : String
  risk : RiskLevel
  actions : String → Option ActionDef

structure ConnectorResult where
  ok : Bool
  output : Option Instance := none
  error_code : Option String := none
  error_message : Option String := none
  cost_usd : Money := ⟨0⟩
  approval_request_id : Option String := none
  deriving DecidableEq

/-! ## The rate limiter -/

structure Bucket where
  tokens : Rat
  last : Rat
  deriving DecidableEq

structure RateLimiter where
  configs : String → Option RateLimit
  buckets : String → Option Bucket

/-- `configure`: the bucket of the key starts full. -/
def RateLimiter.configure (limiter : RateLimiter) (key : String) (limit : RateLimit) (now : Rat) :
    RateLimiter :=
  { configs := Function.update limiter.configs key (some limit)
    buckets := Function.update limiter.buckets key (some ⟨limit.capacity, now⟩) }

/-- A number with two decimals, as in `f"{q:.2f}"`. -/
def fixed2 (q : Rat) : String :=
  let scaled := q * 100
  let down := ⌊scaled⌋
  let rest := scaled - down
  let n := if rest < 1 / 2 ∨ (rest = 1 / 2 ∧ down % 2 = 0) then down else down + 1
  let cents := (n % 100).toNat
  toString (n / 100) ++ "." ++ (if cents < 10 then "0" else "") ++ toString cents

/-- `acquire`: refill the bucket of a configured key and take one token from it; an empty bucket raises
    `RateLimited`, whose message is returned here. -/
def RateLimiter.acquire (limiter : RateLimiter) (key : String) (now : Rat) :
    Except String Unit × RateLimiter :=
  match limiter.configs key, limiter.buckets key with
  | some limit, some bucket =>
    let elapsed := max 0 (now - bucket.last)
    let tokens := min (limit.capacity : Rat) (bucket.tokens + elapsed * limit.refill_per_second)
    if tokens < 1 then
      let retry := (1 - tokens) / max limit.refill_per_second (1 / 1000000000)
      (.error ("retry_after=" ++ fixed2 retry ++ "s"),
        { limiter with buckets := Function.update limiter.buckets key (some ⟨tokens, now⟩) })
    else
      (.ok (), { limiter with
        buckets := Function.update limiter.buckets key (some ⟨tokens - 1, now⟩) })
  -- an unconfigured key is unlimited; `configure` creates the bucket with the configuration
  | _, _ => (.ok (), limiter)

/-! ## The allowlist -/

/-- A blanket entry is the service name, a narrow one `service:action`. -/
structure Allowlist where
  entries : List String
  deriving DecidableEq

def Allowlist.key (service : String) (action : Option String) : String :=
  match action with
  | none => service
  | some action => service ++ ":" ++ action

def Allowlist.allow (list : Allowlist) (service : String) (action : Option String) : Allowlist :=
  { entries := Allowlist.key service action :: list.entries }

def Allowlist.revoke (list : Allowlist) (service : String) (action : Option String) : Allowlist :=
  { entries := list.entries.filter (· ≠ Allowlist.key service action) }

def Allowlist.is_allowed (list : Allowlist) (service action : String) : Bool :=
  list.entries.contains service || list.entries.contains (Allowlist.key service (some action))

end CompanyFactory
