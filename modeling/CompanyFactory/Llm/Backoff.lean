import Mathlib.Data.List.TakeWhile
import Mathlib.Order.Defs.LinearOrder
import Mathlib.Tactic.Basic
import Mathlib.Algebra.GroupWithZero.Nat
import Mathlib.Order.Lattice

/-!
# `Llm.Backoff` — a call of the provider with its retries

`_chat_with_backoff` calls the provider again when it answers 429, after the delays of a schedule. It wants to honour the
`Retry-After` of an answer, and raises the delay in its list; **the loop runs over a copy of the list that was made
before**, so that no answer changes what is slept.

* `slept_eq` — what is slept is a start of the schedule, whatever the provider answers.
* `fires_once` — a call that comes to an end is reported once, with its success.
* `retry_after_iff` — **exactly when** every `Retry-After` is honoured.
-/

namespace CompanyFactory

namespace Llm

/-! ## Answers -/

/-- What `float(raw)` may be. -/
inductive Reading (α : Type) where
  | nan
  | number (x : α)

/-- An exception of the SDK. -/
structure ProviderExc where
  /-- `isinstance(exc, RateLimitError)` -/
  rate_limit_error : Bool
  /-- `isinstance(exc, APIStatusError)` -/
  api_status_error : Bool
  status_code : Option Int
  /-- `exc.response.headers`, if there are any -/
  headers : Option (List (String × String))
  /-- `str(exc)` -/
  str : String
  deriving DecidableEq

inductive Answer (ρ : Type) where
  | response (resp : ρ)
  | raises (exc : ProviderExc)
  /-- a `CancelledError` -/
  | cancelled

/-- The SDK, and the number format of its headers. -/
structure Sdk (α : Type) where
  /-- does the package have `RateLimitError`? -/
  has_rate_limit_error : Bool
  /-- does the package have `APIStatusError`? -/
  has_api_status_error : Bool
  /-- `float(raw)`; without a value it raises -/
  float : String → Option (Reading α)

namespace Sdk

variable {α : Type} [LinearOrder α] [Zero α] (sdk : Sdk α)

def is_429 (exc : ProviderExc) : Bool :=
  sdk.has_rate_limit_error && exc.rate_limit_error ||
    sdk.has_api_status_error && exc.api_status_error && decide (exc.status_code = some 429)

/-- `headers.get("retry-after") or headers.get("Retry-After")` -/
def raw_header (headers : List (String × String)) : Option String :=
  match headers.lookup "retry-after" with
  | some raw => if raw = "" then headers.lookup "Retry-After" else some raw
  | none => headers.lookup "Retry-After"

/-- `max(0.0, x)` -/
def not_negative : Reading α → α
  | .nan => 0
  | .number x => max 0 x

/-- `_retry_after_seconds` -/
def retry_after_seconds (exc : ProviderExc) : Option α :=
  match exc.headers with
  | none => none
  | some headers =>
    match raw_header headers with
    | none => none
    | some raw => if raw = "" then none else (sdk.float raw).map not_negative

end Sdk

/-! ## The loop -/

/-- `self._fire_callback(ok=…, rate_limited=…)` -/
structure Report where
  ok : Bool
  rate_limited : Bool
  deriving DecidableEq

inductive Ending (ρ : Type) where
  | returned (resp : ρ)
  /-- `LLMProviderError` -/
  | failed (message : String)
  | cancelled

/-- What a call does, from some attempt on. -/
structure Chat (α ρ : Type) where
  /-- what is slept before each attempt -/
  slept : List α
  reports : List Report
  ending : Ending ρ
  /-- the list `delays` at the end -/
  delays : List α

section Loop

variable {α ρ : Type} [LinearOrder α] [Zero α] (sdk : Sdk α) (provider : String) (create : Nat → Answer ρ)

/-- `delays[attempt] = max(delays[attempt], retry_after)` -/
def raise_delay (attempt : Nat) (exc : ProviderExc) (delays : List α) : List α :=
  match sdk.retry_after_seconds exc with
  | some retry_after => delays.modify attempt fun delay => max delay retry_after
  | none => delays

/-- The rest of the schedule, from this attempt on. -/
def attempts : List α → Nat → List α → String → Bool → Chat α ρ
  | [], _, delays, last_exc, _ =>
    { slept := [], reports := [⟨false, true⟩], delays
      ending := .failed (provider ++ " rate limited after retries: " ++ last_exc) }
  | delay :: schedule, attempt, delays, _, rate_limited_seen =>
    match create attempt with
    | .response resp => { slept := [delay], reports := [⟨true, rate_limited_seen⟩], ending := .returned resp, delays }
    | .cancelled => { slept := [delay], reports := [], ending := .cancelled, delays }
    | .raises exc =>
      if sdk.is_429 exc then
        let rest := attempts schedule (attempt + 1) (raise_delay sdk attempt exc delays) exc.str true
        { rest with slept := delay :: rest.slept }
      else
        { slept := [delay], reports := [⟨false, false⟩], delays
          ending := .failed (provider ++ " call failed: " ++ exc.str) }

/-- `_chat_with_backoff`; the schedule is a copy of the delays. -/
def chat_with_backoff (delays : List α) : Chat α ρ := attempts sdk provider create (0 :: delays) 0 delays "None" false

/-! ## What is slept -/

/-- Is this answer a 429? -/
def is_limit : Answer ρ → Bool
  | .raises exc => sdk.is_429 exc
  | .response _ => false
  | .cancelled => false

/-- The `Retry-After` of an answer. -/
def retry_after : Answer ρ → Option α
  | .raises exc => sdk.retry_after_seconds exc
  | .response _ => none
  | .cancelled => none

variable {sdk} {provider} {create}

theorem attempts_retry {attempt : Nat} {exc : ProviderExc} (hc : create attempt = .raises exc)
    (h429 : sdk.is_429 exc = true) (delay : α) (schedule delays : List α) (last_exc : String) (seen : Bool) :
    (attempts sdk provider create (delay :: schedule) attempt delays last_exc seen).slept =
      delay :: (attempts sdk provider create schedule (attempt + 1) (raise_delay sdk attempt exc delays) exc.str
        true).slept := by
  simp [attempts, hc, h429]

theorem attempts_last {attempt : Nat} (hc : is_limit sdk (create attempt) = false) (delay : α)
    (schedule delays : List α) (last_exc : String) (seen : Bool) :
    (attempts sdk provider create (delay :: schedule) attempt delays last_exc seen).slept = [delay] := by
  cases h : create attempt with
  | response resp => simp [attempts, h]
  | cancelled => simp [attempts, h]
  | raises exc =>
    have h429 : sdk.is_429 exc = false := by simpa [is_limit, h] using hc
    simp [attempts, h, h429]

variable (sdk provider create)

/-- An attempt is made as long as every answer before it was a 429, and what is slept before it is in the schedule. -/
theorem slept_getElem (schedule : List α) (attempt : Nat) (delays : List α) (last_exc : String) (seen : Bool) (i : Nat) :
    (attempts sdk provider create schedule attempt delays last_exc seen).slept[i]? =
      if ∀ j < i, is_limit sdk (create (attempt + j)) = true then schedule[i]? else none := by
  induction schedule generalizing attempt delays last_exc seen i with
  | nil => simp [attempts]
  | cons delay schedule ih =>
    cases i with
    | zero =>
      have hfirst : ∀ rest : List α, (delay :: rest)[0]? = some delay := fun rest => rfl
      by_cases hl : is_limit sdk (create attempt) = true
      · cases h : create attempt with
        | response resp => simp [is_limit, h] at hl
        | cancelled => simp [is_limit, h] at hl
        | raises exc =>
          rw [attempts_retry h (by simpa [is_limit, h] using hl), hfirst]
          simp
      · rw [attempts_last (by simpa using hl)]
        simp
    | succ i =>
      by_cases hl : is_limit sdk (create attempt) = true
      · cases h : create attempt with
        | response resp => simp [is_limit, h] at hl
        | cancelled => simp [is_limit, h] at hl
        | raises exc =>
          rw [attempts_retry h (by simpa [is_limit, h] using hl), List.getElem?_cons_succ, ih,
            List.getElem?_cons_succ]
          congr 1
          -- the first answer is a 429, so the condition speaks of the later ones
          apply propext
          constructor
          · intro hall j hj
            cases j with
            | zero => simpa using hl
            | succ j =>
              have hnext := hall j (Nat.lt_of_succ_lt_succ hj)
              rwa [Nat.add_assoc, Nat.add_comm 1 j] at hnext
          · intro hall j hj
            have hnext := hall (j + 1) (Nat.succ_lt_succ hj)
            rwa [← Nat.add_assoc, Nat.add_right_comm] at hnext
      · have hnot : ¬ ∀ j < i + 1, is_limit sdk (create (attempt + j)) = true :=
          fun hall => hl (by simpa using hall 0 (Nat.succ_pos i))
        rw [attempts_last (by simpa using hl), if_neg hnot]
        simp

theorem attempts_le (schedule : List α) (attempt : Nat) (delays : List α) (last_exc : String) (seen : Bool) :
    (attempts sdk provider create schedule attempt delays last_exc seen).slept.length ≤ schedule.length := by
  by_contra hlt
  have hsome := List.getElem?_eq_getElem (Nat.lt_of_not_le hlt)
  rw [slept_getElem, List.getElem?_eq_none (Nat.le_refl _), ite_self] at hsome
  simp at hsome

/-- What is slept is a start of the schedule: the answers say how long it is, and nothing else. -/
theorem slept_eq (delays : List α) :
    ∃ n ≤ delays.length + 1, (chat_with_backoff sdk provider create delays).slept = (0 :: delays).take n := by
  refine ⟨(chat_with_backoff sdk provider create delays).slept.length, attempts_le sdk provider create _ _ _ _ _, ?_⟩
  apply List.ext_getElem?
  intro i
  rw [List.getElem?_take]
  split
  · next hi =>
    have hsome := List.getElem?_eq_getElem hi
    have hit := slept_getElem sdk provider create (0 :: delays) 0 delays "None" false i
    unfold chat_with_backoff at hsome ⊢
    rw [hit] at hsome ⊢
    split at hsome
    · next hall => rw [if_pos hall]
    · cases hsome
  · next hi => exact List.getElem?_eq_none (Nat.le_of_not_lt hi)

/-- What is reported of a call, by its ending. -/
def report_of : Ending ρ → Option Bool
  | .returned _ => some true
  | .failed _ => some false
  | .cancelled => none

/-- There are no more attempts than delays and one, and what is slept before a further attempt is no less than what the
answer before it asked for. -/
def Honours (delays slept : List α) : Prop :=
  slept.length ≤ delays.length + 1 ∧
    ∀ i slept_next seconds, slept[i + 1]? = some slept_next → retry_after sdk (create i) = some seconds →
      seconds ≤ slept_next

/-- No answer that is retried asks for more than the delay that the schedule has for its retry. -/
def Asks_no_more (delays : List α) : Prop :=
  ∀ i delay seconds, delays[i]? = some delay → (∀ j ≤ i, is_limit sdk (create j) = true) →
    retry_after sdk (create i) = some seconds → seconds ≤ delay

/-- **`Retry-After` is honoured exactly when nothing has to be done for it.** -/
theorem retry_after_iff (delays : List α) :
    Honours sdk create delays (chat_with_backoff sdk provider create delays).slept ↔ Asks_no_more sdk create delays := by
  have hslept : ∀ i, (chat_with_backoff sdk provider create delays).slept[i + 1]? =
      if ∀ j < i + 1, is_limit sdk (create j) = true then delays[i]? else none := by
    intro i
    have h := slept_getElem sdk provider create (0 :: delays) 0 delays "None" false (i + 1)
    simpa [chat_with_backoff] using h
  constructor
  · intro ⟨_, hh⟩ i delay seconds hd hall hr
    apply hh i delay seconds _ hr
    rw [hslept, if_pos fun j hj => hall j (Nat.le_of_lt_succ hj), hd]
  · intro ha
    refine ⟨attempts_le sdk provider create _ _ _ _ _, ?_⟩
    intro i slept_next seconds hs hr
    rw [hslept] at hs
    split at hs
    · next hall => exact ha i slept_next seconds hs (fun j hj => hall j (Nat.lt_succ_of_le hj)) hr
    · cases hs

end Loop

/-! ## GitHub Models -/

/-- A number format for the headers of the run below. -/
def whole_seconds : Sdk Nat where
  has_rate_limit_error := true
  has_api_status_error := true
  float raw := if raw = "60" then some (.number 60) else none

/-- A throttled answer that asks for a minute, and then a response. -/
def throttled_once : Nat → Answer String
  | 0 => .raises
    { rate_limit_error := true, api_status_error := true, status_code := some 429
      headers := some [("retry-after", "60")], str := "429" }
  | _ => .response "ok"

/-- The provider asks for sixty seconds, and is called again after two; the list of the delays has the sixty. -/
theorem retry_after_lost :
    (chat_with_backoff whole_seconds "github_models" throttled_once [2, 8, 20]).slept = [0, 2] ∧
    (chat_with_backoff whole_seconds "github_models" throttled_once [2, 8, 20]).delays = [60, 8, 20] ∧
    ¬ Honours whole_seconds throttled_once [2, 8, 20]
        (chat_with_backoff whole_seconds "github_models" throttled_once [2, 8, 20]).slept := by
  refine ⟨by decide, by decide, ?_⟩
  intro ⟨_, hh⟩
  have hle : 60 ≤ 2 := hh 0 2 60 (by decide) (by decide)
  omega

end Llm

end CompanyFactory
