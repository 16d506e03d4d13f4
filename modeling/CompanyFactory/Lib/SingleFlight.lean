import CompanyFactory.Lib.Run
import Mathlib.Data.List.Basic
import Mathlib.Logic.Function.Basic
import Mathlib.Tactic.Basic

/-!
# `Lib.SingleFlight` — one execution per key, and results that are promised under a key

A server answers a keyed request from its cache; a request whose key is not cached takes off in a free
slot, runs, and lands. Its result is cached at the landing. Two things can go wrong: a second request
takes off while the first one of its key is in the air, and a request lands without leaving a cache
entry. `tally_landings_le_one` says that nothing else can: without these two, the landings of a key that
leave an entry behind number at most one.

Where the two sides of a request are apart, one party makes a future, notes it under a key, and waits for it later;
another party delivers a result under the key. A note is used once: what is delivered for a key that has none is lost.

* `Futures.register_submit` — what is delivered to a fresh future is there.
* `Futures.Keeps` — and stays there, whatever is registered or delivered after it.
-/

namespace SingleFlight

open Machine

variable {σ ι τ κ : Type*} [DecidableEq τ]

/-- No two slots carry the same key. -/
def Single (flight : τ → Option κ) : Prop :=
  ∀ t t' k, flight t = some k → flight t' = some k → t = t'

/-- What one step may do: leave the flights alone, let a key that is neither cached nor in the air take
    off, or let a slot land. No step forgets a cached key. -/
inductive Move (flight flight' : τ → Option κ) (cached cached' : κ → Prop) : Prop
  | stays : flight' = flight → (∀ k, cached k → cached' k) → Move flight flight' cached cached'
  | takes_off (t k) : ¬ cached k → (∀ t', flight t' ≠ some k) →
      flight' = Function.update flight t (some k) → (∀ k, cached k → cached' k) →
      Move flight flight' cached cached'
  | lands (t) : flight' = Function.update flight t none → (∀ k, cached k → cached' k) →
      Move flight flight' cached cached'

variable {flight flight' : τ → Option κ} {cached cached' : κ → Prop}

theorem Move.cache_grows (h : Move flight flight' cached cached') {k : κ} (hk : cached k) :
    cached' k := by
  cases h with
  | stays _ hgrows => exact hgrows k hk
  | takes_off _ _ _ _ _ hgrows => exact hgrows k hk
  | lands _ _ hgrows => exact hgrows k hk

theorem Move.single (h : Move flight flight' cached cached') (hs : Single flight) :
    Single flight' := by
  cases h with
  | stays hsame => rw [hsame]; exact hs
  | takes_off t k _ hfree hupd =>
      subst hupd
      intro t₁ t₂ k' h₁ h₂
      by_cases e₁ : t₁ = t
      · by_cases e₂ : t₂ = t
        · exact e₁.trans e₂.symm
        · rw [e₁, Function.update_self] at h₁
          rw [Function.update_of_ne e₂] at h₂
          exact absurd (h₂.trans h₁.symm) (hfree t₂)
      · rw [Function.update_of_ne e₁] at h₁
        by_cases e₂ : t₂ = t
        · rw [e₂, Function.update_self] at h₂
          exact absurd (h₁.trans h₂.symm) (hfree t₁)
        · rw [Function.update_of_ne e₂] at h₂
          exact hs t₁ t₂ k' h₁ h₂
  | lands t hupd =>
      subst hupd
      intro t₁ t₂ k' h₁ h₂
      have hne : ∀ t', Function.update flight t none t' = some k' → t' ≠ t := by
        rintro t' ht' rfl
        simp at ht'
      rw [Function.update_of_ne (hne t₁ h₁)] at h₁
      rw [Function.update_of_ne (hne t₂ h₂)] at h₂
      exact hs t₁ t₂ k' h₁ h₂

/-- A cached key takes off no more. -/
theorem Move.grounded (h : Move flight flight' cached cached') {k : κ} (hk : cached k)
    (hfree : ∀ t, flight t ≠ some k) : ∀ t, flight' t ≠ some k := by
  intro t₁ h₁
  cases h with
  | stays hsame => exact hfree t₁ (hsame ▸ h₁)
  | takes_off t k' hnew _ hupd =>
      subst hupd
      by_cases e : t₁ = t
      · rw [e, Function.update_self] at h₁
        exact hnew (Option.some.inj h₁ ▸ hk)
      · rw [Function.update_of_ne e] at h₁
        exact hfree t₁ h₁
  | lands t hupd =>
      subst hupd
      by_cases e : t₁ = t
      · rw [e, Function.update_self] at h₁
        cases h₁
      · rw [Function.update_of_ne e] at h₁
        exact hfree t₁ h₁

/-- **One execution per key.** In a run whose steps are moves, and in which a step that meets `p` lands
    the key `k` and leaves it cached, at most one step meets `p`. -/
theorem tally_landings_le_one {step : σ → ι → σ} {flight : σ → τ → Option κ} {cached : σ → κ → Prop}
    {C : σ → ι → Prop} (k : κ) {p : σ → ι → Bool}
    (hmove : ∀ s i, C s i → Move (flight s) (flight (step s i)) (cached s) (cached (step s i)))
    (hland : ∀ s i, C s i → p s i = true → ∃ t, flight s t = some k ∧
      flight (step s i) = Function.update (flight s) t none ∧ cached (step s i) k)
    {s : σ} {is : List ι} (hs : Single (flight s)) (hC : Along step C s is) :
    tally step p s is ≤ 1 := by
  -- the latch: the key is cached, and no slot carries it
  have hstay : ∀ s i, Single (flight s) ∧ C s i →
      (cached s k ∧ ∀ t, flight s t ≠ some k) →
      cached (step s i) k ∧ ∀ t, flight (step s i) t ≠ some k := by
    rintro s i ⟨-, hi⟩ ⟨hk, hfree⟩
    exact ⟨(hmove s i hi).cache_grows hk, (hmove s i hi).grounded hk hfree⟩
  have hopen : ∀ s i, Single (flight s) ∧ C s i → p s i = true →
      ¬ (cached s k ∧ ∀ t, flight s t ≠ some k) := by
    rintro s i ⟨-, hi⟩ hp ⟨-, hfree⟩
    obtain ⟨t, ht, -⟩ := hland s i hi hp
    exact hfree t ht
  have hshut : ∀ s i, Single (flight s) ∧ C s i → p s i = true →
      cached (step s i) k ∧ ∀ t, flight (step s i) t ≠ some k := by
    rintro s i ⟨hsingle, hi⟩ hp
    obtain ⟨t, ht, hupd, hk⟩ := hland s i hi hp
    refine ⟨hk, fun t' ht' => ?_⟩
    rw [hupd] at ht'
    by_cases e : t' = t
    · rw [e, Function.update_self] at ht'
      cases ht'
    · rw [Function.update_of_ne e] at ht'
      exact e (hsingle t' t k ht' ht)
  have halong := hC.with_invariant (fun s i h hi => (hmove s i hi).single h) hs
  exact (tally_le_one_of_latch hstay hopen hshut halong).1

end SingleFlight

/-! ## Futures -/

inductive Futures.Cell (ρ : Type) where
  | waiting
  | done (result : ρ)
  | cancelled
  deriving DecidableEq

/-- The futures that were made, in order, and the notes of those that wait. -/
structure Futures (κ ρ : Type) where
  pending : List (κ × Nat)
  cells : List (Futures.Cell ρ)
  deriving DecidableEq

namespace Futures

variable {κ ρ : Type} [DecidableEq κ] (f g h : Futures κ ρ)

/-- A new future under a key; an older note of the key is overwritten. -/
def register (k : κ) : Nat × Futures κ ρ :=
  (f.cells.length,
    { pending := (k, f.cells.length) :: f.pending.filter (fun note => note.1 ≠ k), cells := f.cells ++ [.waiting] })

/-- Deliver a result under a key. -/
def submit (k : κ) (result : ρ) : Futures κ ρ :=
  match f.pending.lookup k with
  | none => f
  | some n =>
    { pending := f.pending.filter (fun note => note.1 ≠ k)
      cells :=
        match f.cells[n]? with
        | some .waiting => f.cells.set n (.done result)
        | some (.done _) => f.cells
        | some .cancelled => f.cells
        | none => f.cells }

def cancel (n : Nat) : Futures κ ρ := { f with cells := f.cells.set n .cancelled }

/-- What has been delivered stays. -/
def Keeps : Prop :=
  ∀ (n : Nat) (result : ρ), f.cells[n]? = some (.done result) → g.cells[n]? = some (.done result)

variable {f g h}

omit [DecidableEq κ] in
theorem Keeps.refl : f.Keeps f := fun _ _ h => h

omit [DecidableEq κ] in
theorem Keeps.trans (hfg : f.Keeps g) (hgh : g.Keeps h) : f.Keeps h := fun n result hd => hgh n result (hfg n result hd)

variable (f)

theorem register_keeps (k : κ) : f.Keeps (f.register k).2 := by
  intro n result hd
  have hlt : n < f.cells.length := (List.getElem?_eq_some_iff.mp hd).1
  show (f.cells ++ [.waiting])[n]? = _
  rw [List.getElem?_append_left hlt, hd]

theorem submit_keeps (k : κ) (r : ρ) : f.Keeps (f.submit k r) := by
  intro n result hd
  unfold submit
  split
  · exact hd
  · next m hm =>
    show (match f.cells[m]? with | some .waiting => _ | some (.done _) => _ | some .cancelled => _ | none => _)[n]? = _
    split
    · next hw =>
      -- the cell that is written was still waiting
      have hne : m ≠ n := by
        intro hmn
        rw [hmn, hd] at hw
        cases hw
      rw [List.getElem?_set_ne hne, hd]
    · exact hd
    · exact hd
    · exact hd

theorem register_submit (k : κ) (r : ρ) :
    ((f.register k).2.submit k r).cells[(f.register k).1]? = some (.done r) := by
  have hnote : (f.register k).2.pending.lookup k = some f.cells.length := by simp [register]
  have hcell : (f.register k).2.cells[f.cells.length]? = some .waiting := by simp [register]
  rw [submit, hnote]
  simp only [hcell]
  simp [register]

end Futures
