import Mathlib.Tactic.Basic

/-!
# `Lib.Effect` — computations over a state that may raise

`Act σ ε α` runs from a state and ends in a state, either with a result or with an exception. Raising
does **not** undo the writes made before it. `attempt` is the body of a `try` statement, and `on` runs a
computation on one part of a larger state.

Ways to reason:

* evaluate — `bind_run`, `pure_run`, … unfold a computation at a state;
* relate — `Moves R m` says that *whatever* `m` does, the final state is `R`-related to the initial one.
  For a reflexive and transitive `R` (a preserved value, an invariant, a log that only grows) one rule
  per construct suffices, and the outcome never has to be split;
* price — `Spends R n m` says that `m` moves the state along `R` at the price `n`; the prices of the parts add up;
* bound the exceptions — `Raises E m` says that whatever `m` raises is in `E`;
* return — `Total P Q m` says that from a state in `P` the computation returns, with a result in `Q`, and
  ends in `P`.
-/

/-- A computation over the state `σ` that may raise an `ε`. -/
def Act (σ ε α : Type) : Type := σ → Except ε α × σ

namespace Act

variable {σ τ ε α β : Type}

/-- Run the computation from a state. -/
def run (m : Act σ ε α) (s : σ) : Except ε α × σ := m s

/-- What the computation returns or raises. -/
def result (m : Act σ ε α) (s : σ) : Except ε α := (m s).1

/-- The state it leaves. -/
def after (m : Act σ ε α) (s : σ) : σ := (m s).2

/-- Did the computation return? -/
def returns (m : Act σ ε α) (s : σ) : Bool := (m s).1.isOk

instance : Monad (Act σ ε) where
  pure a := fun s => (.ok a, s)
  bind m f := fun s =>
    match m s with
    | (.ok a, s') => f a s'
    | (.error e, s') => (.error e, s')

/-- Raise an exception; the state is kept. -/
def raise (e : ε) : Act σ ε α := fun s => (.error e, s)

/-- Read the state. -/
def read (f : σ → α) : Act σ ε α := fun s => (.ok (f s), s)

/-- Write the state. -/
def write (f : σ → σ) : Act σ ε Unit := fun s => (.ok (), f s)

/-- Lift a pure computation that may fail. -/
def ofExcept (r : Except ε α) : Act σ ε α := fun s => (r, s)

/-- The body of a `try` statement: an exception becomes a value, the writes made before it stay. -/
def attempt (m : Act σ ε α) : Act σ ε (Except ε α) := fun s => (.ok (m s).1, (m s).2)

/-- Run a computation on the part of a larger state that `get` and `put` select. -/
def on (get : τ → σ) (put : σ → τ → τ) (m : Act σ ε α) : Act τ ε α := fun t =>
  ((m (get t)).1, put (m (get t)).2 t)

/-! ## Evaluation -/

theorem bind_run (m : Act σ ε α) (f : α → Act σ ε β) (s : σ) :
    (m >>= f) s = match m s with
      | (.ok a, s') => f a s'
      | (.error e, s') => (.error e, s') := rfl

theorem bind_of_ok {m : Act σ ε α} {f : α → Act σ ε β} {s s' : σ} {a : α}
    (h : m s = (.ok a, s')) : (m >>= f) s = f a s' := by rw [bind_run, h]

theorem bind_of_error {m : Act σ ε α} {f : α → Act σ ε β} {s s' : σ} {e : ε}
    (h : m s = (.error e, s')) : (m >>= f) s = (.error e, s') := by rw [bind_run, h]

/-- A sequence that returns: both parts do. -/
theorem bind_eq_ok {m : Act σ ε α} {f : α → Act σ ε β} {s t : σ} {b : β} :
    (m >>= f) s = (.ok b, t) ↔ ∃ a u, m s = (.ok a, u) ∧ f a u = (.ok b, t) := by
  rw [bind_run]
  rcases m s with ⟨e | a, u⟩
  · simp
  · constructor
    · intro h
      exact ⟨a, u, rfl, h⟩
    · rintro ⟨a', u', heq, h⟩
      cases heq
      exact h

/-- Where a sequence ends: after its first part if that raises, and after its second part otherwise. -/
theorem bind_after {P : σ → Prop} {m : Act σ ε α} {f : α → Act σ ε β} {s : σ} (hm : P (m s).2)
    (hf : ∀ a t, m s = (.ok a, t) → P (f a t).2) : P ((m >>= f) s).2 := by
  rw [bind_run]
  rcases hms : m s with ⟨_ | a, t⟩
  · rwa [hms] at hm
  · exact hf a t hms

/-- A sequence whose last part never returns `b` does not return it. -/
theorem bind_ne_ok {m : Act σ ε α} {f : α → Act σ ε β} {s : σ} {b : β}
    (hf : ∀ a t, (f a t).1 ≠ .ok b) : ((m >>= f) s).1 ≠ .ok b := by
  intro h
  obtain ⟨a, u, -, hfa⟩ := bind_eq_ok.mp (Prod.ext h rfl)
  exact hf a u (congrArg Prod.fst hfa)

@[simp] theorem pure_run (a : α) (s : σ) : (pure a : Act σ ε α) s = (.ok a, s) := rfl

@[simp] theorem raise_run (e : ε) (s : σ) : (raise e : Act σ ε α) s = (.error e, s) := rfl

@[simp] theorem read_run (f : σ → α) (s : σ) : (read f : Act σ ε α) s = (.ok (f s), s) := rfl

@[simp] theorem write_run (f : σ → σ) (s : σ) : (write f : Act σ ε Unit) s = (.ok (), f s) := rfl

@[simp] theorem ofExcept_run (r : Except ε α) (s : σ) : (ofExcept r : Act σ ε α) s = (r, s) := rfl

@[simp] theorem attempt_run (m : Act σ ε α) (s : σ) : attempt m s = (.ok (m s).1, (m s).2) := rfl

theorem attempt_bind (m : Act σ ε α) (k : Except ε α → Act σ ε β) (s : σ) :
    (attempt m >>= k) s = k (m s).1 (m s).2 := rfl

/-- Renaming the result leaves the final state as it is. -/
theorem bind_pure_state (m : Act σ ε α) (f : α → β) (s : σ) :
    ((do let a ← m; pure (f a) : Act σ ε β) s).2 = (m s).2 := by
  rw [bind_run]
  rcases m s with ⟨_ | _, _⟩ <;> rfl

@[simp] theorem on_run (get : τ → σ) (put : σ → τ → τ) (m : Act σ ε α) (t : τ) :
    on get put m t = ((m (get t)).1, put (m (get t)).2 t) := rfl

@[simp] theorem read_bind (f : σ → α) (k : α → Act σ ε β) (s : σ) :
    (read f >>= k) s = k (f s) s := rfl

@[simp] theorem write_bind (f : σ → σ) (k : Unit → Act σ ε β) (s : σ) :
    (write f >>= k) s = k () (f s) := rfl

@[simp] theorem pure_bind_run (a : α) (k : α → Act σ ε β) (s : σ) :
    ((pure a : Act σ ε α) >>= k) s = k a s := rfl

@[simp] theorem raise_bind (e : ε) (k : α → Act σ ε β) (s : σ) :
    ((raise e : Act σ ε α) >>= k) s = (.error e, s) := rfl

theorem ofExcept_ok_bind (a : α) (k : α → Act σ ε β) :
    ((ofExcept (.ok a) : Act σ ε α) >>= k) = k a := rfl

/-- A sequence of pure steps that returns: both parts do. -/
theorem except_bind_eq_ok {x : Except ε α} {f : α → Except ε β} {b : β} :
    (x >>= f) = .ok b ↔ ∃ a, x = .ok a ∧ f a = .ok b := by
  cases x with
  | error e =>
      constructor
      · intro h
        cases h
      · rintro ⟨a, ha, -⟩
        cases ha
  | ok a =>
      constructor
      · intro h
        exact ⟨a, rfl, h⟩
      · rintro ⟨a', ha, h⟩
        cases ha
        exact h

/-! ## Relating the final state to the initial one -/

/-- Whatever the computation does, it moves the state along `R`. -/
def Moves (R : σ → σ → Prop) (m : Act σ ε α) : Prop := ∀ s, R s (m s).2

section Rules

variable {R : σ → σ → Prop}

theorem Moves.pure (hR : ∀ s, R s s) (a : α) : Moves (ε := ε) R (Pure.pure a) := fun s => hR s

theorem Moves.raise (hR : ∀ s, R s s) (e : ε) : Moves (α := α) R (Act.raise e) := fun s => hR s

theorem Moves.read (hR : ∀ s, R s s) (f : σ → α) : Moves (ε := ε) R (Act.read f) := fun s => hR s

theorem Moves.ofExcept (hR : ∀ s, R s s) (r : Except ε α) : Moves R (Act.ofExcept r) :=
  fun s => hR s

theorem Moves.write {f : σ → σ} (hf : ∀ s, R s (f s)) : Moves (ε := ε) R (Act.write f) := hf

theorem Moves.bind (hR : ∀ a b c, R a b → R b c → R a c) {m : Act σ ε α} {f : α → Act σ ε β}
    (hm : Moves R m) (hf : ∀ a, Moves R (f a)) : Moves R (m >>= f) := by
  intro s
  have h := hm s
  rw [bind_run]
  rcases hms : m s with ⟨r, s'⟩
  rw [hms] at h
  cases r with
  | ok a => exact hR _ _ _ h (hf a s')
  | error e => exact h

theorem Moves.ite {c : Prop} [Decidable c] {m k : Act σ ε α} (hm : Moves R m) (hk : Moves R k) :
    Moves R (if c then m else k) := by
  split
  · exact hm
  · exact hk

theorem Moves.attempt {m : Act σ ε α} (hm : Moves R m) : Moves R (Act.attempt m) := hm

end Rules

/-! ## What a computation spends -/

/-- A relation with a price: to do nothing is free, and prices add up. -/
structure Priced (R : Nat → σ → σ → Prop) : Prop where
  refl : ∀ s, R 0 s s
  trans : ∀ {m n : Nat} {a b c : σ}, R m a b → R n b c → R (m + n) a c
  mono : ∀ {m n : Nat} {a b : σ}, m ≤ n → R m a b → R n a b

/-- Whatever the computation does, it moves the state along `R` at the price. -/
def Spends (R : Nat → σ → σ → Prop) (n : Nat) (m : Act σ ε α) : Prop := ∀ s, R n s (m s).2

section SpendsRules

variable {R : Nat → σ → σ → Prop} {n k : Nat}

/-- A part of a state has its own prices. -/
theorem Priced.comap (hR : Priced R) (f : τ → σ) : Priced fun n s t => R n (f s) (f t) where
  refl s := hR.refl (f s)
  trans := hR.trans
  mono := hR.mono

theorem Spends.pure (hR : Priced R) (a : α) : Spends (ε := ε) R n (Pure.pure a) :=
  fun s => hR.mono (Nat.zero_le n) (hR.refl s)

theorem Spends.raise (hR : Priced R) (e : ε) : Spends (α := α) R n (Act.raise e) :=
  fun s => hR.mono (Nat.zero_le n) (hR.refl s)

theorem Spends.bind (hR : Priced R) {m : Act σ ε α} {f : α → Act σ ε β} (hm : Spends R n m)
    (hf : ∀ a, Spends R k (f a)) : Spends R (n + k) (m >>= f) := by
  intro s
  have h := hm s
  rw [bind_run]
  rcases hms : m s with ⟨e | a, t⟩
  · rw [hms] at h
    exact hR.mono (Nat.le_add_right n k) h
  · rw [hms] at h
    exact hR.trans h (hf a t)

/-- After what is free, the price is that of the rest. -/
theorem Spends.after_free (hR : Priced R) {m : Act σ ε α} {f : α → Act σ ε β} (hm : Spends R 0 m)
    (hf : ∀ a, Spends R n (f a)) : Spends R n (m >>= f) := by
  have h := hm.bind hR hf
  rwa [Nat.zero_add] at h

/-- What is free may follow. -/
theorem Spends.before_free (hR : Priced R) {m : Act σ ε α} {f : α → Act σ ε β} (hm : Spends R n m)
    (hf : ∀ a, Spends R 0 (f a)) : Spends R n (m >>= f) := hm.bind hR hf

theorem Spends.attempt {m : Act σ ε α} (hm : Spends R n m) : Spends R n (Act.attempt m) := hm

theorem Spends.ite {c : Prop} [Decidable c] {m m' : Act σ ε α} (hm : Spends R n m) (hm' : Spends R n m') :
    Spends R n (if c then m else m') := by
  split
  · exact hm
  · exact hm'

end SpendsRules

/-! ## What holds in the final state -/

/-- Whatever the computation does, `P` holds where it ends. -/
def Ends (P : σ → Prop) (m : Act σ ε α) : Prop := ∀ s, P (m s).2

/-- What the first part establishes, the second part only has to keep. -/
theorem Ends.bind {P : σ → Prop} {m : Act σ ε α} {f : α → Act σ ε β} (hm : Ends P m)
    (hf : ∀ a, Moves (fun s t => P s → P t) (f a)) : Ends P (m >>= f) := by
  intro s
  have h := hm s
  rw [bind_run]
  rcases hms : m s with ⟨r, s'⟩
  rw [hms] at h
  cases r with
  | ok a => exact hf a s' h
  | error e => exact h

/-! ## What is raised -/

/-- Whatever the computation raises is in `E`. -/
def Raises (E : ε → Prop) (m : Act σ ε α) : Prop := ∀ s e, (m s).1 = .error e → E e

section RaisesRules

variable {E : ε → Prop}

theorem Raises.pure (a : α) : Raises E (Pure.pure a : Act σ ε α) := by
  intro s e h
  cases h

theorem Raises.write (f : σ → σ) : Raises E (Act.write f) := by
  intro s e h
  cases h

theorem Raises.bind {m : Act σ ε α} {f : α → Act σ ε β} (hm : Raises E m)
    (hf : ∀ a, Raises E (f a)) : Raises E (m >>= f) := by
  intro s e h
  rw [bind_run] at h
  rcases hms : m s with ⟨r, s'⟩
  rw [hms] at h
  cases r with
  | ok a => exact hf a s' e h
  | error e' =>
      cases h
      exact hm s _ (congrArg Prod.fst hms)

theorem Raises.ite {c : Prop} [Decidable c] {m k : Act σ ε α} (hm : Raises E m) (hk : Raises E k) :
    Raises E (if c then m else k) := by
  split
  · exact hm
  · exact hk

theorem Raises.on {get : τ → σ} {put : σ → τ → τ} {m : Act σ ε α} (hm : Raises E m) :
    Raises E (Act.on get put m) := fun t e h => hm (get t) e h

end RaisesRules

/-! ## Total correctness -/

/-- From a state in `P` the computation returns, with a result in `Q`, and ends in `P`. -/
def Total (P : σ → Prop) (Q : α → Prop) (m : Act σ ε α) : Prop :=
  ∀ s, P s → ∃ a t, m s = (.ok a, t) ∧ Q a ∧ P t

section TotalRules

variable {P : σ → Prop} {Q : α → Prop} {Q' : β → Prop}

theorem Total.pure {a : α} (ha : Q a) : Total P Q (Pure.pure a : Act σ ε α) :=
  fun s hs => ⟨a, s, rfl, ha, hs⟩

theorem Total.write {f : σ → σ} {Q : Unit → Prop} (hf : ∀ s, P s → P (f s)) (hQ : Q ()) :
    Total (ε := ε) P Q (Act.write f) := fun s hs => ⟨(), f s, rfl, hQ, hf s hs⟩

theorem Total.bind {m : Act σ ε α} {f : α → Act σ ε β} (hm : Total P Q m)
    (hf : ∀ a, Q a → Total P Q' (f a)) : Total P Q' (m >>= f) := by
  intro s hs
  obtain ⟨a, t, hrun, ha, ht⟩ := hm s hs
  obtain ⟨b, u, hrun', hb, hu⟩ := hf a ha t ht
  exact ⟨b, u, by rw [bind_of_ok hrun, hrun'], hb, hu⟩

theorem Total.ite {c : Prop} [Decidable c] {m k : Act σ ε α} (hm : c → Total P Q m)
    (hk : ¬ c → Total P Q k) : Total P Q (if c then m else k) := by
  split
  · exact hm ‹_›
  · exact hk ‹_›

/-- A `try` statement whose body keeps `P` and raises nothing but what is in `E`. -/
theorem Total.attempt {E : ε → Prop} {m : Act σ ε α} (hm : Moves (fun s t => P s → P t) m)
    (hE : Raises E m) : Total P (fun r => ∀ e, r = .error e → E e) (Act.attempt m) :=
  fun s hs => ⟨(m s).1, (m s).2, rfl, fun e he => hE s e he, hm s hs⟩

end TotalRules

end Act
