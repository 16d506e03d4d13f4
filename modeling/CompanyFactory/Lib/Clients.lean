import CompanyFactory.Lib.Run
import Mathlib.Logic.Function.Basic

/-!
# `Lib.Clients` — calls of several clients, cut into atomic sections

Every client runs one call at a time. What is left of a call is a value of `P`; `advance` runs its next atomic
section on the shared state and gives what is then left of it, if anything. Between two sections of one call any
sections of other calls can fall: a run is a list of labels, and every list is a run.

* `everywhere_iff` — **check, then act**: if a section keeps an invariant exactly when it meets `W`, the invariant
  holds everywhere in a run exactly if every section that is run meets `W` at that moment.
* `always_iff` — the same for a property of two states, such as "this value, once there, stays".
* `solo` — a call whose sections follow each other, with nothing between them, is the call as a whole.
-/

namespace Clients

open Machine

/-- The shared state, and what is left of the call of each client. -/
structure State (σ P : Type*) where
  shared : σ
  calls : Nat → Option P

inductive Label (P ε : Type*) where
  | start (client : Nat) (p : P)
  | go (client : Nat)
  /-- something else happens to the shared state -/
  | other (e : ε)

variable {σ P ε : Type*} (advance : σ → P → σ × Option P) (env : σ → ε → σ)

/-- A busy client cannot start a call, and an idle one has nothing to run. -/
def step (s : State σ P) : Label P ε → State σ P
  | .start client p =>
    match s.calls client with
    | some _ => s
    | none => { s with calls := Function.update s.calls client (some p) }
  | .go client =>
    match s.calls client with
    | none => s
    | some p =>
      { shared := (advance s.shared p).1, calls := Function.update s.calls client (advance s.shared p).2 }
  | .other e => { s with shared := env s.shared e }

/-- No call is going on. -/
def idle (shared : σ) : State σ P := { shared, calls := fun _ => none }

/-- The section that the label runs meets `W` in the shared state in which it is run. -/
def Runs (W : σ → P → Prop) (s : State σ P) : Label P ε → Prop
  | .go client => ∀ p, s.calls client = some p → W s.shared p
  | .start _ _ | .other _ => True

instance (W : σ → P → Prop) [∀ s p, Decidable (W s p)] (s : State σ P) (l : Label P ε) :
    Decidable (Runs W s l) :=
  match l with
  | .start _ _ | .other _ => isTrue trivial
  | .go client =>
    match h : s.calls client with
    | none => isTrue fun p hp => by simp [h] at hp
    | some p => decidable_of_iff (W s.shared p)
        ⟨fun hw q hq => Option.some.inj (h.symm.trans hq) ▸ hw, fun hall => hall p h⟩

variable {advance env}

@[simp] theorem start_shared (s : State σ P) (client : Nat) (p : P) :
    (step advance env s (.start client p)).shared = s.shared := by
  cases h : s.calls client <;> simp only [step, h]

theorem go_idle {s : State σ P} {client : Nat} (h : s.calls client = none) :
    step advance env s (.go client) = s := by
  simp only [step, h]

theorem go_busy {s : State σ P} {client : Nat} {p : P} (h : s.calls client = some p) :
    step advance env s (.go client) =
      { shared := (advance s.shared p).1, calls := Function.update s.calls client (advance s.shared p).2 } := by
  simp only [step, h]

/-! ## Check, then act -/

section Related

variable {R : σ → σ → Prop} {W : σ → P → Prop} (hrefl : ∀ a, R a a)
  (hsection : ∀ a p, W a p ↔ R a (advance a p).1) (henv : ∀ a e, R a (env a e))

include hrefl hsection henv

/-- One step moves the shared state along `R` exactly if the section it runs meets `W`. -/
theorem runs_iff (s : State σ P) (l : Label P ε) :
    Runs W s l ↔ R s.shared (step advance env s l).shared := by
  cases l with
  | start client p => simp [Runs, hrefl]
  | other e => simpa [Runs, step] using henv s.shared e
  | go client =>
      cases hp : s.calls client with
      | none => simp [Runs, hp, go_idle hp, hrefl]
      | some p =>
          rw [go_busy hp]
          simp only [Runs, hp, Option.some.injEq, forall_eq']
          exact hsection s.shared p

end Related

/-- **Once there, there for good.** What a relation says of the shared states of any two moments of a run follows
    from the single steps: it holds exactly if every section that is run meets `W`. -/
theorem always_iff {R : σ → σ → Prop} {W : σ → P → Prop} (hrefl : ∀ a, R a a)
    (htrans : ∀ a b c, R a b → R b c → R a c) (hsection : ∀ a p, W a p ↔ R a (advance a p).1)
    (henv : ∀ a e, R a (env a e)) (ls : List (Label P ε)) :
    ∀ s : State σ P, Along (step advance env) (Runs W) s ls ↔
      ∀ pre mid post, ls = pre ++ mid ++ post →
        R (exec (step advance env) s pre).shared (exec (step advance env) s (pre ++ mid)).shared := by
  intro s
  rw [along_iff_cut]
  constructor
  · intro hcut pre mid
    induction mid using List.reverseRecOn with
    | nil =>
        intro post _
        rw [List.append_nil]
        exact hrefl _
    | append_singleton mid l ih =>
        intro post heq
        have hearlier := ih (l :: post) (by rw [heq]; simp)
        have hlast := hcut (pre ++ mid) l post (by rw [heq]; simp)
        rw [runs_iff hrefl hsection henv] at hlast
        rw [← List.append_assoc, exec_snoc]
        exact htrans _ _ _ hearlier hlast
  · intro hall pre l post heq
    have hstep := hall pre [l] post (by rw [heq]; simp)
    rw [exec_snoc] at hstep
    exact (runs_iff hrefl hsection henv _ l).mpr hstep

/-- **Check, then act.** If a section keeps the invariant exactly when it meets `W`, the invariant holds in every
    state of a run exactly if every section that is run meets `W` at that moment. -/
theorem everywhere_iff {I : σ → Prop} {W : σ → P → Prop} (hsection : ∀ a p, I a → (W a p ↔ I (advance a p).1))
    (henv : ∀ a e, I a → I (env a e)) {s : State σ P} (hs : I s.shared) (ls : List (Label P ε)) :
    Along (step advance env) (Runs W) s ls ↔
      ∀ pre, pre <+: ls → I (exec (step advance env) s pre).shared := by
  have hiff : ∀ s : State σ P, ∀ l, I s.shared → (Runs W s l ↔ I (step advance env s l).shared) := by
    intro s l hs
    cases l with
    | start client p => simp [Runs, hs]
    | other e => simpa [Runs, step] using henv s.shared e hs
    | go client =>
        cases hp : s.calls client with
        | none => simp [Runs, hp, go_idle hp, hs]
        | some p =>
            rw [go_busy hp]
            simp only [Runs, hp, Option.some.injEq, forall_eq']
            exact hsection s.shared p hs
  exact along_iff_everywhere (D := fun _ => True) (I := fun s => I s.shared) (P := fun s => I s.shared)
    (fun _ h => h) (fun s l _ hs hrun => (hiff s l hs).mp hrun)
    (fun s l _ hs hno hkept => hno ((hiff s l hs).mpr hkept)) hs (fun _ _ => trivial)

/-! ## A client alone -/

/-- The sections of a call, one after the other: `n` of them lead from one shared state to the other. -/
inductive Whole (advance : σ → P → σ × Option P) : σ → P → Nat → σ → Prop where
  | last {a b : σ} {p : P} (h : advance a p = (b, none)) : Whole advance a p 1 b
  | more {a b c : σ} {p q : P} {n : Nat} (h : advance a p = (b, some q)) (hrest : Whole advance b q n c) :
      Whole advance a p (n + 1) c

/-- **Nothing between.** A call whose sections follow each other leaves what they leave, and the client idle. -/
theorem solo {a b : σ} {p : P} {n : Nat} (h : Whole advance a p n b) {s : State σ P} {client : Nat}
    (hs : s.shared = a) (hidle : s.calls client = none) :
    exec (step advance env) s (.start client p :: List.replicate n (.go client)) = { s with shared := b } := by
  have hgo : ∀ {a p n b}, Whole advance a p n b →
      exec (step advance env) { shared := a, calls := Function.update s.calls client (some p) }
        (List.replicate n (.go client)) = { s with shared := b } := by
    intro a p n b h
    induction h with
    | last h =>
        have hdone : Function.update s.calls client none = s.calls := by
          rw [← hidle, Function.update_eq_self]
        simp only [List.replicate_one, exec_cons, exec_nil, step, Function.update_self, h,
          Function.update_idem, hdone]
    | more h _ ih =>
        simp only [List.replicate_succ, exec_cons, step, Function.update_self, h, Function.update_idem]
        exact ih
  have hstart : step advance env s (.start client p) =
      { shared := a, calls := Function.update s.calls client (some p) } := by
    simp only [step, hidle, hs]
  rw [exec_cons, hstart]
  exact hgo h

end Clients
