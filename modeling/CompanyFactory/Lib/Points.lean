import CompanyFactory.Lib.Effect

/-!
# `Lib.Points` — programs that may raise at marked points

A program marks the places where it may raise with `call`. What goes wrong where is an input, `faults`; a program with no
fault on its way returns, and it raises at the first one otherwise.

`Passes faults s ps t m` says both of a program from the state `s`: `ps` are the points on its way, and `t` is the state
in which it ends if none of them raises. There is one rule for each construct, so that the points of a program are found
by going through its text.
-/

namespace Act

variable {σ ε α π : Type}

/-- The program may raise here. -/
def call (faults : π → Option ε) (p : π) : Act σ ε Unit := fun s =>
  match faults p with
  | none => (.ok (), s)
  | some e => (.error e, s)

/-- `for x in xs` -/
def each (m : α → Act σ ε Unit) : List α → Act σ ε Unit
  | [] => pure ()
  | x :: xs => do
    m x
    each m xs

/-- Nothing goes wrong at the points. -/
def Clear (faults : π → Option ε) (ps : List π) : Prop := ∀ p ∈ ps, faults p = none

/-- From `s`, the program passes the points `ps`: if they are clear it ends in `t`, and otherwise it raises. -/
structure Passes (faults : π → Option ε) (s : σ) (ps : List π) (t : σ) (m : Act σ ε Unit) : Prop where
  returns : Clear faults ps → m s = (.ok (), t)
  raises : ¬ Clear faults ps → ∃ e, (m s).1 = .error e

section Rules

variable {faults : π → Option ε} {s t u : σ} {ps qs : List π} {m k : Act σ ε Unit}

@[simp] theorem clear_nil : Clear faults [] := by
  intro p hp
  cases hp

@[simp] theorem clear_cons {p : π} : Clear faults (p :: ps) ↔ faults p = none ∧ Clear faults ps := List.forall_mem_cons

@[simp] theorem clear_append : Clear faults (ps ++ qs) ↔ Clear faults ps ∧ Clear faults qs := List.forall_mem_append

theorem not_clear_iff : ¬ Clear faults ps ↔ ∃ p ∈ ps, faults p ≠ none := by
  simp [Clear]

theorem Passes.call (p : π) : Passes faults s [p] s (Act.call faults p) where
  returns h := by
    rw [Act.call, h p List.mem_cons_self]
  raises h := by
    rw [Act.call]
    cases hp : faults p with
    | none => exact absurd (clear_cons.mpr ⟨hp, clear_nil⟩) h
    | some e => exact ⟨e, rfl⟩

theorem Passes.pure : Passes faults s [] s (Pure.pure ()) where
  returns _ := rfl
  raises h := absurd clear_nil h

theorem Passes.write (f : σ → σ) : Passes faults s [] (f s) (Act.write f) where
  returns _ := rfl
  raises h := absurd clear_nil h

theorem Passes.bind (hm : Passes faults s ps t m) (hk : Passes faults t qs u k) :
    Passes faults s (ps ++ qs) u (m >>= fun _ => k) where
  returns h := by
    obtain ⟨hps, hqs⟩ := clear_append.mp h
    rw [bind_of_ok (hm.returns hps)]
    exact hk.returns hqs
  raises h := by
    by_cases hps : Clear faults ps
    · -- the first part returns, so that the fault is in the second one
      rw [bind_of_ok (hm.returns hps)]
      exact hk.raises fun hqs => h (clear_append.mpr ⟨hps, hqs⟩)
    · obtain ⟨e, he⟩ := hm.raises hps
      exact ⟨e, congrArg Prod.fst (bind_of_error (f := fun _ => k) (Prod.ext he rfl))⟩

theorem Passes.read_bind {f : σ → α} {next : α → Act σ ε Unit} (h : Passes faults s ps t (next (f s))) :
    Passes faults s ps t (Act.read f >>= next) where
  returns := h.returns
  raises := h.raises

/-- A loop whose passages each go by the points `points x`. -/
theorem Passes.each {points : α → List π} {next : σ → α → σ} {body : α → Act σ ε Unit}
    (hbody : ∀ s x, Passes faults s (points x) (next s x) (body x)) (xs : List α) :
    ∀ s, Passes faults s (xs.flatMap points) (xs.foldl next s) (Act.each body xs) := by
  induction xs with
  | nil => exact fun s => .pure
  | cons x xs ih => exact fun s => (hbody s x).bind (ih (next s x))

/-- A list of points, one after the other. -/
theorem Passes.calls (faults : π → Option ε) (s : σ) (ps : List π) :
    Passes faults s ps s (Act.each (Act.call faults) ps) := by
  induction ps with
  | nil => exact .pure
  | cons p ps ih => exact (Passes.call p).bind ih

theorem Passes.ends (h : Passes faults s ps t m) (ht : t = u) : Passes faults s ps u m := ht ▸ h

theorem Passes.returns_iff (h : Passes faults s ps t m) : (m s).1 = .ok () ↔ Clear faults ps := by
  constructor
  · intro hok
    refine Classical.byContradiction fun hnot => ?_
    obtain ⟨e, he⟩ := h.raises hnot
    rw [he] at hok
    cases hok
  · exact fun hclear => congrArg Prod.fst (h.returns hclear)

/-- What a program that returns has passed. -/
theorem Passes.of_returns (h : Passes faults s ps t m) (hrun : m s = (.ok (), u)) : Clear faults ps ∧ u = t := by
  have hclear := h.returns_iff.mp (congrArg Prod.fst hrun)
  exact ⟨hclear, congrArg Prod.snd (hrun.symm.trans (h.returns hclear))⟩

end Rules

/-- A loop that only writes. -/
theorem each_write (f : α → σ → σ) (xs : List α) :
    ∀ s, (each (fun x => write (f x)) xs : Act σ ε Unit) s = (.ok (), xs.foldl (fun s x => f x s) s) := by
  induction xs with
  | nil => exact fun s => rfl
  | cons x xs ih => exact fun s => ih (f x s)

/-- A loop moves along `R` if its body does. -/
theorem Moves.each {R : σ → σ → Prop} (hrefl : ∀ s, R s s) (htrans : ∀ a b c, R a b → R b c → R a c)
    {body : α → Act σ ε Unit} (hbody : ∀ x, Moves R (body x)) (xs : List α) : Moves R (Act.each body xs) := by
  induction xs with
  | nil => exact .pure hrefl ()
  | cons x xs ih => exact .bind htrans (hbody x) fun _ => ih

theorem Moves.call {R : σ → σ → Prop} (hrefl : ∀ s, R s s) (faults : π → Option ε) (p : π) :
    Moves R (Act.call faults p) := by
  intro s
  rw [Act.call]
  split
  · exact hrefl s
  · exact hrefl s

end Act
