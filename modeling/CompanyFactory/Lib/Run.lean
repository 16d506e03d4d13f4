import Mathlib.Data.List.Induction

/-!
# `Lib.Run` — runs of a step function

A system is a total function `step : σ → ι → σ`: a label that is not enabled in a state leaves it
unchanged, so *every* list of labels is a run and an arbitrary list is an arbitrary interleaving. The
module has the few rules every safety argument uses:

* **invariants** — `exec_invariant`, and `exec_invariant_along` for invariants that only the steps
  meeting a condition preserve; `exec_comes_to_rest` for a measure that steps can lower;
* **history** — `Happens` / `HappensThen` speak of the steps taken before a state is reached, with one
  rule each for extending a run by a step at its end;
* **counting** — `tally` counts the steps of a kind; `tally_le_one_of_latch` is the at-most-once rule, and
  `tally_eq_iff` says when a counter misses none of them;
* **outputs** — `output` is what the steps of a run put out. A part of the state may follow it (`output_foldl`), and two
  machines whose states are related, step for step, put out the same (`output_of_simulates`);
* **trails** — `Trail` is a log of changes in which each one starts where the one before it has finished.
-/

namespace Machine

variable {σ ι : Type*} {step : σ → ι → σ}

/-- The state in which a run ends. -/
def exec (step : σ → ι → σ) (s : σ) (is : List ι) : σ := is.foldl step s

/-- Every step of the run meets `C` in the state in which it is taken. -/
def Along (step : σ → ι → σ) (C : σ → ι → Prop) : σ → List ι → Prop
  | _, [] => True
  | s, i :: is => C s i ∧ Along step C (step s i) is

@[simp] theorem exec_nil (s : σ) : exec step s [] = s := rfl

@[simp] theorem exec_cons (s : σ) (i : ι) (is : List ι) :
    exec step s (i :: is) = exec step (step s i) is := rfl

theorem exec_append (s : σ) (is js : List ι) :
    exec step s (is ++ js) = exec step (exec step s is) js := List.foldl_append

theorem exec_snoc (s : σ) (is : List ι) (i : ι) :
    exec step s (is ++ [i]) = step (exec step s is) i := by
  rw [exec_append]; rfl

@[simp] theorem along_nil {C : σ → ι → Prop} (s : σ) : Along step C s [] := trivial

@[simp] theorem along_cons {C : σ → ι → Prop} (s : σ) (i : ι) (is : List ι) :
    Along step C s (i :: is) ↔ C s i ∧ Along step C (step s i) is := Iff.rfl

theorem along_append {C : σ → ι → Prop} (is js : List ι) :
    ∀ s, Along step C s (is ++ js) ↔ Along step C s is ∧ Along step C (exec step s is) js := by
  induction is with
  | nil => intro s; simp
  | cons i is ih => intro s; simp [ih, and_assoc]

theorem along_snoc {C : σ → ι → Prop} {s : σ} {is : List ι} {i : ι} :
    Along step C s (is ++ [i]) ↔ Along step C s is ∧ C (exec step s is) i := by
  simp [along_append]

theorem along_of_forall {C : σ → ι → Prop} (hC : ∀ s i, C s i) (is : List ι) :
    ∀ {s}, Along step C s is := by
  induction is with
  | nil => intro s; trivial
  | cons i is ih => intro s; exact ⟨hC s i, ih⟩

theorem along_of_mem {D : ι → Prop} {is : List ι} (hD : ∀ i ∈ is, D i) {s : σ} : Along step (fun _ => D) s is := by
  induction is generalizing s with
  | nil => trivial
  | cons i is ih => exact ⟨hD i List.mem_cons_self, ih fun j hj => hD j (List.mem_cons_of_mem _ hj)⟩

/-- Along a run: at every place where it can be cut. -/
theorem along_iff_cut {C : σ → ι → Prop} {is : List ι} :
    ∀ {s}, Along step C s is ↔ ∀ pre i post, is = pre ++ i :: post → C (exec step s pre) i := by
  induction is with
  | nil =>
      intro s
      refine ⟨fun _ pre i post heq => ?_, fun _ => trivial⟩
      exact absurd heq.symm (List.append_ne_nil_of_right_ne_nil pre (List.cons_ne_nil i post))
  | cons j is ih =>
      intro s
      constructor
      · rintro ⟨hC, halong⟩ pre i post heq
        cases pre with
        | nil =>
            obtain ⟨rfl, -⟩ := List.cons.inj heq
            exact hC
        | cons k pre =>
            obtain ⟨rfl, hrest⟩ := List.cons.inj heq
            exact ih.mp halong pre i post hrest
      · intro hall
        refine ⟨hall [] j is rfl, ih.mpr fun pre i post heq => ?_⟩
        exact hall (j :: pre) i post (congrArg (j :: ·) heq)

/-- Whether a run meets a condition can be computed if it can be for a step. -/
def decideAlong {C : σ → ι → Prop} [∀ s i, Decidable (C s i)] : ∀ s is, Decidable (Along step C s is)
  | _, [] => isTrue trivial
  | s, i :: is => @instDecidableAnd _ _ _ (decideAlong (step s i) is)

instance {C : σ → ι → Prop} [∀ s i, Decidable (C s i)] (s : σ) (is : List ι) : Decidable (Along step C s is) :=
  decideAlong s is

/-! ## Invariants -/

/-- An invariant preserved by the steps that meet `C` holds at the end of every run of such steps. -/
theorem exec_invariant_along {C : σ → ι → Prop} {Inv : σ → Prop}
    (hstep : ∀ s i, Inv s → C s i → Inv (step s i)) {is : List ι} :
    ∀ {s}, Inv s → Along step C s is → Inv (exec step s is) := by
  induction is with
  | nil => intro s hs _; exact hs
  | cons i is ih => intro s hs hC; exact ih (hstep s i hs hC.1) hC.2

theorem exec_invariant {Inv : σ → Prop} (hstep : ∀ s i, Inv s → Inv (step s i))
    {s : σ} (hs : Inv s) (is : List ι) : Inv (exec step s is) := by
  induction is generalizing s with
  | nil => exact hs
  | cons i is ih => exact ih (hstep s i hs)

/-- Along a run that keeps an invariant, the condition may assume it. -/
theorem Along.with_invariant {C : σ → ι → Prop} {Inv : σ → Prop}
    (hstep : ∀ s i, Inv s → C s i → Inv (step s i)) {is : List ι} :
    ∀ {s}, Inv s → Along step C s is → Along step (fun s i => Inv s ∧ C s i) s is := by
  induction is with
  | nil => intro s _ _; trivial
  | cons i is ih => intro s hs hC; exact ⟨⟨hs, hC.1⟩, ih (hstep s i hs hC.1) hC.2⟩

/-- A run that meets two conditions. -/
theorem along_and {C D : σ → ι → Prop} {is : List ι} :
    ∀ {s}, Along step C s is → Along step D s is → Along step (fun s i => C s i ∧ D s i) s is := by
  induction is with
  | nil => intro s _ _; trivial
  | cons i is ih => intro s hC hD; exact ⟨⟨hC.1, hD.1⟩, ih hC.2 hD.2⟩

/-- **Exactly these runs.** Among runs of steps in `D`: if the steps that meet `C` keep the invariant, and the
    others break `P` at once, then `P` holds in every state of a run exactly if all its steps meet `C`. -/
theorem along_iff_everywhere {C : σ → ι → Prop} {D : ι → Prop} {I P : σ → Prop}
    (hP : ∀ s, I s → P s) (hstep : ∀ s i, D i → I s → C s i → I (step s i))
    (hbreak : ∀ s i, D i → I s → ¬ C s i → ¬ P (step s i)) {is : List ι} :
    ∀ {s}, I s → (∀ i ∈ is, D i) →
      (Along step C s is ↔ ∀ pre, pre <+: is → P (exec step s pre)) := by
  induction is with
  | nil =>
      intro s hs _
      refine ⟨fun _ pre hpre => ?_, fun _ => trivial⟩
      obtain rfl := List.prefix_nil.mp hpre
      exact hP s hs
  | cons i is ih =>
      intro s hs hD
      have hi := hD i List.mem_cons_self
      have hrest := fun j hj => hD j (List.mem_cons_of_mem _ hj)
      constructor
      · rintro ⟨hC, halong⟩ pre hpre
        obtain rfl | ⟨pre, rfl, hsub⟩ := List.prefix_cons_iff.mp hpre
        · exact hP s hs
        · exact (ih (hstep s i hi hs hC) hrest).mp halong pre hsub
      · intro hall
        have hC : C s i := by
          by_contra hno
          exact hbreak s i hi hs hno (hall [i] (by simp))
        refine ⟨hC, (ih (hstep s i hi hs hC) hrest).mpr fun pre hpre => ?_⟩
        exact hall (i :: pre) (List.cons_prefix_cons.mpr ⟨rfl, hpre⟩)

/-- **Two conditions that come to the same.** Along runs of steps in `F`, two conditions that agree in the states of
    an invariant agree along the run, if the invariant is kept by the steps that meet the first one. -/
theorem along_iff_along {F C D : σ → ι → Prop} {I : σ → Prop}
    (hstep : ∀ s i, I s → F s i → C s i → I (step s i)) (hiff : ∀ s i, I s → F s i → (C s i ↔ D s i))
    {is : List ι} :
    ∀ {s}, I s → Along step F s is → (Along step C s is ↔ Along step D s is) := by
  induction is with
  | nil => intro s _ _; exact Iff.rfl
  | cons i is ih =>
      intro s hs hF
      rw [along_cons, along_cons, ← hiff s i hs hF.1]
      exact and_congr_right fun hC => ih (hstep s i hs hF.1 hC) hF.2

/-- **Coming to rest.** If some step that meets `C` lowers a measure in every state that is not at rest,
    then a run of such steps comes to rest. -/
theorem exec_comes_to_rest {C : σ → ι → Prop} {Rest : σ → Prop} (measure : σ → Nat)
    (hstep : ∀ s, ¬ Rest s → ∃ i, C s i ∧ measure (step s i) < measure s) (s : σ) :
    ∃ is, Along step C s is ∧ Rest (exec step s is) := by
  induction hm : measure s using Nat.strongRecOn generalizing s with
  | ind m ih =>
      by_cases hrest : Rest s
      · exact ⟨[], trivial, hrest⟩
      · obtain ⟨i, hC, hlt⟩ := hstep s hrest
        obtain ⟨is, halong, hend⟩ := ih _ (hm ▸ hlt) (step s i) rfl
        exact ⟨i :: is, ⟨hC, halong⟩, hend⟩

/-! ## History -/

/-- Some step of the run met `p` in the state in which it was taken. -/
def Happens (step : σ → ι → σ) (p : σ → ι → Prop) (s : σ) (is : List ι) : Prop :=
  ∃ pre i post, is = pre ++ i :: post ∧ p (exec step s pre) i

/-- Some step of the run met `p`, and a later one met `q`. -/
def HappensThen (step : σ → ι → σ) (p q : σ → ι → Prop) (s : σ) (is : List ι) : Prop :=
  ∃ pre i post, is = pre ++ i :: post ∧ Happens step p s pre ∧ q (exec step s pre) i

theorem Happens.exists {p : σ → ι → Prop} {s : σ} {is : List ι} (h : Happens step p s is) :
    ∃ t, ∃ i ∈ is, p t i := by
  obtain ⟨pre, i, post, rfl, hp⟩ := h
  exact ⟨exec step s pre, i, by simp, hp⟩

theorem HappensThen.exists {p q : σ → ι → Prop} {s : σ} {is : List ι}
    (h : HappensThen step p q s is) : (∃ t, ∃ i ∈ is, p t i) ∧ ∃ t, ∃ i ∈ is, q t i := by
  obtain ⟨pre, i, post, rfl, hp, hq⟩ := h
  obtain ⟨t, j, hj, hpj⟩ := hp.exists
  exact ⟨⟨t, j, by simp [hj], hpj⟩, exec step s pre, i, by simp, hq⟩

theorem Happens.append {p : σ → ι → Prop} {s : σ} {is : List ι} (h : Happens step p s is)
    (js : List ι) : Happens step p s (is ++ js) := by
  obtain ⟨pre, i, post, rfl, hp⟩ := h
  exact ⟨pre, i, post ++ js, by simp, hp⟩

theorem Happens.last {p : σ → ι → Prop} {s : σ} {is : List ι} {i : ι}
    (h : p (exec step s is) i) : Happens step p s (is ++ [i]) := ⟨is, i, [], by simp, h⟩

theorem HappensThen.append {p q : σ → ι → Prop} {s : σ} {is : List ι}
    (h : HappensThen step p q s is) (js : List ι) : HappensThen step p q s (is ++ js) := by
  obtain ⟨pre, i, post, rfl, hp, hq⟩ := h
  exact ⟨pre, i, post ++ js, by simp, hp, hq⟩

theorem HappensThen.last {p q : σ → ι → Prop} {s : σ} {is : List ι} {i : ι}
    (hp : Happens step p s is) (hq : q (exec step s is) i) :
    HappensThen step p q s (is ++ [i]) := ⟨is, i, [], by simp, hp, hq⟩

/-- An invariant of the state and the run that led to it. -/
theorem exec_history {C : σ → ι → Prop} {I : List ι → σ → Prop} {s : σ} (h0 : I [] s)
    (hstep : ∀ is i, I is (exec step s is) → C (exec step s is) i →
      I (is ++ [i]) (step (exec step s is) i)) (is : List ι) :
    Along step C s is → I is (exec step s is) := by
  induction is using List.reverseRecOn with
  | nil => exact fun _ => h0
  | append_singleton is i ih =>
      intro hC
      obtain ⟨his, hi⟩ := along_snoc.mp hC
      rw [exec_snoc]
      exact hstep is i (ih his) hi

/-! ## Counting -/

/-- How many steps of the run meet `p` in the state in which they are taken. -/
def tally (step : σ → ι → σ) (p : σ → ι → Bool) : σ → List ι → Nat
  | _, [] => 0
  | s, i :: is => (p s i).toNat + tally step p (step s i) is

/-- A counter that grows exactly at the steps meeting `p` is the tally. -/
theorem tally_add {p : σ → ι → Bool} {f : σ → Nat} {C : σ → ι → Prop} {Inv : σ → Prop}
    (hInv : ∀ s i, Inv s → C s i → Inv (step s i))
    (hf : ∀ s i, Inv s → C s i → f (step s i) = f s + (p s i).toNat) {is : List ι} :
    ∀ {s}, Inv s → Along step C s is → f (exec step s is) = f s + tally step p s is := by
  induction is with
  | nil => intro s _ _; rfl
  | cons i is ih =>
      intro s hs hC
      rw [exec_cons, ih (hInv s i hs hC.1) hC.2, hf s i hs hC.1, tally, Nat.add_assoc]

theorem tally_mono {p q : σ → ι → Bool} {C : σ → ι → Prop}
    (hpq : ∀ s i, C s i → p s i = true → q s i = true) {is : List ι} :
    ∀ {s}, Along step C s is → tally step p s is ≤ tally step q s is := by
  induction is with
  | nil => intro s _; exact Nat.le_refl _
  | cons i is ih =>
      intro s hC
      have hle := ih hC.2
      rw [tally, tally]
      cases hp : p s i with
      | false => simp only [Bool.toNat_false]; omega
      | true => rw [hpq s i hC.1 hp]; omega

/-- Counting fewer steps gives the same number exactly if none of them is left out. -/
theorem tally_and_eq_iff {p q : σ → ι → Bool} {is : List ι} :
    ∀ {s}, tally step (fun s i => p s i && q s i) s is = tally step p s is ↔
      Along step (fun s i => p s i = true → q s i = true) s is := by
  induction is with
  | nil =>
      intro s
      exact iff_of_true rfl trivial
  | cons i is ih =>
      intro s
      have hle : tally step (fun s i => p s i && q s i) (step s i) is ≤ tally step p (step s i) is :=
        tally_mono (C := fun _ _ => True) (fun _ _ _ h => (Bool.and_eq_true_iff.mp h).1)
          (along_of_forall (fun _ _ => trivial) is)
      rw [along_cons, ← ih, tally, tally]
      cases p s i <;> cases q s i <;> simp
      omega

/-- **A counter that lags.** A counter that grows exactly at those steps meeting `p` that also meet `q` is the
    tally of `p` exactly if every step meeting `p` meets `q`. -/
theorem tally_eq_iff {p q : σ → ι → Bool} {f : σ → Nat} {Inv : σ → Prop}
    (hInv : ∀ s i, Inv s → Inv (step s i))
    (hf : ∀ s i, Inv s → f (step s i) = f s + (p s i && q s i).toNat) {s : σ} (hs : Inv s) (is : List ι) :
    f (exec step s is) = f s + tally step p s is ↔
      Along step (fun s i => p s i = true → q s i = true) s is := by
  have hcount : f (exec step s is) = f s + tally step (fun s i => p s i && q s i) s is :=
    tally_add (C := fun _ _ => True) (fun s i h _ => hInv s i h) (fun s i h _ => hf s i h) hs
      (along_of_forall (fun _ _ => trivial) is)
  rw [hcount, Nat.add_left_cancel_iff]
  exact tally_and_eq_iff

/-- **At most once.** A kind of step that is taken only while a latch is open, and that shuts it for
    good, is taken at most once. -/
theorem tally_le_one_of_latch {p : σ → ι → Bool} {shut : σ → Prop} {C : σ → ι → Prop}
    (hstay : ∀ s i, C s i → shut s → shut (step s i))
    (hopen : ∀ s i, C s i → p s i = true → ¬ shut s)
    (hshut : ∀ s i, C s i → p s i = true → shut (step s i)) {is : List ι} :
    ∀ {s}, Along step C s is → tally step p s is ≤ 1 ∧ (shut s → tally step p s is = 0) := by
  induction is with
  | nil => intro s _; simp [tally]
  | cons i is ih =>
      intro s hC
      obtain ⟨hle, hzero⟩ := ih hC.2
      cases hp : p s i with
      | false =>
          refine ⟨by simpa [tally, hp] using hle, fun hs => ?_⟩
          simpa [tally, hp] using hzero (hstay s i hC.1 hs)
      | true =>
          have hz := hzero (hshut s i hC.1 hp)
          exact ⟨by simp [tally, hp, hz], fun hs => absurd hs (hopen s i hC.1 hp)⟩

/-! ## Outputs -/

section Outputs

variable {τ β : Type*}

/-- What the steps of a run put out, one after the other. -/
def output (step : σ → ι → σ) (out : σ → ι → List β) : σ → List ι → List β
  | _, [] => []
  | s, i :: is => out s i ++ output step out (step s i) is

theorem output_snoc {o : σ → ι → List β} (is : List ι) (i : ι) :
    ∀ s : σ, output step o s (is ++ [i]) = output step o s is ++ o (exec step s is) i := by
  induction is with
  | nil => intro s; simp [output]
  | cons j is ih => intro s; rw [List.cons_append, output, output, ih, List.append_assoc, exec_cons]

/-- A part of the state that follows what the steps put out. -/
theorem output_foldl {γ : Type*} {f : γ → β → γ} {C : σ → Prop} {g : σ → γ} {o : σ → ι → List β}
    (hkeep : ∀ s i, C s → C (step s i)) (hstep : ∀ s i, C s → g (step s i) = (o s i).foldl f (g s))
    (is : List ι) : ∀ {s : σ}, C s → g (is.foldl step s) = (output step o s is).foldl f (g s) := by
  induction is with
  | nil => exact fun _ => rfl
  | cons i is ih =>
      intro s hs
      rw [List.foldl_cons, ih (hkeep s i hs), output, List.foldl_append, hstep s i hs]

/-- **Simulation.** From related states, related steps put out the same and end in related states. -/
theorem output_of_simulates {step' : τ → ι → τ} {R : σ → τ → Prop} {o : σ → ι → List β} {o' : τ → ι → List β}
    (hstep : ∀ s t i, R s t → R (step s i) (step' t i)) (hout : ∀ s t i, R s t → o s i = o' t i) (is : List ι) :
    ∀ {s : σ} {t : τ}, R s t →
      output step o s is = output step' o' t is ∧ R (is.foldl step s) (is.foldl step' t) := by
  induction is with
  | nil => exact fun h => ⟨rfl, h⟩
  | cons i is ih =>
      intro s t h
      obtain ⟨heq, hend⟩ := ih (hstep s t i h)
      refine ⟨?_, hend⟩
      rw [output, output, hout s t i h, heq]

end Outputs

/-! ## Trails -/

section Trails

variable {α β : Type*} {start finish : β → α}

/-- The entries lead from one value to another: each starts where the one before it has finished. -/
def Trail (start finish : β → α) : α → List β → α → Prop
  | a, [], b => a = b
  | a, e :: es, b => start e = a ∧ Trail start finish (finish e) es b

/-- One change at the end. -/
theorem Trail.snoc {e : β} {es : List β} : ∀ {a : α}, Trail start finish a es (start e) →
    Trail start finish a (es ++ [e]) (finish e) := by
  induction es with
  | nil => exact fun h => ⟨h.symm, rfl⟩
  | cons e' es ih => exact fun h => ⟨h.1, ih h.2⟩

/-- A trail says where it ends. -/
theorem Trail.unique {es : List β} {b b' : α} : ∀ {a : α}, Trail start finish a es b → Trail start finish a es b' →
    b = b' := by
  induction es with
  | nil => exact fun h h' => h.symm.trans h'
  | cons e es ih => exact fun h h' => ih h.2 h'.2

end Trails

end Machine
