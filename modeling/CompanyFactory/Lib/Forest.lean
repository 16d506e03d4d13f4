import Mathlib.Data.List.Nodup
import Mathlib.Data.List.Perm.Subperm
import Mathlib.Logic.Relation

/-!
# `Lib.Forest` — parent pointers that lead to a root

A forest is given by a function `parent : α → Option α`; `Chain parent a l` says that the walk from `a` to its
root goes through the nodes `l`, in this order and without `a`. `Rooted parent` — every walk ends.

* **No cycles** — a node is not on its own chain, and no path of parents leads back to where it started
  (`Rooted.acyclic`).
* **Steps** — `up parent k a` is the node `k` steps up, on a chain or on a cycle; `first_le` bounds how late a walk
  comes to a node for the first time.
* **Rewiring** — `Rooted.rewire`: when the parents of some nodes change, it is enough that the chains of
  *these* nodes end. `Rooted.cut` takes parents away, and `Rooted.graft` hangs nodes under a node whose chain
  meets none of them; `cycle_of_graft` is the converse for a root that is hung under a node below it.
  `above_of_rewired` says who is above whom afterwards.
* **Walks** — a loop that follows the parents is proved by induction on the chain; it takes as many rounds as
  the chain is long, and `Chain.length_le` bounds that by the number of the nodes.
-/

namespace Forest

variable {α : Type*} {parent parent' : α → Option α} {a b p : α} {l l' : List α}

/-- The nodes above `a`, from its parent to the root. -/
inductive Chain (parent : α → Option α) : α → List α → Prop where
  | root {a : α} (h : parent a = none) : Chain parent a []
  | step {a b : α} {l : List α} (h : parent a = some b) (rest : Chain parent b l) :
      Chain parent a (b :: l)

/-- Every walk up ends at a root. -/
def Rooted (parent : α → Option α) : Prop := ∀ a, ∃ l, Chain parent a l

theorem Chain.unique (h : Chain parent a l) (h' : Chain parent a l') : l = l' := by
  induction h generalizing l' with
  | root hroot =>
      cases h' with
      | root _ => rfl
      | step hstep _ => rw [hroot] at hstep; cases hstep
  | step hstep _ ih =>
      cases h' with
      | root hroot => rw [hroot] at hstep; cases hstep
      | step hstep' rest' =>
          rw [hstep] at hstep'
          cases hstep'
          rw [ih rest']

/-- A node on a chain has a shorter one, which is on it too. -/
theorem Chain.of_mem (h : Chain parent a l) (hb : b ∈ l) :
    ∃ l', Chain parent b l' ∧ l'.length < l.length ∧ ∀ c ∈ l', c ∈ l := by
  induction h with
  | root _ => cases hb
  | @step a c l hstep rest ih =>
      rcases List.mem_cons.mp hb with rfl | hmem
      · exact ⟨l, rest, Nat.lt_succ_self _, fun d hd => List.mem_cons_of_mem _ hd⟩
      · obtain ⟨l', hl', hlt, hsub⟩ := ih hmem
        exact ⟨l', hl', Nat.lt_succ_of_lt hlt, fun d hd => List.mem_cons_of_mem _ (hsub d hd)⟩

theorem Chain.not_mem (h : Chain parent a l) : a ∉ l := by
  intro hmem
  obtain ⟨l', hl', hlt, -⟩ := h.of_mem hmem
  rw [h.unique hl'] at hlt
  exact Nat.lt_irrefl _ hlt

theorem Chain.nodup (h : Chain parent a l) : l.Nodup := by
  induction h with
  | root _ => exact List.nodup_nil
  | step _ rest ih => exact List.nodup_cons.mpr ⟨rest.not_mem, ih⟩

/-- A chain through the members of `nodes` is no longer than `nodes`. -/
theorem Chain.length_le {nodes : List α} (h : Chain parent a l) (hl : ∀ b ∈ l, b ∈ nodes) :
    l.length ≤ nodes.length :=
  (h.nodup.subperm hl).length_le

/-- A chain depends on the parents of the nodes that it goes through. -/
theorem Chain.congr (h : Chain parent a l) (ha : parent' a = parent a)
    (hl : ∀ b ∈ l, parent' b = parent b) : Chain parent' a l := by
  induction h with
  | root hroot => exact .root (ha.trans hroot)
  | step hstep _ ih =>
      refine .step (ha.trans hstep) (ih (hl _ List.mem_cons_self) fun b hb => hl b ?_)
      exact List.mem_cons_of_mem _ hb

/-! ## Cycles -/

theorem Chain.mem_of_above (h : Chain parent a l)
    (hab : Relation.TransGen (fun x y => parent x = some y) a b) : b ∈ l := by
  induction hab using Relation.TransGen.head_induction_on generalizing l with
  | single hstep =>
      cases h with
      | root hroot => rw [hroot] at hstep; cases hstep
      | step hstep' _ => rw [hstep'] at hstep; cases hstep; exact List.mem_cons_self
  | head hstep _ ih =>
      cases h with
      | root hroot => rw [hroot] at hstep; cases hstep
      | step hstep' rest =>
          rw [hstep'] at hstep
          cases hstep
          exact List.mem_cons_of_mem _ (ih rest)

/-- **A forest has no cycles.** -/
theorem Rooted.acyclic (h : Rooted parent) (a : α) :
    ¬ Relation.TransGen (fun x y => parent x = some y) a a := by
  intro hcycle
  obtain ⟨l, hl⟩ := h a
  exact hl.not_mem (hl.mem_of_above hcycle)

/-! ## Counting steps -/

/-- The node `k` steps up, if the walk goes so far; there may be cycles. -/
def up (parent : α → Option α) : Nat → α → Option α
  | 0, a => some a
  | k + 1, a => (parent a).bind (up parent k)

theorem up_succ (h : parent a = some b) (k : Nat) : up parent (k + 1) a = up parent k b := by
  rw [up, h]
  rfl

theorem up_add (j k : Nat) (a : α) : up parent (j + k) a = (up parent j a).bind (up parent k) := by
  induction j generalizing a with
  | zero => rw [Nat.zero_add]; rfl
  | succ j ih =>
      rw [Nat.succ_add, up, up]
      cases parent a with
      | none => rfl
      | some b => exact ih b

/-- To be above a node is to be some steps up. -/
theorem above_iff : Relation.TransGen (fun x y => parent x = some y) a b ↔ ∃ k, up parent (k + 1) a = some b := by
  constructor
  · intro h
    induction h using Relation.TransGen.head_induction_on with
    | single hstep => exact ⟨0, up_succ hstep 0⟩
    | head hstep _ ih =>
        obtain ⟨k, hk⟩ := ih
        exact ⟨k + 1, (up_succ hstep (k + 1)).trans hk⟩
  · rintro ⟨k, hk⟩
    induction k generalizing a with
    | zero =>
        cases hstep : parent a with
        | none => rw [up, hstep] at hk; cases hk
        | some c =>
            rw [up_succ hstep] at hk
            cases hk
            exact .single hstep
    | succ k ih =>
        cases hstep : parent a with
        | none => rw [up, hstep] at hk; cases hk
        | some c =>
            rw [up_succ hstep] at hk
            exact .head hstep (ih hk)

/-- A chain lists the nodes step by step. -/
theorem Chain.getElem?_eq (h : Chain parent a l) (k : Nat) : l[k]? = up parent (k + 1) a := by
  induction h generalizing k with
  | root hroot => rw [up, hroot]; rfl
  | @step a b l hstep _ ih =>
      rw [up_succ hstep]
      cases k with
      | zero => rfl
      | succ k => exact ih k

/-- The first time a walk comes to a node, it has taken at most one step for each parent there is. -/
theorem first_le {nodes : List α} (hnodes : ∀ x y, parent x = some y → y ∈ nodes) {k : Nat}
    (hk : up parent k a = some b) (hfirst : ∀ j, 0 < j → j < k → up parent j a ≠ some b) :
    k ≤ nodes.length := by
  -- the nodes on the way
  have hway : ∀ j, j < k → ∃ c, up parent (j + 1) a = some c ∧ c ∈ nodes := by
    intro j hj
    have hlate : up parent k a = (up parent j a).bind (up parent (k - j)) := by
      rw [← up_add]
      congr 1
      omega
    rw [hk] at hlate
    obtain ⟨x, hx, hrest⟩ := Option.bind_eq_some_iff.mp hlate.symm
    obtain ⟨m, hm⟩ : ∃ m, k - j = m + 1 := ⟨k - j - 1, by omega⟩
    rw [hm, up] at hrest
    obtain ⟨y, hy, -⟩ := Option.bind_eq_some_iff.mp hrest
    refine ⟨y, ?_, hnodes x y hy⟩
    rw [up_add, hx]
    exact up_succ hy 0
  -- if one of them came twice, `b` would have come earlier
  have hinj : ∀ i j, i < j → j < k → up parent (i + 1) a ≠ up parent (j + 1) a := by
    intro i j hij hj hsame
    refine hfirst (i + 1 + (k - (j + 1))) (by omega) (by omega) ?_
    rw [up_add, hsame, ← up_add, show j + 1 + (k - (j + 1)) = k by omega]
    exact hk
  have hnodup : ((List.range k).map fun j => up parent (j + 1) a).Nodup := by
    refine List.Nodup.map_on ?_ List.nodup_range
    intro i hi j hj hsame
    rw [List.mem_range] at hi hj
    rcases Nat.lt_trichotomy i j with hlt | heq | hgt
    · exact absurd hsame (hinj i j hlt hj)
    · exact heq
    · exact absurd hsame.symm (hinj j i hgt hi)
  have hsub : ∀ x ∈ (List.range k).map fun j => up parent (j + 1) a, x ∈ nodes.map some := by
    intro x hx
    obtain ⟨j, hj, rfl⟩ := List.mem_map.mp hx
    obtain ⟨c, hc, hmem⟩ := hway j (List.mem_range.mp hj)
    exact hc ▸ List.mem_map_of_mem hmem
  have hlen := (hnodup.subperm hsub).length_le
  simpa using hlen

/-! ## Rewiring -/

/-- If the parents of some nodes change, it is enough that the chains of these end. -/
theorem Rooted.rewire (h : Rooted parent)
    (hnew : ∀ a, parent' a = parent a ∨ ∃ l, Chain parent' a l) : Rooted parent' := by
  intro a
  obtain ⟨l, hl⟩ := h a
  induction hl with
  | @root a hroot =>
      rcases hnew a with hsame | hchain
      · exact ⟨[], .root (hsame.trans hroot)⟩
      · exact hchain
  | @step a b l hstep _ ih =>
      rcases hnew a with hsame | hchain
      · obtain ⟨l', hl'⟩ := ih
        exact ⟨b :: l', .step (hsame.trans hstep) hl'⟩
      · exact hchain

/-- Taking parents away leaves a forest. -/
theorem Rooted.cut (h : Rooted parent) (hcut : ∀ a, parent' a = parent a ∨ parent' a = none) :
    Rooted parent' := by
  refine h.rewire fun a => ?_
  rcases hcut a with hsame | hnone
  · exact .inl hsame
  · exact .inr ⟨[], .root hnone⟩

/-- Hanging nodes under a node whose chain meets none of them leaves a forest. -/
theorem Rooted.graft (h : Rooted parent) {S : α → Prop} (hp : Chain parent p l) (hSp : ¬ S p)
    (hSl : ∀ b ∈ l, ¬ S b) (hS : ∀ a, S a → parent' a = some p)
    (hkeep : ∀ a, ¬ S a → parent' a = parent a) : Rooted parent' := by
  have hp' : Chain parent' p l := hp.congr (hkeep p hSp) fun b hb => hkeep b (hSl b hb)
  refine h.rewire fun a => ?_
  by_cases ha : S a
  · exact .inr ⟨p :: l, .step (hS a ha) hp'⟩
  · exact .inl (hkeep a ha)

/-- What is above a node after nodes were hung under `p`: what was above it before, or, if a walk from it comes to one
of these nodes, `p` and what is above `p`. -/
theorem above_of_rewired {S : α → Prop} (hin : ∀ x, S x → ∀ y, parent' x = some y → y = p)
    (hout : ∀ x, ¬ S x → parent' x = parent x) (h : Relation.TransGen (fun x y => parent' x = some y) a b) :
    Relation.TransGen (fun x y => parent x = some y) a b ∨
      (∃ c, S c ∧ Relation.ReflTransGen (fun x y => parent x = some y) a c) ∧
        Relation.ReflTransGen (fun x y => parent x = some y) p b := by
  induction h using Relation.TransGen.head_induction_on with
  | @single a hstep =>
      by_cases ha : S a
      · exact .inr ⟨⟨a, ha, .refl⟩, hin a ha b hstep ▸ .refl⟩
      · exact .inl (.single ((hout a ha).symm.trans hstep))
  | @head a c hstep _ ih =>
      by_cases ha : S a
      · obtain rfl := hin a ha c hstep
        refine .inr ⟨⟨a, ha, .refl⟩, ?_⟩
        rcases ih with habove | ⟨-, habove⟩
        · exact habove.to_reflTransGen
        · exact habove
      · have hold : parent a = some c := (hout a ha).symm.trans hstep
        rcases ih with habove | ⟨⟨d, hd, hreach⟩, habove⟩
        · exact .inl (.head hold habove)
        · exact .inr ⟨⟨d, hd, .head hold hreach⟩, habove⟩

/-- A walk that comes to no node with a new parent is a walk still. -/
theorem reach_congr {S : α → Prop} (hout : ∀ x, ¬ S x → parent' x = parent x)
    (hfree : ∀ c, Relation.ReflTransGen (fun x y => parent x = some y) a c → ¬ S c)
    (h : Relation.ReflTransGen (fun x y => parent x = some y) a b) :
    Relation.ReflTransGen (fun x y => parent' x = some y) a b := by
  induction h with
  | refl => exact .refl
  | tail hreach hstep ih => exact ih.tail ((hout _ (hfree _ hreach)).trans hstep)

/-- Hanging the root above `p` under `p` closes a cycle. -/
theorem cycle_of_graft (hp : Chain parent p l) (hb : b ∈ l) (hbp : parent' b = some p)
    (hkeep : ∀ a, parent a ≠ none → parent' a = parent a) :
    Relation.TransGen (fun x y => parent' x = some y) p p := by
  suffices hup : Relation.TransGen (fun x y => parent' x = some y) p b from hup.tail hbp
  clear hbp
  induction hp with
  | root _ => cases hb
  | @step q c m hstep _ ih =>
      have hedge : parent' q = some c := (hkeep q (by rw [hstep]; exact nofun)).trans hstep
      rcases List.mem_cons.mp hb with rfl | hmem
      · exact .single hedge
      · exact .head hedge (ih hmem)

end Forest
