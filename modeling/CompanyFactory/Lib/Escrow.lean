import Mathlib.Algebra.BigOperators.Group.List.Basic
import Mathlib.Algebra.Order.Monoid.Canonical.Defs

/-!
# `Lib.Escrow` — an account with a cap, spendings and holds

What a budget with reservations is for: usage — what is spent plus what is on hold — never exceeds the
cap. `Step` lists the movements; each one that raises the usage carries its headroom check as a premise,
and `Step.safe` says that every movement keeps `Safe`. Amounts are the elements of any canonically
ordered commutative monoid.

`sum_map_set` is the list fact a concrete ledger needs to show that closing one of its rows is a `drop`.
-/

namespace Escrow

structure Account (M : Type*) where
  cap : M
  spent : M
  held : M

namespace Account

variable {M : Type*} [AddCommMonoid M] [PartialOrder M]

def usage (a : Account M) : M := a.spent + a.held

/-- The account is within its cap. -/
def Safe (a : Account M) : Prop := a.usage ≤ a.cap

end Account

variable {M : Type*} [AddCommMonoid M] [PartialOrder M]

/-- The movements of an account. -/
inductive Step : Account M → Account M → Prop
  | idle (a) : Step a a
  /-- a new cap that covers the usage -/
  | recap (a : Account M) (c) : a.usage ≤ c → Step a { a with cap := c }
  | spend (a : Account M) (x) : a.usage + x ≤ a.cap → Step a { a with spent := a.spent + x }
  | hold (a : Account M) (x) : a.usage + x ≤ a.cap → Step a { a with held := a.held + x }
  /-- give up a hold of `x` -/
  | drop (a : Account M) (rest x) : a.held = rest + x → Step a { a with held := rest }
  /-- turn a hold of `x` into a spending of `y` -/
  | settle (a : Account M) (rest x y) : a.held = rest + x → a.spent + rest + y ≤ a.cap →
      Step a { a with spent := a.spent + y, held := rest }

/-- **Every movement keeps the account within its cap.** -/
theorem Step.safe [IsOrderedAddMonoid M] [CanonicallyOrderedAdd M] {a b : Account M}
    (h : Step a b) (ha : a.Safe) : b.Safe := by
  cases h with
  | idle => exact ha
  | recap _ hc => exact hc
  | spend x hx =>
      show a.spent + x + a.held ≤ a.cap
      rw [add_right_comm]
      exact hx
  | hold x hx =>
      show a.spent + (a.held + x) ≤ a.cap
      rw [← add_assoc]
      exact hx
  | drop rest x hheld =>
      show a.spent + rest ≤ a.cap
      refine le_trans ?_ ha
      rw [Account.usage, hheld, ← add_assoc]
      exact le_self_add
  | settle rest x y hheld hy =>
      show a.spent + y + rest ≤ a.cap
      rw [add_right_comm]
      exact hy

omit [PartialOrder M] in
/-- Replacing one element of a list trades its weight in the sum for the new element's. -/
theorem sum_map_set {α : Type*} (w : α → M) {l : List α} {i : Nat} {a : α} (b : α)
    (h : l[i]? = some a) : ((l.set i b).map w).sum + w a = (l.map w).sum + w b := by
  induction l generalizing i with
  | nil => simp at h
  | cons c l ih =>
      cases i with
      | zero =>
          obtain rfl : c = a := by simpa using h
          simp [add_comm, add_left_comm]
      | succ i =>
          have hl : l[i]? = some a := by simpa using h
          simp only [List.set_cons_succ, List.map_cons, List.sum_cons]
          rw [add_assoc, ih hl, add_assoc]

end Escrow
