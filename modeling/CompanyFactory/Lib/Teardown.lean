import Mathlib.Data.List.TakeWhile

/-!
# `Lib.Teardown` — waiting for groups of tasks, one after the other

A teardown has a list of groups. It asks the tasks of a group to stop, waits for each of them in turn, and goes on to
the next group; a task that is done already does not make it wait. `advance` is what it does between two waits.

* `mem_outstanding_advance` — no live task of a group is passed over.
-/

namespace Teardown

variable {τ σ : Type*}

/-- What a teardown still has to do: the tasks that it waits for, and the groups to come. -/
structure Rest (τ σ : Type*) where
  awaited : List τ
  to_come : List σ
  deriving DecidableEq

/-- A teardown with nothing left to do. -/
def Rest.finished : Rest τ σ := ⟨[], []⟩

/-- The tasks that a teardown has still to wait for. -/
def Rest.outstanding (tasks_of : σ → List τ) (r : Rest τ σ) : List τ :=
  r.awaited ++ r.to_come.flatMap tasks_of

@[simp] theorem outstanding_finished (tasks_of : σ → List τ) : (Rest.finished : Rest τ σ).outstanding tasks_of = [] := rfl

@[simp] theorem mem_outstanding {tasks_of : σ → List τ} {r : Rest τ σ} {t : τ} :
    t ∈ r.outstanding tasks_of ↔ t ∈ r.awaited ∨ ∃ g ∈ r.to_come, t ∈ tasks_of g := by
  simp [Rest.outstanding]

variable [DecidableEq τ] {live : List τ} {tasks_of : σ → List τ}

/-- To the next task that is not done. -/
def advance (live : List τ) (tasks_of : σ → List τ) (awaited : List τ) : List σ → Rest τ σ
  | [] => ⟨awaited.dropWhile (· ∉ live), []⟩
  | g :: gs =>
    match awaited.dropWhile (· ∉ live) with
    | [] => advance live tasks_of (tasks_of g) gs
    | t :: ts => ⟨t :: ts, g :: gs⟩

/-- A live task is not skipped. -/
theorem mem_dropWhile_of_live {t : τ} (hlive : t ∈ live) {ts : List τ} (ht : t ∈ ts) :
    t ∈ ts.dropWhile (· ∉ live) := by
  induction ts with
  | nil => exact ht
  | cons u us ih =>
      by_cases hu : u ∈ live
      · rw [List.dropWhile_cons_of_neg (by simpa using hu)]
        exact ht
      · rw [List.dropWhile_cons_of_pos (by simpa using hu)]
        rcases List.mem_cons.mp ht with rfl | ht
        · exact absurd hlive hu
        · exact ih ht

/-- No live task is passed over. The induction is on the groups to come. -/
theorem mem_outstanding_advance {t : τ} (hlive : t ∈ live) {gs : List σ} :
    ∀ {awaited}, t ∈ (Rest.mk awaited gs).outstanding tasks_of →
      t ∈ (advance live tasks_of awaited gs).outstanding tasks_of := by
  induction gs with
  | nil =>
      intro awaited ht
      simp only [mem_outstanding, List.not_mem_nil, false_and, exists_false, or_false] at ht
      rw [advance, mem_outstanding]
      exact .inl (mem_dropWhile_of_live hlive ht)
  | cons g gs ih =>
      intro awaited ht
      rw [mem_outstanding] at ht
      have hdrop : t ∈ awaited → t ∈ awaited.dropWhile (· ∉ live) := mem_dropWhile_of_live hlive
      rw [advance]
      cases hrest : awaited.dropWhile (· ∉ live) with
      | nil =>
          -- the tasks awaited so far are all done, so that `t` is one of a group to come
          have hnot : t ∉ awaited := by
            intro hmem
            have hin := hdrop hmem
            rw [hrest] at hin
            exact List.not_mem_nil hin
          apply ih
          rw [mem_outstanding]
          obtain ⟨g', hg', htg⟩ := ht.resolve_left hnot
          rcases List.mem_cons.mp hg' with rfl | hg'
          · exact .inl htg
          · exact .inr ⟨g', hg', htg⟩
      | cons u us =>
          rw [mem_outstanding]
          refine ht.imp (fun hmem => ?_) id
          have hin := hdrop hmem
          rw [hrest] at hin
          exact hin

end Teardown
