import CompanyFactory.BoardApi.Users

/-!
# `BoardApi.Access` — which companies a board user sees

Three places decide it: `assert_company_access` before the routes of one company, `list_companies`, and the list of
companies that the approval routes go through. All three let an operator **without** assignments through to every
company, and bound one **with** assignments to these. So the first assignment of an operator takes companies away,
and the end of the last one gives them back; nothing else does (`assign_keeps_iff`, `unassign_gives_iff`).
-/

namespace CompanyFactory

open BoardApi

namespace Auth

/-- `assert_company_access` -/
def assert_company_access (db : AuthDb) (user : UserRow) (company_id : String) : Except Exn Unit :=
  if user.role = .ADMIN ∨ user.role = .OBSERVER then .ok ()
  else
    let assigned := assignments db user.id
    -- "the company route confirms ownership when relevant"; no route does
    if assigned = [] then .ok ()
    else if company_id ∉ assigned then .error (.other "Forbidden" "company_not_assigned")
    else .ok ()

/-- `list_companies`, of the active companies. -/
def list_companies (db : AuthDb) (user : UserRow) (active : List String) : List String :=
  if user.role = .ADMIN ∨ user.role = .OBSERVER then active
  else
    let assigned := assignments db user.id
    if assigned ≠ [] then active.filter (fun company_id => decide (company_id ∈ assigned)) else active

/-- `_visible_companies` of the approval routes. -/
def visible_companies (db : AuthDb) (user : UserRow) (active : List String) : List String :=
  if user.role = .ADMIN ∨ user.role = .OBSERVER then active
  else
    let assigned := assignments db user.id
    if assigned = [] then active
    else active.filter (fun company_id => decide (company_id ∈ assigned))

/-- The three places that decide. -/
inductive Door where
  | company_route | company_list | approval_list
  deriving DecidableEq

/-- Does the user come to the company through this door? -/
def Opens (db : AuthDb) (user : UserRow) (active : List String) (company_id : String) : Door → Prop
  | .company_route => assert_company_access db user company_id = .ok ()
  | .company_list => company_id ∈ list_companies db user active
  | .approval_list => company_id ∈ visible_companies db user active

instance (db : AuthDb) (user : UserRow) (active : List String) (company_id : String) (door : Door) :
    Decidable (Opens db user active company_id door) :=
  match door with
  | .company_route => inferInstanceAs (Decidable (assert_company_access db user company_id = .ok ()))
  | .company_list => inferInstanceAs (Decidable (company_id ∈ list_companies db user active))
  | .approval_list => inferInstanceAs (Decidable (company_id ∈ visible_companies db user active))

/-- The rule that all three follow. -/
def Reaches (db : AuthDb) (user : UserRow) (company_id : String) : Prop :=
  user.role ≠ .OPERATOR ∨ assignments db user.id = [] ∨ company_id ∈ assignments db user.id

section Doors

variable {db : AuthDb} {user : UserRow} {active : List String} {company_id : String}

theorem operator_iff (role : UserRole) : role ≠ .OPERATOR ↔ role = .ADMIN ∨ role = .OBSERVER := by
  cases role <;> simp

/-- **Alike.** The three doors let a user through to the same active companies. -/
theorem opens_iff (hactive : company_id ∈ active) (door : Door) :
    Opens db user active company_id door ↔ Reaches db user company_id := by
  unfold Reaches
  rw [operator_iff]
  by_cases hrole : user.role = .ADMIN ∨ user.role = .OBSERVER
  · cases door <;> simp [Opens, assert_company_access, list_companies, visible_companies, hrole, hactive]
  · by_cases hnone : assignments db user.id = []
    · cases door <;>
        simp [Opens, assert_company_access, list_companies, visible_companies, hrole, hnone, hactive]
    · cases door <;>
        simp [Opens, assert_company_access, list_companies, visible_companies, hrole, hnone, hactive]

end Doors

/-! ## What the two calls do to the assignments -/

section Assignments

variable {db : AuthDb} {user_id target company_id : String}

theorem mem_assignments {c : String} : c ∈ assignments db user_id ↔ (user_id, c) ∈ db.company_assignments.rows := by
  simp [assignments]

/-- The user of an assignment must be in the table. -/
def Known (db : AuthDb) (user_id : String) : Prop := ∃ u ∈ db.users.rows, u.id = user_id

theorem mem_assigned {c : String} : c ∈ assignments ((assign_company target company_id).after db) user_id ↔
    c ∈ assignments db user_id ∨ Known db target ∧ user_id = target ∧ c = company_id := by
  have hknown : db.users.rows.any (fun u => decide (u.id = target)) = true ↔ Known db target := by
    simp [Known]
  simp only [mem_assignments, Act.after, assign_company]
  split
  · rename_i hthere
    refine ⟨.inl, ?_⟩
    rintro (h | ⟨-, rfl, rfl⟩)
    · exact h
    · exact hthere
  · split
    · rename_i hany
      simp [hknown.mp hany]
    · rename_i hany
      simp [mt hknown.mpr hany]

theorem mem_unassigned {c : String} : c ∈ assignments ((unassign_company target company_id).after db) user_id ↔
    c ∈ assignments db user_id ∧ ¬ (user_id = target ∧ c = company_id) := by
  simp only [mem_assignments, Act.after, unassign_company, List.mem_filter, decide_eq_true_eq, ne_eq,
    Prod.mk.injEq]

theorem assignments_nil_iff : assignments db user_id = [] ↔ ∀ c, c ∉ assignments db user_id :=
  List.eq_nil_iff_forall_not_mem

/-- The key of the table is the pair, so the companies of a user are listed once. -/
theorem assignments_nodup : (assignments db user_id).Nodup := by
  refine (db.company_assignments.unique.filter _).map_on ?_
  rintro ⟨x, y⟩ hx ⟨x', y'⟩ hx' rfl
  simp only [List.mem_filter, decide_eq_true_eq] at hx hx'
  rw [hx.2, hx'.2]

theorem assignments_single {c : String} (hmem : c ∈ assignments db user_id)
    (hall : ∀ d ∈ assignments db user_id, d = c) : assignments db user_id = [c] := by
  have hrep := List.eq_replicate_of_mem hall
  have hnodup := @assignments_nodup db user_id
  rw [hrep, List.nodup_replicate] at hnodup
  have hpos := List.length_pos_of_mem hmem
  rw [hrep, Nat.le_antisymm hnodup hpos]
  rfl

end Assignments

/-! ## Monotonicity -/

section Monotone

variable (db : AuthDb) (user : UserRow) (target company_id : String) (active : List String) (door : Door)

/-- **Assigning keeps access** to every active company exactly if the user is no operator, or another user is meant,
    or one that is not in the table; or the operator has an assignment already; or there is no other company. -/
theorem assign_keeps_iff :
    (∀ c ∈ active, Opens db user active c door →
      Opens ((assign_company target company_id).after db) user active c door) ↔
    user.role ≠ .OPERATOR ∨ user.id ≠ target ∨ ¬ Known db target ∨ assignments db user.id ≠ [] ∨
      ∀ c ∈ active, c = company_id := by
  have hdoors : (∀ c ∈ active, Opens db user active c door →
      Opens ((assign_company target company_id).after db) user active c door) ↔
      ∀ c ∈ active, Reaches db user c → Reaches ((assign_company target company_id).after db) user c :=
    forall₂_congr fun c hc => imp_congr (opens_iff hc door) (opens_iff hc door)
  rw [hdoors]
  constructor
  · intro hkeeps
    by_contra! hno
    obtain ⟨hrole, hid, hknown, hnone, c, hc, hne⟩ := hno
    -- the operator saw everything, and sees the one company from now on
    obtain hrole' | hnone' | hmem := hkeeps c hc (.inr (.inl hnone))
    · exact hrole' hrole
    · exact assignments_nil_iff.mp hnone' company_id (mem_assigned.mpr (.inr ⟨hknown, hid, rfl⟩))
    · obtain hold | ⟨-, -, rfl⟩ := mem_assigned.mp hmem
      · rw [hnone] at hold
        cases hold
      · exact hne rfl
  · rintro hcond c hc (hrole | hnone | hmem)
    · exact .inl hrole
    · by_cases hnew : Known db target ∧ user.id = target
      · obtain hrole | hid | hunknown | hsome | honly := hcond
        · exact .inl hrole
        · exact absurd hnew.2 hid
        · exact absurd hnew.1 hunknown
        · exact absurd hnone hsome
        · exact .inr (.inr (mem_assigned.mpr (.inr ⟨hnew.1, hnew.2, honly c hc⟩)))
      · refine .inr (.inl (assignments_nil_iff.mpr fun d hd => ?_))
        obtain hold | ⟨hknown, hid, -⟩ := mem_assigned.mp hd
        · rw [hnone] at hold
          cases hold
        · exact hnew ⟨hknown, hid⟩
    · exact .inr (.inr (mem_assigned.mpr (.inl hmem)))

/-- **Unassigning gives no access** to an active company exactly if the user is no operator, or another user is meant;
    or the company is not the only assignment of the operator; or there is no other company. -/
theorem unassign_gives_iff :
    (∀ c ∈ active, Opens ((unassign_company target company_id).after db) user active c door →
      Opens db user active c door) ↔
    user.role ≠ .OPERATOR ∨ user.id ≠ target ∨ assignments db user.id ≠ [company_id] ∨
      ∀ c ∈ active, c = company_id := by
  have hdoors : (∀ c ∈ active, Opens ((unassign_company target company_id).after db) user active c door →
      Opens db user active c door) ↔
      ∀ c ∈ active, Reaches ((unassign_company target company_id).after db) user c → Reaches db user c :=
    forall₂_congr fun c hc => imp_congr (opens_iff hc door) (opens_iff hc door)
  rw [hdoors]
  constructor
  · intro hgives
    by_contra! hno
    obtain ⟨hrole, hid, honly, c, hc, hne⟩ := hno
    -- the operator saw the one company, and sees everything from now on
    have hafter : assignments ((unassign_company target company_id).after db) user.id = [] := by
      refine assignments_nil_iff.mpr fun d hd => ?_
      obtain ⟨hmem, hother⟩ := mem_unassigned.mp hd
      rw [honly, List.mem_singleton] at hmem
      exact hother ⟨hid, hmem⟩
    obtain hrole' | hnone | hmem := hgives c hc (.inr (.inl hafter))
    · exact hrole' hrole
    · rw [honly] at hnone
      cases hnone
    · rw [honly, List.mem_singleton] at hmem
      exact hne hmem
  · rintro hcond c hc (hrole | hnone | hmem)
    · exact .inl hrole
    · by_cases hbefore : assignments db user.id = []
      · exact .inr (.inl hbefore)
      · -- nothing is left, so the company was the only assignment
        have hsingle : ∀ d ∈ assignments db user.id, user.id = target ∧ d = company_id := by
          intro d hd
          by_contra hother
          exact assignments_nil_iff.mp hnone d (mem_unassigned.mpr ⟨hd, hother⟩)
        obtain ⟨d, hd⟩ := List.exists_mem_of_ne_nil _ hbefore
        obtain ⟨hid, rfl⟩ := hsingle d hd
        obtain hrole | hid' | hnot | honly := hcond
        · exact .inl hrole
        · exact absurd hid hid'
        · refine absurd ?_ hnot
          exact assignments_single hd fun e he => (hsingle e he).2
        · exact .inr (.inr (honly c hc ▸ hd))
    · exact .inr (.inr (mem_unassigned.mp hmem).1)

/-- **Access and assignments.** For every table, so after every history of assignments, and every set of active
    companies, through each of the three doors: an assignment takes no company from the user, and the end of one
    gives none, exactly under the two conditions. -/
theorem access_monotone_iff :
    ((∀ c ∈ active, Opens db user active c door →
        Opens ((assign_company target company_id).after db) user active c door) ↔
      user.role ≠ .OPERATOR ∨ user.id ≠ target ∨ ¬ Known db target ∨ assignments db user.id ≠ [] ∨
        ∀ c ∈ active, c = company_id) ∧
    ((∀ c ∈ active, Opens ((unassign_company target company_id).after db) user active c door →
        Opens db user active c door) ↔
      user.role ≠ .OPERATOR ∨ user.id ≠ target ∨ assignments db user.id ≠ [company_id] ∨
        ∀ c ∈ active, c = company_id) :=
  ⟨assign_keeps_iff db user target company_id active door, unassign_gives_iff db user target company_id active door⟩

end Monotone

/-- An operator of a board with two companies, who has no assignment. -/
def operator : UserRow :=
  { id := "op", email := "op@board.io", password_hash := "$2b$12$x", role := .OPERATOR, created_at := 0 }

def unassigned : AuthDb :=
  { users := ⟨[operator], by decide⟩, refresh_tokens := ⟨[], no_tokens⟩, company_assignments := ⟨[], no_assignments⟩ }

/-- After the first assignment. -/
def narrowed : AuthDb := (assign_company "op" "acme").after unassigned

/-- The first assignment takes the other company away from the operator, and its end gives that one back. -/
theorem first_assignment_narrows :
    (Opens unassigned operator ["acme", "globex"] "globex" .company_route ∧
      Opens unassigned operator ["acme", "globex"] "globex" .company_list ∧
      Opens unassigned operator ["acme", "globex"] "globex" .approval_list) ∧
    (¬ Opens narrowed operator ["acme", "globex"] "globex" .company_route ∧
      ¬ Opens narrowed operator ["acme", "globex"] "globex" .company_list ∧
      ¬ Opens narrowed operator ["acme", "globex"] "globex" .approval_list) ∧
    Opens ((unassign_company "op" "acme").after narrowed) operator ["acme", "globex"] "globex" .company_route := by
  decide +kernel

end Auth

end CompanyFactory
