import CompanyFactory.BoardApi.UserCalls
import CompanyFactory.Lib.Clients

/-!
# `BoardApi.LastAdmin` — demoting and deleting administrators from several clients

`set_role` and `soft_delete` read the user, count the administrators and write, each on its own: nothing holds the
table between the count and the `UPDATE`. A `Section` is one of these steps; a call whose sections follow each other
is the call (`solo_set_role`, `solo_soft_delete`). Everything else that clients call runs as a whole between them.
-/

namespace CompanyFactory

open Act BoardApi Machine

namespace Auth

/-- Somebody is an administrator and not deleted. -/
def has_admin (db : AuthDb) : Bool := db.users.rows.any UserRow.admin

/-- Somebody else is. -/
def has_other_admin (db : AuthDb) (user_id : String) : Bool :=
  db.users.rows.any (fun u => u.admin && decide (u.id ≠ user_id))

/-- What is left of a call. -/
inductive Section where
  | set_role (user_id : String) (role : UserRole)
  | check_demotion (user_id : String) (role : UserRole) (user : UserRow)
  | update_role (user_id : String) (role : UserRole)
  | soft_delete (user_id : String)
  | check_deletion (user_id : String) (user : UserRow)
  | bury (user_id : String)
  | revoke_all (user_id : String)
  deriving DecidableEq

def advance (db : AuthDb) : Section → AuthDb × Option Section
  | .set_role user_id role =>
    match find_user db.users user_id with
    | none => (db, none)
    | some user => if user.role = role then (db, none) else (db, some (.check_demotion user_id role user))
  | .check_demotion user_id role user =>
    -- `user` is the row as it was read, and the count is of now
    match check_demotion db.users user role with
    | .error _ => (db, none)
    | .ok () => (db, some (.update_role user_id role))
  | .update_role user_id role => ((update_role user_id role).after db, none)
  | .soft_delete user_id =>
    match find_user db.users user_id with
    | none => (db, none)
    | some user => (db, some (.check_deletion user_id user))
  | .check_deletion user_id user =>
    match check_deletion db.users user with
    | .error _ => (db, none)
    | .ok () => (db, some (.bury user_id))
  | .bury user_id =>
    match bury user_id db with
    -- the email of a user who was deleted before may be taken
    | (.error _, db') => (db', none)
    | (.ok (), db') => (db', some (.revoke_all user_id))
  | .revoke_all user_id => ((revoke_all_for_user user_id).after db, none)

/-- A call that runs as a whole; the two calls above run in sections only. -/
def meanwhile (libs : AuthLibs) (db : AuthDb) : Call → AuthDb
  | .set_role _ _ | .soft_delete _ => db
  | c => (c.run libs db).2

/-- **Another one.** When the `UPDATE` runs, it leaves another administrator; or the user becomes one, or the `UPDATE`
    is refused because the email of a deleted user is taken. -/
def LeavesAdmin (db : AuthDb) : Section → Prop
  | .update_role user_id role => role = .ADMIN ∨ has_other_admin db user_id = true
  | .bury user_id => has_other_admin db user_id = true ∨
      ¬ UniqueUsers (Table.update UserRow.id user_id buried db.users.rows)
  | .set_role _ _ | .check_demotion _ _ _ | .soft_delete _ | .check_deletion _ _ | .revoke_all _ => True

instance (db : AuthDb) (s : Section) : Decidable (LeavesAdmin db s) :=
  match s with
  | .update_role user_id role => inferInstanceAs (Decidable (role = .ADMIN ∨ has_other_admin db user_id = true))
  | .bury user_id => inferInstanceAs (Decidable (has_other_admin db user_id = true ∨
      ¬ UniqueUsers (Table.update UserRow.id user_id buried db.users.rows)))
  | .set_role _ _ | .check_demotion _ _ _ | .soft_delete _ | .check_deletion _ _ | .revoke_all _ => isTrue trivial

/-! ## The administrators after a write -/

theorem has_admin_iff {db : AuthDb} : has_admin db = true ↔ ∃ u ∈ db.users.rows, u.admin = true := by
  rw [has_admin, List.any_eq_true]

theorem has_other_admin_iff {db : AuthDb} {user_id : String} :
    has_other_admin db user_id = true ↔ ∃ u ∈ db.users.rows, u.admin = true ∧ u.id ≠ user_id := by
  simp only [has_other_admin, List.any_eq_true, Bool.and_eq_true, decide_eq_true_eq]

/-- An update of one row leaves an administrator if there is another one, or the row is one afterwards. -/
theorem admin_update {rows : List UserRow} {user_id : String} {g : UserRow → UserRow} :
    (∃ u ∈ Table.update UserRow.id user_id g rows, u.admin = true) ↔
      (∃ u ∈ rows, u.admin = true ∧ u.id ≠ user_id) ∨ ∃ u ∈ rows, u.id = user_id ∧ (g u).admin = true := by
  constructor
  · rintro ⟨u', hmem, hadmin⟩
    obtain ⟨u, hu, rfl⟩ := List.mem_map.mp hmem
    by_cases hid : u.id = user_id
    · rw [if_pos hid] at hadmin
      exact .inr ⟨u, hu, hid, hadmin⟩
    · rw [if_neg hid] at hadmin
      exact .inl ⟨u, hu, hadmin, hid⟩
  · rintro (⟨u, hu, hadmin, hid⟩ | ⟨u, hu, hid, hadmin⟩)
    · exact ⟨u, List.mem_map.mpr ⟨u, hu, if_neg hid⟩, hadmin⟩
    · exact ⟨g u, List.mem_map.mpr ⟨u, hu, if_pos hid⟩, hadmin⟩

/-- A rewriting of rows that makes nobody less of an administrator. -/
theorem has_admin_map {db db' : AuthDb} {g : UserRow → UserRow} (hrows : db'.users.rows = db.users.rows.map g)
    (hg : ∀ u, (g u).admin = u.admin) : has_admin db' = has_admin db := by
  rw [has_admin, hrows, List.any_map, has_admin]
  congr 1
  funext u
  exact hg u

theorem has_admin_role (db : AuthDb) (h : has_admin db = true) (user_id : String) (role : UserRole) :
    (role = .ADMIN ∨ has_other_admin db user_id = true) ↔
      has_admin ((update_role user_id role).after db) = true := by
  obtain ⟨hunique, hwrite⟩ := @write_users_keys db (fun u => if u.id = user_id then with_role role u else u)
    (fun u => by split <;> rfl) (fun u => by split <;> rfl)
  have hafter : (update_role user_id role).after db = { db with users := ⟨_, hunique⟩ } := by
    have hupdate : write_users (Table.update UserRow.id user_id (with_role role)) db =
        (.ok (), { db with users := ⟨_, hunique⟩ }) := hwrite
    show (update_role user_id role db).2 = _
    rw [update_role, bind_of_ok hupdate, get_same]
  rw [hafter, has_admin_iff, has_other_admin_iff]
  show _ ↔ ∃ u ∈ Table.update UserRow.id user_id (with_role role) db.users.rows, u.admin = true
  rw [admin_update]
  obtain ⟨a, ha, hadmin⟩ := has_admin_iff.mp h
  constructor
  · rintro (rfl | hother)
    · -- the old administrator is the user itself, or another one
      by_cases hid : a.id = user_id
      · refine .inr ⟨a, ha, hid, ?_⟩
        simp only [UserRow.admin, Bool.and_eq_true] at hadmin
        simp [UserRow.admin, with_role, hadmin.2]
      · exact .inl ⟨a, ha, hadmin, hid⟩
    · exact .inl hother
  · rintro (hother | ⟨u, hu, hid, hadmin'⟩)
    · exact .inr hother
    · simp only [UserRow.admin, with_role, Bool.and_eq_true] at hadmin'
      exact .inl (of_decide_eq_true hadmin'.1)

theorem has_admin_bury (db : AuthDb) (h : has_admin db = true) (user_id : String) :
    (has_other_admin db user_id = true ∨ ¬ UniqueUsers (Table.update UserRow.id user_id buried db.users.rows)) ↔
      has_admin ((bury user_id).after db) = true := by
  by_cases hunique : UniqueUsers (Table.update UserRow.id user_id buried db.users.rows)
  · have hafter : (bury user_id).after db = { db with users := ⟨_, hunique⟩ } :=
      congrArg Prod.snd (dif_pos hunique)
    rw [hafter, has_admin_iff, has_other_admin_iff]
    show _ ↔ ∃ u ∈ Table.update UserRow.id user_id buried db.users.rows, u.admin = true
    rw [admin_update]
    refine or_congr Iff.rfl (iff_of_false (not_not_intro hunique) ?_)
    rintro ⟨u, -, -, hadmin⟩
    simp [UserRow.admin, buried] at hadmin
  · have hafter : (bury user_id).after db = db := congrArg Prod.snd (dif_neg hunique)
    rw [hafter]
    exact iff_of_true (.inr hunique) h

theorem leaves_admin_iff (db : AuthDb) (s : Section) (h : has_admin db = true) :
    LeavesAdmin db s ↔ has_admin (advance db s).1 = true := by
  cases s with
  | update_role user_id role => exact has_admin_role db h user_id role
  | bury user_id =>
      have hafter : (advance db (.bury user_id)).1 = (bury user_id).after db := by
        rcases hbury : bury user_id db with ⟨_ | _, db'⟩ <;> simp only [advance, hbury, Act.after]
      rw [hafter]
      exact has_admin_bury db h user_id
  | set_role | check_demotion | soft_delete | check_deletion =>
      -- these sections only read
      refine iff_of_true trivial ?_
      simp only [advance]
      split
      · exact h
      · first | exact h | (split <;> exact h)
  | revoke_all user_id => exact iff_of_true trivial h

/-- The other calls make nobody less of an administrator. -/
theorem has_admin_meanwhile (libs : AuthLibs) (db : AuthDb) (c : Call) (h : has_admin db = true) :
    has_admin (meanwhile libs db c) = true := by
  have hkeep {r : Except Exn Reply} {db' : AuthDb} (hout : Outcome libs db c r db')
      (hset : ∀ user_id role, c ≠ .set_role user_id role) (hdel : ∀ user_id, c ≠ .soft_delete user_id) :
      has_admin db' = true := by
    cases hout with
    | same | refreshed | logged_out | purged | assigned => exact h
    | registered r m =>
        obtain ⟨u, hu, hadmin⟩ := has_admin_iff.mp h
        exact has_admin_iff.mpr ⟨u, List.mem_append_left _ hu, hadmin⟩
    | touched email password m row | logged_in email password m row =>
        rw [has_admin_map (g := fun u => if u.id = row.id then touched m.now u else u) rfl]
        · exact h
        · intro u
          split <;> rfl
    | role_set user_id role => exact absurd rfl (hset user_id role)
    | deleted user_id => exact absurd rfl (hdel user_id)
  have hout := outcome libs db c
  cases c with
  | set_role | soft_delete => exact h
  | register | login | refresh | logout | require_user | purge_expired | assign_company | unassign_company =>
      exact hkeep hout (by simp) (by simp)

/-- **An administrator always remains.** In every interleaving of the sections of role changes and deletions by any
    number of clients, with any other calls between them: if there is an administrator at the start, there is one in
    every state, exactly if every `UPDATE` leaves one. -/
theorem admin_remains_iff (libs : AuthLibs) (db : AuthDb) (h : has_admin db = true)
    (run : List (Clients.Label Section Call)) :
    Along (Clients.step advance (meanwhile libs)) (Clients.Runs LeavesAdmin) (Clients.idle db) run ↔
      ∀ pre, pre <+: run →
        has_admin (exec (Clients.step advance (meanwhile libs)) (Clients.idle db) pre).shared = true :=
  Clients.everywhere_iff (I := fun db : AuthDb => has_admin db = true) leaves_admin_iff (has_admin_meanwhile libs) h
    run

/-! ## A client alone -/

/-- A role change whose sections follow each other is the role change. -/
theorem solo_set_role (libs : AuthLibs) (db : AuthDb) (client : Nat) (user_id : String) (role : UserRole) :
    ∃ n, exec (Clients.step advance (meanwhile libs)) (Clients.idle db)
        (.start client (.set_role user_id role) :: List.replicate n (.go client)) =
      Clients.idle (set_role user_id role db).2 := by
  cases hrow : find_user db.users user_id with
  | none =>
      have hfirst : advance db (.set_role user_id role) = (db, none) := by simp only [advance, hrow]
      rw [Auth.set_role, bind_of_error (get_of_none hrow)]
      exact ⟨1, Clients.solo (.last hfirst) rfl rfl⟩
  | some user =>
      rw [Auth.set_role, bind_of_ok (get_of_find hrow)]
      by_cases hsame : user.role = role
      · have hfirst : advance db (.set_role user_id role) = (db, none) := by
          simp only [advance, hrow, if_pos hsame]
        rw [if_pos hsame]
        exact ⟨1, Clients.solo (.last hfirst) rfl rfl⟩
      · have hfirst : advance db (.set_role user_id role) = (db, some (.check_demotion user_id role user)) := by
          simp only [advance, hrow, if_neg hsame]
        rw [if_neg hsame, read_bind, id]
        cases hcheck : check_demotion db.users user role with
        | error e =>
            have hsecond : advance db (.check_demotion user_id role user) = (db, none) := by
              simp only [advance, hcheck]
            exact ⟨2, Clients.solo (.more hfirst (.last hsecond)) rfl rfl⟩
        | ok _ =>
            have hsecond : advance db (.check_demotion user_id role user) =
                (db, some (.update_role user_id role)) := by simp only [advance, hcheck]
            exact ⟨3, Clients.solo (.more hfirst (.more hsecond (.last rfl))) rfl rfl⟩

/-- A deletion whose sections follow each other is the deletion. -/
theorem solo_soft_delete (libs : AuthLibs) (db : AuthDb) (client : Nat) (user_id : String) :
    ∃ n, exec (Clients.step advance (meanwhile libs)) (Clients.idle db)
        (.start client (.soft_delete user_id) :: List.replicate n (.go client)) =
      Clients.idle (soft_delete user_id db).2 := by
  cases hrow : find_user db.users user_id with
  | none =>
      have hfirst : advance db (.soft_delete user_id) = (db, none) := by simp only [advance, hrow]
      rw [Auth.soft_delete, bind_of_error (get_of_none hrow)]
      exact ⟨1, Clients.solo (.last hfirst) rfl rfl⟩
  | some user =>
      have hfirst : advance db (.soft_delete user_id) = (db, some (.check_deletion user_id user)) := by
        simp only [advance, hrow]
      rw [Auth.soft_delete, bind_of_ok (get_of_find hrow), read_bind, id]
      cases hcheck : check_deletion db.users user with
      | error e =>
          have hsecond : advance db (.check_deletion user_id user) = (db, none) := by simp only [advance, hcheck]
          exact ⟨2, Clients.solo (.more hfirst (.last hsecond)) rfl rfl⟩
      | ok _ =>
          have hsecond : advance db (.check_deletion user_id user) = (db, some (.bury user_id)) := by
            simp only [advance, hcheck]
          rw [ofExcept_ok_bind]
          rcases hbury : bury user_id db with ⟨e | _, db'⟩
          · have hthird : advance db (.bury user_id) = (db', none) := by simp only [advance, hbury]
            rw [bind_of_error hbury]
            exact ⟨3, Clients.solo (.more hfirst (.more hsecond (.last hthird))) rfl rfl⟩
          · have hthird : advance db (.bury user_id) = (db', some (.revoke_all user_id)) := by
              simp only [advance, hbury]
            rw [bind_of_ok hbury]
            exact ⟨4, Clients.solo (.more hfirst (.more hsecond (.more hthird (.last rfl)))) rfl rfl⟩

/-! ## Two administrators -/

def board_admin (user_id email : String) : UserRow :=
  { id := user_id, email, password_hash := "$2b$12$x", role := .ADMIN, created_at := 0 }

def two_admins : AuthDb :=
  { users := ⟨[board_admin "u1" "ann@board.io", board_admin "u2" "bob@board.io"], by decide⟩
    refresh_tokens := ⟨[], no_tokens⟩, company_assignments := ⟨[], no_assignments⟩ }

/-- No library is asked in these runs. -/
def no_libs : AuthLibs :=
  { normalise_email := id, hash_password := id, verify_password := fun _ _ => false, digest := id
    encode_access := fun user_id _ _ => user_id, decode_access := fun _ token => .ok token
    access_token_ttl := 900, refresh_token_ttl := 3600 }

/-- One of two administrators is demoted. -/
theorem admin_remains_one_of_two :
    has_admin (exec (Clients.step advance (meanwhile no_libs)) (Clients.idle two_admins)
      [.start 1 (.set_role "u1" .OPERATOR), .go 1, .go 1, .go 1]).shared = true :=
  (admin_remains_iff no_libs two_admins (by decide +kernel)
    [.start 1 (.set_role "u1" .OPERATOR), .go 1, .go 1, .go 1]).mp (by decide +kernel) _ List.prefix_rfl

/-- Two administrators demote each other at the same time: each count still finds both. -/
theorem both_admins_demoted :
    has_admin two_admins = true ∧
    has_admin (exec (Clients.step advance (meanwhile no_libs)) (Clients.idle two_admins)
      [.start 1 (.set_role "u2" .OPERATOR), .go 1, .go 1, .start 2 (.set_role "u1" .OPERATOR), .go 2, .go 2,
        .go 1, .go 2]).shared = false := by decide +kernel

end Auth

end CompanyFactory
