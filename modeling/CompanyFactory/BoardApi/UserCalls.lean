import CompanyFactory.BoardApi.Users

/-!
# `BoardApi.UserCalls` — what one call does to the tables

`Outcome` lists what a call of the services can leave behind, with what it returns; `outcome` is the inversion lemma
that all results about runs split on.
-/

namespace CompanyFactory

open Act BoardApi

namespace Auth

inductive Call where
  | register (r : Registration) (m : Mint)
  | login (email password : String) (m : Mint)
  | refresh (refresh_token : String) (m : Mint)
  | logout (refresh_token : String)
  | require_user (token : String) (now : Time)
  | purge_expired (before : Time)
  | set_role (user_id : String) (role : UserRole)
  | soft_delete (user_id : String)
  | assign_company (user_id company_id : String)
  | unassign_company (user_id company_id : String)
  deriving DecidableEq

inductive Reply where
  | session (user : UserRow) (pair : TokenPair)
  | user (user : UserRow)
  | changed (b : Bool)
  | count (n : Nat)
  | none
  deriving DecidableEq

def Call.run (libs : AuthLibs) : Call → Act AuthDb Exn Reply
  | .register r m => do
    let user ← Auth.register libs r m
    pure (.user user)
  | .login email password m => do
    let session ← Auth.login libs email password m
    pure (.session session.1 session.2)
  | .refresh refresh_token m => do
    let session ← Auth.refresh libs refresh_token m
    pure (.session session.1 session.2)
  | .logout refresh_token => do
    let b ← Auth.logout libs refresh_token
    pure (.changed b)
  | .require_user token now => do
    let user ← Auth.require_user libs token now
    pure (.user user)
  | .purge_expired before => do
    let n ← Auth.purge_expired before
    pure (.count n)
  | .set_role user_id role => do
    let user ← Auth.set_role user_id role
    pure (.user user)
  | .soft_delete user_id => do
    Auth.soft_delete user_id
    pure .none
  | .assign_company user_id company_id => do
    Auth.assign_company user_id company_id
    pure .none
  | .unassign_company user_id company_id => do
    Auth.unassign_company user_id company_id
    pure .none

/-- The reply opens no session. -/
def Quiet (r : Except Exn Reply) : Prop := ∀ user pair, r ≠ .ok (.session user pair)

theorem quiet_error (e : Exn) : Quiet (.error e) := fun _ _ h => by cases h

theorem quiet_user (r : Except Exn UserRow) : Quiet (r.map .user) := fun _ _ h => by
  cases r <;> cases h

/-- What a call can leave behind. -/
inductive Outcome (libs : AuthLibs) (db : AuthDb) : Call → Except Exn Reply → AuthDb → Prop where
  /-- it raises, or only reads; in either case it opens no session -/
  | same (c : Call) (r : Except Exn Reply) (hno : Quiet r) :
      Outcome libs db c r db
  | registered (r : Registration) (m : Mint) (reply : Except Exn Reply)
      (hno : Quiet reply)
      (h : UniqueUsers (db.users.rows ++ [registered libs db.users r m])) :
      Outcome libs db (.register r m) reply { db with users := ⟨_, h⟩ }
  /-- the login is written, but the token finds no room -/
  | touched (email password : String) (m : Mint) (row : UserRow) (e : Exn)
      (h : UniqueUsers (Table.update UserRow.id row.id (touched m.now) db.users.rows)) :
      Outcome libs db (.login email password m) (.error e) { db with users := ⟨_, h⟩ }
  | logged_in (email password : String) (m : Mint) (row : UserRow)
      (hrow : find_email db.users (libs.normalise_email email) = some row)
      (h : UniqueUsers (Table.update UserRow.id row.id (touched m.now) db.users.rows))
      (h' : UniqueTokens ((revoke (fun _ => false) db.refresh_tokens).rows ++ [minted libs row.id m])) :
      Outcome libs db (.login email password m)
        (.ok (.session (touched m.now row) (pair_of libs row.id row.role m)))
        { db with users := ⟨_, h⟩, refresh_tokens := ⟨_, h'⟩ }
  | refreshed (refresh_token : String) (m : Mint) (row : TokenRow) (user : UserRow)
      (hrow : swappable libs db.refresh_tokens refresh_token m.now = .ok row)
      (huser : find_user db.users row.user_id = some user)
      (h : UniqueTokens ((revoke (fun t => decide (t.id = row.id)) db.refresh_tokens).rows ++
        [minted libs row.user_id m])) :
      Outcome libs db (.refresh refresh_token m) (.ok (.session user (pair_of libs row.user_id user.role m)))
        { db with refresh_tokens := ⟨_, h⟩ }
  | logged_out (refresh_token : String) (b : Bool) (p : TokenRow → Bool) :
      Outcome libs db (.logout refresh_token) (.ok (.changed b))
        { db with refresh_tokens := revoke p db.refresh_tokens }
  | purged (before : Time) (n : Nat) (p : TokenRow → Bool) :
      Outcome libs db (.purge_expired before) (.ok (.count n))
        { db with refresh_tokens := delete_where p db.refresh_tokens }
  | role_set (user_id : String) (role : UserRole) (user : UserRow) (r : Except Exn Reply)
      (hno : Quiet r) (hrow : find_user db.users user_id = some user)
      (hcheck : check_demotion db.users user role = .ok ())
      (h : UniqueUsers (Table.update UserRow.id user_id (with_role role) db.users.rows)) :
      Outcome libs db (.set_role user_id role) r { db with users := ⟨_, h⟩ }
  | deleted (user_id : String) (user : UserRow) (p : TokenRow → Bool)
      (hrow : find_user db.users user_id = some user) (hcheck : check_deletion db.users user = .ok ())
      (h : UniqueUsers (Table.update UserRow.id user_id buried db.users.rows)) :
      Outcome libs db (.soft_delete user_id) (.ok .none)
        { db with users := ⟨_, h⟩, refresh_tokens := revoke p db.refresh_tokens }
  | assigned (c : Call) (table : AssignmentTable) :
      Outcome libs db c (.ok .none) { db with company_assignments := table }

section Inversion

variable (libs : AuthLibs) {db : AuthDb}

theorem get_same (user_id : String) (db : AuthDb) : (get user_id db).2 = db := by
  unfold get
  split <;> rfl

/-- An update of rows that keeps ids and deletions is seen through the lookup. -/
theorem find_user_map {g : UserRow → UserRow} (hid : ∀ u, (g u).id = u.id)
    (hdeleted : ∀ u, (g u).deleted = u.deleted) (users : UserTable) {rows : List UserRow} {h : UniqueUsers rows}
    (hrows : rows = users.rows.map g) (user_id : String) :
    find_user ⟨rows, h⟩ user_id = (find_user users user_id).map g := by
  subst hrows
  unfold find_user
  rw [List.find?_map]
  congr 2
  funext u
  simp [hid, hdeleted]

/-- The insert of a token goes through, or raises and leaves everything as it was. -/
theorem insert_token_cases (p : TokenRow → Bool) (row : TokenRow) (db : AuthDb) :
    (∃ h : UniqueTokens ((revoke p db.refresh_tokens).rows ++ [row]),
      insert_token p row db = (.ok (), { db with refresh_tokens := ⟨_, h⟩ })) ∨
    ∃ e, insert_token p row db = (.error e, db) := by
  unfold insert_token
  split
  · by_cases h : UniqueTokens ((revoke p db.refresh_tokens).rows ++ [row])
    · exact .inl ⟨h, dif_pos h⟩
    · exact .inr ⟨_, dif_neg h⟩
  · exact .inr ⟨_, rfl⟩

theorem then_pure {α β : Type} (m : Act AuthDb Exn α) (f : α → β) (db : AuthDb) :
    (m >>= fun a => pure (f a)) db = ((m db).1.map f, (m db).2) := by
  rw [bind_run]
  rcases m db with ⟨_ | _, _⟩ <;> rfl

/-- A call that changes nothing. -/
theorem same_outcome {α : Type} {c : Call} {m : Act AuthDb Exn α} {f : α → Reply} (hsame : (m db).2 = db)
    (hno : Quiet ((m db).1.map f)) : Outcome libs db c ((m db).1.map f) (m db).2 := by
  rw [hsame]
  exact .same c _ hno

theorem error_outcome {α : Type} {c : Call} {m : Act AuthDb Exn α} {f : α → Reply} {e : Exn}
    (h : m db = (.error e, db)) : Outcome libs db c ((m db).1.map f) (m db).2 := by
  rw [h]
  exact .same c _ (quiet_error e)

theorem register_outcome (r : Registration) (m : Mint) :
    Outcome libs db (.register r m) ((Auth.register libs r m db).1.map .user) (Auth.register libs r m db).2 := by
  cases hcheck : check_registration libs r with
  | error e =>
      refine error_outcome libs (e := e) ?_
      rw [Auth.register, hcheck]
      rfl
  | ok _ =>
      rw [Auth.register, hcheck, ofExcept_ok_bind, read_bind, attempt_bind, id]
      by_cases h : UniqueUsers (db.users.rows ++ [registered libs db.users r m])
      · -- the insert goes through, and the new row is read back
        have hwrite : write_users (fun rows => rows ++ [registered libs db.users r m]) db =
            (.ok (), { db with users := ⟨_, h⟩ }) := dif_pos h
        rw [hwrite]
        dsimp only
        rw [get_same]
        exact .registered r m _ (quiet_user _) h
      · have hwrite : write_users (fun rows => rows ++ [registered libs db.users r m]) db =
            (.error (integrity_error "UNIQUE"), db) := dif_neg h
        rw [hwrite]
        exact .same _ _ (quiet_error _)

theorem login_outcome (email password : String) (m : Mint) :
    Outcome libs db (.login email password m)
      ((Auth.login libs email password m db).1.map fun session => .session session.1 session.2)
      (Auth.login libs email password m db).2 := by
  cases hrow : find_email db.users (libs.normalise_email email) with
  | none =>
      refine error_outcome libs (e := .other "InvalidCredentials" "bad_email_or_password") ?_
      rw [Auth.login, read_bind, id, hrow]
      rfl
  | some row =>
      cases hverify : libs.verify_password password row.password_hash with
      | false =>
          refine error_outcome libs (e := .other "InvalidCredentials" "bad_email_or_password") ?_
          rw [Auth.login, read_bind, id, hrow]
          dsimp only
          rw [hverify]
          rfl
      | true =>
          obtain ⟨hid, hdel⟩ : (∀ u, (if u.id = row.id then touched m.now u else u).id = u.id) ∧
              ∀ u, (if u.id = row.id then touched m.now u else u).deleted = u.deleted := by
            constructor <;> intro u <;> split <;> rfl
          obtain ⟨h, hwrite⟩ := @write_users_keys db _ hid fun u => by split <;> rfl
          have hlogin : Auth.login libs email password m db = (issue_pair libs row.id row.role m >>=
              fun pair => get row.id >>= fun user => pure (user, pair)) { db with users := ⟨_, h⟩ } := by
            rw [Auth.login, read_bind, id, hrow]
            dsimp only
            rw [hverify]
            exact bind_of_ok hwrite
          rw [hlogin, issue_pair]
          obtain ⟨h', hinsert⟩ | ⟨e, hinsert⟩ := insert_token_cases (fun _ => false) (minted libs row.id m)
            { db with users := ⟨_, h⟩ }
          · have hget : get row.id { db with users := ⟨_, h⟩, refresh_tokens := ⟨_, h'⟩ } =
                (.ok (touched m.now row), { db with users := ⟨_, h⟩, refresh_tokens := ⟨_, h'⟩ }) := by
              refine get_of_find ?_
              rw [find_user_map hid hdel db.users rfl, find_email_user hrow, Option.map_some, if_pos rfl]
            have hissue : (insert_token (fun _ => false) (minted libs row.id m) >>=
                fun _ => pure (pair_of libs row.id row.role m)) { db with users := ⟨_, h⟩ } = _ :=
              bind_of_ok hinsert
            rw [bind_of_ok hissue, bind_of_ok hget]
            exact .logged_in email password m row hrow h h'
          · -- the token is refused, and the time of the login stays
            rw [bind_of_error (bind_of_error hinsert)]
            exact .touched email password m row e h

/-- Where `swap_refresh` ends. -/
theorem swap_cases (refresh_token : String) (role : UserRole) (m : Mint) (db : AuthDb) :
    (∃ row, ∃ h : UniqueTokens ((revoke (fun t => decide (t.id = row.id)) db.refresh_tokens).rows ++
        [minted libs row.user_id m]),
      swappable libs db.refresh_tokens refresh_token m.now = .ok row ∧
      swap_refresh libs refresh_token role m db =
        (.ok (pair_of libs row.user_id role m), { db with refresh_tokens := ⟨_, h⟩ })) ∨
    ∃ e, swap_refresh libs refresh_token role m db = (.error e, db) := by
  rw [swap_refresh, read_bind, id]
  cases hrow : swappable libs db.refresh_tokens refresh_token m.now with
  | error e => exact .inr ⟨e, rfl⟩
  | ok row =>
      rw [ofExcept_ok_bind]
      obtain ⟨h, hinsert⟩ | ⟨e, hinsert⟩ := insert_token_cases (fun t => decide (t.id = row.id))
        (minted libs row.user_id m) db
      · rw [bind_of_ok hinsert]
        exact .inl ⟨row, h, rfl, rfl⟩
      · exact .inr ⟨e, bind_of_error hinsert⟩

/-- A token that can be swapped has a row that is neither revoked nor expired. -/
theorem swappable_ok {tokens : TokenTable} {refresh_token : String} {now : Time} {row : TokenRow}
    (h : swappable libs tokens refresh_token now = .ok row) :
    row ∈ tokens.rows ∧ row.token_hash = libs.digest refresh_token ∧ row.revoked = false ∧ now < row.expires_at := by
  unfold swappable at h
  cases hfind : Table.find TokenRow.token_hash tokens.rows (libs.digest refresh_token) with
  | none => rw [hfind] at h; cases h
  | some found =>
      rw [hfind] at h
      dsimp only at h
      split_ifs at h with hrevoked hexpired
      obtain rfl := Except.ok.inj h
      exact ⟨Table.mem_of_find hfind, Table.key_of_find hfind, by simpa using hrevoked, Int.not_le.mp hexpired⟩

theorem refresh_outcome (refresh_token : String) (m : Mint) :
    Outcome libs db (.refresh refresh_token m)
      ((Auth.refresh libs refresh_token m db).1.map fun session => .session session.1 session.2)
      (Auth.refresh libs refresh_token m db).2 := by
  cases hfind : db.refresh_tokens.rows.find?
      (fun t => decide (t.token_hash = libs.digest refresh_token) && !t.revoked) with
  | none =>
      have hrefresh : Auth.refresh libs refresh_token m db = (swap_refresh libs refresh_token .OBSERVER m >>=
          fun _ => Act.raise (.other "InvalidCredentials" "refresh_unknown")) db := by
        rw [Auth.refresh, read_bind, id, hfind]
      rw [hrefresh]
      obtain ⟨row, h, hrow, -⟩ | ⟨e, hswap⟩ := swap_cases libs refresh_token .OBSERVER m db
      · -- the codec raises too: it looks for the same row
        obtain ⟨hmem, hhash, hlive, -⟩ := swappable_ok libs hrow
        have hno := List.find?_eq_none.mp hfind row hmem
        simp [hhash, hlive] at hno
      · rw [bind_of_error hswap]
        exact .same _ _ (quiet_error _)
  | some first =>
      have hrefresh : Auth.refresh libs refresh_token m db = (get first.user_id >>= fun user =>
          swap_refresh libs refresh_token user.role m >>= fun pair => pure (user, pair)) db := by
        rw [Auth.refresh, read_bind, id, hfind]
      rw [hrefresh]
      cases huser : find_user db.users first.user_id with
      | none =>
          rw [bind_of_error (get_of_none huser)]
          exact .same _ _ (quiet_error _)
      | some user =>
          rw [bind_of_ok (get_of_find huser)]
          obtain ⟨row, h, hrow, hswap⟩ | ⟨e, hswap⟩ := swap_cases libs refresh_token user.role m db
          · rw [bind_of_ok hswap]
            have hp := List.find?_some hfind
            simp only [Bool.and_eq_true, decide_eq_true_eq] at hp
            obtain ⟨hmem, hhash, -, -⟩ := swappable_ok libs hrow
            -- the row that `refresh` found and the one that the codec found have the same digest
            have hsame : first = row := List.inj_on_of_nodup_map db.refresh_tokens.unique.2
              (List.mem_of_find?_eq_some hfind) hmem (hp.1.trans hhash.symm)
            exact .refreshed refresh_token m row user hrow (hsame ▸ huser) h
          · rw [bind_of_error hswap]
            exact .same _ _ (quiet_error _)

theorem set_role_outcome (user_id : String) (role : UserRole) :
    Outcome libs db (.set_role user_id role) ((Auth.set_role user_id role db).1.map .user)
      (Auth.set_role user_id role db).2 := by
  cases hrow : find_user db.users user_id with
  | none =>
      refine error_outcome libs (e := .other "UserNotFound" user_id) ?_
      rw [Auth.set_role, bind_of_error (get_of_none hrow)]
  | some user =>
      rw [Auth.set_role, bind_of_ok (get_of_find hrow)]
      split
      · exact .same _ _ (quiet_user (.ok user))
      · rw [read_bind, id]
        cases hcheck : check_demotion db.users user role with
        | error e => exact .same _ _ (quiet_error _)
        | ok _ =>
            obtain ⟨h, hwrite⟩ := @write_users_keys db
              (fun u => if u.id = user_id then with_role role u else u)
              (fun u => by split <;> rfl) (fun u => by split <;> rfl)
            rw [ofExcept_ok_bind, update_role]
            have hupdate : write_users (Table.update UserRow.id user_id (with_role role)) db =
                (.ok (), { db with users := ⟨_, h⟩ }) := hwrite
            rw [bind_of_ok hupdate, get_same]
            exact .role_set user_id role user _ (quiet_user _) hrow hcheck h

theorem soft_delete_outcome (user_id : String) :
    Outcome libs db (.soft_delete user_id) ((Auth.soft_delete user_id db).1.map fun _ => .none)
      (Auth.soft_delete user_id db).2 := by
  cases hrow : find_user db.users user_id with
  | none =>
      refine error_outcome libs (e := .other "UserNotFound" user_id) ?_
      rw [Auth.soft_delete, bind_of_error (get_of_none hrow)]
  | some user =>
      rw [Auth.soft_delete, bind_of_ok (get_of_find hrow), read_bind, id]
      cases hcheck : check_deletion db.users user with
      | error e => exact .same _ _ (quiet_error _)
      | ok _ =>
          rw [ofExcept_ok_bind, bury]
          by_cases h : UniqueUsers (Table.update UserRow.id user_id buried db.users.rows)
          · have hwrite : write_users (Table.update UserRow.id user_id buried) db =
                (.ok (), { db with users := ⟨_, h⟩ }) := dif_pos h
            rw [bind_of_ok hwrite]
            exact .deleted user_id user _ hrow hcheck h
          · have hwrite : write_users (Table.update UserRow.id user_id buried) db =
                (.error (integrity_error "UNIQUE"), db) := dif_neg h
            rw [bind_of_error hwrite]
            exact .same _ _ (quiet_error _)

/-- **Inversion.** What a call leaves behind is one of the listed outcomes. -/
theorem outcome (db : AuthDb) (c : Call) : Outcome libs db c (c.run libs db).1 (c.run libs db).2 := by
  cases c with
  | register r m =>
      rw [Call.run, then_pure]
      exact register_outcome libs r m
  | login email password m =>
      rw [Call.run, then_pure]
      exact login_outcome libs email password m
  | refresh refresh_token m =>
      rw [Call.run, then_pure]
      exact refresh_outcome libs refresh_token m
  | logout refresh_token => exact .logged_out refresh_token _ _
  | require_user token now =>
      rw [Call.run, then_pure]
      refine same_outcome libs ?_ (quiet_user _)
      rw [Auth.require_user]
      cases libs.decode_access now token with
      | error e => rfl
      | ok sub =>
          rw [ofExcept_ok_bind]
          exact get_same sub db
  | purge_expired before => exact .purged before _ _
  | set_role user_id role =>
      rw [Call.run, then_pure]
      exact set_role_outcome libs user_id role
  | soft_delete user_id =>
      rw [Call.run, then_pure]
      exact soft_delete_outcome libs user_id
  | assign_company user_id company_id =>
      rw [Call.run, then_pure]
      unfold Auth.assign_company
      split
      · exact .same _ _ fun _ _ h => by cases h
      · split
        · exact .assigned _ _
        · exact .same _ _ (quiet_error _)
  | unassign_company user_id company_id => exact .assigned _ _

end Inversion

end Auth

end CompanyFactory
