import CompanyFactory.EventStore.Store
import CompanyFactory.Lib.Table

/-!
# `BoardApi.Users` — board users, their refresh tokens and their companies

`AuthService` and `JWTCodec` over their three tables. The tables carry what their keys promise: ids, emails and
token digests are unique, so a write that would break this raises and nothing is written.

* Password hashing, SHA-256 and the signed access tokens are other packages: they are the fields of `AuthLibs`.
* What a call draws — the clock, a random token, an id — is its `Mint`.
* ISO timestamps in UTC sort like the moments they stand for, so `expires_at <= ?` is a comparison of times.
-/

namespace CompanyFactory

open Act

namespace BoardApi

inductive UserRole where
  | ADMIN | OPERATOR | OBSERVER
  deriving DecidableEq, Repr

def UserRole.value : UserRole → String
  | .ADMIN => "admin"
  | .OPERATOR => "operator"
  | .OBSERVER => "observer"

/-- A row of `users`. -/
structure UserRow where
  id : String
  email : String
  password_hash : String
  role : UserRole
  created_at : Time
  last_login : Option Time := none
  deleted : Bool := false
  deriving DecidableEq

/-- An administrator who is not deleted. -/
def UserRow.admin (u : UserRow) : Bool := decide (u.role = .ADMIN) && !u.deleted

/-- A row of `refresh_tokens`. -/
structure TokenRow where
  id : String
  user_id : String
  token_hash : String
  expires_at : Time
  issued_at : Time
  revoked : Bool := false
  deriving DecidableEq

structure TokenPair where
  access_token : String
  refresh_token : String
  access_expires_at : Time
  refresh_expires_at : Time
  refresh_id : String
  deriving DecidableEq

/-- The keys of `users`. -/
def UniqueUsers (rows : List UserRow) : Prop :=
  (rows.map UserRow.id).Nodup ∧ (rows.map UserRow.email).Nodup

instance (rows : List UserRow) : Decidable (UniqueUsers rows) := inferInstanceAs (Decidable (_ ∧ _))

/-- The keys of `refresh_tokens`. -/
def UniqueTokens (rows : List TokenRow) : Prop :=
  (rows.map TokenRow.id).Nodup ∧ (rows.map TokenRow.token_hash).Nodup

instance (rows : List TokenRow) : Decidable (UniqueTokens rows) := inferInstanceAs (Decidable (_ ∧ _))

structure UserTable where
  rows : List UserRow
  unique : UniqueUsers rows

structure TokenTable where
  rows : List TokenRow
  unique : UniqueTokens rows

/-- The table `company_assignments`; its key is the whole row. -/
structure AssignmentTable where
  rows : List (String × String)
  unique : rows.Nodup

theorem no_tokens : UniqueTokens [] := ⟨List.nodup_nil, List.nodup_nil⟩

theorem no_assignments : ([] : List (String × String)).Nodup := List.nodup_nil

/-- What the services use of other packages, and two settings. -/
structure AuthLibs where
  /-- `email.strip().lower()` -/
  normalise_email : String → String
  hash_password : String → String
  verify_password : String → String → Bool
  /-- `hashlib.sha256(token).hexdigest()` -/
  digest : String → String
  /-- `jwt.encode` of an access token -/
  encode_access : String → UserRole → Time → String
  /-- `decode_access(token).sub`, at a time -/
  decode_access : Time → String → Except Exn String
  access_token_ttl : Time
  refresh_token_ttl : Time

/-- What a call draws. -/
structure Mint where
  now : Time
  /-- `secrets.token_urlsafe(48)` -/
  token : String
  /-- `uuid4().hex` -/
  id : String
  deriving DecidableEq

end BoardApi

open BoardApi

/-- The tables of the board database that the two services own. -/
structure AuthDb where
  users : UserTable
  refresh_tokens : TokenTable
  company_assignments : AssignmentTable

namespace Auth

def integrity_error (constraint : String) : Exn := .other "IntegrityError" (constraint ++ " constraint failed")

/-- A transaction that writes users. -/
def write_users (f : List UserRow → List UserRow) : Act AuthDb Exn Unit := fun db =>
  if h : UniqueUsers (f db.users.rows) then (.ok (), { db with users := ⟨f db.users.rows, h⟩ })
  else (.error (integrity_error "UNIQUE"), db)

/-! ## Queries -/

/-- `WHERE id = ? AND deleted = 0` -/
def find_user (users : UserTable) (user_id : String) : Option UserRow :=
  users.rows.find? (fun u => decide (u.id = user_id) && !u.deleted)

def get (user_id : String) : Act AuthDb Exn UserRow := fun db =>
  match find_user db.users user_id with
  | none => (.error (.other "UserNotFound" user_id), db)
  | some user => (.ok user, db)

/-- `WHERE email = ? AND deleted = 0` -/
def find_email (users : UserTable) (email : String) : Option UserRow :=
  users.rows.find? (fun u => decide (u.email = email) && !u.deleted)

def count_admins (users : UserTable) : Nat := users.rows.countP UserRow.admin

/-! ## Refresh tokens -/

/-- `UPDATE refresh_tokens SET revoked = 1 WHERE …` -/
def revoke_where (p : TokenRow → Bool) (t : TokenRow) : TokenRow :=
  if p t then { t with revoked := true } else t

@[simp] theorem revoke_where_id (p : TokenRow → Bool) (t : TokenRow) : (revoke_where p t).id = t.id := by
  unfold revoke_where
  split <;> rfl

@[simp] theorem revoke_where_hash (p : TokenRow → Bool) (t : TokenRow) :
    (revoke_where p t).token_hash = t.token_hash := by
  unfold revoke_where
  split <;> rfl

theorem unique_revoke {rows : List TokenRow} (h : UniqueTokens rows) (p : TokenRow → Bool) :
    UniqueTokens (rows.map (revoke_where p)) := by
  refine ⟨?_, ?_⟩
  · rw [Table.keys_update (revoke_where_id p)]
    exact h.1
  · rw [Table.keys_update (revoke_where_hash p)]
    exact h.2

def revoke (p : TokenRow → Bool) (tokens : TokenTable) : TokenTable :=
  ⟨tokens.rows.map (revoke_where p), unique_revoke tokens.unique p⟩

/-- `DELETE FROM refresh_tokens WHERE …` -/
def delete_where (p : TokenRow → Bool) (tokens : TokenTable) : TokenTable :=
  ⟨tokens.rows.filter (fun t => !p t), tokens.unique.1.sublist (List.filter_sublist.map _),
    tokens.unique.2.sublist (List.filter_sublist.map _)⟩

/-- A transaction that revokes tokens and inserts one, for a user that must exist. -/
def insert_token (p : TokenRow → Bool) (row : TokenRow) : Act AuthDb Exn Unit := fun db =>
  if db.users.rows.any (fun u => decide (u.id = row.user_id)) then
    if h : UniqueTokens ((revoke p db.refresh_tokens).rows ++ [row]) then
      (.ok (), { db with refresh_tokens := ⟨_, h⟩ })
    else (.error (integrity_error "UNIQUE"), db)
  else (.error (integrity_error "FOREIGN KEY"), db)

def minted (libs : AuthLibs) (user_id : String) (m : Mint) : TokenRow :=
  { id := m.id, user_id, token_hash := libs.digest m.token
    expires_at := m.now + libs.refresh_token_ttl, issued_at := m.now }

def pair_of (libs : AuthLibs) (user_id : String) (role : UserRole) (m : Mint) : TokenPair :=
  { access_token := libs.encode_access user_id role m.now, refresh_token := m.token
    access_expires_at := m.now + libs.access_token_ttl
    refresh_expires_at := m.now + libs.refresh_token_ttl, refresh_id := m.id }

def issue_pair (libs : AuthLibs) (user_id : String) (role : UserRole) (m : Mint) : Act AuthDb Exn TokenPair := do
  insert_token (fun _ => false) (minted libs user_id m)
  pure (pair_of libs user_id role m)

/-- The checks of `swap_refresh`, inside its transaction. -/
def swappable (libs : AuthLibs) (tokens : TokenTable) (refresh_token : String) (now : Time) :
    Except Exn TokenRow :=
  match Table.find TokenRow.token_hash tokens.rows (libs.digest refresh_token) with
  | none => .error (.other "TokenInvalid" "refresh_unknown")
  | some row =>
    if row.revoked then .error (.other "TokenRevoked" "refresh_revoked")
    else if row.expires_at ≤ now then .error (.other "TokenExpired" "refresh_expired")
    else .ok row

def swap_refresh (libs : AuthLibs) (refresh_token : String) (role : UserRole) (m : Mint) :
    Act AuthDb Exn TokenPair := do
  let db ← Act.read id
  let row ← Act.ofExcept (swappable libs db.refresh_tokens refresh_token m.now)
  -- the old row is revoked and the new one inserted, or neither
  insert_token (fun t => decide (t.id = row.id)) (minted libs row.user_id m)
  pure (pair_of libs row.user_id role m)

def revoke_refresh (libs : AuthLibs) (refresh_token : String) : Act AuthDb Exn Bool := fun db =>
  let p (t : TokenRow) := decide (t.token_hash = libs.digest refresh_token) && !t.revoked
  (.ok (db.refresh_tokens.rows.any p), { db with refresh_tokens := revoke p db.refresh_tokens })

def revoke_all_for_user (user_id : String) : Act AuthDb Exn Nat := fun db =>
  let p (t : TokenRow) := decide (t.user_id = user_id) && !t.revoked
  (.ok (db.refresh_tokens.rows.countP p), { db with refresh_tokens := revoke p db.refresh_tokens })

def purge_expired (before : Time) : Act AuthDb Exn Nat := fun db =>
  let p (t : TokenRow) := decide (t.expires_at ≤ before) || t.revoked
  (.ok (db.refresh_tokens.rows.countP p), { db with refresh_tokens := delete_where p db.refresh_tokens })

/-! ## The life of a user -/

/-- The arguments of `register`. -/
structure Registration where
  email : String
  password : String
  role : Option UserRole
  deriving DecidableEq

def check_registration (libs : AuthLibs) (r : Registration) : Except Exn Unit :=
  let normalised := libs.normalise_email r.email
  if normalised = "" ∨ !normalised.contains '@' then .error (.valueError "invalid_email")
  else if r.password.length < 8 then .error (.valueError "password_too_short")
  else .ok ()

def registered (libs : AuthLibs) (users : UserTable) (r : Registration) (m : Mint) : UserRow :=
  { id := m.id, email := libs.normalise_email r.email, password_hash := libs.hash_password r.password
    -- the first account becomes an administrator, whatever role was asked for
    role := if count_admins users = 0 then .ADMIN else r.role.getD .OBSERVER
    created_at := m.now }

def register (libs : AuthLibs) (r : Registration) (m : Mint) : Act AuthDb Exn UserRow := do
  Act.ofExcept (check_registration libs r)
  let db ← Act.read id
  let inserted ← Act.attempt (write_users fun rows => rows ++ [registered libs db.users r m])
  match inserted with
  | .error _ => Act.raise (.other "EmailAlreadyExists" (libs.normalise_email r.email))
  | .ok () => get m.id

/-- Write the time of the login. -/
def touched (now : Time) (u : UserRow) : UserRow := { u with last_login := some now }

def login (libs : AuthLibs) (email password : String) (m : Mint) : Act AuthDb Exn (UserRow × TokenPair) := do
  let db ← Act.read id
  match find_email db.users (libs.normalise_email email) with
  | none => Act.raise (.other "InvalidCredentials" "bad_email_or_password")
  | some row =>
    if !libs.verify_password password row.password_hash then
      -- the same answer as for an unknown address
      Act.raise (.other "InvalidCredentials" "bad_email_or_password")
    else do
      write_users (Table.update UserRow.id row.id (touched m.now))
      let pair ← issue_pair libs row.id row.role m
      let user ← get row.id
      pure (user, pair)

def refresh (libs : AuthLibs) (refresh_token : String) (m : Mint) : Act AuthDb Exn (UserRow × TokenPair) := do
  let db ← Act.read id
  match db.refresh_tokens.rows.find?
      (fun t => decide (t.token_hash = libs.digest refresh_token) && !t.revoked) with
  | none => do
    -- the codec says what is wrong with the token
    let _ ← swap_refresh libs refresh_token .OBSERVER m
    Act.raise (.other "InvalidCredentials" "refresh_unknown")
  | some row => do
    let user ← get row.user_id
    let pair ← swap_refresh libs refresh_token user.role m
    pure (user, pair)

def logout (libs : AuthLibs) (refresh_token : String) : Act AuthDb Exn Bool := revoke_refresh libs refresh_token

/-- `deps.require_user`, for a request with a token. -/
def require_user (libs : AuthLibs) (token : String) (now : Time) : Act AuthDb Exn UserRow := do
  let sub ← Act.ofExcept (libs.decode_access now token)
  get sub

def with_role (role : UserRole) (u : UserRow) : UserRow := { u with role }

/-- `UPDATE users SET role = ? WHERE id = ?` -/
def update_role (user_id : String) (role : UserRole) : Act AuthDb Exn UserRow := do
  write_users (Table.update UserRow.id user_id (with_role role))
  get user_id

/-- The last administrator must not be demoted. -/
def check_demotion (users : UserTable) (user : UserRow) (role : UserRole) : Except Exn Unit :=
  if user.role = .ADMIN ∧ role ≠ .ADMIN ∧ count_admins users ≤ 1 then
    .error (.valueError "cannot_demote_last_admin")
  else .ok ()

def set_role (user_id : String) (role : UserRole) : Act AuthDb Exn UserRow := do
  let user ← get user_id
  if user.role = role then pure user
  else do
    let db ← Act.read id
    Act.ofExcept (check_demotion db.users user role)
    update_role user_id role

/-- A deleted user gives the email free. -/
def buried (u : UserRow) : UserRow :=
  { u with deleted := true, email := u.email ++ ":deleted:" ++ u.id }

def bury (user_id : String) : Act AuthDb Exn Unit := write_users (Table.update UserRow.id user_id buried)

/-- The last administrator must not be deleted. -/
def check_deletion (users : UserTable) (user : UserRow) : Except Exn Unit :=
  if user.role = .ADMIN ∧ count_admins users ≤ 1 then .error (.valueError "cannot_delete_last_admin")
  else .ok ()

def soft_delete (user_id : String) : Act AuthDb Exn Unit := do
  let user ← get user_id
  let db ← Act.read id
  Act.ofExcept (check_deletion db.users user)
  bury user_id
  -- in a transaction of its own
  let _ ← revoke_all_for_user user_id
  pure ()

/-! ## Assignments -/

/-- `INSERT OR IGNORE`: a row that is there is passed over, but the user must exist. -/
def assign_company (user_id company_id : String) : Act AuthDb Exn Unit := fun db =>
  if h : (user_id, company_id) ∈ db.company_assignments.rows then (.ok (), db)
  else if db.users.rows.any (fun u => decide (u.id = user_id)) then
    (.ok (), { db with company_assignments :=
      ⟨db.company_assignments.rows ++ [(user_id, company_id)],
        List.nodup_append.mpr ⟨db.company_assignments.unique, List.nodup_singleton _,
          fun _ hmem _ hnew heq => h (List.mem_singleton.mp hnew ▸ heq ▸ hmem)⟩⟩ })
  else (.error (integrity_error "FOREIGN KEY"), db)

def unassign_company (user_id company_id : String) : Act AuthDb Exn Unit := fun db =>
  (.ok (), { db with company_assignments :=
    ⟨db.company_assignments.rows.filter (fun row => decide (row ≠ (user_id, company_id))),
      db.company_assignments.unique.filter _⟩ })

def assignments (db : AuthDb) (user_id : String) : List String :=
  (db.company_assignments.rows.filter (fun row => decide (row.1 = user_id))).map Prod.snd

/-! ## Lookups -/

section Lookups

variable {users : UserTable} {user_id : String} {user : UserRow}

theorem find_user_iff : find_user users user_id = some user ↔
    user ∈ users.rows ∧ user.id = user_id ∧ user.deleted = false := by
  constructor
  · intro h
    have hp := List.find?_some h
    simp only [Bool.and_eq_true, decide_eq_true_eq, Bool.not_eq_true'] at hp
    exact ⟨List.mem_of_find?_eq_some h, hp⟩
  · rintro ⟨hmem, hid, hlive⟩
    cases hfind : find_user users user_id with
    | none =>
        have hno := List.find?_eq_none.mp hfind user hmem
        simp [hid, hlive] at hno
    | some other =>
        have hp := List.find?_some hfind
        simp only [Bool.and_eq_true, decide_eq_true_eq] at hp
        have hsame := List.inj_on_of_nodup_map users.unique.1 (List.mem_of_find?_eq_some hfind) hmem
          (hp.1.trans hid.symm)
        rw [hsame]

theorem get_of_find {db : AuthDb} (h : find_user db.users user_id = some user) : get user_id db = (.ok user, db) := by
  rw [get, h]

theorem get_of_none {db : AuthDb} (h : find_user db.users user_id = none) :
    get user_id db = (.error (.other "UserNotFound" user_id), db) := by
  rw [get, h]

/-- The user found by email is the one with that id. -/
theorem find_email_user {email : String} (h : find_email users email = some user) :
    find_user users user.id = some user := by
  have hp := List.find?_some h
  simp only [Bool.and_eq_true, Bool.not_eq_true'] at hp
  exact find_user_iff.mpr ⟨List.mem_of_find?_eq_some h, rfl, hp.2⟩

end Lookups

/-- An update that leaves ids and emails alone goes through. -/
theorem write_users_keys {db : AuthDb} {g : UserRow → UserRow} (hid : ∀ u, (g u).id = u.id)
    (hemail : ∀ u, (g u).email = u.email) :
    ∃ h, write_users (List.map g) db = (.ok (), { db with users := ⟨db.users.rows.map g, h⟩ }) := by
  have h : UniqueUsers (db.users.rows.map g) := by
    refine ⟨?_, ?_⟩
    · rw [Table.keys_update hid]
      exact db.users.unique.1
    · rw [Table.keys_update hemail]
      exact db.users.unique.2
  exact ⟨h, dif_pos h⟩

end Auth

end CompanyFactory
