import CompanyFactory.BoardApi.UserCalls
import CompanyFactory.Lib.Run
import Mathlib.Logic.Relation

/-!
# `BoardApi.Tokens` — the rotation of refresh tokens

`refresh` exchanges a token for a new one and revokes it. A `World` keeps, beside the tables, the digests of all
tokens drawn so far and the exchanges, as pairs of an old and a new digest. The chains of rotation are the chains
of this relation.

* A token that is exchanged is live before and not afterwards (`exchange_live`), and only a token drawn in the call
  becomes live (`live_step`). So what is no longer live stays so (`dead_stays`), **if no digest is drawn twice**:
  that is what `Fresh` asks of the generator of tokens. The table would forget a digest with its row.
* Exchanged once, a token has one successor; of two tokens of a chain one is then behind the other
  (`chain_live_unique`).
-/

namespace CompanyFactory

open Act BoardApi Machine

namespace Auth

/-- The tables, with the digests drawn so far and the exchanges. -/
structure World where
  db : AuthDb
  drawn : List String
  exchanged : List (String × String)

/-- The digest of the refresh token that a call draws. -/
def Call.draws (libs : AuthLibs) : Call → List String
  | .login _ _ m | .refresh _ m => [libs.digest m.token]
  | _ => []

/-- What a call exchanges: the token it was given, for the one it returns. -/
def exchange (libs : AuthLibs) : Call → Except Exn Reply → List (String × String)
  | .refresh refresh_token _, .ok (.session _ pair) =>
    [(libs.digest refresh_token, libs.digest pair.refresh_token)]
  | _, _ => []

namespace World

def step (libs : AuthLibs) (w : World) (c : Call) : World :=
  { db := (c.run libs w.db).2
    drawn := w.drawn ++ c.draws libs
    exchanged := w.exchanged ++ exchange libs c (c.run libs w.db).1 }

/-- The tables as they are found; their tokens have been drawn before. -/
def start (db : AuthDb) : World :=
  { db, drawn := db.refresh_tokens.rows.map TokenRow.token_hash, exchanged := [] }

/-- **The generator.** `secrets.token_urlsafe` draws a token whose digest has not been seen. -/
def Fresh (libs : AuthLibs) (w : World) (c : Call) : Prop := ∀ h ∈ c.draws libs, h ∉ w.drawn

instance (libs : AuthLibs) (w : World) (c : Call) : Decidable (Fresh libs w c) :=
  inferInstanceAs (Decidable (∀ h ∈ c.draws libs, h ∉ w.drawn))

/-- One exchange. -/
def Exchanged (w : World) (old new : String) : Prop := (old, new) ∈ w.exchanged

end World

/-- A row with the digest is not revoked. -/
def Live (db : AuthDb) (h : String) : Prop :=
  ∃ t ∈ db.refresh_tokens.rows, t.token_hash = h ∧ t.revoked = false

/-- The row of the user says so. -/
def Deleted (db : AuthDb) (user_id : String) : Prop :=
  ∃ u ∈ db.users.rows, u.id = user_id ∧ u.deleted = true

/-! ## What one call does to the tokens -/

section Tokens

variable {libs : AuthLibs} {db db' : AuthDb} {c : Call} {r : Except Exn Reply} {h : String}

theorem mem_revoke {p : TokenRow → Bool} {tokens : TokenTable} {t : TokenRow} (ht : t ∈ (revoke p tokens).rows) :
    ∃ t' ∈ tokens.rows, t'.token_hash = t.token_hash ∧ (t.revoked = false → t'.revoked = false ∧ p t' = false) := by
  obtain ⟨t', ht', rfl⟩ := List.mem_map.mp ht
  refine ⟨t', ht', (revoke_where_hash p t').symm, fun hlive => ?_⟩
  unfold revoke_where at hlive
  split at hlive
  · cases hlive
  · rename_i hp
    exact ⟨hlive, by simpa using hp⟩

/-- **Rows** that a call leaves: a row was there before with its digest, and was live if it is; or its digest has
    been drawn by the call. -/
theorem row_step (hout : Outcome libs db c r db') {t : TokenRow} (ht : t ∈ db'.refresh_tokens.rows) :
    (∃ t' ∈ db.refresh_tokens.rows, t'.token_hash = t.token_hash ∧ (t.revoked = false → t'.revoked = false)) ∨
      t.token_hash ∈ c.draws libs := by
  have hrevoked {p : TokenRow → Bool} (ht : t ∈ (revoke p db.refresh_tokens).rows) :
      ∃ t' ∈ db.refresh_tokens.rows, t'.token_hash = t.token_hash ∧ (t.revoked = false → t'.revoked = false) := by
    obtain ⟨t', hmem, hhash, hlive⟩ := mem_revoke ht
    exact ⟨t', hmem, hhash, fun h => (hlive h).1⟩
  cases hout with
  | same | registered | touched | role_set | assigned => exact .inl ⟨t, ht, rfl, id⟩
  | logged_in email password m row =>
      -- a login revokes nothing, and adds the token it drew
      obtain hold | hnew := List.mem_append.mp ht
      · exact .inl (hrevoked hold)
      · obtain rfl := List.mem_singleton.mp hnew
        exact .inr (List.mem_singleton.mpr rfl)
  | refreshed refresh_token m row user =>
      obtain hold | hnew := List.mem_append.mp ht
      · exact .inl (hrevoked hold)
      · obtain rfl := List.mem_singleton.mp hnew
        exact .inr (List.mem_singleton.mpr rfl)
  | logged_out | deleted => exact .inl (hrevoked ht)
  | purged => exact .inl ⟨t, (List.mem_filter.mp ht).1, rfl, id⟩

/-- A token is live after a call only if it was before, or the call drew it. -/
theorem live_step (hout : Outcome libs db c r db') (hlive : Live db' h) : Live db h ∨ h ∈ c.draws libs := by
  obtain ⟨t, ht, rfl, hrevoked⟩ := hlive
  obtain ⟨t', ht', hhash, hkept⟩ | hdrawn := row_step hout ht
  · exact .inl ⟨t', ht', hhash, hkept hrevoked⟩
  · exact .inr hdrawn

/-- **An exchange**: the token is live before, and revoked afterwards. -/
theorem exchange_live (hout : Outcome libs db c r db') {e : String × String} (he : e ∈ exchange libs c r) :
    Live db e.1 ∧ ¬ Live db' e.1 := by
  cases hout with
  | refreshed refresh_token m row user hrow _ hunique =>
      obtain rfl := List.mem_singleton.mp he
      obtain ⟨hmem, hhash, hrevoked, -⟩ := swappable_ok libs hrow
      refine ⟨⟨row, hmem, hhash, hrevoked⟩, ?_⟩
      rintro ⟨t, ht, hthash, hlive⟩
      -- the old row is still in the table, revoked, and no other has its digest
      have hold : revoke_where (fun t => decide (t.id = row.id)) row ∈
          (revoke (fun t => decide (t.id = row.id)) db.refresh_tokens).rows ++ [minted libs row.user_id m] :=
        List.mem_append_left _ (List.mem_map_of_mem hmem)
      have hsame := List.inj_on_of_nodup_map hunique.2 ht hold
        (by rw [revoke_where_hash, hhash]; exact hthash)
      rw [hsame] at hlive
      simp [revoke_where] at hlive
  | same _ _ hno =>
      cases c with
      | refresh refresh_token m =>
          rcases r with e' | reply
          · cases he
          · cases reply with
            | session user pair => exact absurd rfl (hno user pair)
            | user | changed | count | none => cases he
      | register | login | logout | require_user | purge_expired | set_role | soft_delete | assign_company
        | unassign_company => cases he
  | assigned => cases c <;> cases he
  | registered | touched | logged_in | logged_out | purged | role_set | deleted => cases he

/-- A refresh that returns found a row that is neither revoked nor expired. -/
theorem refresh_row {refresh_token : String} {m : Mint} {user : UserRow} {pair : TokenPair}
    (hr : ((Call.refresh refresh_token m).run libs db).1 = .ok (.session user pair)) :
    ∃ row ∈ db.refresh_tokens.rows, row.token_hash = libs.digest refresh_token ∧ row.revoked = false ∧
      m.now < row.expires_at := by
  have hout := outcome libs db (.refresh refresh_token m)
  rw [hr] at hout
  generalize ((Call.refresh refresh_token m).run libs db).2 = db' at hout
  cases hout with
  | refreshed _ _ row _ hrow => exact ⟨row, swappable_ok libs hrow⟩
  | same _ _ hno => exact absurd rfl (hno user pair)

end Tokens

/-! ## What one call does to the users -/

section Users

variable {libs : AuthLibs} {db db' : AuthDb} {c : Call} {r : Except Exn Reply} {user_id : String}

/-- A row that an update keeps deleted. -/
theorem deleted_update {g : UserRow → UserRow} {rows : List UserRow} (key : String)
    (hid : ∀ u, (g u).id = u.id) (hdeleted : ∀ u, u.deleted = true → (g u).deleted = true)
    (hu : ∃ u ∈ rows, u.id = user_id ∧ u.deleted = true) :
    ∃ u ∈ Table.update UserRow.id key g rows, u.id = user_id ∧ u.deleted = true := by
  obtain ⟨u, hmem, rfl, hdel⟩ := hu
  refine ⟨_, List.mem_map_of_mem hmem, ?_, ?_⟩
  · split
    · exact hid u
    · rfl
  · split
    · exact hdeleted u hdel
    · exact hdel

/-- **A deleted user stays deleted.** -/
theorem deleted_step (hout : Outcome libs db c r db') (hdel : Deleted db user_id) : Deleted db' user_id := by
  cases hout with
  | same | refreshed | logged_out | purged | assigned => exact hdel
  | registered =>
      obtain ⟨u, hmem, hu⟩ := hdel
      exact ⟨u, List.mem_append_left _ hmem, hu⟩
  | touched | logged_in => exact deleted_update _ (fun _ => rfl) (fun _ h => h) hdel
  | role_set => exact deleted_update _ (fun _ => rfl) (fun _ h => h) hdel
  | deleted => exact deleted_update _ (fun _ => rfl) (fun _ _ => rfl) hdel

theorem deleted_not_found (hdel : Deleted db user_id) : find_user db.users user_id = none := by
  cases hfind : find_user db.users user_id with
  | none => rfl
  | some user =>
      obtain ⟨hmem, hid, hlive⟩ := find_user_iff.mp hfind
      obtain ⟨u, hu, huid, hudel⟩ := hdel
      have hsame := List.inj_on_of_nodup_map db.users.unique.1 hmem hu (hid.trans huid.symm)
      rw [hsame, hudel] at hlive
      cases hlive

/-- A session is for a user who is there. -/
theorem session_found {user : UserRow} {pair : TokenPair} (hout : Outcome libs db c (.ok (.session user pair)) db') :
    (find_user db.users user.id).isSome = true := by
  cases hout with
  | same _ _ hno => exact absurd rfl (hno user pair)
  | registered _ _ _ hno => exact absurd rfl (hno user pair)
  | role_set _ _ _ _ hno => exact absurd rfl (hno user pair)
  | logged_in email password m row hrow =>
      rw [show (touched m.now row).id = row.id from rfl, find_email_user hrow]
      rfl
  | refreshed refresh_token m row user hrow huser =>
      rw [(find_user_iff.mp huser).2.1, huser]
      rfl

theorem require_user_found {token : String} {now : Time} {user : UserRow}
    (hr : (require_user libs token now db).1 = .ok user) : (find_user db.users user.id).isSome = true := by
  unfold require_user at hr
  cases hdecode : libs.decode_access now token with
  | error e =>
      rw [hdecode] at hr
      cases hr
  | ok sub =>
      rw [hdecode, ofExcept_ok_bind] at hr
      cases hfind : find_user db.users sub with
      | none =>
          rw [get_of_none hfind] at hr
          cases hr
      | some found =>
          rw [get_of_find hfind] at hr
          obtain rfl := Except.ok.inj hr
          rw [(find_user_iff.mp hfind).2.1, hfind]
          rfl

end Users

namespace World

variable {libs : AuthLibs} {w : World} {c : Call}

/-! ## Runs -/

/-- What a token that is not live any more needs to stay so. -/
theorem dead_stays (hfresh : Fresh libs w c) {h : String} (hdrawn : h ∈ w.drawn) (hdead : ¬ Live w.db h) :
    ¬ Live (step libs w c).db h := by
  intro hlive
  obtain hlive | hnew := live_step (outcome libs w.db c) hlive
  · exact hdead hlive
  · exact hfresh h hnew hdrawn

/-- **The invariant.** -/
structure Rotating (w : World) : Prop where
  /-- every row is of a token that was drawn -/
  known : ∀ t ∈ w.db.refresh_tokens.rows, t.token_hash ∈ w.drawn
  spent : ∀ e ∈ w.exchanged, e.1 ∈ w.drawn ∧ ¬ Live w.db e.1
  once : (w.exchanged.map Prod.fst).Nodup

theorem rotating_start (db : AuthDb) : Rotating (start db) where
  known _ ht := List.mem_map_of_mem ht
  spent _ he := absurd he List.not_mem_nil
  once := List.nodup_nil

theorem Rotating.step (h : Rotating w) (hfresh : Fresh libs w c) : Rotating (step libs w c) := by
  have hout := outcome libs w.db c
  have hdrawn {d : String} (hd : d ∈ w.drawn) : d ∈ (World.step libs w c).drawn := List.mem_append_left _ hd
  -- what is exchanged now has a row, so its digest was drawn before
  have hnow : ∀ e ∈ exchange libs c (c.run libs w.db).1, e.1 ∈ w.drawn := by
    intro e he
    obtain ⟨t, ht, hhash, -⟩ := (exchange_live hout he).1
    exact hhash ▸ h.known t ht
  refine ⟨fun t ht => ?_, fun e he => ?_, ?_⟩
  · obtain ⟨t', ht', hhash, -⟩ | hnew := row_step hout ht
    · exact hdrawn (hhash ▸ h.known t' ht')
    · exact List.mem_append_right _ hnew
  · obtain hold | hnew := List.mem_append.mp he
    · obtain ⟨hd, hdead⟩ := h.spent e hold
      exact ⟨hdrawn hd, dead_stays hfresh hd hdead⟩
    · exact ⟨hdrawn (hnow e hnew), (exchange_live hout hnew).2⟩
  · show ((w.exchanged ++ exchange libs c (c.run libs w.db).1).map Prod.fst).Nodup
    rw [List.map_append, List.nodup_append]
    refine ⟨h.once, ?_, ?_⟩
    · unfold exchange
      split <;> simp
    · rintro a ha b hb rfl
      obtain ⟨e, he, rfl⟩ := List.mem_map.mp ha
      obtain ⟨e', he', heq⟩ := List.mem_map.mp hb
      exact (h.spent e he).2 (heq ▸ (exchange_live hout he').1)

theorem Rotating.exec {db : AuthDb} {run : List Call}
    (hfresh : Along (World.step libs) (Fresh libs) (start db) run) :
    Rotating (exec (World.step libs) (start db) run) :=
  exec_invariant_along (fun _ _ h hf => h.step hf) (rotating_start db) hfresh

/-- **One live token a chain.** Two live tokens that come from one token are the same. -/
theorem Rotating.chain_live_unique (h : Rotating w) {a b c : String} (hb : Relation.ReflTransGen w.Exchanged a b)
    (hc : Relation.ReflTransGen w.Exchanged a c) (hliveb : Live w.db b) (hlivec : Live w.db c) : b = c := by
  have hfunctional : Relator.RightUnique w.Exchanged := by
    intro old new new' he he'
    exact congrArg Prod.snd (List.inj_on_of_nodup_map h.once he he' rfl)
  -- a live token has no successor
  have hend {d e : String} (hlive : Live w.db d) (hde : Relation.ReflTransGen w.Exchanged d e) : d = e := by
    obtain heq | ⟨d', hfirst, -⟩ := Relation.ReflTransGen.cases_head hde
    · exact heq
    · exact absurd hlive (h.spent _ hfirst).2
  obtain hbc | hcb := Relation.ReflTransGen.total_of_right_unique hfunctional hb hc
  · exact hend hliveb hbc
  · exact (hend hlivec hcb).symm

theorem dead_exec {run : List Call} {w : World} (hfresh : Along (World.step libs) (Fresh libs) w run) {h : String}
    (hdrawn : h ∈ w.drawn) (hdead : ¬ Live w.db h) : ¬ Live (exec (World.step libs) w run).db h := by
  have hstep : ∀ w c, (h ∈ w.drawn ∧ ¬ Live w.db h) → Fresh libs w c →
      h ∈ (World.step libs w c).drawn ∧ ¬ Live (World.step libs w c).db h := by
    rintro w c ⟨hdrawn, hdead⟩ hfresh
    exact ⟨List.mem_append_left _ hdrawn, dead_stays hfresh hdrawn hdead⟩
  exact (exec_invariant_along hstep ⟨hdrawn, hdead⟩ hfresh).2

theorem deleted_exec (run : List Call) {w : World} {user_id : String} (hdel : Deleted w.db user_id) :
    Deleted (exec (World.step libs) w run).db user_id := by
  have hstep : ∀ (w : World) c, Deleted w.db user_id → Deleted (World.step libs w c).db user_id :=
    fun w c h => deleted_step (outcome libs w.db c) h
  exact exec_invariant hstep hdel run

/-- **The rotation of refresh tokens.** After every run of calls on any tables, with a generator that draws no digest
    twice: every token has been exchanged at most once; of the tokens that come from one token at most one is live; a
    refresh that returns found a row that is neither revoked nor expired, and a token that was not live at some
    moment of the run gives no pair at the end of it; and a user who was deleted at some moment of the run has no
    login, no refresh and no `require_user` that returns at the end of it. -/
theorem refresh_rotation (libs : AuthLibs) (db : AuthDb) (run : List Call)
    (hfresh : Along (World.step libs) (Fresh libs) (start db) run) :
    ((exec (World.step libs) (start db) run).exchanged.map Prod.fst).Nodup ∧
    (∀ a b c, Relation.ReflTransGen (exec (World.step libs) (start db) run).Exchanged a b →
      Relation.ReflTransGen (exec (World.step libs) (start db) run).Exchanged a c →
      Live (exec (World.step libs) (start db) run).db b → Live (exec (World.step libs) (start db) run).db c →
      b = c) ∧
    (∀ refresh_token m user pair,
      ((Call.refresh refresh_token m).run libs (exec (World.step libs) (start db) run).db).1 =
        .ok (.session user pair) →
      (∃ row ∈ (exec (World.step libs) (start db) run).db.refresh_tokens.rows,
        row.token_hash = libs.digest refresh_token ∧ row.revoked = false ∧ m.now < row.expires_at) ∧
      ∀ pre post, run = pre ++ post →
        libs.digest refresh_token ∈ (exec (World.step libs) (start db) pre).drawn →
        Live (exec (World.step libs) (start db) pre).db (libs.digest refresh_token)) ∧
    (∀ pre post, run = pre ++ post → ∀ user_id, Deleted (exec (World.step libs) (start db) pre).db user_id →
      (∀ (c : Call) user pair, (c.run libs (exec (World.step libs) (start db) run).db).1 = .ok (.session user pair) →
        user.id ≠ user_id) ∧
      ∀ token now user, (require_user libs token now (exec (World.step libs) (start db) run).db).1 = .ok user →
        user.id ≠ user_id) := by
  have h : Rotating (exec (World.step libs) (start db) run) := .exec hfresh
  refine ⟨h.once, fun a b c hb hc => h.chain_live_unique hb hc, fun token m user pair hr => ?_,
    fun pre post heq user_id hdel => ?_⟩
  · obtain ⟨row, hmem, hrow⟩ := refresh_row hr
    refine ⟨⟨row, hmem, hrow⟩, fun pre post heq hdrawn => ?_⟩
    by_contra hdead
    subst heq
    have hrest := ((along_append pre post _).mp hfresh).2
    rw [exec_append] at hmem
    exact dead_exec hrest hdrawn hdead ⟨row, hmem, hrow.1, hrow.2.1⟩
  · have hgone : find_user (exec (World.step libs) (start db) run).db.users user_id = none := by
      refine deleted_not_found ?_
      rw [heq, exec_append]
      exact deleted_exec post hdel
    constructor
    · rintro c user pair hr rfl
      have hout := outcome libs (exec (World.step libs) (start db) run).db c
      rw [hr] at hout
      have hfound := session_found hout
      rw [hgone] at hfound
      cases hfound
    · rintro token now user hr rfl
      have hfound := require_user_found hr
      rw [hgone] at hfound
      cases hfound

/-- Libraries for a run with two tokens. -/
def two_tokens : AuthLibs :=
  { normalise_email := id
    hash_password := fun password => password
    verify_password := fun password hashed => decide (password = hashed)
    digest := fun token =>
      if token = "k3Vd1qvK" then "aad334d880e1cf28437f799f3fc9988c4b64a6719c15250a5c274201bb9803cc"
      else if token = "p0Zr7wYt" then "290fd2b58b9207de64141580ce5011d6a672ac891a806047d8f1ca09b82b34ed"
      else ""
    encode_access := fun user_id role _ => user_id ++ "." ++ role.value
    decode_access := fun _ _ => .error (.other "TokenInvalid" "not_access_token")
    access_token_ttl := 900, refresh_token_ttl := 3600 }

/-- The administrator, who has not logged in yet. -/
def ann : UserRow :=
  { id := "u1", email := "ann@board.io", password_hash := "correct-horse", role := .ADMIN, created_at := 0 }

def one_admin : AuthDb :=
  { users := ⟨[ann], by decide⟩, refresh_tokens := ⟨[], no_tokens⟩, company_assignments := ⟨[], no_assignments⟩ }

/-- A login, and the refresh of its token. -/
def login_and_refresh : List Call :=
  [.login "ann@board.io" "correct-horse" { now := 10, token := "k3Vd1qvK", id := "r1" },
    .refresh "k3Vd1qvK" { now := 20, token := "p0Zr7wYt", id := "r2" }]

/-- The first token of the administrator gives no second pair. -/
theorem refresh_rotation_replay : ¬ ∃ user pair,
    ((Call.refresh "k3Vd1qvK" { now := 30, token := "x9", id := "r3" }).run two_tokens
      (exec (World.step two_tokens) (start one_admin) login_and_refresh).db).1 = .ok (.session user pair) := by
  rintro ⟨user, pair, hr⟩
  have hfresh : Along (World.step two_tokens) (Fresh two_tokens) (start one_admin) login_and_refresh := by
    decide +kernel
  obtain ⟨-, -, hyields, -⟩ := refresh_rotation two_tokens one_admin login_and_refresh hfresh
  obtain ⟨t, hmem, hhash, hlive⟩ := (hyields _ _ _ _ hr).2 login_and_refresh [] rfl (by decide +kernel)
  revert t
  decide +kernel

end World

end Auth

end CompanyFactory
