import Mathlib.Data.List.Sort
import Mathlib.Data.Prod.Lex
import Mathlib.Data.String.Basic
import CompanyFactory.Lib.Run
import CompanyFactory.Lib.Transaction

/-!
# `Storage.Migrations` — the migration runner

`apply_migrations` runs the migrations of a module whose version is above the recorded one, each in a transaction that
also records the version. What a statement does to the schema is `exec`, a parameter; the statements of a migration
neither begin nor end a transaction and leave `schema_version` alone. Every call on the connection has its fate, so a
run may stop at any statement.

* **Crash** — wherever a run stops, the committed schema is the one of a first part of the migrations, and the recorded
  version is the last of that part (`run_resumable`). The next run continues there and ends where a run ends that was
  never interrupted (`run_calm`).
* **Two conditions.** Migrations with a version that is not positive are skipped although they are not recorded
  (`current` is 0 when nothing is). And `except Exception` lets a `KeyboardInterrupt` through, so the transaction stays
  open: a later run on that connection raises at its `BEGIN` (`run_on_open`).
-/

namespace CompanyFactory

open Machine Transaction

namespace Migrations

/-! ## Splitting a script -/

/-- The line boundaries of `str.splitlines`. -/
def is_line_break (c : Char) : Bool :=
  c.toNat ∈ [0x0a, 0x0b, 0x0c, 0x0d, 0x1c, 0x1d, 0x1e, 0x85, 0x2028, 0x2029]

/-- The whitespace of `str.strip`. -/
def is_space (c : Char) : Bool :=
  let n := c.toNat
  (0x09 ≤ n && n ≤ 0x0d) || (0x1c ≤ n && n ≤ 0x20) || (0x2000 ≤ n && n ≤ 0x200a) ||
    n ∈ [0x85, 0xa0, 0x1680, 0x2028, 0x2029, 0x202f, 0x205f, 0x3000]

/-- `str.splitlines`; `line` is the line so far. -/
def splitlines (line : List Char) : List Char → List (List Char)
  | [] => if line = [] then [] else [line]
  | '\r' :: '\n' :: rest => line :: splitlines [] rest
  | c :: rest => if is_line_break c then line :: splitlines [] rest else splitlines (line ++ [c]) rest

/-- A line up to its first `--`. -/
def cut_comment : List Char → List Char
  | '-' :: '-' :: _ => []
  | c :: rest => c :: cut_comment rest
  | [] => []

/-- `str.strip` -/
def strip (text : List Char) : List Char := ((text.dropWhile is_space).reverse.dropWhile is_space).reverse

/-- `_split_sql` -/
def split_sql (sql : String) : List String :=
  let cleaned_lines := (splitlines [] sql.toList).map cut_comment
  let text := ['\n'].intercalate cleaned_lines
  ((text.splitOn ';').filter fun stmt => strip stmt ≠ []).map fun stmt => String.ofList (strip stmt)

example : split_sql "CREATE TABLE a (x); -- one; two\r\n\n  CREATE TABLE b (y)\n;;\n" =
    ["CREATE TABLE a (x)", "CREATE TABLE b (y)"] := by decide +kernel

/-! ## The database -/

/-- The tables that migrations make, and the table `schema_version` once it is there. -/
structure Db (σ : Type) where
  schema : σ
  schema_version : Option (String → Option Int)

/-- A module's list of migrations. -/
abbrev Migration := Int × String

section Runner

variable {σ : Type} (exec : String → σ → Except String σ) (module : String)

/-- The recorded version of a module. -/
def Db.version_of (db : Db σ) (module : String) : Option Int := db.schema_version.bind fun rows => rows module

/-- `CREATE TABLE IF NOT EXISTS schema_version` -/
def Db.create_table (db : Db σ) : Except String (Db σ) :=
  .ok { db with schema_version := some (db.schema_version.getD fun _ => none) }

/-- A statement of a migration. -/
def Db.run_statement (stmt : String) (db : Db σ) : Except String (Db σ) :=
  (exec stmt db.schema).map fun schema => { db with schema }

/-- `INSERT INTO schema_version … ON CONFLICT(module) DO UPDATE` -/
def Db.record (version : Int) (db : Db σ) : Except String (Db σ) :=
  match db.schema_version with
  | none => .error "no such table: schema_version"
  | some rows => .ok { db with schema_version := some (Function.update rows module (some version)) }

open Session

/-- One turn of the loop: the transaction of one migration. -/
def apply_one (migration : Migration) : Act (Session (Db σ)) Stop Unit := do
  let statements := split_sql migration.2
  execute Conn.begin_tx
  guarded do
    execute_all (fun stmt => Conn.statement (Db.run_statement exec stmt)) statements
    execute (Conn.statement (Db.record module migration.1))
    execute Conn.commit

/-- The loop. -/
def apply_pending (current : Int) : List Migration → Act (Session (Db σ)) Stop Unit
  | [] => pure ()
  | migration :: rest =>
    if migration.1 ≤ current then apply_pending current rest
    else do
      apply_one exec module migration
      apply_pending current rest

/-- `sorted(migrations)` -/
def sorted (migrations : List Migration) : List Migration := migrations.insertionSort fun a b => toLex a ≤ toLex b

/-- `apply_migrations` -/
def apply_migrations (migrations : List Migration) : Act (Session (Db σ)) Stop Unit := do
  execute (Conn.statement Db.create_table)
  execute Except.ok
  let row ← read fun c => c.view.version_of module
  apply_pending exec module (row.getD 0) (sorted migrations)

/-! ## What a list of migrations does -/

def run_all : List String → σ → Except String σ
  | [], schema => .ok schema
  | stmt :: rest, schema => do
      let schema ← exec stmt schema
      run_all rest schema

/-- The statements of one migration. -/
def apply_sql (sql : String) (schema : σ) : Except String σ := run_all exec (split_sql sql) schema

/-- Migration after migration. -/
def replay : List Migration → σ → Except String σ
  | [], schema => .ok schema
  | migration :: rest, schema => do
      let schema ← apply_sql exec migration.2 schema
      replay rest schema

/-- How far the migrations can be applied, and why not further. -/
def furthest : List Migration → σ → List Migration × Except Stop Unit
  | [], _ => ([], .ok ())
  | migration :: rest, schema =>
    match apply_sql exec migration.2 schema with
    | .error message => ([], .error (.raised message))
    | .ok schema => (migration :: (furthest rest schema).1, (furthest rest schema).2)

variable {exec module} {start db db' : Db σ} {pre post : List Migration}

/-- From `start`, exactly the migrations `pre` were applied, and the last of them is recorded. -/
structure At (exec : String → σ → Except String σ) (module : String) (start : Db σ) (pre : List Migration) (db : Db σ) :
    Prop where
  schema : replay exec pre start.schema = .ok db.schema
  version : db.version_of module = pre.getLast?.map Prod.fst
  others : ∀ other, other ≠ module → db.version_of other = start.version_of other

theorem replay_append (pre post : List Migration) : ∀ schema, replay exec (pre ++ post) schema =
    (replay exec pre schema >>= replay exec post) := by
  induction pre with
  | nil =>
      intro schema
      rfl
  | cons migration pre ih =>
      intro schema
      simp only [List.cons_append, replay]
      cases apply_sql exec migration.2 schema with
      | error message => rfl
      | ok schema => exact ih schema

theorem furthest_append (pre post : List Migration) : ∀ {s₀ schema : σ}, replay exec pre s₀ = .ok schema →
    furthest exec (pre ++ post) s₀ = (pre ++ (furthest exec post schema).1, (furthest exec post schema).2) := by
  induction pre with
  | nil =>
      intro s₀ schema h
      cases h
      rfl
  | cons migration pre ih =>
      intro s₀ schema h
      obtain ⟨s₁, hfirst, hrest⟩ := Act.except_bind_eq_ok.mp h
      simp only [List.cons_append, furthest, hfirst, ih hrest]

/-- One migration more. -/
theorem At.next {migration : Migration} {schema : σ} {rows : String → Option Int} (h : At exec module start pre db)
    (hsql : apply_sql exec migration.2 db.schema = .ok schema) (hrows : db.schema_version = some rows) :
    At exec module start (pre ++ [migration]) ⟨schema, some (Function.update rows module (some migration.1))⟩ where
  schema := by
    rw [replay_append, h.schema]
    exact Act.except_bind_eq_ok.mpr ⟨db.schema, rfl, Act.except_bind_eq_ok.mpr ⟨schema, hsql, rfl⟩⟩
  version := by simp [Db.version_of]
  others other hne := by
    rw [← h.others other hne]
    simp [Db.version_of, hrows, hne]

/-- The table `schema_version` changes no recorded version. -/
theorem At.table (h : At exec module start pre db) (rows : String → Option Int)
    (hrows : rows = db.schema_version.getD fun _ => none) : At exec module start pre ⟨db.schema, some rows⟩ := by
  have hversion : ∀ m, (⟨db.schema, some rows⟩ : Db σ).version_of m = db.version_of m := by
    intro m
    rw [hrows]
    cases hdb : db.schema_version <;> simp [Db.version_of, hdb]
  exact ⟨h.schema, (hversion module).trans h.version, fun other hne => (hversion other).trans (h.others other hne)⟩

/-- Nothing else can be told of a database that has the table. -/
theorem At.unique {rows rows' : String → Option Int} (h : At exec module start pre db)
    (h' : At exec module start pre db') (hrows : db.schema_version = some rows)
    (hrows' : db'.schema_version = some rows') : db = db' := by
  have hschema : db.schema = db'.schema := by
    have heq := h.schema.symm.trans h'.schema
    exact Except.ok.inj heq
  have hversion : ∀ m, rows m = rows' m := by
    intro m
    have heq : db.version_of m = db'.version_of m := by
      by_cases hm : m = module
      · rw [hm, h.version, h'.version]
      · rw [h.others m hm, h'.others m hm]
    simpa [Db.version_of, hrows, hrows'] using heq
  cases db
  cases db'
  simp only at hrows hrows' hschema
  rw [hrows, hrows', hschema, funext hversion]

/-! ## Wherever a run stops -/

/-- The data after the migration. -/
def Done (exec : String → σ → Except String σ) (module : String) (migration : Migration) (db d : Db σ) : Prop :=
  ∃ schema rows, apply_sql exec migration.2 db.schema = .ok schema ∧ db.schema_version = some rows ∧
    d = ⟨schema, some (Function.update rows module (some migration.1))⟩

/-- **One migration is applied as a whole or not at all.** -/
theorem apply_one_triple (migration : Migration) (db : Db σ) :
    Triple (fun c => c = ⟨db, none⟩) (apply_one exec module migration)
      (fun _ c => c.pending = none ∧ Done exec module migration db c.committed)
      (fun d => d = db ∨ Done exec module migration db d) := by
  -- inside the transaction: what is left to run, from where it stands
  let inside (stmts : List String) (c : Conn (Db σ)) : Prop := c.committed = db ∧
    ∃ data, c.pending = some data ∧ data.schema_version = db.schema_version ∧
      run_all exec stmts data.schema = apply_sql exec migration.2 db.schema
  let recorded (c : Conn (Db σ)) : Prop := c.committed = db ∧ ∃ data, c.pending = some data ∧
    Done exec module migration db data
  have hbegin : Triple (fun c => c = ⟨db, none⟩) (execute Conn.begin_tx) (fun _ => inside (split_sql migration.2))
      (fun d => d = db ∨ Done exec module migration db d) := by
    apply Triple.execute
    · rintro c c' rfl hc
      cases hc
      exact ⟨⟨rfl, db, rfl, rfl, rfl⟩, .inl rfl⟩
    · rintro c rfl
      exact .inl rfl
  have hstatements : Triple (inside (split_sql migration.2))
      (execute_all (fun stmt => Conn.statement (Db.run_statement exec stmt)) (split_sql migration.2))
      (fun _ => inside []) (fun d => d = db ∨ Done exec module migration db d) := by
    apply Triple.execute_all
    · rintro stmt stmts ⟨committed, pending⟩ c' ⟨rfl, data, rfl, hversion, hrun⟩ hc
      simp only [Conn.statement, Db.run_statement] at hc
      cases hexec : exec stmt data.schema with
      | error message =>
          rw [hexec] at hc
          cases hc
      | ok schema =>
          rw [hexec] at hc
          cases hc
          refine ⟨rfl, _, rfl, hversion, ?_⟩
          rw [← hrun, run_all, hexec]
          rfl
    · exact fun stmts c hc => .inl hc.1
  have hrecord : Triple (inside []) (execute (Conn.statement (Db.record module migration.1))) (fun _ => recorded)
      (fun d => d = db ∨ Done exec module migration db d) := by
    apply Triple.execute
    · rintro ⟨committed, pending⟩ c' ⟨rfl, data, rfl, hversion, hrun⟩ hc
      simp only [Conn.statement, Db.record] at hc
      cases hrows : data.schema_version with
      | none =>
          rw [hrows] at hc
          cases hc
      | some rows =>
          rw [hrows] at hc
          cases hc
          exact ⟨⟨rfl, _, rfl, data.schema, rows, hrun.symm, hversion.symm.trans hrows, rfl⟩, .inl rfl⟩
    · exact fun c hc => .inl hc.1
  have hcommit : Triple recorded (execute Conn.commit)
      (fun _ c => c.pending = none ∧ Done exec module migration db c.committed)
      (fun d => d = db ∨ Done exec module migration db d) := by
    apply Triple.execute
    · rintro ⟨committed, pending⟩ c' ⟨-, data, rfl, hdone⟩ hc
      cases hc
      exact ⟨⟨rfl, hdone⟩, .inr hdone⟩
    · exact fun c hc => .inl hc.1
  exact hbegin.bind fun _ => Triple.guarded (hstatements.bind fun _ => hrecord.bind fun _ => hcommit)

/-- The loop over migrations that are all new. -/
theorem apply_pending_triple {current : Int} (post : List Migration) (hnew : ∀ m ∈ post, current < m.1) :
    ∀ pre : List Migration,
      Triple (fun c => c.pending = none ∧ At exec module start pre c.committed) (apply_pending exec module current post)
        (fun _ c => c.pending = none ∧ At exec module start (pre ++ post) c.committed)
        (fun d => ∃ front, front <+: pre ++ post ∧ At exec module start front d) := by
  induction post with
  | nil =>
      intro pre
      apply Triple.pure
      intro c hc
      rwa [List.append_nil]
  | cons migration post ih =>
      intro pre
      have hskip : ¬ migration.1 ≤ current := Int.not_le.mpr (hnew migration List.mem_cons_self)
      have hrest := ih (fun m hm => hnew m (List.mem_cons_of_mem _ hm)) (pre ++ [migration])
      rw [List.append_assoc, List.singleton_append] at hrest
      rw [apply_pending, if_neg hskip]
      refine Triple.bind (Q := fun _ c => c.pending = none ∧ At exec module start (pre ++ [migration]) c.committed) ?_
        fun _ => hrest
      -- before the migration, or after it
      rintro s ⟨hnone, hat⟩
      obtain ⟨hok, herror⟩ := @apply_one_triple σ exec module migration s.conn.committed s
        (by rw [← hnone])
      refine ⟨fun b hb => ?_, fun stop hstop => ?_⟩
      · obtain ⟨hpending, schema, rows, hsql, hrows, heq⟩ := hok b hb
        refine ⟨hpending, ?_⟩
        rw [heq]
        exact hat.next hsql hrows
      · obtain heq | ⟨schema, rows, hsql, hrows, heq⟩ := herror stop hstop
        · rw [heq]
          exact ⟨pre, List.prefix_append _ _, hat⟩
        · rw [heq]
          refine ⟨pre ++ [migration], ?_, hat.next hsql hrows⟩
          have hsplit : pre ++ migration :: post = pre ++ [migration] ++ post := by simp
          rw [hsplit]
          exact List.prefix_append _ _

/-! ## The version that is read -/

theorem sorted_strict {migrations : List Migration} (hdistinct : (migrations.map Prod.fst).Nodup) :
    (sorted migrations).Pairwise fun a b => a.1 < b.1 := by
  have hle : (sorted migrations).Pairwise fun a b => toLex a ≤ toLex b := List.pairwise_insertionSort _ _
  have hne : (sorted migrations).Pairwise fun a b => a.1 ≠ b.1 := by
    apply List.pairwise_map.mp
    exact ((List.perm_insertionSort _ migrations).map Prod.fst).nodup_iff.mpr hdistinct
  refine (hle.and hne).imp ?_
  rintro a b ⟨hab, hne⟩
  obtain hlt | ⟨heq, -⟩ := Prod.Lex.toLex_le_toLex.mp hab
  · exact hlt
  · exact absurd heq hne

/-- With positive versions, the number that is read tells the migrations that were applied from the others. -/
theorem current_splits (hstrict : (pre ++ post).Pairwise fun a b => a.1 < b.1) (hpositive : ∀ m ∈ pre ++ post, 0 < m.1) :
    (∀ m ∈ pre, m.1 ≤ (pre.getLast?.map Prod.fst).getD 0) ∧
      ∀ m ∈ post, (pre.getLast?.map Prod.fst).getD 0 < m.1 := by
  rw [List.pairwise_append] at hstrict
  obtain ⟨hpre, -, hcross⟩ := hstrict
  cases hlast : pre.getLast? with
  | none =>
      rw [List.getLast?_eq_none_iff] at hlast
      subst hlast
      refine ⟨fun m hm => ?_, fun m hm => ?_⟩
      · cases hm
      · exact hpositive m hm
  | some last =>
      obtain ⟨front, rfl⟩ := List.getLast?_eq_some_iff.mp hlast
      refine ⟨fun m hm => ?_, fun m hm => ?_⟩
      · obtain hm | hm := List.mem_append.mp hm
        · exact ((List.pairwise_append.mp hpre).2.2 m hm last List.mem_cons_self).le
        · rw [List.mem_singleton.mp hm]
          exact le_rfl
      · exact hcross last (by simp) m hm

/-- The loop skips what was applied. -/
theorem apply_pending_skip {current : Int} (pre post : List Migration) (hold : ∀ m ∈ pre, m.1 ≤ current) :
    apply_pending exec module current (pre ++ post) = apply_pending exec module current post := by
  induction pre with
  | nil => rfl
  | cons migration pre ih =>
      rw [List.cons_append, apply_pending, if_pos (hold migration List.mem_cons_self)]
      exact ih fun m hm => hold m (List.mem_cons_of_mem _ hm)

/-- **A run of any kind**, on a connection without a transaction: wherever it stops, a first part of the migrations is
    applied; if it returns, all of them are. -/
theorem run_triple {migrations : List Migration} (hstrict : (sorted migrations).Pairwise fun a b => a.1 < b.1)
    (hpositive : ∀ m ∈ migrations, 0 < m.1) (hsplit : sorted migrations = pre ++ post) :
    Triple (fun c => c.pending = none ∧ At exec module start pre c.committed) (apply_migrations exec module migrations)
      (fun _ c => c.pending = none ∧ At exec module start (sorted migrations) c.committed)
      (fun d => ∃ front, front <+: sorted migrations ∧ At exec module start front d) := by
  have hprefix : pre <+: sorted migrations := ⟨post, hsplit.symm⟩
  have htable : Triple (fun c => c.pending = none ∧ At exec module start pre c.committed)
      (execute (Conn.statement Db.create_table)) (fun _ c => c.pending = none ∧ At exec module start pre c.committed)
      (fun d => ∃ front, front <+: sorted migrations ∧ At exec module start front d) := by
    apply Triple.execute
    · rintro ⟨committed, pending⟩ c' ⟨rfl, hat⟩ hc
      cases hc
      have hat' := hat.table _ rfl
      exact ⟨⟨rfl, hat'⟩, pre, hprefix, hat'⟩
    · exact fun c hc => ⟨pre, hprefix, hc.2⟩
  have hselect : Triple (fun c => c.pending = none ∧ At exec module start pre c.committed) (execute Except.ok)
      (fun _ c => c.pending = none ∧ At exec module start pre c.committed)
      (fun d => ∃ front, front <+: sorted migrations ∧ At exec module start front d) := by
    apply Triple.execute
    · intro c c' hc heq
      cases heq
      exact ⟨hc, pre, hprefix, hc.2⟩
    · exact fun c hc => ⟨pre, hprefix, hc.2⟩
  have hread : Triple (fun c => c.pending = none ∧ At exec module start pre c.committed)
      (read fun c => c.view.version_of module)
      (fun row c => row = pre.getLast?.map Prod.fst ∧ c.pending = none ∧ At exec module start pre c.committed)
      (fun d => ∃ front, front <+: sorted migrations ∧ At exec module start front d) := by
    apply Triple.read
    rintro ⟨committed, pending⟩ ⟨rfl, hat⟩
    exact ⟨hat.version, rfl, hat⟩
  refine htable.bind fun _ => hselect.bind fun _ => hread.bind fun row => ?_
  rintro s ⟨rfl, hs⟩
  rw [hsplit] at hstrict
  have hpositive' : ∀ m ∈ pre ++ post, 0 < m.1 := by
    intro m hm
    rw [← hsplit] at hm
    exact hpositive m ((List.perm_insertionSort _ _).mem_iff.mp hm)
  obtain ⟨hold, hnew⟩ := current_splits hstrict hpositive'
  rw [hsplit, apply_pending_skip pre post hold]
  exact apply_pending_triple post hnew pre s hs

/-! ## Histories -/

/-- What happens to a connection: a run of the migrations with some fates, or a new connection takes its place. -/
inductive Event where
  | run (fates : List Fate)
  | reopen

/-- The connection after an event, however the run ended. -/
def step (exec : String → σ → Except String σ) (module : String) (migrations : List Migration) (c : Conn (Db σ)) :
    Event → Conn (Db σ)
  | .run fates => (apply_migrations exec module migrations { conn := c, fates }).2.conn
  | .reopen => c.reopen

/-- No run starts on a connection that an interruption left inside its transaction. -/
def Closed (c : Conn (Db σ)) : Event → Prop
  | .run _ => c.pending = none
  | .reopen => True

/-- **Every event** leaves a first part of the migrations applied. -/
theorem step_resumable {migrations : List Migration} (hstrict : (sorted migrations).Pairwise fun a b => a.1 < b.1)
    (hpositive : ∀ m ∈ migrations, 0 < m.1) {c : Conn (Db σ)} {e : Event}
    (h : ∃ front, front <+: sorted migrations ∧ At exec module start front c.committed) (hclosed : Closed c e) :
    ∃ front, front <+: sorted migrations ∧ At exec module start front (step exec module migrations c e).committed := by
  obtain ⟨front, ⟨back, hsplit⟩, hat⟩ := h
  cases e with
  | reopen => exact ⟨front, ⟨back, hsplit⟩, hat⟩
  | run fates =>
      obtain ⟨hok, herror⟩ :=
        run_triple hstrict hpositive hsplit.symm { conn := c, fates } ⟨hclosed, hat⟩
      unfold step
      cases hresult : (apply_migrations exec module migrations { conn := c, fates }).1 with
      | ok u => exact ⟨_, List.prefix_refl _, (hok u hresult).2⟩
      | error stop => exact herror stop hresult

/-! ## Runs that nothing interrupts -/

theorem statements_calm (db : Db σ) (stmts : List String) : ∀ data : Db σ, ∃ data' : Db σ,
    execute_all (fun stmt => Conn.statement (Db.run_statement exec stmt)) stmts (calm ⟨db, some data⟩) =
      match run_all exec stmts data.schema with
      | .ok schema => (.ok (), calm ⟨db, some { data with schema }⟩)
      | .error message => (.error (.raised message), calm ⟨db, some data'⟩) := by
  induction stmts with
  | nil =>
      intro data
      exact ⟨data, rfl⟩
  | cons stmt stmts ih =>
      intro data
      cases hexec : exec stmt data.schema with
      | error message =>
          refine ⟨data, ?_⟩
          have hfails : Conn.statement (Db.run_statement exec stmt) ⟨db, some data⟩ = .error message := by
            simp [Conn.statement, Db.run_statement, hexec, Except.map]
          have hall : run_all exec (stmt :: stmts) data.schema = .error message := by
            rw [run_all, hexec]
            rfl
          rw [hall, execute_all, Act.bind_run, execute_calm, hfails]
      | ok schema =>
          obtain ⟨data', hrest⟩ := ih { data with schema }
          refine ⟨data', ?_⟩
          have hruns : Conn.statement (Db.run_statement exec stmt) ⟨db, some data⟩ =
              .ok ⟨db, some { data with schema }⟩ := by
            simp [Conn.statement, Db.run_statement, hexec, Except.map]
          have hall : run_all exec (stmt :: stmts) data.schema = run_all exec stmts schema := by
            rw [run_all, hexec]
            rfl
          rw [hall, execute_all, Act.bind_of_ok (execute_calm_ok hruns), hrest]

/-- One migration: it goes through, or everything is rolled back. -/
theorem apply_one_calm (migration : Migration) {rows : String → Option Int} (hrows : db.schema_version = some rows) :
    apply_one exec module migration (calm ⟨db, none⟩) = match apply_sql exec migration.2 db.schema with
      | .ok schema => (.ok (), calm ⟨⟨schema, some (Function.update rows module (some migration.1))⟩, none⟩)
      | .error message => (.error (.raised message), calm ⟨db, none⟩) := by
  have hbegin : Conn.begin_tx ⟨db, none⟩ = .ok ⟨db, some db⟩ := rfl
  obtain ⟨data', hstatements⟩ := @statements_calm σ exec db (split_sql migration.2) db
  simp only [apply_one]
  rw [Act.bind_of_ok (execute_calm_ok hbegin), guarded, Act.attempt_bind, Act.bind_run, hstatements, apply_sql]
  cases run_all exec (split_sql migration.2) db.schema with
  | error message => rfl
  | ok schema =>
      have hrecord : Conn.statement (Db.record module migration.1) ⟨db, some { db with schema }⟩ =
          .ok ⟨db, some ⟨schema, some (Function.update rows module (some migration.1))⟩⟩ := by
        simp [Conn.statement, Db.record, hrows, Except.map]
      simp only
      rw [Act.bind_of_ok (execute_calm_ok hrecord)]
      rfl

theorem apply_pending_calm {current : Int} (post : List Migration) (hnew : ∀ m ∈ post, current < m.1) :
    ∀ (pre : List Migration) (db : Db σ) (rows : String → Option Int), db.schema_version = some rows →
      At exec module start pre db → ∃ (db' : Db σ) (rows' : String → Option Int),
        apply_pending exec module current post (calm ⟨db, none⟩) =
          ((furthest exec post db.schema).2, calm ⟨db', none⟩) ∧
        db'.schema_version = some rows' ∧ At exec module start (pre ++ (furthest exec post db.schema).1) db' := by
  induction post with
  | nil =>
      intro pre db rows hrows hat
      refine ⟨db, rows, rfl, hrows, ?_⟩
      rw [furthest, List.append_nil]
      exact hat
  | cons migration post ih =>
      intro pre db rows hrows hat
      have hskip : ¬ migration.1 ≤ current := Int.not_le.mpr (hnew migration List.mem_cons_self)
      have hone := @apply_one_calm σ exec module db migration rows hrows
      rw [apply_pending, if_neg hskip, furthest]
      cases hsql : apply_sql exec migration.2 db.schema with
      | error message =>
          rw [hsql] at hone
          refine ⟨db, rows, ?_, hrows, ?_⟩
          · rw [Act.bind_of_error hone]
          · rw [List.append_nil]
            exact hat
      | ok schema =>
          rw [hsql] at hone
          obtain ⟨db', rows', hrun, hrows', hat'⟩ := ih (fun m hm => hnew m (List.mem_cons_of_mem _ hm))
            (pre ++ [migration]) _ _ rfl (hat.next hsql hrows)
          refine ⟨db', rows', ?_, hrows', ?_⟩
          · rw [Act.bind_of_ok hone, hrun]
          · rw [List.append_assoc] at hat'
            exact hat'

theorem furthest_front (migrations : List Migration) : ∀ schema : σ, (furthest exec migrations schema).1 <+: migrations := by
  induction migrations with
  | nil =>
      intro schema
      exact List.nil_prefix
  | cons migration rest ih =>
      intro schema
      rw [furthest]
      cases apply_sql exec migration.2 schema with
      | error message => exact List.nil_prefix
      | ok schema => exact List.cons_prefix_cons.mpr ⟨rfl, ih schema⟩

/-- **An uninterrupted run** gets as far as the migrations can be applied to the schema at the very start, from wherever
    the runs before it had got to. -/
theorem run_calm {migrations : List Migration} (hstrict : (sorted migrations).Pairwise fun a b => a.1 < b.1)
    (hpositive : ∀ m ∈ migrations, 0 < m.1) (hfront : pre <+: sorted migrations) (hat : At exec module start pre db) :
    ∃ (db' : Db σ) (rows : String → Option Int), apply_migrations exec module migrations (calm ⟨db, none⟩) =
        ((furthest exec (sorted migrations) start.schema).2, calm ⟨db', none⟩) ∧
      db'.schema_version = some rows ∧
        At exec module start (furthest exec (sorted migrations) start.schema).1 db' := by
  obtain ⟨post, hsplit⟩ := hfront
  have htable : Conn.statement Db.create_table ⟨db, none⟩ =
      .ok ⟨⟨db.schema, some (db.schema_version.getD fun _ => none)⟩, none⟩ := rfl
  have hat' := hat.table _ rfl
  have hread : read (fun c => c.view.version_of module)
      (calm (⟨⟨db.schema, some (db.schema_version.getD fun _ => none)⟩, none⟩ : Conn (Db σ))) =
      (.ok (pre.getLast?.map Prod.fst), calm ⟨⟨db.schema, some (db.schema_version.getD fun _ => none)⟩, none⟩) := by
    rw [← hat'.version]
    rfl
  rw [← hsplit] at hstrict
  have hpositive' : ∀ m ∈ pre ++ post, 0 < m.1 := by
    intro m hm
    rw [hsplit] at hm
    exact hpositive m ((List.perm_insertionSort _ _).mem_iff.mp hm)
  obtain ⟨hold, hnew⟩ := current_splits hstrict hpositive'
  obtain ⟨db', rows, hrun, hrows, hdone⟩ := apply_pending_calm post hnew pre _ _ rfl hat'
  refine ⟨db', rows, ?_, hrows, ?_⟩
  · rw [apply_migrations, Act.bind_of_ok (execute_calm_ok htable), Act.bind_of_ok (execute_calm_ok rfl),
      Act.bind_of_ok hread, ← hsplit, apply_pending_skip pre post hold, hrun, furthest_append pre post hat.schema]
  · rw [← hsplit, furthest_append pre post hat.schema]
    exact hdone

/-! ## Convergence -/

/-- The database at which some runs have arrived: nothing is recorded and nothing done, or the recorded version is one
    of the list and the schema is the one of exactly the migrations up to it, in order. -/
structure Resumable (exec : String → σ → Except String σ) (module : String) (migrations : List Migration)
    (start db : Db σ) : Prop where
  nothing : db.version_of module = none → db.schema = start.schema
  applied : ∀ version, db.version_of module = some version → (∃ m ∈ migrations, m.1 = version) ∧
    replay exec ((sorted migrations).filter fun m => decide (m.1 ≤ version)) start.schema = .ok db.schema
  others : ∀ other, other ≠ module → db.version_of other = start.version_of other

theorem At.resumable {migrations : List Migration} (hstrict : (sorted migrations).Pairwise fun a b => a.1 < b.1)
    (hpositive : ∀ m ∈ migrations, 0 < m.1) (hfront : pre <+: sorted migrations) (hat : At exec module start pre db) :
    Resumable exec module migrations start db := by
  obtain ⟨post, hsplit⟩ := hfront
  have hmem {m : Migration} (hm : m ∈ pre ++ post) : m ∈ migrations := by
    rw [hsplit] at hm
    exact (List.perm_insertionSort _ _).mem_iff.mp hm
  have hstrict' := hstrict
  rw [← hsplit] at hstrict'
  obtain ⟨hold, hnew⟩ := current_splits hstrict' fun m hm => hpositive m (hmem hm)
  refine ⟨fun hnone => ?_, fun version hversion => ?_, hat.others⟩
  · rw [hat.version, Option.map_eq_none_iff, List.getLast?_eq_none_iff] at hnone
    have hschema := hat.schema
    rw [hnone] at hschema
    exact (Except.ok.inj hschema).symm
  · rw [hat.version] at hversion
    obtain ⟨last, hlast, rfl⟩ := Option.map_eq_some_iff.mp hversion
    rw [hversion] at hold hnew
    refine ⟨⟨last, hmem (List.mem_append_left _ (List.mem_of_getLast? hlast)), rfl⟩, ?_⟩
    have hkeep : (pre ++ post).filter (fun m => decide (m.1 ≤ last.1)) = pre := by
      rw [List.filter_append, List.filter_eq_self.mpr, List.filter_eq_nil_iff.mpr, List.append_nil]
      · intro m hm
        simpa using hnew m hm
      · intro m hm
        simpa using hold m hm
    rw [← hsplit, hkeep]
    exact hat.schema

/-- **Migrations converge.** For distinct positive versions, and for every history of runs that stop anywhere, none of
    them on a connection that an interruption left inside a transaction: the committed database is resumable; and an
    uninterrupted run on such a connection returns or raises as on the database at the start, leaves the same schema
    and versions, and a second one leaves them as they are. -/
theorem migrations_converge (exec : String → σ → Except String σ) (module : String) (migrations : List Migration)
    (hdistinct : (migrations.map Prod.fst).Nodup) (hpositive : ∀ m ∈ migrations, 0 < m.1) (start : Db σ)
    (hfresh : start.version_of module = none) (past : List Event)
    (hclosed : Along (step exec module migrations) Closed ⟨start, none⟩ past) :
    Resumable exec module migrations start (Machine.exec (step exec module migrations) ⟨start, none⟩ past).committed ∧
    ((Machine.exec (step exec module migrations) ⟨start, none⟩ past).pending = none →
      apply_migrations exec module migrations (calm (Machine.exec (step exec module migrations) ⟨start, none⟩ past)) =
        apply_migrations exec module migrations (calm ⟨start, none⟩) ∧
      apply_migrations exec module migrations (apply_migrations exec module migrations (calm ⟨start, none⟩)).2 =
        apply_migrations exec module migrations (calm ⟨start, none⟩)) := by
  have hstrict := sorted_strict hdistinct
  have hstart : At exec module start [] start := ⟨rfl, by rw [hfresh]; rfl, fun _ _ => rfl⟩
  have hstep : ∀ (c : Conn (Db σ)) (e : Event), (∃ front, front <+: sorted migrations ∧ At exec module start front c.committed) →
      Closed c e →
      ∃ front, front <+: sorted migrations ∧ At exec module start front (step exec module migrations c e).committed :=
    fun c e h hc => step_resumable hstrict hpositive h hc
  obtain ⟨front, hfront, hat⟩ := exec_invariant_along hstep ⟨[], List.nil_prefix, hstart⟩ hclosed
  generalize Machine.exec (step exec module migrations) ⟨start, none⟩ past = c at hat ⊢
  refine ⟨hat.resumable hstrict hpositive hfront, fun hnone => ?_⟩
  obtain ⟨committed, pending⟩ := c
  subst hnone
  -- every uninterrupted run ends in the one database that the furthest part determines
  obtain ⟨db₀, rows₀, hrun₀, hrows₀, hat₀⟩ := run_calm hstrict hpositive List.nil_prefix hstart
  obtain ⟨db₁, rows₁, hrun₁, hrows₁, hat₁⟩ := run_calm hstrict hpositive hfront hat
  obtain ⟨db₂, rows₂, hrun₂, hrows₂, hat₂⟩ := run_calm hstrict hpositive (furthest_front _ _) hat₀
  rw [hrun₀, hrun₁, hat₁.unique hat₀ hrows₁ hrows₀, hrun₂, hat₂.unique hat₀ hrows₂ hrows₀]
  exact ⟨rfl, rfl⟩

theorem apply_pending_open {current : Int} {data : Db σ} (post : List Migration) (hpending : ∃ m ∈ post, current < m.1) :
    apply_pending exec module current post (calm ⟨db, some data⟩) =
      (.error (.raised "cannot start a transaction within a transaction"), calm ⟨db, some data⟩) := by
  induction post with
  | nil =>
      obtain ⟨m, hm, -⟩ := hpending
      cases hm
  | cons migration post ih =>
      rw [apply_pending]
      by_cases hold : migration.1 ≤ current
      · rw [if_pos hold]
        apply ih
        obtain ⟨m, hm, hnew⟩ := hpending
        obtain rfl | hm := List.mem_cons.mp hm
        · exact absurd hold (Int.not_le.mpr hnew)
        · exact ⟨m, hm, hnew⟩
      · rw [if_neg hold]
        rfl

/-- **On a connection inside a transaction** a run that has a migration to apply raises, and commits nothing. -/
theorem run_on_open {migrations : List Migration} {data : Db σ}
    (hpending : ∃ m ∈ sorted migrations, (data.version_of module).getD 0 < m.1) :
    (apply_migrations exec module migrations (calm ⟨db, some data⟩)).1 =
        .error (.raised "cannot start a transaction within a transaction") ∧
      (apply_migrations exec module migrations (calm ⟨db, some data⟩)).2.conn.committed = db := by
  have htable : Conn.statement Db.create_table ⟨db, some data⟩ =
      .ok ⟨db, some ⟨data.schema, some (data.schema_version.getD fun _ => none)⟩⟩ := rfl
  have hread : read (fun c => c.view.version_of module)
      (calm (⟨db, some ⟨data.schema, some (data.schema_version.getD fun _ => none)⟩⟩ : Conn (Db σ))) =
      (.ok (data.version_of module),
        calm ⟨db, some ⟨data.schema, some (data.schema_version.getD fun _ => none)⟩⟩) := by
    cases hdata : data.schema_version <;>
      simp [Session.read, calm, Conn.view, Db.version_of, hdata]
  rw [apply_migrations, Act.bind_of_ok (execute_calm_ok htable), Act.bind_of_ok (execute_calm_ok rfl),
    Act.bind_of_ok hread, apply_pending_open _ hpending]
  exact ⟨rfl, rfl⟩

end Runner

/-! ## Two migrations of one table each -/

/-- Statements that create tables; a table is known by its statement. -/
def create (stmt : String) (tables : List String) : Except String (List String) :=
  if stmt ∈ tables then .error "table already exists" else .ok (tables ++ [stmt])

def blank : Db (List String) := { schema := [], schema_version := none }

def two_tables : List Migration := [(1, "CREATE TABLE a (x); CREATE TABLE b (x);"), (2, "CREATE TABLE c (x);")]

/-- The first run dies in the second statement, the next one is refused the commit of the second migration. -/
def first_stop : Event := .run [.ok, .ok, .ok, .ok, .dies true]

def second_stop : Event := .run [.ok, .ok, .ok, .ok, .ok, .ok, .ok, .ok, .ok, .ok, .raises false]

theorem migrations_converge_stopped :
    (Machine.exec (step create "demo" two_tables) ⟨blank, none⟩ [first_stop, second_stop]).committed.version_of "demo" =
      some 1 ∧
    apply_migrations create "demo" two_tables
        (Session.calm (Machine.exec (step create "demo" two_tables) ⟨blank, none⟩ [first_stop, second_stop])) =
      apply_migrations create "demo" two_tables (Session.calm ⟨blank, none⟩) := by
  have hfirst : (step create "demo" two_tables ⟨blank, none⟩ first_stop).pending.isNone = true := by decide +kernel
  have hsecond : (Machine.exec (step create "demo" two_tables) ⟨blank, none⟩
      [first_stop, second_stop]).pending.isNone = true := by decide +kernel
  have hclosed : Along (step create "demo" two_tables) Closed ⟨blank, none⟩ [first_stop, second_stop] := by
    rw [along_cons, along_cons]
    exact ⟨rfl, Option.isNone_iff_eq_none.mp hfirst, trivial⟩
  have hconverge := migrations_converge create "demo" two_tables (by decide) (by decide) blank rfl
    [first_stop, second_stop] hclosed
  exact ⟨by decide +kernel, (hconverge.2 (Option.isNone_iff_eq_none.mp hsecond)).1⟩

def from_zero : List Migration := [(0, "CREATE TABLE a (x);"), (1, "CREATE TABLE b (x);")]

/-- **What the conditions exclude.** A version 0 is skipped, and version 1 is recorded without it. And after an interruption
    inside a transaction a later run on the connection raises, where one that was never interrupted returns. -/
theorem migration_lost_or_stuck :
    ((apply_migrations create "demo" from_zero (Session.calm ⟨blank, none⟩)).1 = .ok () ∧
      (apply_migrations create "demo" from_zero (Session.calm ⟨blank, none⟩)).2.conn.committed.version_of "demo" = some 1 ∧
      (apply_migrations create "demo" from_zero (Session.calm ⟨blank, none⟩)).2.conn.committed.schema =
        ["CREATE TABLE b (x)"] ∧
      replay create from_zero [] = .ok ["CREATE TABLE a (x)", "CREATE TABLE b (x)"]) ∧
    (apply_migrations create "demo" two_tables (Session.calm ⟨blank, none⟩)).1 = .ok () ∧
    (apply_migrations create "demo" two_tables (Session.calm
        (step create "demo" two_tables ⟨blank, none⟩ (.run [.ok, .ok, .ok, .ok, .interrupted false])))).1 =
      .error (.raised "cannot start a transaction within a transaction") := by
  decide +kernel

end Migrations

end CompanyFactory
