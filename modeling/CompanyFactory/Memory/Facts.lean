import Mathlib.Data.List.Sort
import CompanyFactory.EventStore.Store
import CompanyFactory.Lib.Run
import CompanyFactory.Lib.Table

/-!
# `Memory.Facts` — episodes, facts and their embeddings

Two tables: `memories` has one row an item, `memory_embeddings` the packed vector of an item that was embedded. A fact is
a semantic row; its key is unique for its agent. `remember_fact` updates the row of its key or inserts a new one, and
writes the embedding anew; `forget` deletes a row, and the foreign key takes its embedding along.

* A statement that breaks a constraint raises an `IntegrityError`; whatever is raised inside a transaction rolls it back.
* What a call draws, a new id and the time, is its `Draw`; it also says whether the database refuses the call.
* The embedder and the float format of `struct.pack` are the fields of `MemoryEnv`.

`Sound` is what the two tables keep. No constraint but the one of a fresh id is ever broken: the checks of the code are
enough (`insert_embedding_ok`).
-/

namespace CompanyFactory

/-- `Kind` -/
inductive MemoryKind where
  | EPISODIC | SEMANTIC
  deriving DecidableEq, Repr

/-- A row of `memories`. -/
structure MemoryRow where
  id : String
  agent_id : String
  kind : MemoryKind
  key : Option String
  content : String
  metadata_json : Option Fields
  ts_real : Time
  deriving DecidableEq

/-- A row of `memory_embeddings`. -/
structure EmbeddingRow where
  memory_id : String
  agent_id : String
  dim : Nat
  vector : List UInt8
  deriving DecidableEq

structure MemoryDb where
  memories : List MemoryRow
  memory_embeddings : List EmbeddingRow

/-- What the service has from its constructor; `V` are the floats. -/
structure MemoryEnv (V : Type) where
  /-- `embedder.dim` -/
  dim : Nat
  /-- `embedder.embed` -/
  embed : String → List V
  /-- `_pack_vector` -/
  pack_vector : List V → List UInt8
  max_content_bytes : Nat

/-- What one call gets from outside. -/
structure Draw where
  new_id : String
  now : Time
  /-- the database refuses to begin, or refuses a statement of the call -/
  fault : Option String := none

namespace MemoryDb

variable {V : Type}

def empty : MemoryDb := { memories := [], memory_embeddings := [] }

/-! ## Statements -/

def integrity_error (message : String) : Exn := .other "IntegrityError" message

/-- Is the row the fact of the agent under the key? -/
def is_fact (agent_id key : String) (row : MemoryRow) : Bool :=
  row.agent_id = agent_id && row.kind = .SEMANTIC && row.key = some key

/-- `INSERT INTO memories`; the key column of the partial index may be null. -/
def insert_memory (row : MemoryRow) (db : MemoryDb) : Except Exn MemoryDb :=
  if db.memories.any (fun r => r.id = row.id) then
    .error (integrity_error "UNIQUE constraint failed: memories.id")
  else if row.kind = .SEMANTIC ∧ row.key.any (fun key => db.memories.any (is_fact row.agent_id key)) then
    .error (integrity_error "UNIQUE constraint failed: memories.agent_id, memories.key")
  else .ok { db with memories := db.memories ++ [row] }

/-- `UPDATE memories SET content = ?, metadata_json = ?, ts_real = ? WHERE id = ?` -/
def update_memory (memory_id content : String) (metadata_json : Option Fields) (ts_real : Time) (db : MemoryDb) :
    MemoryDb :=
  let changed (r : MemoryRow) : MemoryRow := { r with content, metadata_json, ts_real }
  { db with memories := Table.update MemoryRow.id memory_id changed db.memories }

/-- `DELETE FROM memory_embeddings WHERE memory_id = ?` -/
def delete_embedding (memory_id : String) (db : MemoryDb) : MemoryDb :=
  { db with memory_embeddings := db.memory_embeddings.filter (fun e => e.memory_id ≠ memory_id) }

/-- `INSERT INTO memory_embeddings` -/
def insert_embedding (row : EmbeddingRow) (db : MemoryDb) : Except Exn MemoryDb :=
  if db.memory_embeddings.any (fun e => e.memory_id = row.memory_id) then
    .error (integrity_error "UNIQUE constraint failed: memory_embeddings.memory_id")
  else if !db.memories.any (fun r => r.id = row.memory_id) then .error (integrity_error "FOREIGN KEY constraint failed")
  else .ok { db with memory_embeddings := db.memory_embeddings ++ [row] }

/-- `DELETE FROM memories WHERE id = ? AND agent_id = ?`, with `ON DELETE CASCADE`. -/
def delete_memory (item_id agent_id : String) (db : MemoryDb) : MemoryDb :=
  let gone (r : MemoryRow) : Bool := r.id = item_id && r.agent_id = agent_id
  { memories := db.memories.filter (fun r => !gone r)
    memory_embeddings := db.memory_embeddings.filter
      (fun e => !db.memories.any (fun r => gone r && decide (r.id = e.memory_id))) }

/-- `with self._db.transaction()` -/
def transaction {α : Type} (fault : Option String) (body : MemoryDb → Except Exn (α × MemoryDb)) :
    Act MemoryDb Exn α := fun db =>
  match fault, body db with
  | some message, _ => (.error (.database message), db)
  | none, .error e => (.error e, db)
  | none, .ok (a, db') => (.ok a, db')

/-! ## The service -/

/-- `_guard_size` -/
def guard_size (env : MemoryEnv V) (content : String) : Except Exn Unit :=
  if env.max_content_bytes < content.utf8ByteSize then
    .error (.other "MemoryTooLarge" ("content > " ++ toString env.max_content_bytes ++ " bytes"))
  else .ok ()

/-- `_guard_dim` -/
def guard_dim (env : MemoryEnv V) (vec : List V) : Except Exn Unit :=
  if vec.length ≠ env.dim then
    .error (.other "EmbeddingDimensionMismatch"
      ("vector dim " ++ toString vec.length ++ " != embedder dim " ++ toString env.dim))
  else .ok ()

/-- `_dump_meta` -/
def dump_meta : Option Fields → Option Fields
  | none | some [] => none
  | some metadata => some metadata

/-- The row that `vec` becomes. -/
def embedding_row (env : MemoryEnv V) (memory_id agent_id : String) (vec : List V) : EmbeddingRow :=
  { memory_id, agent_id, dim := vec.length, vector := env.pack_vector vec }

/-- The insert of the vector, for the item with this id. -/
def embed_row (env : MemoryEnv V) (agent_id : String) (vec : List V) (memory_id : String) (db : MemoryDb) :
    Except Exn (String × MemoryDb) := do
  let db ← db.insert_embedding (embedding_row env memory_id agent_id vec)
  return (memory_id, db)

def remember_episode (env : MemoryEnv V) (d : Draw) (agent_id summary : String) (metadata : Option Fields) :
    Act MemoryDb Exn String :=
  match guard_size env summary with
  | .error e => Act.raise e
  | .ok () =>
    let vec := env.embed summary
    match guard_dim env vec with
    | .error e => Act.raise e
    | .ok () => transaction d.fault fun db => do
        let db ← db.insert_memory
          { id := d.new_id, agent_id, kind := .EPISODIC, key := none, content := summary
            metadata_json := dump_meta metadata, ts_real := d.now }
        embed_row env agent_id vec d.new_id db

/-- The first part of `remember_fact`: the row of the key is updated, or a new one is inserted. -/
def upsert_fact (d : Draw) (agent_id key value : String) (metadata : Option Fields) (db : MemoryDb) :
    Except Exn (String × MemoryDb) :=
  match db.memories.find? (is_fact agent_id key) with
  | some existing =>
      -- the id stays, and the old vector goes
      .ok (existing.id, (db.update_memory existing.id value (dump_meta metadata) d.now).delete_embedding existing.id)
  | none => do
      let db ← db.insert_memory
        { id := d.new_id, agent_id, kind := .SEMANTIC, key := some key, content := value
          metadata_json := dump_meta metadata, ts_real := d.now }
      return (d.new_id, db)

/-- The second part: the embedding, if it is wanted. -/
def embed_fact (env : MemoryEnv V) (agent_id value : String) (embed : Bool) (memory_id : String) (db : MemoryDb) :
    Except Exn (String × MemoryDb) :=
  if embed then do
    let vec := env.embed value
    -- inside the transaction: a wrong dimension undoes the row too
    guard_dim env vec
    embed_row env agent_id vec memory_id db
  else .ok (memory_id, db)

def remember_fact (env : MemoryEnv V) (d : Draw) (agent_id key value : String) (embed : Bool)
    (metadata : Option Fields) : Act MemoryDb Exn String :=
  if key = "" then Act.raise (.valueError "key must be non-empty")
  else match guard_size env value with
    | .error e => Act.raise e
    | .ok () => transaction d.fault fun db => do
        let written ← upsert_fact d agent_id key value metadata db
        embed_fact env agent_id value embed written.1 written.2

def get_fact (db : MemoryDb) (agent_id key : String) : Option String :=
  (db.memories.find? (is_fact agent_id key)).map MemoryRow.content

/-- The semantic rows of an agent. -/
def facts (db : MemoryDb) (agent_id : String) : List MemoryRow :=
  db.memories.filter fun r => r.agent_id = agent_id && r.kind = .SEMANTIC

/-- A dict comprehension: a later value of a key takes the place of an earlier one. -/
def dict_of (pairs : List (String × String)) : List (String × String) :=
  pairs.foldl (fun dict kv => dict.filter (fun other => other.1 ≠ kv.1) ++ [kv]) []

def all_facts (db : MemoryDb) (agent_id : String) : List (String × String) :=
  let rows := (db.facts agent_id).insertionSort (fun r r' => r.ts_real ≤ r'.ts_real)
  dict_of (rows.filterMap fun r => r.key.map fun key => (key, r.content))

def forget (d : Draw) (agent_id item_id : String) : Act MemoryDb Exn Unit :=
  transaction d.fault fun db => .ok ((), db.delete_memory item_id agent_id)

/-! ## The calls -/

inductive Call where
  | remember_episode (agent_id summary : String) (metadata : Option Fields)
  | remember_fact (agent_id key value : String) (embed : Bool) (metadata : Option Fields)
  | forget (agent_id item_id : String)

def Call.agent : Call → String
  | .remember_episode agent_id .. | .remember_fact agent_id .. | .forget agent_id _ => agent_id

/-- A call returns the id of the item, or nothing. -/
def Call.run (env : MemoryEnv V) (d : Draw) (c : Call) : Act MemoryDb Exn (Option String) := fun db =>
  match c with
  | .remember_episode agent_id summary metadata =>
      let (result, db) := MemoryDb.remember_episode env d agent_id summary metadata db
      (result.map some, db)
  | .remember_fact agent_id key value embed metadata =>
      let (result, db) := MemoryDb.remember_fact env d agent_id key value embed metadata db
      (result.map some, db)
  | .forget agent_id item_id =>
      let (result, db) := MemoryDb.forget d agent_id item_id db
      (result.map fun _ => none, db)

/-- The tables after a call, whether it returned or raised. -/
def step (env : MemoryEnv V) (db : MemoryDb) (c : Call × Draw) : MemoryDb := (c.1.run env c.2 db).2

/-! ## What the tables keep -/

/-- The embedding that a row should have. -/
def embedding_of (env : MemoryEnv V) (row : MemoryRow) : EmbeddingRow :=
  embedding_row env row.id row.agent_id (env.embed row.content)

structure Sound (env : MemoryEnv V) (db : MemoryDb) : Prop where
  ids : (db.memories.map MemoryRow.id).Nodup
  /-- the key of a fact is unique for its agent -/
  keys : ∀ agent_id, ((db.facts agent_id).map MemoryRow.key).Nodup
  keyed : ∀ r ∈ db.memories, r.kind = .SEMANTIC → ∃ key, r.key = some key
  one : (db.memory_embeddings.map EmbeddingRow.memory_id).Nodup
  current : ∀ e ∈ db.memory_embeddings, ∃ r ∈ db.memories, e = embedding_of env r

/-- The embedding of a row, if it is wanted. -/
def embedded (env : MemoryEnv V) (row : MemoryRow) (embed : Bool) (db : MemoryDb) : MemoryDb :=
  if embed then { db with memory_embeddings := db.memory_embeddings ++ [embedding_of env row] } else db

/-- A new row. -/
def added (env : MemoryEnv V) (row : MemoryRow) (embed : Bool) (db : MemoryDb) : MemoryDb :=
  embedded env row embed { db with memories := db.memories ++ [row] }

/-- The row with this id gets a new content. -/
def renewed (env : MemoryEnv V) (row : MemoryRow) (value : String) (metadata_json : Option Fields) (now : Time)
    (embed : Bool) (db : MemoryDb) : MemoryDb :=
  embedded env { row with content := value, metadata_json, ts_real := now } embed
    ((db.update_memory row.id value metadata_json now).delete_embedding row.id)

@[simp] theorem embedded_memories (env : MemoryEnv V) (row : MemoryRow) (embed : Bool) (db : MemoryDb) :
    (embedded env row embed db).memories = db.memories := by
  unfold embedded
  split <;> rfl

/-- What a call can do. -/
inductive Outcome (env : MemoryEnv V) (db : MemoryDb) (d : Draw) :
    Call → Except Exn (Option String) → MemoryDb → Prop
  /-- it raises, and everything is as before -/
  | refused (c : Call) (e : Exn) : Outcome env db d c (.error e) db
  | episode (agent_id summary : String) (metadata : Option Fields) (hnew : ∀ r ∈ db.memories, r.id ≠ d.new_id) :
      Outcome env db d (.remember_episode agent_id summary metadata) (.ok (some d.new_id))
        (added env ⟨d.new_id, agent_id, .EPISODIC, none, summary, dump_meta metadata, d.now⟩ true db)
  | inserted (agent_id key value : String) (embed : Bool) (metadata : Option Fields)
      (hnew : ∀ r ∈ db.memories, r.id ≠ d.new_id) (hkey : db.memories.find? (is_fact agent_id key) = none) :
      Outcome env db d (.remember_fact agent_id key value embed metadata) (.ok (some d.new_id))
        (added env ⟨d.new_id, agent_id, .SEMANTIC, some key, value, dump_meta metadata, d.now⟩ embed db)
  | updated (agent_id key value : String) (embed : Bool) (metadata : Option Fields) (row : MemoryRow)
      (hrow : db.memories.find? (is_fact agent_id key) = some row) :
      Outcome env db d (.remember_fact agent_id key value embed metadata) (.ok (some row.id))
        (renewed env row value (dump_meta metadata) d.now embed db)
  | forgotten (agent_id item_id : String) :
      Outcome env db d (.forget agent_id item_id) (.ok none) (db.delete_memory item_id agent_id)

section Outcomes

variable {env : MemoryEnv V} {db : MemoryDb} {d : Draw}

/-- The insert of a row that goes through. -/
theorem insert_memory_ok {row : MemoryRow} {db' : MemoryDb} (h : db.insert_memory row = .ok db') :
    (∀ r ∈ db.memories, r.id ≠ row.id) ∧ db' = { db with memories := db.memories ++ [row] } := by
  unfold insert_memory at h
  split at h
  · cases h
  · rename_i hid
    split at h
    · cases h
    · cases h
      refine ⟨fun r hr heq => hid ?_, rfl⟩
      rw [List.any_eq_true]
      exact ⟨r, hr, decide_eq_true heq⟩

theorem embed_row_ok {row : MemoryRow} {memory_id : String} {db' : MemoryDb}
    (h : embed_row env row.agent_id (env.embed row.content) row.id db = .ok (memory_id, db')) :
    memory_id = row.id ∧ db' = embedded env row true db := by
  obtain ⟨inserted, hinsert, hret⟩ := Act.except_bind_eq_ok.mp h
  unfold insert_embedding at hinsert
  split_ifs at hinsert
  cases hinsert
  cases hret
  exact ⟨rfl, rfl⟩

theorem embed_fact_ok {row : MemoryRow} {embed : Bool} {memory_id : String} {db' : MemoryDb}
    (h : embed_fact env row.agent_id row.content embed row.id db = .ok (memory_id, db')) :
    memory_id = row.id ∧ db' = embedded env row embed db := by
  unfold embed_fact at h
  cases embed with
  | false =>
      cases h
      exact ⟨rfl, rfl⟩
  | true =>
      obtain ⟨-, -, hrow⟩ := Act.except_bind_eq_ok.mp h
      exact embed_row_ok hrow

/-- **The embedding is never refused**: the row is in the table, and it has no other. -/
theorem insert_embedding_ok {row : MemoryRow} (hrow : row ∈ db.memories)
    (hnone : ∀ e ∈ db.memory_embeddings, e.memory_id ≠ row.id) :
    db.insert_embedding (embedding_of env row) = .ok (embedded env row true db) := by
  have hfirst : db.memory_embeddings.any (fun e => decide (e.memory_id = (embedding_of env row).memory_id)) = false := by
    rw [List.any_eq_false]
    intro e he hsame
    exact hnone e he (of_decide_eq_true hsame)
  have hkey : db.memories.any (fun r => decide (r.id = (embedding_of env row).memory_id)) = true := by
    rw [List.any_eq_true]
    exact ⟨row, hrow, decide_eq_true rfl⟩
  simp [insert_embedding, hfirst, hkey, embedded]

/-- A transaction raises and changes nothing, or its body goes through. -/
theorem transaction_rule {α : Type} {fault : Option String} {body : MemoryDb → Except Exn (α × MemoryDb)}
    {Q : Except Exn α → MemoryDb → Prop} (hraised : ∀ e, Q (.error e) db)
    (hok : ∀ a db', body db = .ok (a, db') → Q (.ok a) db') :
    Q (transaction fault body db).1 (transaction fault body db).2 := by
  unfold transaction
  cases fault with
  | some message => exact hraised _
  | none =>
      cases hbody : body db with
      | error e => exact hraised e
      | ok result => exact hok result.1 result.2 hbody

theorem fact_of_find {agent_id key : String} {row : MemoryRow}
    (h : db.memories.find? (is_fact agent_id key) = some row) :
    row ∈ db.memories ∧ row.agent_id = agent_id ∧ row.kind = .SEMANTIC ∧ row.key = some key := by
  have hfact := List.find?_some h
  simp only [is_fact, Bool.and_eq_true, decide_eq_true_eq] at hfact
  exact ⟨List.mem_of_find?_eq_some h, hfact.1.1, hfact.1.2, hfact.2⟩

/-- The row of a fact after the update is in the table, and its old embedding is gone. -/
theorem updated_row {row : MemoryRow} (hrow : row ∈ db.memories) (value : String) (metadata_json : Option Fields)
    (now : Time) :
    ({ row with content := value, metadata_json, ts_real := now } : MemoryRow) ∈
        ((db.update_memory row.id value metadata_json now).delete_embedding row.id).memories ∧
      ∀ e ∈ ((db.update_memory row.id value metadata_json now).delete_embedding row.id).memory_embeddings,
        e.memory_id ≠ row.id := by
  constructor
  · apply List.mem_map.mpr
    exact ⟨row, hrow, if_pos rfl⟩
  · intro e he
    exact of_decide_eq_true (List.mem_filter.mp he).2

/-- The two branches of `remember_fact`. -/
theorem write_fact_ok {agent_id key value memory_id : String} {embed : Bool} {metadata : Option Fields}
    {db' : MemoryDb} (h : (do
      let written ← upsert_fact d agent_id key value metadata db
      embed_fact env agent_id value embed written.1 written.2) = .ok (memory_id, db')) :
    Outcome env db d (.remember_fact agent_id key value embed metadata) (.ok (some memory_id)) db' := by
  obtain ⟨⟨written_id, written⟩, hupsert, hembed⟩ := Act.except_bind_eq_ok.mp h
  unfold upsert_fact at hupsert
  cases hrow : db.memories.find? (is_fact agent_id key) with
  | some row =>
      obtain ⟨-, hagent, -, -⟩ := fact_of_find hrow
      rw [hrow] at hupsert
      cases hupsert
      subst hagent
      let renewed_row : MemoryRow :=
        { row with content := value, metadata_json := dump_meta metadata, ts_real := d.now }
      obtain ⟨rfl, rfl⟩ := @embed_fact_ok V env _ renewed_row embed memory_id db' hembed
      exact .updated row.agent_id key value embed metadata row hrow
  | none =>
      rw [hrow] at hupsert
      obtain ⟨inserted, hinsert, hret⟩ := Act.except_bind_eq_ok.mp hupsert
      cases hret
      obtain ⟨hnew, rfl⟩ := insert_memory_ok hinsert
      let new_row : MemoryRow := ⟨d.new_id, agent_id, .SEMANTIC, some key, value, dump_meta metadata, d.now⟩
      obtain ⟨rfl, rfl⟩ := @embed_fact_ok V env _ new_row embed memory_id db' hembed
      exact .inserted agent_id key value embed metadata hnew hrow

/-- **Inversion.** Whatever a call does is one of the outcomes. -/
theorem outcome (env : MemoryEnv V) (db : MemoryDb) (d : Draw) (c : Call) :
    Outcome env db d c (c.run env d db).1 (c.run env d db).2 := by
  cases c with
  | forget agent_id item_id =>
      simp only [Call.run, forget]
      apply transaction_rule (Q := fun result db' =>
        Outcome env db d (.forget agent_id item_id) (result.map fun _ => none) db')
      · intro e
        exact .refused _ e
      · intro a db' hbody
        cases hbody
        exact .forgotten agent_id item_id
  | remember_episode agent_id summary metadata =>
      simp only [Call.run, remember_episode]
      cases guard_size env summary with
      | error e => exact .refused _ e
      | ok u =>
          cases guard_dim env (env.embed summary) with
          | error e => exact .refused _ e
          | ok u =>
              apply transaction_rule (Q := fun result db' =>
                Outcome env db d (.remember_episode agent_id summary metadata) (result.map some) db')
              · intro e
                exact .refused _ e
              · intro memory_id db' hbody
                obtain ⟨inserted, hinsert, hembed⟩ := Act.except_bind_eq_ok.mp hbody
                obtain ⟨hnew, rfl⟩ := insert_memory_ok hinsert
                let new_row : MemoryRow := ⟨d.new_id, agent_id, .EPISODIC, none, summary, dump_meta metadata, d.now⟩
                obtain ⟨rfl, rfl⟩ := @embed_row_ok V env _ new_row memory_id db' hembed
                exact .episode agent_id summary metadata hnew
  | remember_fact agent_id key value embed metadata =>
      simp only [Call.run, remember_fact]
      by_cases hempty : key = ""
      · rw [if_pos hempty]
        exact .refused _ _
      · rw [if_neg hempty]
        cases guard_size env value with
        | error e => exact .refused _ e
        | ok u =>
            apply transaction_rule (Q := fun result db' =>
              Outcome env db d (.remember_fact agent_id key value embed metadata) (result.map some) db')
            · intro e
              exact .refused _ e
            · intro memory_id db' hbody
              exact write_fact_ok hbody

end Outcomes

/-! ## The facts of an agent, after each statement -/

section Rows

variable {env : MemoryEnv V} {db : MemoryDb}

theorem mem_facts {agent_id : String} {row : MemoryRow} :
    row ∈ db.facts agent_id ↔ row ∈ db.memories ∧ row.agent_id = agent_id ∧ row.kind = .SEMANTIC := by
  simp [facts]

/-- The lookup of a fact is one by its key. -/
theorem find_fact (db : MemoryDb) (agent_id key : String) :
    db.memories.find? (is_fact agent_id key) = Table.find MemoryRow.key (db.facts agent_id) (some key) := by
  rw [Table.find, facts, List.find?_filter]
  congr 1
  funext r
  simp [is_fact]

/-- The update of one row by its id. -/
def change (row : MemoryRow) (value : String) (metadata_json : Option Fields) (now : Time) (r : MemoryRow) : MemoryRow :=
  if r.id = row.id then { r with content := value, metadata_json, ts_real := now } else r

theorem renewed_memories (row : MemoryRow) (value : String) (metadata_json : Option Fields) (now : Time)
    (embed : Bool) (db : MemoryDb) :
    (renewed env row value metadata_json now embed db).memories =
      db.memories.map (change row value metadata_json now) := by
  rw [renewed, embedded_memories]
  rfl

@[simp] theorem change_id (row : MemoryRow) (value : String) (metadata_json : Option Fields) (now : Time)
    (r : MemoryRow) : (change row value metadata_json now r).id = r.id := by
  unfold change
  split <;> rfl

@[simp] theorem change_agent_id (row : MemoryRow) (value : String) (metadata_json : Option Fields) (now : Time)
    (r : MemoryRow) : (change row value metadata_json now r).agent_id = r.agent_id := by
  unfold change
  split <;> rfl

@[simp] theorem change_kind (row : MemoryRow) (value : String) (metadata_json : Option Fields) (now : Time)
    (r : MemoryRow) : (change row value metadata_json now r).kind = r.kind := by
  unfold change
  split <;> rfl

@[simp] theorem change_key (row : MemoryRow) (value : String) (metadata_json : Option Fields) (now : Time)
    (r : MemoryRow) : (change row value metadata_json now r).key = r.key := by
  unfold change
  split <;> rfl

theorem facts_added (row : MemoryRow) (embed : Bool) (agent_id : String) :
    (added env row embed db).facts agent_id =
      db.facts agent_id ++ if row.agent_id = agent_id ∧ row.kind = .SEMANTIC then [row] else [] := by
  rw [facts, added, embedded_memories, List.filter_append]
  by_cases h : row.agent_id = agent_id ∧ row.kind = .SEMANTIC
  · simp [facts, h]
  · simp [facts, h]

theorem facts_renewed (row : MemoryRow) (value : String) (metadata_json : Option Fields) (now : Time) (embed : Bool)
    (agent_id : String) : (renewed env row value metadata_json now embed db).facts agent_id =
      (db.facts agent_id).map (change row value metadata_json now) := by
  rw [facts, renewed_memories, List.filter_map]
  congr 1
  apply List.filter_congr
  intro r _
  simp

theorem facts_deleted (item_id agent_id other : String) :
    (db.delete_memory item_id agent_id).facts other =
      (db.facts other).filter (fun r => !(decide (r.id = item_id) && decide (r.agent_id = agent_id))) := by
  rw [facts, delete_memory, facts, List.filter_filter, List.filter_filter]
  apply List.filter_congr
  intro r _
  exact Bool.and_comm _ _

/-! ## The invariant -/

theorem sound_empty (env : MemoryEnv V) : Sound env empty where
  ids := List.nodup_nil
  keys _ := List.nodup_nil
  keyed _ hr := by cases hr
  one := List.nodup_nil
  current _ he := by cases he

/-- An id that no row has is in no embedding. -/
theorem Sound.fresh (hs : Sound env db) {id : String} (hnew : ∀ r ∈ db.memories, r.id ≠ id) :
    ∀ e ∈ db.memory_embeddings, e.memory_id ≠ id := by
  intro e he
  obtain ⟨r, hr, rfl⟩ := hs.current e he
  exact hnew r hr

theorem Sound.same_row (hs : Sound env db) {r r' : MemoryRow} (hr : r ∈ db.memories) (hr' : r' ∈ db.memories)
    (hid : r.id = r'.id) : r = r' := List.inj_on_of_nodup_map hs.ids hr hr' hid

/-- The embedding of a row that has none. -/
theorem Sound.embedded (hs : Sound env db) {row : MemoryRow} (hrow : row ∈ db.memories)
    (hnone : ∀ e ∈ db.memory_embeddings, e.memory_id ≠ row.id) (embed : Bool) :
    Sound env (embedded env row embed db) := by
  unfold MemoryDb.embedded
  cases embed with
  | false => exact hs
  | true =>
      refine ⟨hs.ids, hs.keys, hs.keyed, ?_, ?_⟩
      · simp only [if_true, List.map_append, List.map_singleton]
        rw [List.nodup_append]
        refine ⟨hs.one, List.nodup_singleton _, ?_⟩
        intro id hid id' hid' heq
        obtain ⟨e, he, rfl⟩ := List.mem_map.mp hid
        rw [List.mem_singleton.mp hid'] at heq
        exact hnone e he heq
      · intro e he
        simp only [if_true, List.mem_append, List.mem_singleton] at he
        obtain he | rfl := he
        · exact hs.current e he
        · exact ⟨row, hrow, rfl⟩

theorem Sound.added (hs : Sound env db) {row : MemoryRow} (hnew : ∀ r ∈ db.memories, r.id ≠ row.id)
    (hkeyed : row.kind = .SEMANTIC → ∃ key, row.key = some key ∧
      db.memories.find? (is_fact row.agent_id key) = none) (embed : Bool) : Sound env (added env row embed db) := by
  have hinserted : Sound env { db with memories := db.memories ++ [row] } := by
    refine ⟨?_, ?_, ?_, hs.one, ?_⟩
    · apply Table.keys_insert hs.ids
      exact Table.find_eq_none.mpr hnew
    · intro agent_id
      have hfacts := @facts_added V env db row false agent_id
      rw [MemoryDb.added, MemoryDb.embedded, if_neg (by simp)] at hfacts
      rw [hfacts]
      by_cases hfact : row.agent_id = agent_id ∧ row.kind = .SEMANTIC
      · rw [if_pos hfact]
        obtain ⟨key, hkey, hnone⟩ := hkeyed hfact.2
        rw [find_fact, hfact.1, ← hkey] at hnone
        exact Table.keys_insert (hs.keys agent_id) hnone
      · rw [if_neg hfact, List.append_nil]
        exact hs.keys agent_id
    · intro r hr hkind
      obtain hr | hr := List.mem_append.mp hr
      · exact hs.keyed r hr hkind
      · rw [List.mem_singleton.mp hr] at hkind ⊢
        obtain ⟨key, hkey, -⟩ := hkeyed hkind
        exact ⟨key, hkey⟩
    · intro e he
      obtain ⟨r, hr, heq⟩ := hs.current e he
      exact ⟨r, List.mem_append_left _ hr, heq⟩
  exact hinserted.embedded (by simp) (hs.fresh hnew) embed

theorem Sound.renewed (hs : Sound env db) {row : MemoryRow} (hrow : row ∈ db.memories) (value : String)
    (metadata_json : Option Fields) (now : Time) (embed : Bool) :
    Sound env (renewed env row value metadata_json now embed db) := by
  obtain ⟨hthere, hbare⟩ := updated_row hrow value metadata_json now
  have hupdated : Sound env ((db.update_memory row.id value metadata_json now).delete_embedding row.id) := by
    refine ⟨?_, ?_, ?_, ?_, ?_⟩
    · have hmap : ((db.update_memory row.id value metadata_json now).delete_embedding row.id).memories =
          db.memories.map (change row value metadata_json now) := rfl
      rw [hmap, Table.keys_update (change_id row value metadata_json now)]
      exact hs.ids
    · intro agent_id
      have hfacts := @facts_renewed V env db row value metadata_json now false agent_id
      rw [MemoryDb.renewed, MemoryDb.embedded, if_neg (by simp)] at hfacts
      rw [hfacts, Table.keys_update (fun r => change_key row value metadata_json now r)]
      exact hs.keys agent_id
    · intro r hr hkind
      obtain ⟨r₀, hr₀, ⟨-, rfl⟩ | ⟨-, rfl⟩⟩ := Table.mem_update hr
      · exact hs.keyed r hr₀ hkind
      · exact hs.keyed r₀ hr₀ hkind
    · exact hs.one.sublist (List.filter_sublist.map _)
    · intro e he
      obtain ⟨he, hne⟩ := List.mem_filter.mp he
      obtain ⟨r, hr, rfl⟩ := hs.current e he
      -- the row of an embedding that stays is not the one that was updated
      exact ⟨r, Table.mem_update_of_ne hr (of_decide_eq_true hne), rfl⟩
  exact hupdated.embedded hthere hbare embed

theorem Sound.deleted (hs : Sound env db) (item_id agent_id : String) :
    Sound env (db.delete_memory item_id agent_id) := by
  refine ⟨?_, ?_, ?_, ?_, ?_⟩
  · exact hs.ids.sublist (List.filter_sublist.map _)
  · intro other
    rw [facts_deleted]
    exact (hs.keys other).sublist (List.filter_sublist.map _)
  · intro r hr
    exact hs.keyed r (List.mem_of_mem_filter hr)
  · exact hs.one.sublist (List.filter_sublist.map _)
  · intro e he
    obtain ⟨he, hstays⟩ := List.mem_filter.mp he
    obtain ⟨r, hr, rfl⟩ := hs.current e he
    refine ⟨r, List.mem_filter.mpr ⟨hr, ?_⟩, rfl⟩
    -- the cascade leaves only embeddings whose row stays
    rw [Bool.not_eq_true', List.any_eq_false] at hstays
    have hr' := hstays r hr
    simpa [embedding_of, embedding_row, imp_iff_not_or] using hr'

/-- **Every call keeps the tables sound.** -/
theorem Sound.outcome {d : Draw} {c : Call} {reply : Except Exn (Option String)} {db' : MemoryDb} (hs : Sound env db)
    (h : Outcome env db d c reply db') : Sound env db' := by
  cases h with
  | refused => exact hs
  | episode _ _ _ hnew =>
      apply hs.added hnew
      intro hkind
      cases hkind
  | inserted _ key _ embed _ hnew hkey =>
      apply hs.added hnew
      intro _
      exact ⟨key, rfl, hkey⟩
  | updated _ _ value embed metadata row hrow => exact hs.renewed (fact_of_find hrow).1 _ _ _ embed
  | forgotten agent_id item_id => exact hs.deleted item_id agent_id

end Rows

end MemoryDb

end CompanyFactory
