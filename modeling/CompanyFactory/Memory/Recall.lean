import CompanyFactory.Memory.FactMap

/-!
# `Memory.Recall` — the search of an agent's memory

What a search is for: there is an index of the items that were embedded, by id. An episode sets its item; a fact sets its
item, or removes it when it is remembered without an embedding; `forget` removes an item of the agent. The join of the
two tables refines that index (`index_exec`), and `recall` lists the items of an agent by falling score, cut off at `k`.

* The floats are a linear order with the operations that `_cosine` uses: a score is not a NaN.
* The join names no order; `scan` is the one of the database, and it decides between equal scores only.
-/

namespace CompanyFactory

open Machine

namespace MemoryDb

/-- `IdentityProvider` -/
structure IdentityProvider where
  is_active : String → Bool
  can_read_workspace : String → String → Bool

/-- The part of the service that searches. -/
structure Recaller (V : Type) where
  env : MemoryEnv V
  /-- `_unpack_vector` -/
  unpack_vector : List UInt8 → Nat → List V
  sqrt : V → V
  recall_threshold : V
  scan : List (MemoryRow × EmbeddingRow) → List (MemoryRow × EmbeddingRow)
  scan_perm : ∀ rows, (scan rows).Perm rows

structure RecallHit (V : Type) where
  kind : MemoryKind
  item_id : String
  content : String
  score : V
  metadata : Fields

/-- `_load_meta` -/
def load_meta : Option Fields → Fields
  | none => []
  | some metadata => metadata

/-- `kind_values`: no kinds are all of them. -/
def kind_values : Option (List MemoryKind) → List MemoryKind
  | none | some [] => [.EPISODIC, .SEMANTIC]
  | some kinds => kinds

/-- `hits[:k]` -/
def slice {α : Type} (k : Int) (hits : List α) : List α :=
  hits.take (if 0 ≤ k then k.toNat else hits.length - (-k).toNat)

section Code

variable {V : Type} [LinearOrder V] [Zero V] [Add V] [Mul V] [Div V]

/-- `_cosine` -/
def cosine (r : Recaller V) (a b : List V) : V :=
  if a.length ≠ b.length then 0
  else
    let (dot, na, nb) := (a.zip b).foldl
      (fun sums xy => (sums.1 + xy.1 * xy.2, sums.2.1 + xy.1 * xy.1, sums.2.2 + xy.2 * xy.2)) (0, 0, 0)
    if na = 0 ∨ nb = 0 then 0 else dot / (r.sqrt na * r.sqrt nb)

/-- The rows that the query selects. -/
def selected (db : MemoryDb) (agent_id : String) (kinds : Option (List MemoryKind)) : List (MemoryRow × EmbeddingRow) :=
  (db.memories.product db.memory_embeddings).filter fun (m, e) =>
    e.memory_id = m.id && m.agent_id = agent_id && (kind_values kinds).contains m.kind

def hit_of (r : Recaller V) (qvec : List V) (m : MemoryRow) (e : EmbeddingRow) : RecallHit V :=
  { kind := m.kind, item_id := m.id, content := m.content
    score := cosine r qvec (r.unpack_vector e.vector e.dim), metadata := load_meta m.metadata_json }

/-- The loop over the rows. -/
def score_rows (r : Recaller V) (qvec : List V) :
    List (MemoryRow × EmbeddingRow) → List (RecallHit V) → Except Exn (List (RecallHit V))
  | [], hits => .ok hits
  | (m, e) :: rows, hits =>
    if e.dim ≠ r.env.dim then
      .error (.other "EmbeddingDimensionMismatch"
        ("stored dim " ++ toString e.dim ++ " != embedder dim " ++ toString r.env.dim))
    else if (hit_of r qvec m e).score < r.recall_threshold then score_rows r qvec rows hits
    else score_rows r qvec rows (hits ++ [hit_of r qvec m e])

/-- `hits.sort(key=lambda h: h.score, reverse=True)`, which is stable -/
def ranked (hits : List (RecallHit V)) : List (RecallHit V) :=
  hits.insertionSort (fun h h' => h'.score ≤ h.score)

/-- A reader other than the agent has to be allowed to. -/
def may_read (identity : IdentityProvider) (agent_id : String) (for_reader : Option String) : Bool :=
  for_reader.all fun reader => reader = agent_id || identity.can_read_workspace reader agent_id

def permission_denied (agent_id : String) (for_reader : Option String) : Exn :=
  .other "MemoryPermissionDenied" (for_reader.getD "None" ++ " cannot read " ++ agent_id)

def Recaller.recall (r : Recaller V) (identity : IdentityProvider) (db : MemoryDb) (agent_id query : String) (k : Int)
    (kinds : Option (List MemoryKind)) (for_reader : Option String) : Except Exn (List (RecallHit V)) :=
  if query = "" then .ok []
  else if !may_read identity agent_id for_reader then .error (permission_denied agent_id for_reader)
  -- the rows of a fired agent stay, for replay
  else if !identity.is_active agent_id then .ok []
  else do
    let qvec := r.env.embed query
    guard_dim r.env qvec
    let hits ← score_rows r qvec (r.scan (db.selected agent_id kinds)) []
    return slice k (ranked hits)

end Code

/-! ## The index -/

/-- An item that can be found. -/
structure Item where
  agent_id : String
  kind : MemoryKind
  content : String
  metadata : Fields

abbrev Index := String → Option Item

namespace Index

/-- One call, with what it replied. -/
def apply (index : Index) : Call → Except Exn (Option String) → Index
  | .remember_episode agent_id summary metadata, .ok (some id) =>
      Function.update index id (some ⟨agent_id, .EPISODIC, summary, metadata.getD []⟩)
  | .remember_fact agent_id _ value embed metadata, .ok (some id) =>
      Function.update index id (if embed then some ⟨agent_id, .SEMANTIC, value, metadata.getD []⟩ else none)
  | .forget agent_id item_id, .ok _ =>
      fun id => (index id).filter fun item => !(decide (id = item_id) && decide (item.agent_id = agent_id))
  | _, _ => index

/-- The calls of a history, in order. -/
def after (history : List (Call × Except Exn (Option String))) : Index :=
  history.foldl (fun index entry => index.apply entry.1 entry.2) (fun _ => none)

end Index

def item_of (row : MemoryRow) : Item :=
  { agent_id := row.agent_id, kind := row.kind, content := row.content, metadata := load_meta row.metadata_json }

/-- Has the item an embedding? -/
def has_embedding (db : MemoryDb) (id : String) : Bool := db.memory_embeddings.any fun e => e.memory_id = id

/-- The index that the tables are. -/
def index (db : MemoryDb) : Index := fun id =>
  if db.has_embedding id then (Table.find MemoryRow.id db.memories id).map item_of else none

variable {V : Type} {env : MemoryEnv V} {db db' : MemoryDb} {d : Draw} {c : Call}
  {reply : Except Exn (Option String)}

theorem load_dump_meta (metadata : Option Fields) : load_meta (dump_meta metadata) = metadata.getD [] := by
  match metadata with
  | none => rfl
  | some [] => rfl
  | some (_ :: _) => rfl

theorem has_embedding_embedded (row : MemoryRow) (embed : Bool) (id : String) :
    (embedded env row embed db).has_embedding id = (db.has_embedding id || (embed && decide (row.id = id))) := by
  cases embed <;> simp [has_embedding, embedded, embedding_of, embedding_row]

theorem Sound.has_embedding_find (hs : Sound env db) {id : String} (h : db.has_embedding id = true) :
    ∃ row, Table.find MemoryRow.id db.memories id = some row := by
  obtain ⟨e, he, hid⟩ := List.any_eq_true.mp h
  obtain ⟨row, hrow, rfl⟩ := hs.current e he
  have hid : row.id = id := of_decide_eq_true hid
  exact ⟨row, hid ▸ Table.find_of_mem hs.ids hrow⟩

/-! ## One call -/

theorem index_added {row : MemoryRow} (hnew : ∀ r ∈ db.memories, r.id ≠ row.id) (hs : Sound env db) (embed : Bool) :
    (added env row embed db).index = Function.update db.index row.id (if embed then some (item_of row) else none) := by
  funext id
  rw [index, added, has_embedding_embedded, embedded_memories, Table.find_insert]
  have hsame : has_embedding { db with memories := db.memories ++ [row] } id = db.has_embedding id := rfl
  rw [hsame]
  by_cases hid : id = row.id
  · subst hid
    have hnone : Table.find MemoryRow.id db.memories row.id = none := Table.find_eq_none.mpr hnew
    have hbare : db.has_embedding row.id = false := by
      by_contra hsome
      obtain ⟨r, hr⟩ := hs.has_embedding_find (Bool.eq_true_of_not_eq_false hsome)
      rw [hnone] at hr
      cases hr
    cases embed <;> simp [hbare, hnone]
  · have hne : ¬ row.id = id := fun h => hid h.symm
    simp [index, hid, hne]

theorem index_renewed (hs : Sound env db) {row : MemoryRow} (hrow : row ∈ db.memories) (value : String)
    (metadata_json : Option Fields) (now : Time) (embed : Bool) :
    (renewed env row value metadata_json now embed db).index =
      Function.update db.index row.id
        (if embed then some { item_of row with content := value, metadata := load_meta metadata_json } else none) := by
  have hfind := Table.find_of_mem hs.ids hrow
  funext id
  rw [index, renewed_memories, Table.find_update (change_id row value metadata_json now), renewed,
    has_embedding_embedded]
  by_cases hid : id = row.id
  · subst hid
    have hbare : has_embedding ((db.update_memory row.id value metadata_json now).delete_embedding row.id) row.id
        = false := by
      simp [has_embedding, delete_embedding]
    rw [hbare, hfind]
    cases embed <;> simp [change, item_of]
  · have hne : ¬ row.id = id := fun h => hid h.symm
    have hkeep : has_embedding ((db.update_memory row.id value metadata_json now).delete_embedding row.id) id =
        db.has_embedding id := by
      simp only [has_embedding, delete_embedding, update_memory, List.any_filter]
      congr 1
      funext e
      by_cases he : e.memory_id = id
      · simp [he, hid]
      · simp [he]
    rw [hkeep, Function.update_of_ne hid, index]
    cases hother : Table.find MemoryRow.id db.memories id with
    | none => simp [hne]
    | some r =>
        have hr : ¬ r.id = row.id := fun h => hid ((Table.key_of_find hother).symm.trans h)
        simp [change, hr, hne]

theorem index_deleted (hs : Sound env db) (item_id agent_id : String) :
    (db.delete_memory item_id agent_id).index = fun id =>
      (db.index id).filter fun item => !(decide (id = item_id) && decide (item.agent_id = agent_id)) := by
  funext id
  rw [index, index]
  have hrows : (db.delete_memory item_id agent_id).memories =
      db.memories.filter (fun r => !(decide (r.id = item_id) && decide (r.agent_id = agent_id))) := rfl
  rw [hrows, Table.find_where hs.ids]
  cases hfind : Table.find MemoryRow.id db.memories id with
  | none => simp
  | some row =>
      have hid : row.id = id := Table.key_of_find hfind
      subst hid
      by_cases hgone : row.id = item_id ∧ row.agent_id = agent_id
      · cases db.has_embedding row.id <;> simp [hgone, Option.filter, item_of]
      · have hstays : (decide (row.id = item_id) && decide (row.agent_id = agent_id)) = false := by
          simpa using hgone
        have hkeep : (db.delete_memory item_id agent_id).has_embedding row.id = db.has_embedding row.id := by
          simp only [has_embedding, delete_memory, List.any_filter]
          congr 1
          funext e
          by_cases hsame : e.memory_id = row.id
          · have hnone : db.memories.any (fun r => decide (r.id = item_id) && decide (r.agent_id = agent_id) &&
                decide (r.id = e.memory_id)) = false := by
              rw [List.any_eq_false]
              intro r hr hboth
              simp only [Bool.and_eq_true, decide_eq_true_eq] at hboth
              have heq := hs.same_row hr (Table.mem_of_find hfind) (hboth.2.trans hsame)
              exact hgone ⟨heq ▸ hboth.1.1, heq ▸ hboth.1.2⟩
            rw [hnone, Bool.not_false, Bool.true_and]
          · simp [hsame]
        rw [hkeep]
        cases db.has_embedding row.id <;> simp [hstays, Option.filter, item_of]

/-- A call does to the index what the index is for. -/
theorem outcome_index (hs : Sound env db) (h : Outcome env db d c reply db') : db'.index = db.index.apply c reply := by
  cases h with
  | refused e => cases c <;> rfl
  | episode agent_id summary metadata hnew =>
      rw [index_added hnew hs]
      simp [Index.apply, item_of, load_dump_meta]
  | inserted agent_id key value embed metadata hnew hkey =>
      rw [index_added hnew hs]
      simp [Index.apply, item_of, load_dump_meta]
  | updated agent_id key value embed metadata row hrow =>
      obtain ⟨hmem, hagent, hkind, -⟩ := fact_of_find hrow
      rw [index_renewed hs hmem]
      simp [Index.apply, item_of, load_dump_meta, hagent, hkind]
  | forgotten agent_id item_id => exact index_deleted hs item_id agent_id

theorem index_exec (hs : Sound env db) (cs : List (Call × Draw)) :
    (exec (step env) db cs).index =
      (history env db cs).foldl (fun index entry => index.apply entry.1 entry.2) db.index := by
  induction cs generalizing db with
  | nil => rfl
  | cons c cs ih =>
      have hout := outcome env db c.2 c.1
      have hs' : Sound env (step env db c) := hs.outcome hout
      rw [exec_cons, ih hs', history, List.foldl_cons]
      congr 1
      exact outcome_index hs hout

/-! ## The dimension of what is stored -/

/-- Every stored vector has the dimension of the embedder. -/
def Fits (env : MemoryEnv V) (db : MemoryDb) : Prop := ∀ e ∈ db.memory_embeddings, e.dim = env.dim

theorem guard_dim_ok {vec : List V} {u : Unit} (h : guard_dim env vec = .ok u) : vec.length = env.dim := by
  unfold guard_dim at h
  split at h
  · cases h
  · rename_i hdim
    exact not_not.mp hdim

theorem Fits.sub (h : Fits env db) (hsub : db'.memory_embeddings ⊆ db.memory_embeddings) : Fits env db' :=
  fun e he => h e (hsub he)

theorem Fits.embed_row {agent_id memory_id id : String} {vec : List V} (h : Fits env db)
    (hdim : vec.length = env.dim) (hrow : embed_row env agent_id vec memory_id db = .ok (id, db')) : Fits env db' := by
  obtain ⟨inserted, hinsert, hret⟩ := Act.except_bind_eq_ok.mp hrow
  cases hret
  unfold insert_embedding at hinsert
  split_ifs at hinsert
  cases hinsert
  intro e he
  obtain he | he := List.mem_append.mp he
  · exact h e he
  · rw [List.mem_singleton.mp he]
    exact hdim

theorem Fits.upsert_fact {agent_id key value : String} {metadata : Option Fields} {written : String × MemoryDb}
    (h : Fits env db) (hupsert : upsert_fact d agent_id key value metadata db = .ok written) : Fits env written.2 := by
  unfold MemoryDb.upsert_fact at hupsert
  split at hupsert
  · cases hupsert
    exact h.sub (List.filter_subset_self _)
  · obtain ⟨inserted, hinsert, hret⟩ := Act.except_bind_eq_ok.mp hupsert
    cases hret
    obtain ⟨-, rfl⟩ := insert_memory_ok hinsert
    exact h

theorem Fits.embed_fact {agent_id value memory_id id : String} {embed : Bool} (h : Fits env db)
    (hembed : embed_fact env agent_id value embed memory_id db = .ok (id, db')) : Fits env db' := by
  unfold MemoryDb.embed_fact at hembed
  split at hembed
  · obtain ⟨u, hguard, hrow⟩ := Act.except_bind_eq_ok.mp hembed
    exact h.embed_row (guard_dim_ok hguard) hrow
  · cases hembed
    exact h

theorem fits_empty (env : MemoryEnv V) : Fits env empty := by
  intro e he
  cases he

theorem fits_step (h : Fits env db) (c : Call × Draw) : Fits env (step env db c) := by
  obtain ⟨c, d⟩ := c
  cases c with
  | forget agent_id item_id =>
      simp only [step, Call.run, forget]
      apply transaction_rule (Q := fun _ db' => Fits env db') (fun _ => h)
      intro a db' hbody
      cases hbody
      exact h.sub (List.filter_subset_self _)
  | remember_episode agent_id summary metadata =>
      simp only [step, Call.run, remember_episode]
      cases guard_size env summary with
      | error e => exact h
      | ok u =>
          cases hdim : guard_dim env (env.embed summary) with
          | error e => exact h
          | ok u =>
              apply transaction_rule (Q := fun _ db' => Fits env db') (fun _ => h)
              intro memory_id db' hbody
              obtain ⟨inserted, hinsert, hembed⟩ := Act.except_bind_eq_ok.mp hbody
              obtain ⟨-, rfl⟩ := insert_memory_ok hinsert
              have hfits : Fits env { db with memories := db.memories ++ [⟨d.new_id, agent_id, .EPISODIC, none,
                summary, dump_meta metadata, d.now⟩] } := h
              exact hfits.embed_row (guard_dim_ok hdim) hembed
  | remember_fact agent_id key value embed metadata =>
      simp only [step, Call.run, remember_fact]
      by_cases hempty : key = ""
      · rw [if_pos hempty]
        exact h
      · rw [if_neg hempty]
        cases guard_size env value with
        | error e => exact h
        | ok u =>
            apply transaction_rule (Q := fun _ db' => Fits env db') (fun _ => h)
            intro memory_id db' hbody
            obtain ⟨written, hupsert, hembed⟩ := Act.except_bind_eq_ok.mp hbody
            exact (h.upsert_fact hupsert).embed_fact hembed

/-! ## The search -/

theorem mem_selected {agent_id : String} {kinds : Option (List MemoryKind)} {m : MemoryRow} {e : EmbeddingRow} :
    (m, e) ∈ db.selected agent_id kinds ↔ m ∈ db.memories ∧ e ∈ db.memory_embeddings ∧ e.memory_id = m.id ∧
      m.agent_id = agent_id ∧ m.kind ∈ kind_values kinds := by
  simp [selected, and_assoc]

/-- A row that is selected has the embedding of its content. -/
theorem Sound.selected_eq (hs : Sound env db) {m : MemoryRow} {e : EmbeddingRow} (hm : m ∈ db.memories)
    (he : e ∈ db.memory_embeddings) (hid : e.memory_id = m.id) : e = embedding_of env m := by
  obtain ⟨row, hrow, rfl⟩ := hs.current e he
  rw [hs.same_row hrow hm hid]

theorem Sound.selected_ids (hs : Sound env db) (agent_id : String) (kinds : Option (List MemoryKind)) :
    ((db.selected agent_id kinds).map fun row => row.1.id).Nodup := by
  have hrows : (db.selected agent_id kinds).Nodup :=
    (hs.ids.of_map.product hs.one.of_map).filter _
  apply hrows.map_on
  rintro ⟨m, e⟩ hme ⟨m', e'⟩ hme' hid
  obtain ⟨hm, he, heid, -, -⟩ := mem_selected.mp hme
  obtain ⟨hm', he', heid', -, -⟩ := mem_selected.mp hme'
  have hsame : m = m' := hs.same_row hm hm' hid
  rw [hs.selected_eq hm he heid, hs.selected_eq hm' he' heid', hsame]

section Search

variable [LinearOrder V]

/-- What a search answers: `hits` and `rest` are the eligible items, once each and by falling score, cut at `k`; a
    negative `k` counts from the end. -/
structure Answers (eligible : RecallHit V → Prop) (k : Int) (hits rest : List (RecallHit V)) : Prop where
  all : ∀ h, h ∈ hits ++ rest ↔ eligible h
  once : ((hits ++ rest).map RecallHit.item_id).Nodup
  falling : (hits ++ rest).Pairwise fun h h' => h'.score ≤ h.score
  length : hits.length = if 0 ≤ k then min k.toNat (hits ++ rest).length else (hits ++ rest).length - (-k).toNat

theorem ranked_pairwise (hits : List (RecallHit V)) : (ranked hits).Pairwise fun h h' => h'.score ≤ h.score := by
  have : Std.Total (fun h h' : RecallHit V => h'.score ≤ h.score) := ⟨fun h h' => le_total _ _⟩
  have : IsTrans (RecallHit V) (fun h h' => h'.score ≤ h.score) := ⟨fun _ _ _ h h' => h'.trans h⟩
  exact List.pairwise_insertionSort _ hits

theorem length_slice {α : Type} (k : Int) (hits : List α) :
    (slice k hits).length = if 0 ≤ k then min k.toNat hits.length else hits.length - (-k).toNat := by
  rw [slice, List.length_take]
  split <;> omega

/-- The rows that the loop keeps, in the order of the sort. -/
theorem answers_ranked {eligible : RecallHit V → Prop} {hits : List (RecallHit V)} (k : Int)
    (hall : ∀ h, h ∈ hits ↔ eligible h) (honce : (hits.map RecallHit.item_id).Nodup) :
    ∃ rest, Answers eligible k (slice k (ranked hits)) rest := by
  have hperm : (ranked hits).Perm hits := List.perm_insertionSort _ hits
  refine ⟨(ranked hits).drop (if 0 ≤ k then k.toNat else (ranked hits).length - (-k).toNat), ?_⟩
  have hcut : slice k (ranked hits) ++
      (ranked hits).drop (if 0 ≤ k then k.toNat else (ranked hits).length - (-k).toNat) = ranked hits :=
    List.take_append_drop _ _
  refine ⟨?_, ?_, ?_, ?_⟩
  · intro h
    rw [hcut, hperm.mem_iff, hall]
  · rw [hcut]
    exact (hperm.map RecallHit.item_id).nodup_iff.mpr honce
  · rw [hcut]
    exact ranked_pairwise hits
  · rw [hcut]
    exact length_slice k (ranked hits)

variable [Zero V] [Add V] [Mul V] [Div V] {r : Recaller V} {qvec : List V}

/-- The hit that an item of the index is for a query. -/
def Item.hit (r : Recaller V) (qvec : List V) (id : String) (item : Item) : RecallHit V :=
  let vec := r.env.embed item.content
  { kind := item.kind, item_id := id, content := item.content
    score := cosine r qvec (r.unpack_vector (r.env.pack_vector vec) vec.length), metadata := item.metadata }

/-- What a search may find: an item of the agent, of one of the kinds, with a score that is not below the threshold. -/
def Eligible (r : Recaller V) (index : Index) (agent_id : String) (qvec : List V) (kinds : Option (List MemoryKind))
    (h : RecallHit V) : Prop :=
  ∃ item, index h.item_id = some item ∧ item.agent_id = agent_id ∧ item.kind ∈ kind_values kinds ∧
    h = item.hit r qvec h.item_id ∧ r.recall_threshold ≤ h.score

/-- The hits of the rows that reach the threshold. -/
def kept (r : Recaller V) (qvec : List V) (rows : List (MemoryRow × EmbeddingRow)) : List (RecallHit V) :=
  (rows.map fun row => hit_of r qvec row.1 row.2).filter fun h => r.recall_threshold ≤ h.score

theorem score_rows_eq {rows : List (MemoryRow × EmbeddingRow)} (hfits : ∀ row ∈ rows, row.2.dim = r.env.dim) :
    ∀ hits, score_rows r qvec rows hits = .ok (hits ++ kept r qvec rows) := by
  unfold kept
  induction rows with
  | nil =>
      intro hits
      simp [score_rows]
  | cons row rows ih =>
      intro hits
      obtain ⟨hdim, hrest⟩ := List.forall_mem_cons.mp hfits
      rw [score_rows, if_neg (not_not.mpr hdim)]
      by_cases hlow : (hit_of r qvec row.1 row.2).score < r.recall_threshold
      · rw [if_pos hlow, ih hrest]
        simp [not_le.mpr hlow]
      · rw [if_neg hlow, ih hrest]
        simp [not_lt.mp hlow]

/-- The eligible items are the selected rows that reach the threshold. -/
theorem Sound.eligible_iff (hs : Sound r.env db) {agent_id : String} {kinds : Option (List MemoryKind)}
    {h : RecallHit V} : Eligible r db.index agent_id qvec kinds h ↔
      (∃ row ∈ db.selected agent_id kinds, hit_of r qvec row.1 row.2 = h) ∧ r.recall_threshold ≤ h.score := by
  constructor
  · rintro ⟨item, hitem, hagent, hkind, hhit, hscore⟩
    refine ⟨?_, hscore⟩
    have hsome : db.has_embedding h.item_id = true := by
      by_contra hno
      rw [index, if_neg hno] at hitem
      cases hitem
    rw [index, if_pos hsome] at hitem
    obtain ⟨row, hrow, rfl⟩ := Option.map_eq_some_iff.mp hitem
    obtain ⟨e, he, heid⟩ := List.any_eq_true.mp hsome
    have hmem := Table.mem_of_find hrow
    have hid : row.id = h.item_id := Table.key_of_find hrow
    have heid : e.memory_id = row.id := (of_decide_eq_true heid).trans hid.symm
    refine ⟨(row, e), mem_selected.mpr ⟨hmem, he, heid, hagent, hkind⟩, ?_⟩
    rw [hhit, ← hid, hs.selected_eq hmem he heid]
    rfl
  · rintro ⟨⟨⟨row, e⟩, hsel, rfl⟩, hscore⟩
    obtain ⟨hm, he, heid, hagent, hkind⟩ := mem_selected.mp hsel
    refine ⟨item_of row, ?_, hagent, hkind, ?_, hscore⟩
    · have hsome : db.has_embedding row.id = true := List.any_eq_true.mpr ⟨e, he, decide_eq_true heid⟩
      have hfind := Table.find_of_mem hs.ids hm
      rw [index, hit_of, if_pos hsome, hfind]
      rfl
    · rw [hs.selected_eq hm he heid]
      rfl

theorem recall_found (hs : Sound r.env db) (hfits : Fits r.env db) (qvec : List V) (agent_id : String) (k : Int)
    (kinds : Option (List MemoryKind)) : ∃ hits rest,
      score_rows r qvec (r.scan (db.selected agent_id kinds)) [] = .ok hits ∧
        Answers (Eligible r db.index agent_id qvec kinds) k (slice k (ranked hits)) rest := by
  have hperm := r.scan_perm (db.selected agent_id kinds)
  have hdims : ∀ row ∈ r.scan (db.selected agent_id kinds), row.2.dim = r.env.dim := by
    intro row hrow
    exact hfits row.2 (mem_selected.mp (hperm.mem_iff.mp hrow)).2.1
  have hall : ∀ h, h ∈ kept r qvec (r.scan (db.selected agent_id kinds)) ↔
      Eligible r db.index agent_id qvec kinds h := by
    intro h
    rw [hs.eligible_iff]
    simp [kept, hperm.mem_iff]
  have honce : ((kept r qvec (r.scan (db.selected agent_id kinds))).map RecallHit.item_id).Nodup := by
    have hids : ((r.scan (db.selected agent_id kinds)).map fun row => row.1.id).Nodup :=
      (hperm.map _).nodup_iff.mpr (hs.selected_ids agent_id kinds)
    have hhits : (((r.scan (db.selected agent_id kinds)).map fun row => hit_of r qvec row.1 row.2).map
        RecallHit.item_id).Nodup := by
      rw [List.map_map]
      exact hids
    exact hhits.sublist (List.filter_sublist.map _)
  obtain ⟨rest, hanswers⟩ := answers_ranked k hall honce
  exact ⟨_, rest, score_rows_eq hdims [], hanswers⟩

/-- Past the first three checks. -/
theorem recall_run {identity : IdentityProvider} {agent_id query : String} {for_reader : Option String} (k : Int)
    (kinds : Option (List MemoryKind)) (hquery : query ≠ "") (hread : may_read identity agent_id for_reader = true)
    (hactive : identity.is_active agent_id = true) : r.recall identity db agent_id query k kinds for_reader =
      (guard_dim r.env (r.env.embed query)).bind fun _ =>
        (score_rows r (r.env.embed query) (r.scan (db.selected agent_id kinds)) []).bind fun hits =>
          .ok (slice k (ranked hits)) := by
  rw [Recaller.recall, if_neg hquery, hread, hactive]
  rfl

/-- **The search finds what was remembered.** After every sequence of calls, a search either has nothing to look for or
    looks for a fired agent, and returns nothing; or its reader may read the agent, and it lists the items of the index
    that the calls give: the latest content of each, once, by falling score, and none is passed over for a worse one.
    It raises only if the reader may not read or the vector of the query has a wrong dimension: a stored one never has. -/
theorem recall_answers (r : Recaller V) (identity : IdentityProvider) (cs : List (Call × Draw))
    (agent_id query : String) (k : Int) (kinds : Option (List MemoryKind)) (for_reader : Option String) :
    (∀ hits, r.recall identity (exec (step r.env) empty cs) agent_id query k kinds for_reader = .ok hits →
      (query = "" ∨ identity.is_active agent_id = false) ∧ hits = [] ∨
        may_read identity agent_id for_reader = true ∧ ∃ rest, Answers
          (Eligible r (Index.after (history r.env empty cs)) agent_id (r.env.embed query) kinds) k hits rest) ∧
    ∀ e, r.recall identity (exec (step r.env) empty cs) agent_id query k kinds for_reader = .error e →
      may_read identity agent_id for_reader = false ∧ e = permission_denied agent_id for_reader ∨
        (r.env.embed query).length ≠ r.env.dim ∧ .error e = guard_dim r.env (r.env.embed query) := by
  have hs : Sound r.env (exec (step r.env) empty cs) := sound_exec (sound_empty r.env) cs
  have hfits : Fits r.env (exec (step r.env) empty cs) := by
    apply exec_invariant _ (fits_empty r.env)
    intro db c h
    exact fits_step h c
  have hindex : (exec (step r.env) empty cs).index = Index.after (history r.env empty cs) :=
    index_exec (sound_empty r.env) cs
  obtain ⟨found, rest, hfound, hanswers⟩ := recall_found hs hfits (r.env.embed query) agent_id k kinds
  rw [hindex] at hanswers
  by_cases hquery : query = ""
  · rw [Recaller.recall, if_pos hquery]
    refine ⟨fun hits h => .inl ⟨.inl hquery, ?_⟩, fun e h => ?_⟩
    · cases h
      rfl
    · cases h
  · cases hread : may_read identity agent_id for_reader with
    | false =>
        rw [Recaller.recall, if_neg hquery, hread]
        refine ⟨fun hits h => ?_, fun e h => .inl ⟨rfl, ?_⟩⟩
        · cases h
        · cases h
          rfl
    | true =>
        cases hactive : identity.is_active agent_id with
        | false =>
            rw [Recaller.recall, if_neg hquery, hread, hactive]
            refine ⟨fun hits h => .inl ⟨.inr rfl, ?_⟩, fun e h => ?_⟩
            · cases h
              rfl
            · cases h
        | true =>
            rw [recall_run k kinds hquery hread hactive, hfound]
            cases hdim : guard_dim r.env (r.env.embed query) with
            | error e =>
                refine ⟨fun hits h => ?_, fun e' h => .inr ⟨?_, ?_⟩⟩
                · cases h
                · intro hsame
                  rw [guard_dim, if_neg (not_not.mpr hsame)] at hdim
                  cases hdim
                · cases h
                  rfl
            | ok u =>
                refine ⟨fun hits h => .inr ⟨rfl, rest, ?_⟩, fun e h => ?_⟩
                · cases h
                  exact hanswers
                · cases h

/-- The best of three items; the second one is not embedded, and the fourth one is another agent's. -/
example : let r : Recaller Int :=
      { env := { dim := 2, embed := fun text => [text.length, 1], pack_vector := fun _ => [], max_content_bytes := 64 }
        unpack_vector := fun _ _ => [2, 0], sqrt := fun n => n, recall_threshold := 0, scan := fun rows => rows
        scan_perm := fun _ => .rfl }
    let db := exec (step r.env) empty
      [(.remember_fact "a" "ceo" "Ahmet" true none, { new_id := "m1", now := 1 }),
        (.remember_fact "a" "cto" "Ada" false none, { new_id := "m2", now := 2 }),
        (.remember_episode "a" "shipped" none, { new_id := "m3", now := 3 }),
        (.remember_episode "b" "hired" none, { new_id := "m4", now := 4 })]
    (r.recall ⟨fun _ => true, fun _ _ => false⟩ db "a" "who" 1 none none).map (List.map RecallHit.item_id) = .ok ["m1"] := by
  decide +kernel

end Search

end MemoryDb

end CompanyFactory
