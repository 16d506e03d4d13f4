import CompanyFactory.Memory.Facts

/-!
# `Memory.FactMap` — the facts of an agent are a finite map

What the facts are for: an agent has a map from keys to items, an item being an id and a value. `remember_fact` sets a
key, `forget` removes an item by its id, an episode does nothing, and neither does a call that raises. The two tables
refine that map (`step_map`), so after every sequence of calls of any agents `get_fact` and `all_facts` read it
(`facts_finite_map`). A call of another agent leaves the agent's rows and embeddings as they are (`step_apart`).
-/

namespace CompanyFactory

open Machine

/-- The facts of an agent: by key, the id of the item and its value. -/
abbrev FactMap := String → Option (String × String)

namespace FactMap

open MemoryDb

def empty : FactMap := fun _ => none

/-- One call of the agent, with what it replied. -/
def apply (m : FactMap) : Call → Except Exn (Option String) → FactMap
  | .remember_fact _ key value _ _, .ok (some id) => Function.update m key (some (id, value))
  | .forget _ item_id, .ok _ => fun key => (m key).filter (fun item => item.1 ≠ item_id)
  | _, _ => m

/-- The calls of one agent, in order. -/
def after (agent_id : String) (history : List (Call × Except Exn (Option String))) : FactMap :=
  (history.filter (fun entry => entry.1.agent = agent_id)).foldl (fun m entry => m.apply entry.1 entry.2) empty

end FactMap

namespace MemoryDb

variable {V : Type} {env : MemoryEnv V} {db db' : MemoryDb} {d : Draw} {c : Call}
  {reply : Except Exn (Option String)} {agent_id : String}

/-- The map that the table has for an agent. -/
def fact_map (db : MemoryDb) (agent_id : String) : FactMap := fun key =>
  (Table.find MemoryRow.key (db.facts agent_id) (some key)).map fun r => (r.id, r.content)

theorem fact_map_congr (h : db'.facts agent_id = db.facts agent_id) : db'.fact_map agent_id = db.fact_map agent_id := by
  unfold fact_map
  rw [h]

theorem get_fact_eq (db : MemoryDb) (agent_id key : String) :
    get_fact db agent_id key = (db.fact_map agent_id key).map Prod.snd := by
  rw [get_fact, find_fact, fact_map, Option.map_map]
  rfl

/-! ## One call -/

theorem map_inserted {row : MemoryRow} {key : String} {embed : Bool} (hkey : row.key = some key)
    (hkind : row.kind = .SEMANTIC) (hnone : db.memories.find? (is_fact row.agent_id key) = none) :
    (added env row embed db).fact_map row.agent_id =
      Function.update (db.fact_map row.agent_id) key (some (row.id, row.content)) := by
  rw [find_fact] at hnone
  funext other
  unfold fact_map
  rw [facts_added, if_pos ⟨rfl, hkind⟩, Table.find_insert]
  by_cases hsame : other = key
  · subst hsame
    rw [hnone, if_pos hkey, Function.update_self]
    rfl
  · have hne : row.key ≠ some other := by
      rw [hkey]
      intro heq
      exact hsame (Option.some.inj heq).symm
    rw [if_neg hne, Option.or_none, Function.update_of_ne hsame]

theorem map_renewed {row : MemoryRow} {key value : String} {metadata_json : Option Fields} {now : Time} {embed : Bool}
    (hs : Sound env db) (hrow : db.memories.find? (is_fact agent_id key) = some row) :
    (renewed env row value metadata_json now embed db).fact_map agent_id =
      Function.update (db.fact_map agent_id) key (some (row.id, value)) := by
  have hmem := (fact_of_find hrow).1
  rw [find_fact] at hrow
  funext other
  unfold fact_map
  rw [facts_renewed, Table.find_update (fun r => change_key row value metadata_json now r)]
  by_cases hsame : other = key
  · subst hsame
    rw [hrow, Function.update_self]
    simp [change]
  · rw [Function.update_of_ne hsame]
    -- the fact of another key is another row, so it has another id
    cases hother : Table.find MemoryRow.key (db.facts agent_id) (some other) with
    | none => rfl
    | some r =>
        have hid : r.id ≠ row.id := by
          intro hid
          have heq := hs.same_row (mem_facts.mp (Table.mem_of_find hother)).1 hmem hid
          apply hsame
          have hkeys : some other = some key := by
            rw [← Table.key_of_find hother, ← Table.key_of_find hrow, heq]
          exact Option.some.inj hkeys
        simp [change, hid]

theorem map_deleted (hs : Sound env db) (item_id : String) :
    (db.delete_memory item_id agent_id).fact_map agent_id =
      fun key => (db.fact_map agent_id key).filter (fun item => item.1 ≠ item_id) := by
  funext key
  unfold fact_map
  rw [facts_deleted, Table.find_where (hs.keys agent_id)]
  cases hfind : Table.find MemoryRow.key (db.facts agent_id) (some key) with
  | none => rfl
  | some r =>
      have hagent : r.agent_id = agent_id := (mem_facts.mp (Table.mem_of_find hfind)).2.1
      by_cases hid : r.id = item_id
      · simp [Option.filter, hagent, hid]
      · simp [Option.filter, hid]

/-- A call does to the map of its agent what the map is for. -/
theorem outcome_own (hs : Sound env db) (h : Outcome env db d c reply db') :
    db'.fact_map c.agent = (db.fact_map c.agent).apply c reply := by
  cases h with
  | refused e => cases c <;> rfl
  | episode agent summary metadata =>
      apply fact_map_congr
      rw [facts_added, if_neg (by simp), List.append_nil]
  | inserted agent key value embed metadata hnew hkey => exact map_inserted rfl rfl hkey
  | updated agent key value embed metadata row hrow => exact map_renewed hs hrow
  | forgotten agent item_id => exact map_deleted hs item_id

/-! ## The other agents -/

/-- The rows of an agent. -/
def rows_of (db : MemoryDb) (agent_id : String) : List MemoryRow :=
  db.memories.filter fun r => decide (r.agent_id = agent_id)

/-- The embeddings of an agent. -/
def embeddings_of (db : MemoryDb) (agent_id : String) : List EmbeddingRow :=
  db.memory_embeddings.filter fun e => decide (e.agent_id = agent_id)

theorem facts_eq_rows (db : MemoryDb) (agent_id : String) :
    db.facts agent_id = (db.rows_of agent_id).filter fun r => decide (r.kind = .SEMANTIC) := by
  rw [facts, rows_of, List.filter_filter]
  apply List.filter_congr
  intro r _
  exact Bool.and_comm _ _

/-- The two parts that belong to an agent are the same. -/
def Apart (agent_id : String) (db db' : MemoryDb) : Prop :=
  db'.rows_of agent_id = db.rows_of agent_id ∧ db'.embeddings_of agent_id = db.embeddings_of agent_id

theorem apart_embedded {row : MemoryRow} (hrow : row.agent_id ≠ agent_id) (embed : Bool) (h : Apart agent_id db db') :
    Apart agent_id db (embedded env row embed db') := by
  cases embed with
  | false => exact h
  | true =>
      refine ⟨h.1, ?_⟩
      rw [← h.2]
      simp [embeddings_of, embedded, embedding_of, embedding_row, hrow]

theorem apart_added {row : MemoryRow} (hrow : row.agent_id ≠ agent_id) (embed : Bool) :
    Apart agent_id db (added env row embed db) := by
  apply apart_embedded hrow
  refine ⟨?_, rfl⟩
  simp [rows_of, hrow]

/-- An embedding of the agent is not the one of another agent's row. -/
theorem Sound.embedding_apart (hs : Sound env db) {row : MemoryRow} (hrow : row ∈ db.memories)
    (hother : row.agent_id ≠ agent_id) {e : EmbeddingRow} (he : e ∈ db.memory_embeddings)
    (hagent : e.agent_id = agent_id) : e.memory_id ≠ row.id := by
  obtain ⟨r, hr, rfl⟩ := hs.current e he
  intro hid
  apply hother
  rw [← hs.same_row hr hrow hid]
  exact hagent

theorem apart_renewed (hs : Sound env db) {row : MemoryRow} (hrow : row ∈ db.memories)
    (hother : row.agent_id ≠ agent_id) (value : String) (metadata_json : Option Fields) (now : Time) (embed : Bool) :
    Apart agent_id db (renewed env row value metadata_json now embed db) := by
  apply @apart_embedded V env db _ agent_id { row with content := value, metadata_json, ts_real := now } hother embed
  constructor
  · have hmap : ((db.update_memory row.id value metadata_json now).delete_embedding row.id).memories =
        db.memories.map (change row value metadata_json now) := rfl
    have hkept : (fun r => decide (r.agent_id = agent_id)) ∘ change row value metadata_json now =
        fun r => decide (r.agent_id = agent_id) := by
      funext r
      simp
    rw [rows_of, hmap, List.filter_map, hkept]
    refine (List.map_congr_left fun r hr => ?_).trans (List.map_id _)
    -- a row of the agent has another id
    obtain ⟨hr, hagent⟩ := List.mem_filter.mp hr
    have hid : r.id ≠ row.id := by
      intro hid
      apply hother
      rw [← hs.same_row hr hrow hid]
      exact of_decide_eq_true hagent
    rw [change, if_neg hid]
    rfl
  · simp only [embeddings_of, delete_embedding, update_memory, List.filter_filter]
    apply List.filter_congr
    intro e he
    by_cases hagent : e.agent_id = agent_id
    · have hne := hs.embedding_apart hrow hother he hagent
      simp [hagent, hne]
    · simp [hagent]

theorem apart_deleted (hs : Sound env db) {other : String} (hother : other ≠ agent_id) (item_id : String) :
    Apart agent_id db (db.delete_memory item_id other) := by
  constructor
  · simp only [rows_of, delete_memory, List.filter_filter]
    apply List.filter_congr
    intro r _
    by_cases hagent : r.agent_id = agent_id
    · simp [hagent, Ne.symm hother]
    · simp [hagent]
  · simp only [embeddings_of, delete_memory, List.filter_filter]
    apply List.filter_congr
    intro e he
    by_cases hagent : e.agent_id = agent_id
    · have hstays : db.memories.any (fun r => decide (r.id = item_id) && decide (r.agent_id = other) &&
          decide (r.id = e.memory_id)) = false := by
        rw [List.any_eq_false]
        intro r hr hgone
        simp only [Bool.and_eq_true, decide_eq_true_eq] at hgone
        exact hs.embedding_apart hr (hgone.1.2 ▸ hother) he hagent hgone.2.symm
      simp [hagent, hstays]
    · simp [hagent]

/-- **A call of another agent** leaves the rows and the embeddings of the agent alone. -/
theorem outcome_apart (hs : Sound env db) (h : Outcome env db d c reply db') (hother : c.agent ≠ agent_id) :
    Apart agent_id db db' := by
  cases h with
  | refused => exact ⟨rfl, rfl⟩
  | episode => exact apart_added hother true
  | inserted _ _ _ embed => exact apart_added hother embed
  | updated agent key value embed metadata row hrow =>
      obtain ⟨hmem, hagent, -, -⟩ := fact_of_find hrow
      exact apart_renewed hs hmem (hagent.symm ▸ hother) value _ _ embed
  | forgotten agent item_id => exact apart_deleted hs hother item_id

/-- **One call**, seen from any agent. -/
theorem outcome_map (hs : Sound env db) (h : Outcome env db d c reply db') :
    db'.fact_map agent_id =
      if c.agent = agent_id then (db.fact_map agent_id).apply c reply else db.fact_map agent_id := by
  by_cases hagent : c.agent = agent_id
  · rw [if_pos hagent, ← hagent]
    exact outcome_own hs h
  · rw [if_neg hagent]
    apply fact_map_congr
    rw [facts_eq_rows, facts_eq_rows, (outcome_apart hs h hagent).1]

/-! ## Runs -/

/-- The calls of a run with their replies. -/
def history (env : MemoryEnv V) : MemoryDb → List (Call × Draw) → List (Call × Except Exn (Option String))
  | _, [] => []
  | db, c :: cs => (c.1, (c.1.run env c.2 db).1) :: history env (step env db c) cs

theorem sound_exec (hs : Sound env db) (cs : List (Call × Draw)) : Sound env (exec (step env) db cs) := by
  apply exec_invariant _ hs
  intro db c hs
  exact hs.outcome (outcome env db c.2 c.1)

/-- The map after a run: the calls of the agent, applied in order. -/
theorem map_exec (hs : Sound env db) (agent_id : String) (cs : List (Call × Draw)) :
    (exec (step env) db cs).fact_map agent_id =
      ((history env db cs).filter (fun entry => entry.1.agent = agent_id)).foldl
        (fun m entry => m.apply entry.1 entry.2) (db.fact_map agent_id) := by
  induction cs generalizing db with
  | nil => rfl
  | cons c cs ih =>
      have hout := outcome env db c.2 c.1
      have hmap := @outcome_map V env db (step env db c) c.2 c.1 _ agent_id hs hout
      have hs' : Sound env (step env db c) := hs.outcome hout
      rw [exec_cons, ih hs', history]
      by_cases hagent : c.1.agent = agent_id
      · rw [List.filter_cons_of_pos (by simpa using hagent), List.foldl_cons, hmap, if_pos hagent]
      · rw [List.filter_cons_of_neg (by simpa using hagent), hmap, if_neg hagent]

/-! ## The dict of all facts -/

theorem dict_of_foldl (pairs : List (String × String)) : ∀ dict : List (String × String),
    ((dict ++ pairs).map Prod.fst).Nodup →
      pairs.foldl (fun dict kv => dict.filter (fun other => other.1 ≠ kv.1) ++ [kv]) dict = dict ++ pairs := by
  induction pairs with
  | nil =>
      intro dict _
      simp
  | cons kv pairs ih =>
      intro dict hnodup
      have hkeep : dict.filter (fun other => other.1 ≠ kv.1) = dict := by
        apply List.filter_eq_self.mpr
        intro other hmem
        rw [List.map_append, List.nodup_append] at hnodup
        have hne := hnodup.2.2 other.1 (List.mem_map_of_mem hmem) kv.1 (by simp)
        simpa using hne
      rw [List.foldl_cons, hkeep, ih]
      · simp
      · simpa using hnodup

/-- Under distinct keys the dict has all pairs. -/
theorem dict_of_nodup {pairs : List (String × String)} (h : (pairs.map Prod.fst).Nodup) : dict_of pairs = pairs :=
  dict_of_foldl pairs [] h

/-- The rows of an agent have distinct keys, as texts. -/
theorem Sound.pairs (hs : Sound env db) (agent_id : String) {rows : List MemoryRow}
    (hperm : rows.Perm (db.facts agent_id)) :
    ((rows.filterMap fun r => r.key.map fun key => (key, r.content)).map Prod.fst).Nodup := by
  have hkeys : ((rows.filterMap fun r => r.key.map fun key => (key, r.content)).map Prod.fst) =
      (rows.map MemoryRow.key).filterMap id := by
    rw [List.map_filterMap, List.filterMap_map]
    congr 1
    funext r
    cases hkey : r.key <;> simp [hkey]
  rw [hkeys]
  apply List.Nodup.filterMap _ ((hperm.map MemoryRow.key).nodup_iff.mpr (hs.keys agent_id))
  intro k k' key hk hk'
  simp only [id] at hk hk'
  exact hk.trans hk'.symm

/-- **`all_facts`** lists the map: every key once, with its value. -/
theorem all_facts_eq (hs : Sound env db) (agent_id : String) :
    ((all_facts db agent_id).map Prod.fst).Nodup ∧
      ∀ key value, (key, value) ∈ all_facts db agent_id ↔ (db.fact_map agent_id key).map Prod.snd = some value := by
  have hperm := List.perm_insertionSort (fun r r' : MemoryRow => r.ts_real ≤ r'.ts_real) (db.facts agent_id)
  have hnodup := hs.pairs agent_id hperm
  rw [all_facts, dict_of_nodup hnodup]
  refine ⟨hnodup, fun key value => ?_⟩
  rw [List.mem_filterMap, fact_map, Option.map_map]
  constructor
  · rintro ⟨r, hr, hpair⟩
    rw [hperm.mem_iff] at hr
    cases hkey : r.key with
    | none => simp [hkey] at hpair
    | some k =>
        rw [hkey] at hpair
        cases hpair
        have hfind := Table.find_of_mem (hs.keys agent_id) hr
        rw [hkey] at hfind
        rw [hfind]
        rfl
  · intro hmap
    cases hfind : Table.find MemoryRow.key (db.facts agent_id) (some key) with
    | none => simp [hfind] at hmap
    | some r =>
        rw [hfind] at hmap
        refine ⟨r, hperm.mem_iff.mpr (Table.mem_of_find hfind), ?_⟩
        rw [Table.key_of_find hfind]
        cases hmap
        rfl

/-! ## The whole -/

/-- At most one fact for a key of an agent, and at most one embedding for a row, which is the one of its content. -/
theorem Sound.single (hs : Sound env db) :
    (∀ agent_id key, (db.memories.filter (is_fact agent_id key)).length ≤ 1) ∧
      ∀ row ∈ db.memories, (db.memory_embeddings.filter (fun e => e.memory_id = row.id)).length ≤ 1 ∧
        ∀ e ∈ db.memory_embeddings, e.memory_id = row.id → e = embedding_of env row := by
  refine ⟨fun agent_id key => ?_, fun row hrow => ⟨Table.length_key_le_one hs.one row.id, fun e he hid => ?_⟩⟩
  · have hfacts : db.memories.filter (is_fact agent_id key) =
        (db.facts agent_id).filter (fun r => decide (r.key = some key)) := by
      rw [facts, List.filter_filter]
      apply List.filter_congr
      intro r _
      rw [is_fact, Bool.and_comm]
    rw [hfacts]
    exact Table.length_key_le_one (hs.keys agent_id) (some key)
  · obtain ⟨r, hr, rfl⟩ := hs.current e he
    rw [hs.same_row hr hrow hid]

/-- **The facts are a finite map.** After every sequence of calls of any agents, and for every agent: `get_fact` and
    `all_facts` read the map that the calls of the agent give, applied in order; a key has at most one fact, a row at
    most one embedding, and that is the one of its content; and a call of another agent changes neither the rows nor
    the embeddings of the agent. -/
theorem facts_finite_map (env : MemoryEnv V) (cs : List (Call × Draw)) (agent_id : String) :
    (∀ key, get_fact (exec (step env) empty cs) agent_id key =
      (FactMap.after agent_id (history env empty cs) key).map Prod.snd) ∧
    (((all_facts (exec (step env) empty cs) agent_id).map Prod.fst).Nodup ∧
      ∀ key value, (key, value) ∈ all_facts (exec (step env) empty cs) agent_id ↔
        (FactMap.after agent_id (history env empty cs) key).map Prod.snd = some value) ∧
    ((∀ agent key, ((exec (step env) empty cs).memories.filter (is_fact agent key)).length ≤ 1) ∧
      ∀ row ∈ (exec (step env) empty cs).memories,
        ((exec (step env) empty cs).memory_embeddings.filter (fun e => e.memory_id = row.id)).length ≤ 1 ∧
        ∀ e ∈ (exec (step env) empty cs).memory_embeddings, e.memory_id = row.id → e = embedding_of env row) ∧
    ∀ c : Call × Draw, c.1.agent ≠ agent_id →
      Apart agent_id (exec (step env) empty cs) (step env (exec (step env) empty cs) c) := by
  have hs := sound_exec (sound_empty env) cs
  have hmap : (exec (step env) empty cs).fact_map agent_id = FactMap.after agent_id (history env empty cs) :=
    map_exec (sound_empty env) agent_id cs
  refine ⟨fun key => ?_, ?_, hs.single, fun c hother => ?_⟩
  · rw [get_fact_eq, hmap]
  · rw [← hmap]
    exact all_facts_eq hs agent_id
  · exact outcome_apart hs (outcome env _ c.2 c.1) hother

/-- A fact that is remembered twice, by an agent and by another one. -/
example : let env : MemoryEnv Nat := { dim := 1, embed := fun text => [text.length], pack_vector := fun _ => [], max_content_bytes := 64 }
    let db := exec (step env) empty
      [(.remember_fact "a" "ceo" "Ahmet" true none, { new_id := "m1", now := 1 }),
        (.remember_fact "b" "ceo" "Ada" false none, { new_id := "m2", now := 2 }),
        (.remember_fact "a" "ceo" "Mehmet" true none, { new_id := "m3", now := 3 }),
        (.forget "a" "m2", { new_id := "", now := 4 })]
    all_facts db "a" = [("ceo", "Mehmet")] ∧ get_fact db "b" "ceo" = some "Ada" := by decide +kernel

/-! ## When a fact is taken -/

theorem embed_fact_returns {row : MemoryRow} (hrow : row ∈ db.memories)
    (hnone : ∀ e ∈ db.memory_embeddings, e.memory_id ≠ row.id) (hdim : (env.embed row.content).length = env.dim)
    (embed : Bool) :
    embed_fact env row.agent_id row.content embed row.id db = .ok (row.id, embedded env row embed db) := by
  unfold embed_fact
  cases embed with
  | false => rfl
  | true =>
      have hguard : guard_dim env (env.embed row.content) = .ok () := by simp [guard_dim, hdim]
      have hinsert := @insert_embedding_ok V env db row hrow hnone
      unfold embedding_of at hinsert
      simp only [if_true, hguard, embed_row, hinsert]
      rfl

/-- Under a new id the insert of a fact goes through: the index of the keys does not stand against it. -/
theorem insert_fact_returns {row : MemoryRow} {key : String} (hkey : row.key = some key)
    (hnone : db.memories.find? (is_fact row.agent_id key) = none) (hnew : ∀ r ∈ db.memories, r.id ≠ row.id) :
    db.insert_memory row = .ok { db with memories := db.memories ++ [row] } := by
  have hid : ¬ db.memories.any (fun r => decide (r.id = row.id)) = true := by
    rw [List.any_eq_true]
    rintro ⟨r, hr, heq⟩
    exact hnew r hr (of_decide_eq_true heq)
  have hindex : ¬ (row.kind = .SEMANTIC ∧
      row.key.any (fun key => db.memories.any (is_fact row.agent_id key)) = true) := by
    rintro ⟨-, hany⟩
    rw [hkey, Option.any_some, List.any_eq_true] at hany
    obtain ⟨r, hr, hfact⟩ := hany
    exact List.find?_eq_none.mp hnone r hr hfact
  rw [insert_memory, if_neg hid, if_neg hindex]

/-- **A fact is taken** if its key and its size are right, its embedding has the right dimension, the database does its
    work and the new id is new: no constraint of the tables stands against it. -/
theorem remember_fact_returns (hs : Sound env db) {key value : String} (embed : Bool) (metadata : Option Fields)
    (hkey : key ≠ "") (hsize : value.utf8ByteSize ≤ env.max_content_bytes)
    (hdim : (env.embed value).length = env.dim) (hfault : d.fault = none) (hnew : ∀ r ∈ db.memories, r.id ≠ d.new_id) :
    ∃ memory_id, (remember_fact env d agent_id key value embed metadata db).1 = .ok memory_id := by
  have hguard : guard_size env value = .ok () := if_neg (Nat.not_lt.mpr hsize)
  rw [remember_fact, if_neg hkey, hguard]
  simp only [transaction, hfault]
  cases hrow : db.memories.find? (is_fact agent_id key) with
  | some row =>
      obtain ⟨hmem, rfl, -, -⟩ := fact_of_find hrow
      obtain ⟨hthere, hbare⟩ := updated_row hmem value (dump_meta metadata) d.now
      have hembed := @embed_fact_returns V env _ _ hthere hbare hdim embed
      simp only [upsert_fact, hrow]
      exact ⟨row.id, by simp only [bind, Except.bind, hembed]⟩
  | none =>
      have hinsert := @insert_fact_returns db
        ⟨d.new_id, agent_id, .SEMANTIC, some key, value, dump_meta metadata, d.now⟩ key rfl hrow hnew
      simp only [upsert_fact, hrow, hinsert]
      refine ⟨d.new_id, ?_⟩
      have hembed := @embed_fact_returns V env
        { db with memories := db.memories ++
            [⟨d.new_id, agent_id, .SEMANTIC, some key, value, dump_meta metadata, d.now⟩] }
        ⟨d.new_id, agent_id, .SEMANTIC, some key, value, dump_meta metadata, d.now⟩ (by simp) (hs.fresh hnew) hdim embed
      simp only [bind, Except.bind, pure, Except.pure, hembed]

end MemoryDb

end CompanyFactory
