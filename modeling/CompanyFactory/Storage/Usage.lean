import CompanyFactory.Storage.Write

/-!
# `Storage.Usage` — the bytes on disk and the counter

`disk` is the total size of the files in the directory of an agent, and `used_bytes` is what the table has
for it. Below a workspaces root on whose level no file and below which no link is (`Settled`), each
operation says what it does to both numbers of every agent:

* an operation on the rows alone, or one that adds directories, leaves both alone (`Kept`);
* `write`, `delete` and `delete_for_agent` leave them alone for every other agent (`Only`), and their
  effects are stated with the conditions under which the two numbers go apart;
* `reconcile_quota` sets the one to the other.

All of it holds whatever calls fail. The one state that is left out is that of a write to the workspace
directory itself whose temporary file, a sibling of that directory, cannot be unlinked (`Cleans`).
-/

namespace CompanyFactory

open FileTree

namespace Storage

/-- What an entry counts. -/
def file_size (_ : FsPath) : Entry String UInt8 → Nat
  | .file data => data.length
  | _ => 0

/-- The size of the file at a path. -/
def size_at (t : Tree) (p : FsPath) : Nat := (t.entry p).elim 0 (file_size p)

/-- The total size of the files in the directory of an agent. -/
def disk (s : Storage) (agent_id : String) : Nat := s.tree.weigh (s.root ++ [agent_id]) file_size

/-- The recorded `used_bytes` of an agent; 0 without a row. -/
def used (s : Storage) (agent_id : String) : Int := s.usage (.AgentQuota agent_id)

/-- No link is met at or below the workspaces root, and no file is directly in it. -/
structure Ground (t : Tree) (root : FsPath) : Prop where
  walled : Walled t root
  floor : ∀ n data, t.entry (root ++ [n]) ≠ some (.file data)

/-- The rows are those of different, valid ids. -/
structure Registered (rows : List WorkspaceRow) : Prop where
  unique : (rows.map WorkspaceRow.agent_id).Nodup
  valid : ∀ row ∈ rows, valid_workspace_id row.agent_id = true

structure Settled (s : Storage) : Prop where
  ground : Ground s.tree s.root
  registered : Registered s.rows

/-- Both numbers of every agent are as before. -/
structure Kept (s s' : Storage) : Prop where
  disk : ∀ agent_id, s'.disk agent_id = s.disk agent_id
  used : ∀ agent_id, s'.used agent_id = s.used agent_id

/-- Both numbers of every other agent are as before. -/
structure Only (agent_id : String) (s s' : Storage) : Prop where
  disk : ∀ other, other ≠ agent_id → s'.disk other = s.disk other
  used : ∀ other, other ≠ agent_id → s'.used other = s.used other

theorem Kept.refl (s : Storage) : Kept s s := ⟨fun _ => rfl, fun _ => rfl⟩

theorem Kept.only {s s' : Storage} (h : Kept s s') (agent_id : String) : Only agent_id s s' :=
  ⟨fun other _ => h.disk other, fun other _ => h.used other⟩

/-! ## Rows -/

theorem used_eq (s : Storage) (agent_id : String) :
    s.used agent_id =
      ((Table.find WorkspaceRow.agent_id s.rows agent_id).map WorkspaceRow.used_bytes).getD 0 := rfl

theorem used_congr {s s' : Storage} (hrows : s'.rows = s.rows) (agent_id : String) :
    s'.used agent_id = s.used agent_id := by
  rw [used_eq, used_eq, hrows]

/-- A row that is added counts nothing. -/
theorem used_insert {s s' : Storage} {agent_id : String} {quota_bytes : Int}
    (hrows : s'.rows = s.rows ++ [⟨agent_id, quota_bytes, 0⟩]) (other : String) :
    s'.used other = s.used other := by
  rw [used_eq, used_eq, hrows, Table.find_insert]
  cases Table.find WorkspaceRow.agent_id s.rows other with
  | some row => rfl
  | none =>
      by_cases heq : agent_id = other
      · simp [heq]
      · simp [heq]

/-- An update of one row. -/
theorem used_update {s s' : Storage} {agent_id : String} {g : WorkspaceRow → WorkspaceRow}
    (hrows : s'.rows = Table.update WorkspaceRow.agent_id agent_id g s.rows)
    (hg : ∀ row, (g row).agent_id = row.agent_id) (other : String) :
    s'.used other =
      if agent_id = other then ((s.row other).map fun row => (g row).used_bytes).getD 0
      else s.used other := by
  rw [used_eq, used_eq, hrows, Table.find_update_key hg]
  split
  · rw [Option.map_map]
    rfl
  · rfl

/-- An update of a quota. -/
theorem used_requota {s s' : Storage} {agent_id : String} {quota_bytes : Int}
    (hrows : s'.rows = Table.update WorkspaceRow.agent_id agent_id
      (fun row => { row with quota_bytes }) s.rows) (other : String) : s'.used other = s.used other := by
  rw [used_update hrows fun _ => rfl]
  split <;> rfl

/-- An update of every row. -/
theorem used_map {s s' : Storage} {g : WorkspaceRow → WorkspaceRow} (hrows : s'.rows = s.rows.map g)
    (hg : ∀ row, (g row).agent_id = row.agent_id) (agent_id : String) :
    s'.used agent_id = ((s.row agent_id).map fun row => (g row).used_bytes).getD 0 := by
  rw [used_eq, hrows, Table.find_update hg, Option.map_map]
  rfl

theorem Registered.insert {rows : List WorkspaceRow} (hrows : Registered rows) {row : WorkspaceRow}
    (hnew : Table.find WorkspaceRow.agent_id rows row.agent_id = none)
    (hvalid : valid_workspace_id row.agent_id = true) : Registered (rows ++ [row]) where
  unique := Table.keys_insert hrows.unique hnew
  valid := by
    intro r hr
    rcases List.mem_append.mp hr with hold | hlast
    · exact hrows.valid r hold
    · rw [List.mem_singleton.mp hlast]
      exact hvalid

/-- An update that leaves the ids alone. -/
theorem Registered.update {rows : List WorkspaceRow} (hrows : Registered rows)
    {g : WorkspaceRow → WorkspaceRow} (hg : ∀ row, (g row).agent_id = row.agent_id) :
    Registered (rows.map g) where
  unique := by
    rw [Table.keys_update hg]
    exact hrows.unique
  valid := by
    intro r hr
    obtain ⟨row, hrow, rfl⟩ := List.mem_map.mp hr
    rw [hg]
    exact hrows.valid row hrow

theorem Registered.update_key {rows : List WorkspaceRow} (hrows : Registered rows) {agent_id : String}
    {g : WorkspaceRow → WorkspaceRow} (hg : ∀ row, (g row).agent_id = row.agent_id) :
    Registered (Table.update WorkspaceRow.agent_id agent_id g rows) := by
  apply hrows.update
  intro row
  split
  · exact hg row
  · rfl

theorem Registered.filter {rows : List WorkspaceRow} (hrows : Registered rows) (p : WorkspaceRow → Bool) :
    Registered (rows.filter p) where
  unique := hrows.unique.sublist (List.filter_sublist.map _)
  valid := fun row hrow => hrows.valid row (List.mem_filter.mp hrow).1

/-! ## Trees -/

theorem file_of_size {p : FsPath} {e : Entry String UInt8} (h : file_size p e ≠ 0) : e ≠ .dir := by
  rintro rfl
  exact h rfl

/-- Directories count nothing. -/
theorem weigh_made {t u : Tree} (hext : Extends t u) (d : FsPath) :
    u.weigh d file_size = t.weigh d file_size :=
  weigh_congr fun _ _ _ hsize => hext.same (file_of_size hsize)

/-- The ground is kept where no link is made and no file is put on the level of the workspaces. -/
theorem Ground.keep {t u : Tree} {root : FsPath} (hground : Ground t root)
    (hlinks : ∀ p r, u.entry p = some (.link r) → t.entry p = some (.link r))
    (hfloor : ∀ n data, u.entry (root ++ [n]) = some (.file data) →
      t.entry (root ++ [n]) = some (.file data)) : Ground u root where
  walled :=
    { straight := fun q hq r hr => hground.walled.straight q hq r (hlinks q r hr)
      no_link := fun p hp r hr => hground.walled.no_link p hp r (hlinks p r hr) }
  floor := fun n data hfile => hground.floor n data (hfloor n data hfile)

theorem Ground.made {t u : Tree} {root : FsPath} (hground : Ground t root) (hext : Extends t u) :
    Ground u root :=
  hground.keep (fun _ _ => (hext.same (by simp)).mp) fun _ _ => (hext.same (by simp)).mp

/-- A path is in the directory of one agent only. -/
theorem same_agent {root p : FsPath} {agent_id other : String} (hp : root ++ [agent_id] <+: p)
    (hother : root ++ [other] <+: p) : other = agent_id := by
  have heq : root ++ [other] = root ++ [agent_id] :=
    (List.prefix_of_prefix_length_le hother hp (by simp)).eq_of_length (by simp)
  simpa using heq

theorem share_other {root p : FsPath} {agent_id other : String} (hp : root ++ [agent_id] <+: p)
    (hne : other ≠ agent_id) (w : FsPath → Entry String UInt8 → Nat) (o : Option (Entry String UInt8)) :
    share (root ++ [other]) w p o = 0 := by
  unfold share
  rw [if_neg]
  rintro ⟨hother, -⟩
  exact hne (same_agent hp hother)

theorem share_own {d p : FsPath} (hp : Below d p) (o : Option (Entry String UInt8)) :
    share d file_size p o = o.elim 0 (file_size p) := by
  rw [share, if_pos hp]

theorem agent_dir_valid (s : Storage) {agent_id : String} (hvalid : valid_workspace_id agent_id = true) :
    s.agent_dir agent_id = names (s.root ++ [agent_id]) := by
  obtain ⟨hrelative, hparts⟩ := parts_valid hvalid
  rw [agent_dir, join_path, hrelative, hparts, names_concat]
  rfl

namespace Settled

variable {h : Host String UInt8} {s : Storage} {agent_id : String}

theorem straight (hs : Settled s) {p : FsPath} (hp : s.root <+: p) : s.tree.Straight p :=
  hs.ground.walled.straight_below hp

/-- The path of an agent leads to the directory of its workspace, if it leads anywhere. -/
theorem follow_agent (hs : Settled s) (hvalid : valid_workspace_id agent_id = true) {d : FsPath}
    (hfollow : h.follow s.tree (s.agent_dir agent_id) = .ok d) :
    d = s.root ++ [agent_id] ∧ s.tree.entry (s.root ++ [agent_id]) = some .dir := by
  rw [agent_dir_valid s hvalid] at hfollow
  have hstraight := hs.straight (List.prefix_append s.root [agent_id])
  obtain rfl := follow_straight_eq hstraight hfollow
  refine ⟨rfl, ?_⟩
  cases hentry : s.tree.entry (s.root ++ [agent_id]) with
  | none => exact absurd hentry (follow_entry hfollow)
  | some e =>
      cases e with
      | dir => rfl
      | file data => exact absurd hentry (hs.ground.floor agent_id data)
      | link r => exact absurd hentry (hstraight _ List.prefix_rfl r)

theorem housed (hs : Settled s) (hvalid : valid_workspace_id agent_id = true) : Housed h s agent_id := by
  intro d hd
  obtain ⟨rfl, hdir⟩ := hs.follow_agent hvalid hd
  have hroot : s.tree.entry s.root = some .dir := by
    have hparent := entry_parent hdir
    rwa [List.dropLast_concat] at hparent
  have hfollow : h.follow s.tree (names s.root) = .ok s.root :=
    follow_straight hs.ground.walled.straight (by simp [hroot])
  rw [home, if_pos hvalid, hfollow]
  simp only [hdir, if_true]

/-- What `_resolve` accepts is in the agent's directory. -/
theorem target_in (hs : Settled s) (hvalid : valid_workspace_id agent_id = true) {relative_path : String}
    {target : FsPath} (hres : s.resolve h agent_id relative_path = .ok target) :
    s.root ++ [agent_id] <+: target ∧ s.tree.entry (s.root ++ [agent_id]) = some .dir := by
  obtain ⟨d, hd, -, hunder⟩ := resolve_ok hres
  obtain ⟨rfl, hdir⟩ := hs.follow_agent hvalid hd
  exact ⟨hunder, hdir⟩

/-- A target that is no directory is strictly below it. -/
theorem target_below (hs : Settled s) (hvalid : valid_workspace_id agent_id = true) {relative_path : String}
    {target : FsPath} (hres : s.resolve h agent_id relative_path = .ok target)
    (hfile : s.tree.entry target ≠ some .dir) : Below (s.root ++ [agent_id]) target := by
  obtain ⟨hunder, hdir⟩ := hs.target_in hvalid hres
  refine ⟨hunder, ?_⟩
  rintro rfl
  exact hfile hdir

/-- `_dir_size` finds the bytes on disk. -/
theorem dir_size_eq (hs : Settled s) (hvalid : valid_workspace_id agent_id = true) :
    dir_size h s.tree (s.agent_dir agent_id) = s.disk agent_id := by
  have hstraight := hs.straight (List.prefix_append s.root [agent_id])
  unfold dir_size disk
  cases hfollow : h.follow s.tree (s.agent_dir agent_id) with
  | error e =>
      -- nothing is there
      have hnone : s.tree.entry (s.root ++ [agent_id]) = none := by
        by_contra hentry
        rw [agent_dir_valid s hvalid, follow_straight hstraight hentry] at hfollow
        cases hfollow
      exact (weigh_not_dir (by simp [hnone]) _).symm
  | ok d =>
      obtain ⟨rfl, hdir⟩ := hs.follow_agent hvalid hfollow
      simp only [hdir, if_true]
      refine weigh_eq fun p e he hbelow => ?_
      cases e with
      | file | dir => rfl
      | link r => exact absurd he (hs.straight ((List.prefix_append _ _).trans hbelow.1) p List.prefix_rfl r)

end Settled

/-! ## Lifecycle and limits -/

/-- Directories are added, and no counter changes. -/
theorem Settled.made {s s' : Storage} (hs : Settled s) (hroot : s'.root = s.root)
    (hext : Extends s.tree s'.tree) (hrows : Registered s'.rows)
    (hused : ∀ other, s'.used other = s.used other) : Settled s' ∧ Kept s s' := by
  refine ⟨⟨?_, hrows⟩, ⟨fun other => ?_, hused⟩⟩
  · rw [hroot]
    exact hs.ground.made hext
  · unfold disk
    rw [hroot]
    exact weigh_made hext _

theorem provision_effect {s : Storage} (hs : Settled s) (h : Host String UInt8) (f : Faults)
    (agent_id : String) {rows : List WorkspaceRow} (hrows : Registered rows)
    (hused : ∀ (s' : Storage) other, s'.rows = rows → s'.used other = s.used other) :
    Settled (provision h f agent_id rows s).2 ∧ Kept s (provision h f agent_id rows s).2 := by
  unfold provision make_dir
  cases hmk : (if f.mkdir then .error .failed else h.mkdirs s.tree (s.root ++ [agent_id])) with
  | error e => exact ⟨hs, .refl s⟩
  | ok made =>
      obtain ⟨tree, dirs⟩ := made
      have hext : Extends s.tree tree := by
        split at hmk
        · cases hmk
        · exact (mkdirs_spec hmk).1
      cases f.record with
      | true => exact hs.made rfl hext hs.registered fun other => used_congr rfl other
      | false => exact hs.made rfl hext hrows fun other => hused _ other rfl

theorem create_for_agent_effect {s : Storage} (hs : Settled s) (h : Host String UInt8) (f : Faults)
    (agent_id : String) (quota_mb : Int) :
    Settled (create_for_agent h f agent_id quota_mb s).2 ∧
      Kept s (create_for_agent h f agent_id quota_mb s).2 := by
  unfold create_for_agent
  split
  · exact ⟨hs, .refl s⟩
  · split
    · exact ⟨hs, .refl s⟩
    · rename_i hvalid
      split
      · exact ⟨hs, .refl s⟩
      · split
        · exact ⟨hs, .refl s⟩
        · rename_i hrow
          exact provision_effect hs h f agent_id (hs.registered.insert hrow (by simpa using hvalid))
            fun _ other hrows => used_insert hrows other

theorem ensure_for_agent_effect {s : Storage} (hs : Settled s) (h : Host String UInt8) (f : Faults)
    (agent_id : String) (quota_mb : Int) :
    Settled (ensure_for_agent h f agent_id quota_mb s).2 ∧
      Kept s (ensure_for_agent h f agent_id quota_mb s).2 := by
  unfold ensure_for_agent
  split
  · exact ⟨hs, .refl s⟩
  · split
    · exact ⟨hs, .refl s⟩
    · rename_i hvalid
      split
      · exact ⟨hs, .refl s⟩
      · split
        · rename_i hrow
          exact provision_effect hs h f agent_id (hs.registered.insert hrow (by simpa using hvalid))
            fun _ other hrows => used_insert hrows other
        · exact provision_effect hs h f agent_id (hs.registered.update_key fun _ => rfl)
            fun _ other hrows => used_requota hrows other

theorem set_limit_effect {s : Storage} (hs : Settled s) (f : Faults) (scope : QuotaScope) (mb : Int) :
    Settled (set_limit f scope mb s).2 ∧ Kept s (set_limit f scope mb s).2 := by
  unfold set_limit
  split
  · exact ⟨hs, .refl s⟩
  · split
    · exact ⟨hs, .refl s⟩
    · split
      · exact hs.made rfl (.refl _) hs.registered fun other => used_congr rfl other
      · split
        · exact ⟨hs, .refl s⟩
        · exact hs.made rfl (.refl _) (hs.registered.update_key fun _ => rfl)
            fun other => used_requota rfl other

/-- `reconcile_quota` sets the counter of every row to the bytes on disk. -/
theorem reconcile_quota_effect {s : Storage} (hs : Settled s) (h : Host String UInt8) (f : Faults) :
    Settled (reconcile_quota h f s).2 ∧ ∀ agent_id, (reconcile_quota h f s).2.disk agent_id = s.disk agent_id ∧
      ((reconcile_quota h f s).2.used agent_id = s.used agent_id ∨
        (reconcile_quota h f s).2.used agent_id = s.disk agent_id) := by
  unfold reconcile_quota
  simp only
  split
  · exact ⟨hs, fun _ => ⟨rfl, .inl rfl⟩⟩
  · refine ⟨⟨hs.ground, hs.registered.update fun _ => rfl⟩, fun agent_id => ⟨rfl, ?_⟩⟩
    let g (row : WorkspaceRow) : WorkspaceRow :=
      { row with used_bytes := dir_size h s.tree (s.agent_dir row.agent_id) }
    rw [used_map (g := g) rfl fun _ => rfl, used_eq]
    cases hrow : s.row agent_id with
    | none =>
        unfold row at hrow
        rw [hrow]
        exact .inl rfl
    | some row =>
        have hkey : row.agent_id = agent_id := Table.key_of_find hrow
        have hvalid := hs.registered.valid row (Table.mem_of_find hrow)
        subst hkey
        refine .inr ?_
        simp [g, hs.dir_size_eq hvalid]

/-! ## Deleting -/

/-- The counter of one agent is set. -/
theorem used_set {s s' : Storage} {agent_id : String} {g : Int → Int}
    (hrows : s'.rows = (s.set_used agent_id g).rows) (other : String) :
    s'.used other = if agent_id = other then ((s.row other).map fun row => g row.used_bytes).getD 0
      else s.used other := used_update hrows (fun _ => rfl) other

/-- A counter that is set unless the statement fails. -/
theorem used_set_unless {s s' : Storage} {agent_id : String} {g : Int → Int} {fails : Bool}
    (hrows : s'.rows = if fails then s.rows else (s.set_used agent_id g).rows) (other : String) :
    s'.used other = if agent_id = other then
      (if fails then s.used agent_id else ((s.row agent_id).map fun row => g row.used_bytes).getD 0)
      else s.used other := by
  cases fails with
  | true =>
      rw [used_congr hrows]
      split
      · rename_i heq
        rw [heq]
        rfl
      · rfl
  | false =>
      rw [used_set hrows]
      split
      · rename_i heq
        rw [heq]
        rfl
      · rfl

/-- The bytes on disk where two trees agree off one path in the directory of an agent. -/
theorem disk_off {s s' : Storage} {agent_id : String} {p : FsPath} (hroot : s'.root = s.root)
    (hp : Below (s.root ++ [agent_id]) p)
    (hoff : ∀ q e, q ≠ p → e ≠ .dir → (s'.tree.entry q = some e ↔ s.tree.entry q = some e)) :
    s'.disk agent_id + size_at s.tree p = s.disk agent_id + size_at s'.tree p ∧
      ∀ other, other ≠ agent_id → s'.disk other = s.disk other := by
  have hweigh : ∀ d, s'.tree.weigh d file_size + share d file_size p (s.tree.entry p) =
      s.tree.weigh d file_size + share d file_size p (s'.tree.entry p) :=
    fun d => weigh_off d file_size fun q e hne hsize => hoff q e hne (file_of_size hsize)
  unfold disk
  rw [hroot]
  constructor
  · have hown := hweigh (s.root ++ [agent_id])
    rw [share_own hp, share_own hp] at hown
    exact hown
  · intro other hne
    have hother := hweigh (s.root ++ [other])
    rw [share_other hp.1 hne, share_other hp.1 hne] at hother
    exact hother

/-- The ways `delete` ends: nothing changed, or the entry is gone. -/
theorem delete_cases (h : Host String UInt8) (f : Faults) (agent_id relative_path : String) (s : Storage) :
    (delete h f agent_id relative_path s).2.root = s.root ∧
      (((delete h f agent_id relative_path s).2.tree = s.tree ∧
          (delete h f agent_id relative_path s).2.rows = s.rows) ∨
        ∃ target p gone, s.resolve h agent_id relative_path = .ok target ∧
          h.follow s.tree (names target) = .ok p ∧ s.tree.entry p ≠ some .dir ∧ f.begin_tx = false ∧
          f.unlink = false ∧
          h.unlink s.tree target = .ok (gone, (delete h f agent_id relative_path s).2.tree) ∧
          (delete h f agent_id relative_path s).2.rows =
            if f.record then s.rows
            else (s.set_used agent_id fun used => max (used - st_size h s.tree p) 0).rows) := by
  unfold delete
  cases hres : s.resolve h agent_id relative_path with
  | error e => exact ⟨rfl, .inl ⟨rfl, rfl⟩⟩
  | ok target =>
      cases hfollow : h.follow s.tree (names target) with
      | error e => exact ⟨by simp [hfollow], .inl (by simp [hfollow])⟩
      | ok p =>
          simp only [hfollow]
          split
          · exact ⟨rfl, .inl ⟨rfl, rfl⟩⟩
          · rename_i hdir
            cases hbegin : f.begin_tx with
            | true => exact ⟨rfl, .inl ⟨rfl, rfl⟩⟩
            | false =>
                simp only [Bool.false_eq_true, if_false]
                cases hfault : f.unlink with
                | true => exact ⟨rfl, .inl ⟨rfl, rfl⟩⟩
                | false =>
                    simp only [Bool.false_eq_true, if_false]
                    cases hunlink : h.unlink s.tree target with
                    | error e => exact ⟨rfl, .inl ⟨rfl, rfl⟩⟩
                    | ok out =>
                        obtain ⟨gone, tree⟩ := out
                        cases f.record with
                        | true => exact ⟨rfl, .inr ⟨target, p, gone, rfl, hfollow, hdir, trivial, trivial, hunlink, rfl⟩⟩
                        | false => exact ⟨rfl, .inr ⟨target, p, gone, rfl, hfollow, hdir, trivial, trivial, hunlink, rfl⟩⟩

/-- The `st_size` of what is no directory. -/
theorem st_size_file (h : Host String UInt8) {t : Tree} {p : FsPath} (hdir : t.entry p ≠ some .dir)
    (hlink : ∀ r, t.entry p ≠ some (.link r)) (hentry : t.entry p ≠ none) :
    st_size h t p = size_at t p := by
  unfold st_size size_at
  cases he : t.entry p with
  | none => exact absurd he hentry
  | some e =>
      cases e with
      | file data => rfl
      | dir => exact absurd he hdir
      | link r => exact absurd he (hlink r)

/-- **Deleting.** Nothing happens, or the file goes and the counter follows it unless that fails. -/
theorem delete_effect {s : Storage} (hs : Settled s) (h : Host String UInt8) (f : Faults)
    {agent_id : String} (hvalid : valid_workspace_id agent_id = true) (relative_path : String) :
    Settled (delete h f agent_id relative_path s).2 ∧
      Only agent_id s (delete h f agent_id relative_path s).2 ∧
      (Kept s (delete h f agent_id relative_path s).2 ∨
        ∃ target, s.resolve h agent_id relative_path = .ok target ∧ f.begin_tx = false ∧
          f.unlink = false ∧
          (delete h f agent_id relative_path s).2.disk agent_id + size_at s.tree target =
            s.disk agent_id ∧
          (delete h f agent_id relative_path s).2.used agent_id =
            if f.record then s.used agent_id else max (s.used agent_id - size_at s.tree target) 0) := by
  obtain ⟨hroot, ⟨htree, hrows⟩ | ⟨target, p, gone, hres, hfollow, hdir, hbegin, hfault, hunlink, hrows⟩⟩ :=
    delete_cases h f agent_id relative_path s
  · have hext : Extends s.tree (delete h f agent_id relative_path s).2.tree := by
      rw [htree]
      exact .refl _
    obtain ⟨hsettled, hkept⟩ := hs.made hroot hext (hrows ▸ hs.registered) (used_congr hrows)
    exact ⟨hsettled, hkept.only agent_id, .inl hkept⟩
  · generalize delete h f agent_id relative_path s = out at hroot hunlink hrows ⊢
    obtain ⟨result, s'⟩ := out
    have hstraight := hs.straight ((List.prefix_append _ _).trans (hs.target_in hvalid hres).1)
    obtain rfl := follow_straight_eq hstraight hfollow
    obtain ⟨hslot, -, htree⟩ := unlink_spec hunlink
    obtain rfl := slot_straight hstraight hslot
    have hbelow := hs.target_below hvalid hres hdir
    have hentry : ∀ q, s'.tree.entry q = if q = gone then none else s.tree.entry q := by
      rw [htree]
      exact entry_remove s.tree hdir
    have hold : ∀ q e, s'.tree.entry q = some e → s.tree.entry q = some e := by
      intro q e he
      rw [hentry] at he
      split at he
      · cases he
      · exact he
    have hgone : size_at s'.tree gone = 0 := by
      rw [size_at, hentry, if_pos rfl]
      rfl
    have hoff : ∀ q e, q ≠ gone → e ≠ .dir →
        (s'.tree.entry q = some e ↔ s.tree.entry q = some e) := by
      intro q e hne _
      rw [hentry, if_neg hne]
    obtain ⟨hdisk, hothers⟩ := disk_off hroot hbelow hoff
    have hsize : st_size h s.tree gone = size_at s.tree gone :=
      st_size_file h hdir (hstraight _ List.prefix_rfl) (follow_entry hfollow)
    have hcount : ((s.row agent_id).map fun row => max (row.used_bytes - (st_size h s.tree gone : Int)) 0).getD 0 =
        max (s.used agent_id - size_at s.tree gone) 0 := by
      rw [hsize, used_eq]
      show ((Table.find _ _ _).map _).getD 0 = _
      cases Table.find WorkspaceRow.agent_id s.rows agent_id with
      | none => simp
      | some row => simp
    have hused := used_set_unless hrows
    rw [hcount] at hused
    refine ⟨⟨?_, ?_⟩, ⟨hothers, fun other hne => ?_⟩, .inr ⟨gone, hres, hbegin, hfault, ?_, ?_⟩⟩
    · rw [hroot]
      exact hs.ground.keep (fun q r => hold q _) fun n data => hold _ _
    · rw [hrows]
      split
      · exact hs.registered
      · exact hs.registered.update_key fun _ => rfl
    · rw [hused, if_neg (Ne.symm hne)]
    · rw [hgone] at hdisk
      exact hdisk
    · rw [hused, if_pos rfl]

/-- `rmtree` gets stuck in the directory. -/
def Stuck (f : Faults) (d : FsPath) : Prop := ∃ k ∈ f.stuck, d <+: k

/-- The ways `delete_for_agent` ends. -/
theorem delete_for_agent_cases (h : Host String UInt8) (f : Faults) (agent_id : String) (s : Storage) :
    (delete_for_agent h f agent_id s).2.root = s.root ∧
      (((delete_for_agent h f agent_id s).2.tree = s.tree ∧
          ((delete_for_agent h f agent_id s).2.rows = s.rows ∨
            h.stat s.tree (s.agent_dir agent_id) = none ∧
              (delete_for_agent h f agent_id s).2.rows =
                s.rows.filter fun row => row.agent_id ≠ agent_id)) ∨
        ∃ d, h.slot s.tree (s.agent_dir agent_id) = .ok d ∧ f.begin_tx = false ∧
          (delete_for_agent h f agent_id s).2.tree = s.tree.prune d f.stuck ∧
          (((s.tree.prune d f.stuck).entry d = none ∧ (delete_for_agent h f agent_id s).2.rows =
              s.rows.filter fun row => row.agent_id ≠ agent_id) ∨
            ((s.tree.prune d f.stuck).entry d ≠ none ∨ f.record = true) ∧
              (delete_for_agent h f agent_id s).2.rows = s.rows)) := by
  unfold delete_for_agent
  simp only
  cases f.begin_tx with
  | true => exact ⟨rfl, .inl ⟨rfl, .inl rfl⟩⟩
  | false =>
      simp only [Bool.false_eq_true, if_false]
      cases hstat : h.stat s.tree (s.agent_dir agent_id) with
      | none =>
          cases f.record with
          | true => exact ⟨rfl, .inl ⟨rfl, .inl rfl⟩⟩
          | false => exact ⟨rfl, .inl ⟨rfl, .inr ⟨rfl, rfl⟩⟩⟩
      | some e =>
          cases hslot : h.slot s.tree (s.agent_dir agent_id) with
          | error e => exact ⟨rfl, .inl ⟨rfl, .inl rfl⟩⟩
          | ok d =>
              simp only
              split
              · split
                · rename_i hleft
                  refine ⟨rfl, .inr ⟨d, rfl, trivial, rfl, .inr ⟨.inl ?_, rfl⟩⟩⟩
                  exact Option.isSome_iff_ne_none.mp hleft
                · rename_i hgone
                  have hnone : (s.tree.prune d f.stuck).entry d = none := by simpa [touch] using hgone
                  cases f.record with
                  | true => exact ⟨rfl, .inr ⟨d, rfl, trivial, rfl, .inr ⟨.inr rfl, rfl⟩⟩⟩
                  | false => exact ⟨rfl, .inr ⟨d, rfl, trivial, rfl, .inl ⟨hnone, rfl⟩⟩⟩
              · exact ⟨rfl, .inl ⟨rfl, .inl rfl⟩⟩

/-- The row of one agent is deleted: it has used nothing, and the others what they had. -/
theorem used_delete {s s' : Storage} {agent_id : String}
    (hrows : s'.rows = s.rows.filter fun row => row.agent_id ≠ agent_id) :
    (∀ other, other ≠ agent_id → s'.used other = s.used other) ∧ s'.used agent_id = 0 := by
  have hused : ∀ other, s'.used other = if other ≠ agent_id then s.used other else 0 := by
    intro other
    rw [used_eq, used_eq, hrows, Table.find_filter (fun id => id ≠ agent_id)]
    split <;> rfl
  refine ⟨fun other hne => ?_, ?_⟩
  · rw [hused, if_pos hne]
  · rw [hused, if_neg (not_not.mpr rfl)]

/-- Pruning the directory of one agent leaves the files of the others. -/
theorem disk_prune {s s' : Storage} {agent_id : String} {stuck : List FsPath} (hroot : s'.root = s.root)
    (htree : s'.tree = s.tree.prune (s.root ++ [agent_id]) stuck) {other : String} (hne : other ≠ agent_id) :
    s'.disk other = s.disk other := by
  unfold disk
  rw [hroot, htree]
  refine weigh_congr fun p e hbelow _ => ?_
  have hp : p ≠ [] := by
    rintro rfl
    simpa using List.prefix_nil.mp hbelow.1
  rw [entry_prune _ _ _ hp, if_pos]
  -- what is below the directory of another agent is not in this one
  exact .inl fun hin => hne (same_agent hin hbelow.1)

/-- **Deleting a workspace.** Nothing happens, or both numbers are 0, or an error keeps the counter and some
    of the files are gone. -/
theorem delete_for_agent_effect {s : Storage} (hs : Settled s) (h : Host String UInt8) (f : Faults)
    {agent_id : String} (hvalid : valid_workspace_id agent_id = true) :
    Settled (delete_for_agent h f agent_id s).2 ∧
      Only agent_id s (delete_for_agent h f agent_id s).2 ∧
      (Kept s (delete_for_agent h f agent_id s).2 ∨
        ((delete_for_agent h f agent_id s).2.disk agent_id = 0 ∧
          (delete_for_agent h f agent_id s).2.used agent_id = 0) ∨
        ((Stuck f (s.root ++ [agent_id]) ∨ f.record = true) ∧ f.begin_tx = false ∧
          (delete_for_agent h f agent_id s).2.disk agent_id ≤ s.disk agent_id ∧
          (delete_for_agent h f agent_id s).2.used agent_id = s.used agent_id)) := by
  obtain ⟨hroot, hcases⟩ := delete_for_agent_cases h f agent_id s
  generalize delete_for_agent h f agent_id s = out at hroot hcases ⊢
  obtain ⟨result, s'⟩ := out
  have hstraight := hs.straight (List.prefix_append s.root [agent_id])
  rw [agent_dir_valid s hvalid] at hcases
  rcases hcases with ⟨htree, hrows⟩ | ⟨d, hslot, hbegin, htree, hends⟩
  · have hground : Ground s'.tree s'.root := by
      rw [hroot, htree]
      exact hs.ground
    have hdisk : ∀ other, s'.disk other = s.disk other := by
      intro other
      rw [disk, disk, hroot, htree]
    rcases hrows with hrows | ⟨hstat, hrows⟩
    · have hkept : Kept s s' := ⟨hdisk, used_congr hrows⟩
      exact ⟨⟨hground, hrows ▸ hs.registered⟩, hkept.only agent_id, .inl hkept⟩
    · obtain ⟨hused_others, hused⟩ := used_delete hrows
      have hnone : s.tree.entry (s.root ++ [agent_id]) = none := by
        by_contra hentry
        have hfollow : h.follow s.tree (names (s.root ++ [agent_id])) = .ok (s.root ++ [agent_id]) :=
          follow_straight hstraight hentry
        simp [Host.stat, hfollow, Except.toOption, hentry] at hstat
      refine ⟨⟨hground, hrows ▸ hs.registered.filter _⟩, ⟨fun other _ => hdisk other, hused_others⟩,
        .inr (.inl ⟨?_, hused⟩)⟩
      rw [hdisk]
      exact weigh_not_dir (by simp [hnone]) _
  · obtain rfl := slot_straight hstraight hslot
    have hold : ∀ q e, s'.tree.entry q = some e → s.tree.entry q = some e := by
      intro q e he
      rw [htree] at he
      exact prune_le s.tree _ _ he
    have hground : Ground s'.tree s'.root := by
      rw [hroot]
      exact hs.ground.keep (fun q r => hold q _) fun n data => hold _ _
    have hothers : ∀ other, other ≠ agent_id → s'.disk other = s.disk other :=
      fun other hne => disk_prune hroot htree hne
    rcases hends with ⟨hnone, hrows⟩ | ⟨hwhy, hrows⟩
    · obtain ⟨hused_others, hused⟩ := used_delete hrows
      refine ⟨⟨hground, hrows ▸ hs.registered.filter _⟩, ⟨hothers, hused_others⟩, .inr (.inl ⟨?_, hused⟩)⟩
      unfold disk
      rw [hroot, htree]
      exact weigh_not_dir (by simp [hnone]) _
    · refine ⟨⟨hground, hrows ▸ hs.registered⟩, ⟨hothers, fun other _ => used_congr hrows other⟩,
        .inr (.inr ⟨?_, hbegin, ?_, used_congr hrows agent_id⟩)⟩
      · refine hwhy.imp_left fun hleft => ?_
        by_contra hstuck
        apply hleft
        rw [entry_prune _ _ _ (by simp), if_neg]
        rintro (hout | hk)
        · exact hout List.prefix_rfl
        · exact hstuck hk
      · unfold disk
        rw [hroot]
        exact weigh_mono _ _ hold

/-! ## Writing -/

/-- A temporary file that was opened and not moved can be unlinked. -/
def Cleans (h : Host String UInt8) (f : Faults) (s : Storage) (agent_id relative_path : String)
    (data : Bytes) : Prop :=
  ∀ dir name row made dirs, Gets h f s agent_id relative_path data dir name row made dirs →
    Opens h f s.tree dir name → ¬ Moves h f s.tree dir name → f.unlink = false

/-- What a write does to the numbers of its agent once it gets to its temporary file, in two cases. -/
inductive Wrote (h : Host String UInt8) (f : Faults) (s s' : Storage) (agent_id : String) (data : Bytes)
    (dir : FsPath) (name : String) : Prop
  /-- it raises, and what was at the temporary name is gone -/
  | raised (hnot : ¬ Moves h f s.tree dir name) (hremoves : Removes h f s.tree dir name)
      (hdisk : s'.disk agent_id + size_at s.tree (dir ++ [name ++ ".tmp"]) = s.disk agent_id)
      (hused : s'.used agent_id = s.used agent_id)
  /-- the file is moved -/
  | stored (hmoves : Moves h f s.tree dir name)
      (hdisk : s'.disk agent_id + size_at s.tree (dir ++ [name]) +
        size_at s.tree (dir ++ [name ++ ".tmp"]) = s.disk agent_id + data.length)
      (hused : s'.used agent_id = if f.record then s.used agent_id
        else s.used agent_id - size_at s.tree (dir ++ [name]) + data.length)

theorem existing_size_eq (h : Host String UInt8) {t : Tree} {p : FsPath} (hstraight : t.Straight p)
    (hdir : t.entry p ≠ some .dir) : existing_size h t p = size_at t p := by
  unfold existing_size
  cases hfollow : h.follow t (names p) with
  | error e =>
      cases hentry : t.entry p with
      | none => simp [size_at, hentry]
      | some e =>
          rw [follow_straight hstraight (by simp [hentry])] at hfollow
          cases hfollow
  | ok q =>
      obtain rfl := follow_straight_eq hstraight hfollow
      exact st_size_file h hdir (hstraight _ List.prefix_rfl) (follow_entry hfollow)

section Wrote

variable {h : Host String UInt8} {f : Faults} {s s' : Storage} {agent_id relative_path : String}
  {data : Bytes} {dir : FsPath} {name : String} {row : WorkspaceRow} {made : Tree} {dirs : List FsPath}

/-- The temporary name of a target in the agent's directory. -/
theorem tmp_cases (hunder : s.root ++ [agent_id] <+: dir ++ [name]) :
    Below (s.root ++ [agent_id]) (dir ++ [name ++ ".tmp"]) ∨ dir = s.root := by
  rcases List.prefix_concat_iff.mp hunder with heq | hpre
  · exact .inr (List.append_inj' heq rfl).1.symm
  · refine .inl ⟨hpre.trans (List.prefix_append _ _), fun heq => ?_⟩
    have hlen := hpre.length_le
    rw [← heq, List.length_append, List.length_singleton] at hlen
    omega

/-- A write that raises. -/
theorem raised_effect (hs : Settled s) (hunder : s.root ++ [agent_id] <+: dir ++ [name])
    (hext : Extends s.tree made) (hroot : s'.root = s.root) (hrows : s'.rows = s.rows)
    (hnot : ¬ Moves h f s.tree dir name) (hcleans : Opens h f s.tree dir name → f.unlink = false)
    (hentries : ∀ p, s'.tree.entry p =
      if p = dir ++ [name ++ ".tmp"] then leftover h f s.tree dir name data else made.entry p)
    (htmp : made.entry (dir ++ [name ++ ".tmp"]) = s.tree.entry (dir ++ [name ++ ".tmp"])) :
    Settled s' ∧ Only agent_id s s' ∧ (Kept s s' ∨ Wrote h f s s' agent_id data dir name) := by
  have hused : ∀ other, s'.used other = s.used other := used_congr hrows
  by_cases hremoves : Removes h f s.tree dir name
  · have hleft : leftover h f s.tree dir name data = none := by rw [leftover, if_pos hremoves]
    have hold : ∀ q e, e ≠ .dir → s'.tree.entry q = some e → s.tree.entry q = some e := by
      intro q e hdir he
      rw [hentries, hleft] at he
      split at he
      · cases he
      · exact (hext.same hdir).mp he
    have hsettled : Settled s' := by
      refine ⟨?_, hrows ▸ hs.registered⟩
      rw [hroot]
      exact hs.ground.keep (fun q r => hold q _ (by simp)) fun n data => hold _ _ (by simp)
    have hoff : ∀ q e, q ≠ dir ++ [name ++ ".tmp"] → e ≠ .dir →
        (s'.tree.entry q = some e ↔ s.tree.entry q = some e) := by
      intro q e hne hdir
      rw [hentries, if_neg hne]
      exact hext.same hdir
    rcases tmp_cases hunder with hbelow | rfl
    · obtain ⟨hdisk, hothers⟩ := disk_off hroot hbelow hoff
      have hgone : size_at s'.tree (dir ++ [name ++ ".tmp"]) = 0 := by
        rw [size_at, hentries, if_pos rfl, hleft]
        rfl
      rw [hgone] at hdisk
      exact ⟨hsettled, ⟨hothers, fun other _ => hused other⟩, .inr (.raised hnot hremoves hdisk (hused _))⟩
    · -- beside the workspaces there was nothing
      have hnone : s.tree.entry (s.root ++ [name ++ ".tmp"]) = none := by
        cases hentry : s.tree.entry (s.root ++ [name ++ ".tmp"]) with
        | none => rfl
        | some e =>
            cases e with
            | dir => exact absurd hentry hremoves.1
            | file data => exact absurd hentry (hs.ground.floor _ data)
            | link r => exact absurd hentry (hs.ground.walled.no_link _ (List.prefix_append _ _) r)
      have hkept : Kept s s' := by
        refine ⟨fun other => ?_, hused⟩
        unfold disk
        rw [hroot]
        refine weigh_congr fun q e _ hsize => ?_
        by_cases hq : q = s.root ++ [name ++ ".tmp"]
        · rw [hentries, if_pos hq, hleft, hq, hnone]
        · exact hoff q e hq (file_of_size hsize)
      exact ⟨hsettled, hkept.only agent_id, .inl hkept⟩
  · have hnotopen : ¬ Opens h f s.tree dir name :=
      fun hopens => hremoves ⟨hopens.2.2, hcleans hopens, .inr hopens.2.1⟩
    have hsame : ∀ p, s'.tree.entry p = made.entry p := by
      intro p
      rw [hentries]
      split
      · rename_i hp
        rw [leftover, if_neg hremoves, if_neg hnotopen, hp, htmp]
      · rfl
    have hext' : Extends s.tree s'.tree := by
      intro p
      rw [hsame]
      exact hext p
    obtain ⟨hsettled, hkept⟩ := hs.made hroot hext' (hrows ▸ hs.registered) hused
    exact ⟨hsettled, hkept.only agent_id, .inl hkept⟩

/-- The temporary name is freed, and then the target changes. -/
theorem AfterMove.disk (hafter : AfterMove made s'.tree dir name data) (hext : Extends s.tree made)
    (hbelow : Below (s.root ++ [agent_id]) (dir ++ [name])) (hroot : s'.root = s.root)
    (hmoves : Moves h f s.tree dir name) :
    (∀ other, other ≠ agent_id → s'.disk other = s.disk other) ∧
      s'.disk agent_id + size_at s.tree (dir ++ [name]) + size_at s.tree (dir ++ [name ++ ".tmp"]) =
        s.disk agent_id + data.length := by
  have hne : dir ++ [name] ≠ dir ++ [name ++ ".tmp"] := by simpa using (tmp_ne name).symm
  have htmp : Below (s.root ++ [agent_id]) (dir ++ [name ++ ".tmp"]) := by
    rcases tmp_cases hbelow.1 with htmp | rfl
    · exact htmp
    · have hlen := hbelow.1.eq_of_length (by simp)
      exact absurd hlen.symm hbelow.2
  let freed : Storage := { s with tree := s.tree.remove (dir ++ [name ++ ".tmp"]) }
  have hfreed : ∀ q, freed.tree.entry q = if q = dir ++ [name ++ ".tmp"] then none else s.tree.entry q :=
    entry_remove s.tree hmoves.1.2.2
  have hoff₁ : ∀ q e, q ≠ dir ++ [name ++ ".tmp"] → e ≠ .dir →
      (freed.tree.entry q = some e ↔ s.tree.entry q = some e) := by
    intro q e hq _
    rw [hfreed, if_neg hq]
  have hoff₂ : ∀ q e, q ≠ dir ++ [name] → e ≠ .dir →
      (s'.tree.entry q = some e ↔ freed.tree.entry q = some e) := by
    intro q e hq hdir
    rw [hafter, if_neg hq, hfreed]
    split
    · rfl
    · exact hext.same hdir
  have hroot₁ : freed.root = s.root := rfl
  have hroot₂ : s'.root = freed.root := hroot
  obtain ⟨hdisk₁, hothers₁⟩ := disk_off hroot₁ htmp hoff₁
  obtain ⟨hdisk₂, hothers₂⟩ := disk_off hroot₂ hbelow hoff₂
  have hfree : size_at freed.tree (dir ++ [name ++ ".tmp"]) = 0 := by
    rw [size_at, hfreed, if_pos rfl]
    rfl
  have hsame : size_at freed.tree (dir ++ [name]) = size_at s.tree (dir ++ [name]) := by
    rw [size_at, hfreed, if_neg hne, size_at]
  have hdata : size_at s'.tree (dir ++ [name]) = data.length := by
    rw [size_at, hafter, if_pos rfl]
    rfl
  constructor
  · intro other hother
    rw [hothers₂ other hother, hothers₁ other hother]
  · simp only [hfree, hsame, hdata] at hdisk₁ hdisk₂
    omega

/-- The move makes no link, and no file at the level of the workspaces. -/
theorem AfterMove.ground (hafter : AfterMove made s'.tree dir name data) (hext : Extends s.tree made)
    (hbelow : Below (s.root ++ [agent_id]) (dir ++ [name])) (hs : Ground s.tree s.root) : Ground s'.tree s.root := by
  refine hs.keep (fun q r hlink => ?_) fun n part hfile => ?_
  · rw [hafter] at hlink
    split at hlink
    · cases hlink
    · split at hlink
      · cases hlink
      · exact (hext.same (by simp)).mp hlink
  · -- the target is below the level of the workspaces
    rw [hafter, if_neg] at hfile
    · split at hfile
      · cases hfile
      · exact (hext.same (by simp)).mp hfile
    · intro heq
      have hlen := hbelow.1.eq_of_length (by simp [← heq])
      exact hbelow.2 hlen.symm

/-- A write that moves its file. -/
theorem stored_effect (hs : Settled s) (hbelow : Below (s.root ++ [agent_id]) (dir ++ [name]))
    (hext : Extends s.tree made) (hroot : s'.root = s.root) (hrow : s.row agent_id = some row)
    (hrows : s'.rows = if f.record then s.rows else
      (s.set_used agent_id fun _ => row.used_bytes - size_at s.tree (dir ++ [name]) + data.length).rows)
    (hmoves : Moves h f s.tree dir name) (hafter : AfterMove made s'.tree dir name data) :
    Settled s' ∧ Only agent_id s s' ∧ Wrote h f s s' agent_id data dir name := by
  obtain ⟨hothers, hdisk⟩ := hafter.disk hext hbelow hroot hmoves
  have hcount : s.used agent_id = row.used_bytes := by
    rw [used_eq]
    unfold Storage.row at hrow
    rw [hrow]
    rfl
  have hused := used_set_unless hrows
  rw [hrow, hcount] at hused
  refine ⟨⟨?_, ?_⟩, ⟨hothers, fun other hother => ?_⟩, .stored hmoves hdisk ?_⟩
  · rw [hroot]
    exact hafter.ground hext hbelow hs.ground
  · rw [hrows]
    split
    · exact hs.registered
    · exact hs.registered.update_key fun _ => rfl
  · rw [hused, if_neg (Ne.symm hother)]
  · rw [hused, if_pos rfl, hcount]
    rfl

/-- **Writing.** Nothing happens to the numbers, or the write gets to its temporary file. -/
theorem write_effect (hs : Settled s) (hvalid : valid_workspace_id agent_id = true)
    (hcleans : Cleans h f s agent_id relative_path data) :
    Settled (write h f agent_id relative_path data s).2 ∧
      Only agent_id s (write h f agent_id relative_path data s).2 ∧
      (Kept s (write h f agent_id relative_path data s).2 ∨
        ∃ dir name row made dirs, Gets h f s agent_id relative_path data dir name row made dirs ∧
          Wrote h f s (write h f agent_id relative_path data s).2 agent_id data dir name) := by
  obtain ⟨hroot, -⟩ := write_frame h f agent_id relative_path data s
  by_cases hgets : ∃ dir name row made dirs,
      Gets h f s agent_id relative_path data dir name row made dirs
  · obtain ⟨dir, name, row, made, dirs, hg⟩ := hgets
    obtain ⟨hunder, -⟩ := hs.target_in hvalid hg.resolved
    have hplain := hs.ground.walled.plain (Walled.dir_below hunder) name
    have hext := (mkdirs_spec hg.made).1
    obtain ⟨htree, hrows, -, -⟩ := write_stores (f := f) hg.resolved hg.probed hg.began hg.has_row hg.within
    generalize write h f agent_id relative_path data s = out at hroot htree hrows ⊢
    obtain ⟨result, s'⟩ := out
    simp only at hroot htree hrows ⊢
    rcases hplain.stored data hg.mkdir hg.made with
      ⟨e, hresult, hnot, hentries⟩ | ⟨hresult, hmoves, hentries⟩
    · rw [← htree] at hentries
      rw [hresult, if_neg (by simp)] at hrows
      obtain ⟨hsettled, honly, hwrote⟩ := raised_effect hs hunder hext hroot hrows hnot
        (fun hopens => hcleans dir name row made dirs hg hopens hnot) hentries (hplain.made_entry hg.made _)
      exact ⟨hsettled, honly, hwrote.imp_right fun hw => ⟨dir, name, row, made, dirs, hg, hw⟩⟩
    · rw [← htree] at hentries
      have hrows' : s'.rows = if f.record then s.rows else (s.set_used agent_id
          fun _ => row.used_bytes - size_at s.tree (dir ++ [name]) + data.length).rows := by
        rw [hrows, hresult, existing_size_eq h hplain.straight hmoves.2.2.2]
        cases f.record <;> rfl
      obtain ⟨hsettled, honly, hwrote⟩ := stored_effect hs
        (hs.target_below hvalid hg.resolved hmoves.2.2.2) hext hroot hg.has_row hrows' hmoves hentries
      exact ⟨hsettled, honly, .inr ⟨dir, name, row, made, dirs, hg, hwrote⟩⟩
  · push Not at hgets
    obtain ⟨-, htree, hrows⟩ := write_not_gets (hs.housed hvalid) hgets
    have hext : Extends s.tree (write h f agent_id relative_path data s).2.tree := by
      rw [htree]
      exact .refl _
    obtain ⟨hsettled, hkept⟩ := hs.made hroot hext (hrows ▸ hs.registered) (used_congr hrows)
    exact ⟨hsettled, hkept.only agent_id, .inl hkept⟩

end Wrote

end Storage

end CompanyFactory
