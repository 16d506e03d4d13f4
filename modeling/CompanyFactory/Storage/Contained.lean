import CompanyFactory.Storage.Store

/-!
# `Storage.Contained` — what an operation can reach outside a workspace

The directory of a workspace is the entry of its agent under the workspaces root (`home`); an id that
`_validate_workspace_id` refuses has none. An operation is contained if every entry it creates, writes,
reads or removes is in that directory, whatever system calls fail on the way.

`Confined` is the condition under which that holds, a condition on the state before the operation. It rests
on one fact: a path that `_resolve` accepts and that runs into no loop of links meets no link at all, so the
operation works on the path itself. Five things are left out by it:

* an id that is no workspace id, since only `create_for_agent` and `ensure_for_agent` validate it;
* a loop of links, after which `realpath` hands on a text that may go through another link;
* a path that names the workspace directory itself, whose temporary file is its sibling;
* a link at the temporary name, which `write_bytes` follows;
* a link to something outside in a directory that is listed, since `list` calls `stat` first.
-/

namespace CompanyFactory

open FileTree

namespace Storage

/-- The directory of an agent's workspace, if it is there. -/
def home (h : Host String UInt8) (s : Storage) (agent_id : String) : Option FsPath :=
  if valid_workspace_id agent_id then
    match h.follow s.tree (names s.root) with
    | .ok r => if s.tree.entry (r ++ [agent_id]) = some .dir then some (r ++ [agent_id]) else none
    | .error _ => none
  else none

/-- The entry is the directory of the agent's workspace, or in it. -/
def Inside (h : Host String UInt8) (s : Storage) (agent_id : String) (p : FsPath) : Prop :=
  ∃ d, s.home h agent_id = some d ∧ d <+: p

instance (h : Host String UInt8) (s : Storage) (agent_id : String) (p : FsPath) :
    Decidable (Inside h s agent_id p) :=
  match hhome : s.home h agent_id with
  | none => isFalse (by rintro ⟨d, hd, -⟩; rw [hhome] at hd; cases hd)
  | some d =>
    if hunder : d <+: p then isTrue ⟨d, hhome, hunder⟩
    else isFalse (by rintro ⟨d', hd, hd'⟩; rw [hhome] at hd; cases hd; exact hunder hd')

/-- `realpath` meets no loop of links. -/
def Unlooped (h : Host String UInt8) (s : Storage) (agent_id relative_path : String) : Prop :=
  ¬ h.Loops s.tree (s.agent_dir agent_id ++ parts relative_path)

theorem home_some {h : Host String UInt8} {s : Storage} {agent_id : String} {d : FsPath}
    (hhome : s.home h agent_id = some d) :
    valid_workspace_id agent_id = true ∧ ∃ r, h.follow s.tree (names s.root) = .ok r ∧
      s.tree.entry d = some .dir ∧ d = r ++ [agent_id] := by
  unfold home at hhome
  split at hhome
  · rename_i hvalid
    split at hhome
    · rename_i r hroot
      split at hhome
      · rename_i hdir
        cases hhome
        exact ⟨hvalid, r, hroot, hdir, rfl⟩
      · cases hhome
    · cases hhome
  · cases hhome

theorem home_entry {h : Host String UInt8} {s : Storage} {agent_id : String} {d : FsPath}
    (hhome : s.home h agent_id = some d) : s.tree.entry d = some .dir := by
  obtain ⟨-, r, -, hdir, -⟩ := home_some hhome
  exact hdir

/-- The agent's directory is where `_agent_dir` leads. -/
theorem follow_home {h : Host String UInt8} {s : Storage} {agent_id : String} {d : FsPath}
    (hhome : s.home h agent_id = some d) : h.follow s.tree (s.agent_dir agent_id) = .ok d := by
  obtain ⟨hvalid, r, hroot, hd, rfl⟩ := home_some hhome
  obtain ⟨hrelative, hparts⟩ := parts_valid hvalid
  have hr : s.tree.entry r = some .dir := by
    have hparent := entry_parent hd
    rwa [List.dropLast_concat] at hparent
  unfold agent_dir join_path
  rw [hrelative, hparts]
  unfold Host.follow at hroot ⊢
  rw [if_neg (by simp), walk_append, hroot]
  show s.tree.walk h.limit r [.into agent_id] = _
  rw [walk_into hr, hd]

theorem resolve_ok {h : Host String UInt8} {s : Storage} {agent_id relative_path : String}
    {target : FsPath} (hres : s.resolve h agent_id relative_path = .ok target) :
    ∃ base_real, h.follow s.tree (s.agent_dir agent_id) = .ok base_real ∧
      h.realpath s.tree (s.agent_dir agent_id ++ parts relative_path) = some target ∧
      base_real <+: target := by
  unfold resolve at hres
  split at hres
  · cases hres
  · split at hres
    · cases hres
    · split at hres
      · cases hres
      · rename_i base_real hbase
        split at hres
        · cases hres
        · rename_i resolved hreal
          split at hres
          · rename_i hunder
            cases hres
            exact ⟨base_real, hbase, hreal, hunder⟩
          · cases hres

/-- What `_resolve` accepts in an agent's workspace is in its directory, as a text. -/
theorem resolve_home {h : Host String UInt8} {s : Storage} {agent_id relative_path : String}
    {target d : FsPath} (hres : s.resolve h agent_id relative_path = .ok target)
    (hhome : s.home h agent_id = some d) : d <+: target := by
  obtain ⟨base_real, hbase, -, hunder⟩ := resolve_ok hres
  rw [follow_home hhome] at hbase
  cases hbase
  exact hunder

theorem resolve_straight {h : Host String UInt8} {s : Storage} {agent_id relative_path : String}
    {target : FsPath} (hres : s.resolve h agent_id relative_path = .ok target)
    (hunlooped : Unlooped h s agent_id relative_path) : s.tree.Straight target := by
  obtain ⟨base_real, -, hreal, -⟩ := resolve_ok hres
  exact realpath_straight hreal hunlooped

/-! ## Operations and what they touch -/

inductive FileOp where
  | read_own (relative_path : String)
  | list (relative_path : String)
  | write (relative_path : String) (data : Bytes)
  | delete (relative_path : String)

/-- The state after an operation, whether it returned or raised. -/
def FileOp.run (h : Host String UInt8) (f : Faults) (agent_id : String) (s : Storage) : FileOp → Storage
  | .read_own relative_path => (Storage.read_own h agent_id relative_path s).2
  | .list relative_path => (Storage.list h agent_id relative_path s).2
  | .write relative_path data => (Storage.write h f agent_id relative_path data s).2
  | .delete relative_path => (Storage.delete h f agent_id relative_path s).2

/-- The entries that an operation touches. -/
def FileOp.touches (h : Host String UInt8) (f : Faults) (agent_id : String) (s : Storage)
    (op : FileOp) : List FsPath := (op.run h f agent_id s).touched.drop s.touched.length

/-- The entry at `p` is found without a loop of links in the workspace of the agent, or it is inside. -/
def Reached (h : Host String UInt8) (s : Storage) (agent_id relative_path : String) (p : FsPath) : Prop :=
  ((s.home h agent_id).isSome ∧ Unlooped h s agent_id relative_path) ∨ Inside h s agent_id p

/-! ## Reading and deleting -/

theorem slot_straight {h : Host String UInt8} {t : Tree} {p q : FsPath} (hstraight : t.Straight p)
    (hslot : h.slot t (names p) = .ok q) : q = p := by
  induction p using List.reverseRecOn with
  | nil =>
      have hroot : h.follow t (names []) = .ok [] := walk_nil _ _ _
      have hq : h.follow t (names []) = .ok q := hslot
      rw [hroot] at hq
      cases hq
      rfl
  | append_singleton p n _ =>
      unfold Host.slot at hslot
      rw [names_concat, List.getLast?_concat, List.dropLast_concat] at hslot
      simp only at hslot
      split at hslot
      · rename_i d hfollow
        split at hslot
        · cases hslot
          rw [follow_straight_eq (hstraight.front (List.prefix_append p [n])) hfollow]
        · cases hslot
      · cases hslot

/-- An entry that is reached through a path `_resolve` accepted is inside. -/
theorem Reached.inside {h : Host String UInt8} {s : Storage} {agent_id relative_path : String}
    {target p : FsPath} (hreached : Reached h s agent_id relative_path p)
    (hres : s.resolve h agent_id relative_path = .ok target)
    (hp : s.tree.Straight target → p = target) : Inside h s agent_id p := by
  rcases hreached with ⟨hsome, hunlooped⟩ | hinside
  · obtain ⟨d, hd⟩ := Option.isSome_iff_exists.mp hsome
    rw [hp (resolve_straight hres hunlooped)]
    exact ⟨d, hd, resolve_home hres hd⟩
  · exact hinside

/-- The loop of `list` goes on after this entry. -/
def Passes (h : Host String UInt8) (t : Tree) (base_real : FsPath) (target : List (Step String))
    (name : String) : Prop :=
  ∃ p resolved, h.follow t (target ++ [.into name]) = .ok p ∧
    h.realpath t (target ++ [.into name]) = some resolved ∧ base_real <+: resolved

/-- The quota check of `write` lets the data through. -/
def WithinQuota (h : Host String UInt8) (s : Storage) (row : WorkspaceRow) (target : FsPath)
    (data : Bytes) : Prop :=
  row.used_bytes - existing_size h s.tree target + data.length ≤ row.quota_bytes ∧
    s.company_used - existing_size h s.tree target + data.length ≤ s.company_limit

instance (h : Host String UInt8) (s : Storage) (row : WorkspaceRow) (target : FsPath) (data : Bytes) :
    Decidable (WithinQuota h s row target data) := by
  unfold WithinQuota
  infer_instance

theorem Inside.below {h : Host String UInt8} {s : Storage} {agent_id : String} {p q : FsPath}
    (hinside : Inside h s agent_id p) (hpq : p <+: q) : Inside h s agent_id q := by
  obtain ⟨d, hd, hunder⟩ := hinside
  exact ⟨d, hd, hunder.trans hpq⟩

/-- An entry in a directory is inside only if the directory is, or if it is the workspace itself. -/
theorem Inside.parent {h : Host String UInt8} {s : Storage} {agent_id name : String} {d : FsPath}
    (hinside : Inside h s agent_id (d ++ [name])) (hdir : s.tree.entry (d ++ [name]) ≠ some .dir) :
    Inside h s agent_id d := by
  obtain ⟨b, hb, hunder⟩ := hinside
  rcases List.prefix_concat_iff.mp hunder with heq | hd
  · exact absurd (heq ▸ home_entry hb) hdir
  · exact ⟨b, hb, hd⟩

end Storage

end CompanyFactory
