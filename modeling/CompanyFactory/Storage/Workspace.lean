import Mathlib.Data.List.Sort
import CompanyFactory.Storage.Models

/-!
# `Storage.Workspace` — the operations on agent workspaces

`_resolve` turns an agent id and a relative path into an absolute path, and each operation then works on
that path. An operation changes the tree at once and the tables inside one transaction: when it raises, the
tables are as before and the tree is as far as the operation got.

Three functions carry the parts of `write`: `probe` (no link in the path as it is written), `store_file`
(the temporary sibling, the rename over the target, and the clean-up when an `OSError` is raised), and
`write_locked` (the quota check and the bookkeeping around it).
-/

namespace CompanyFactory

open FileTree

namespace Storage

/-- `Workspace._agent_dir` -/
def agent_dir (s : Storage) (agent_id : String) : List (Step String) :=
  join_path (names s.root) agent_id

/-- `Workspace._resolve` -/
def resolve (h : Host String UInt8) (s : Storage) (agent_id relative_path : String) :
    Except StorageError FsPath :=
  if relative_path = "" then .error (.PathOutsideWorkspace .empty)
  else if is_absolute relative_path || relative_path.toList.head? = some '\\' then
    .error (.PathOutsideWorkspace (.absolute relative_path))
  else match h.follow s.tree (s.agent_dir agent_id) with
    | .error _ => .error (.WorkspaceNotInitialized agent_id)
    | .ok base_real =>
      match h.realpath s.tree (s.agent_dir agent_id ++ parts relative_path) with
      | none => .error (.ValueError "embedded null byte")
      | some resolved =>
        if base_real <+: resolved then .ok resolved
        else .error (.PathOutsideWorkspace (.outside relative_path))

/-- Is there a link in the path as it is written? -/
def probe (h : Host String UInt8) (s : Storage) (agent_id relative_path : String) : Bool :=
  (parts relative_path).inits.tail.any
    fun front => h.is_symlink s.tree (s.agent_dir agent_id ++ front)

/-- The `st_size` of an entry that is no link. -/
def st_size (h : Host String UInt8) (t : Tree) (p : FsPath) : Nat :=
  match t.entry p with
  | some (.file data) => data.length
  | _ => h.dir_bytes t p

/-- `target.stat().st_size if target.exists() else 0` -/
def existing_size (h : Host String UInt8) (t : Tree) (target : FsPath) : Nat :=
  match h.follow t (names target) with
  | .ok p => st_size h t p
  | .error _ => 0

/-- What `target.stat()` looks at. -/
def stat_touches (h : Host String UInt8) (t : Tree) (target : FsPath) : List FsPath :=
  match h.follow t (names target) with
  | .ok p => [p]
  | .error _ => []

/-! ## Writing -/

/-- `target.with_name(target.name + ".tmp")` -/
def tmp_path (target : FsPath) : FsPath :=
  target.dropLast ++ [target.getLastD "" ++ ".tmp"]

/-- The body of the `try` statement: the temporary file, then the rename. -/
def write_replace (h : Host String UInt8) (f : Faults) (t : Tree) (target : FsPath) (data : Bytes) :
    Except StorageError Unit × Tree × List FsPath :=
  match if f.open_tmp then .error .failed else h.place t (tmp_path target) with
  | .error e => (.error (.of_errno e), t, [])
  | .ok place =>
    match f.short with
    | some n => (.error (.os .failed), t.put place (.file (data.take n)), [place])
    | none =>
      let written := t.put place (.file data)
      match if f.replace then .error .failed else h.replace written (tmp_path target) target with
      | .error e => (.error (.os e), written, [place])
      | .ok (src, dst, replaced) => (.ok (), replaced, [place, src, dst])

/-- `if tmp_path.exists(): with suppress(OSError): tmp_path.unlink()` -/
def clean_up (h : Host String UInt8) (f : Faults) (t : Tree) (target : FsPath) : Tree × List FsPath :=
  match h.stat t (names (tmp_path target)) with
  | none => (t, [])
  | some _ =>
    match if f.unlink then .error .failed else h.unlink t (tmp_path target) with
    | .error _ => (t, [])
    | .ok (gone, t') => (t', [gone])

/-- The file system part of `write`. -/
def store_file (h : Host String UInt8) (f : Faults) (t : Tree) (target : FsPath) (data : Bytes) :
    Except StorageError Unit × Tree × List FsPath :=
  match if f.mkdir then .error .failed else h.mkdirs t target.dropLast with
  | .error e => (.error (.of_errno e), t, [])
  | .ok (made, dirs) =>
    if target = [] then (.error (.ValueError "PosixPath('/') has an empty name"), made, dirs)
    else match write_replace h f made target data with
      | (.ok (), t', touched) => (.ok (), t', dirs ++ touched)
      | (.error (.os e), t', touched) =>
        let cleaned := clean_up h f t' target
        (.error (.os e), cleaned.1, dirs ++ touched ++ cleaned.2)
      -- a null byte in the name is a ValueError, which `except OSError` does not catch
      | (.error e, t', touched) => (.error e, t', dirs ++ touched)

/-- `UPDATE workspaces SET used_bytes = … WHERE agent_id = …` -/
def set_used (s : Storage) (agent_id : String) (used : Int → Int) : Storage :=
  { s with
    rows := Table.update WorkspaceRow.agent_id agent_id
      (fun row => { row with used_bytes := used row.used_bytes }) s.rows }

/-- The transaction of `write`. -/
def write_locked (h : Host String UInt8) (f : Faults) (agent_id : String) (target : FsPath)
    (data : Bytes) : Act Storage StorageError WriteResult := fun s =>
  if f.begin_tx then (.error .database, s)
  else match s.row agent_id with
    | none => (.error (.WorkspaceNotInitialized agent_id), s)
    | some row =>
      let existing_size : Int := existing_size h s.tree target
      let new_agent_used := row.used_bytes - existing_size + data.length
      let new_company_used := s.company_used - existing_size + data.length
      let s := s.touch (stat_touches h s.tree target)
      if new_agent_used > row.quota_bytes then
        (.error (.QuotaExceeded_agent agent_id new_agent_used row.quota_bytes),
          s.emit (.quota_exceeded_agent agent_id row.quota_bytes new_agent_used))
      else if new_company_used > s.company_limit then
        (.error (.QuotaExceeded_company new_company_used s.company_limit),
          s.emit (.quota_exceeded_company s.company_limit new_company_used))
      else match store_file h f s.tree target data with
        | (.error e, tree, touched) => (.error e, { s with tree }.touch touched)
        | (.ok (), tree, touched) =>
          let stored := { s with tree }.touch touched
          if f.record then (.error .database, stored)
          else
            let done := stored.set_used agent_id fun _ => new_agent_used
            let crossed_warning := row.quota_bytes > 0 ∧ 10 * row.used_bytes < 9 * row.quota_bytes ∧
              10 * new_agent_used ≥ 9 * row.quota_bytes
            (.ok
              { bytes_written := data.length
                company_remaining := s.company_limit - new_company_used
                agent_remaining := row.quota_bytes - new_agent_used },
              if crossed_warning then
                done.emit (.quota_warning agent_id new_agent_used row.quota_bytes)
              else done)

/-- `Workspace.write` -/
def write (h : Host String UInt8) (f : Faults) (agent_id relative_path : String) (data : Bytes) :
    Act Storage StorageError WriteResult := fun s =>
  match s.resolve h agent_id relative_path with
  | .error e => (.error e, s)
  | .ok target =>
    if s.probe h agent_id relative_path then
      (.error (.PathOutsideWorkspace (.symlink relative_path)), s)
    else write_locked h f agent_id target data s

/-! ## Reading -/

/-- `Workspace.read_own` -/
def read_own (h : Host String UInt8) (agent_id relative_path : String) :
    Act Storage StorageError Bytes := fun s =>
  match s.resolve h agent_id relative_path with
  | .error e => (.error e, s)
  | .ok target =>
    match h.follow s.tree (names target) with
    | .error _ => (.error (.FileNotFoundError relative_path), s)
    | .ok p =>
      match s.tree.entry p with
      | some (.file data) => (.ok data, s.touch [p])
      | _ => (.error (.FileNotFoundError relative_path), s)

/-- `Workspace.read_subordinate`; `can_read` is `IdentityProvider.can_read_workspace`. -/
def read_subordinate (h : Host String UInt8) (can_read : String → String → Bool)
    (reader_id owner_id relative_path : String) : Act Storage StorageError Bytes := fun s =>
  if can_read reader_id owner_id then read_own h owner_id relative_path s
  else (.error (.PermissionDenied reader_id owner_id), s)

/-- The names in a directory, sorted. -/
def entries (t : Tree) (d : FsPath) : List String :=
  (t.rows.filterMap fun row => if row.1.dropLast = d then row.1.getLast? else none).insertionSort
    fun a b => a ≤ b

/-- `relative_to(base_real).as_posix()` -/
def as_posix : FsPath → String
  | [] => "."
  | p => String.intercalate "/" p

/-- The loop of `list` over the entries of `target`. -/
def list_loop (h : Host String UInt8) (t : Tree) (base_real : FsPath) (target : List (Step String)) :
    List String → Except StorageError (List FileMeta) × List FsPath
  | [] => (.ok [], [])
  | name :: rest =>
    match h.follow t (target ++ [.into name]) with
    | .error e => (.error (.os e), [])
    | .ok p =>
      match h.realpath t (target ++ [.into name]) with
      | none => (.error (.ValueError "embedded null byte"), [p])
      | some resolved =>
        if base_real <+: resolved then
          let file_meta : FileMeta :=
            { relative_path := as_posix (resolved.drop base_real.length)
              size := st_size h t p
              is_dir := decide (t.entry p = some .dir) }
          let others := list_loop h t base_real target rest
          (others.1.map (file_meta :: ·), p :: others.2)
        else (.error (.ValueError "is not in the subpath"), [p])

/-- The directory that `list` lists. -/
def list_target (h : Host String UInt8) (s : Storage) (agent_id relative_path : String) :
    Except StorageError (List (Step String)) :=
  if relative_path = "" then .ok (s.agent_dir agent_id)
  else (s.resolve h agent_id relative_path).map names

/-- `Workspace.list` -/
def list (h : Host String UInt8) (agent_id relative_path : String) :
    Act Storage StorageError (List FileMeta) := fun s =>
  match h.follow s.tree (s.agent_dir agent_id) with
  | .error _ => (.error (.WorkspaceNotInitialized agent_id), s)
  | .ok base_real =>
    match s.list_target h agent_id relative_path with
    | .error e => (.error e, s)
    | .ok target =>
      match h.follow s.tree target with
      | .error _ => (.error (.NotADirectoryError relative_path), s)
      | .ok d =>
        if s.tree.entry d = some .dir then
          let (listed, touched) := list_loop h s.tree base_real target (entries s.tree d)
          (listed, s.touch (d :: touched))
        else (.error (.NotADirectoryError relative_path), s)

/-! ## Deleting -/

/-- `Workspace.delete` -/
def delete (h : Host String UInt8) (f : Faults) (agent_id relative_path : String) :
    Act Storage StorageError Unit := fun s =>
  match s.resolve h agent_id relative_path with
  | .error e => (.error e, s)
  | .ok target =>
    match h.follow s.tree (names target) with
    | .error _ => (.error (.FileNotFoundError relative_path), s)
    | .ok p =>
      if s.tree.entry p = some .dir then (.error (.IsADirectoryError relative_path), s)
      else if f.begin_tx then (.error .database, s)
      else
        let size := st_size h s.tree p
        match if f.unlink then .error .failed else h.unlink s.tree target with
        | .error e => (.error (.os e), s.touch [p])
        | .ok (gone, tree) =>
          let unlinked := { s with tree }.touch [p, gone]
          if f.record then (.error .database, unlinked)
          else (.ok (), unlinked.set_used agent_id fun used => max (used - size) 0)

/-! ## Lifecycle -/

/-- `mkdir(parents=True, exist_ok=True)` of an agent's directory. -/
def make_dir (h : Host String UInt8) (f : Faults) (agent_id : String) (s : Storage) :
    Except StorageError Storage :=
  match if f.mkdir then .error .failed else h.mkdirs s.tree (s.root ++ [agent_id]) with
  | .error e => .error (.of_errno e)
  | .ok (tree, made) => .ok ({ s with tree }.touch made)

/-- The directory is made inside the transaction that changed the rows. -/
def provision (h : Host String UInt8) (f : Faults) (agent_id : String) (rows : List WorkspaceRow) :
    Act Storage StorageError Unit := fun s =>
  match s.make_dir h f agent_id with
  | .error e => (.error e, s)
  | .ok made => if f.record then (.error .database, made) else (.ok (), { made with rows })

/-- `Workspace.create_for_agent` -/
def create_for_agent (h : Host String UInt8) (f : Faults) (agent_id : String) (quota_mb : Int) :
    Act Storage StorageError Unit := fun s =>
  if quota_mb < 0 then (.error (.ValueError "quota_mb must be non-negative"), s)
  else if !valid_workspace_id agent_id then (.error (.invalid_agent_id agent_id), s)
  else if f.begin_tx then (.error .database, s)
  else match s.row agent_id with
    | some _ => (.error .integrity, s)
    | none => provision h f agent_id (s.rows ++ [⟨agent_id, quota_mb * 1024 * 1024, 0⟩]) s

/-- `Workspace.ensure_for_agent` -/
def ensure_for_agent (h : Host String UInt8) (f : Faults) (agent_id : String) (quota_mb : Int) :
    Act Storage StorageError Unit := fun s =>
  if quota_mb < 0 then (.error (.ValueError "quota_mb must be non-negative"), s)
  else if !valid_workspace_id agent_id then (.error (.invalid_agent_id agent_id), s)
  else if f.begin_tx then (.error .database, s)
  else match s.row agent_id with
    | none => provision h f agent_id (s.rows ++ [⟨agent_id, quota_mb * 1024 * 1024, 0⟩]) s
    | some _ =>
      provision h f agent_id (Table.update WorkspaceRow.agent_id agent_id
        (fun row => { row with quota_bytes := quota_mb * 1024 * 1024 }) s.rows) s

/-- `Workspace.delete_for_agent`; `rmtree` takes no link and no file. -/
def delete_for_agent (h : Host String UInt8) (f : Faults) (agent_id : String) :
    Act Storage StorageError Unit := fun s =>
  let gone : Storage := { s with rows := s.rows.filter fun row => row.agent_id ≠ agent_id }
  if f.begin_tx then (.error .database, s)
  else match h.stat s.tree (s.agent_dir agent_id) with
    | none => if f.record then (.error .database, s) else (.ok (), gone)
    | some _ =>
      match h.slot s.tree (s.agent_dir agent_id) with
      | .error e => (.error (.os e), s)
      | .ok d =>
        if s.tree.entry d = some .dir then
          let removed : Storage := { s with tree := s.tree.prune d f.stuck }.touch [d]
          if (removed.tree.entry d).isSome then (.error (.os .failed), removed)
          else if f.record then (.error .database, removed)
          else (.ok (), { removed with rows := gone.rows })
        else (.error (.os .ENOTDIR), s)

/-! ## Quotas -/

/-- What `os.walk` finds at an entry: files, and links that lead to one. -/
def walk_size (h : Host String UInt8) (t : Tree) (p : FsPath) : Entry String UInt8 → Nat
  | .file data => data.length
  | .dir => 0
  | .link _ => match h.stat t (names p) with
    | some (.file data) => data.length
    | _ => 0

/-- `Workspace._dir_size` -/
def dir_size (h : Host String UInt8) (t : Tree) (path : List (Step String)) : Nat :=
  match h.follow t path with
  | .error _ => 0
  | .ok d => if t.entry d = some .dir then t.weigh d (walk_size h t) else 0

/-- `Workspace.reconcile_quota` -/
def reconcile_quota (h : Host String UInt8) (f : Faults) :
    Act Storage StorageError (List (String × Int)) := fun s =>
  let actual (row : WorkspaceRow) : Int := dir_size h s.tree (s.agent_dir row.agent_id)
  let drift := (s.rows.filter fun row => row.used_bytes ≠ actual row).map
    fun row => (row.agent_id, actual row - row.used_bytes)
  if f.begin_tx || f.record then (.error .database, s)
  else
    (.ok drift,
      { s with
        rows := s.rows.map fun row => { row with used_bytes := actual row }
        signals := s.signals ++ drift.map fun d => .quota_drift d.1 d.2 })

/-- `Quota.set_limit` -/
def set_limit (f : Faults) (scope : QuotaScope) (mb : Int) : Act Storage StorageError Unit := fun s =>
  if mb < 0 then (.error (.ValueError "mb must be non-negative"), s)
  else if f.begin_tx || f.record then (.error .database, s)
  else match scope with
    | .CompanyQuota => (.ok (), { s with company_quota := s.company_quota.map fun _ => mb * 1024 * 1024 })
    | .AgentQuota agent_id =>
      match s.row agent_id with
      | none => (.error (.WorkspaceNotInitialized agent_id), s)
      | some _ =>
        (.ok (),
          { s with
            rows := Table.update WorkspaceRow.agent_id agent_id
              (fun row => { row with quota_bytes := mb * 1024 * 1024 }) s.rows })

end Storage

end CompanyFactory
