import Mathlib.Data.List.Infix
import CompanyFactory.Lib.Effect
import CompanyFactory.Lib.Files
import Mathlib.Algebra.Ring.Int.Defs

/-!
# `Storage.Models` — what the workspaces of a company are made of

The state of one company's storage: the file tree of the host, the `workspaces` table, the company's row
of `company_quota`, and the signals passed to the event sink. `touched` is not a variable of the program:
it collects every entry that an operation creates, writes, reads or removes, under its own path. Looking a
name up while a path is resolved is not counted.

A path is text until `parts` takes it apart the way `pathlib` does: components that are empty or `.` are
dropped, `..` stays.

`Faults` says which calls fail during one operation, besides those that the state of the tree makes fail.
-/

namespace CompanyFactory

open FileTree

abbrev Bytes := List UInt8

/-- A path of names from the root of the file system. -/
abbrev FsPath := List String

abbrev Tree := FileTree String UInt8

/-- The host of a company: no name has a null byte. -/
def fs_host (limit : Nat) (dir_bytes : Tree → FsPath → Nat) : Host String UInt8 :=
  { limit, refused := fun name => name.toList.contains '\x00', dir_bytes }

def PROJECT_WORKSPACE_ID : String := "__project__"

/-! ## Errors -/

/-- Why a path is refused. -/
inductive PathRefusal where
  | empty
  | absolute (relative_path : String)
  | outside (relative_path : String)
  | symlink (relative_path : String)
  deriving DecidableEq, Repr

inductive StorageError where
  | QuotaExceeded_agent (agent_id : String) (would_use limit : Int)
  | QuotaExceeded_company (would_use limit : Int)
  | PermissionDenied (reader_id owner_id : String)
  | PathOutsideWorkspace (why : PathRefusal)
  | WorkspaceNotInitialized (agent_id : String)
  | ValueError (message : String)
  | invalid_agent_id (agent_id : String)
  | FileNotFoundError (path : String)
  | IsADirectoryError (path : String)
  | NotADirectoryError (path : String)
  /-- an `OSError` of a system call -/
  | os (errno : Errno)
  /-- `sqlite3.IntegrityError` -/
  | integrity
  /-- any other `sqlite3.Error` -/
  | database
  deriving DecidableEq, Repr

/-- What Python raises for a failed system call. -/
def StorageError.of_errno : Errno → StorageError
  | .EINVAL => .ValueError "embedded null byte"
  | e => .os e

def PathRefusal.message (repr : String → String) : PathRefusal → String
  | .empty => "relative_path must be non-empty"
  | .absolute relative_path => "absolute path not allowed: " ++ repr relative_path
  | .outside relative_path => repr relative_path ++ " resolves outside workspace"
  | .symlink relative_path => "symlink writes are forbidden: " ++ repr relative_path

/-- The text of an error that the module itself raises. -/
def StorageError.message (repr : String → String) : StorageError → String
  | .QuotaExceeded_agent agent_id would_use limit =>
      "agent " ++ repr agent_id ++ ": " ++ toString would_use ++ " > " ++ toString limit
  | .QuotaExceeded_company would_use limit =>
      "company: " ++ toString would_use ++ " > " ++ toString limit
  | .PermissionDenied reader_id owner_id =>
      repr reader_id ++ " may not read workspace of " ++ repr owner_id
  | .PathOutsideWorkspace why => why.message repr
  | .WorkspaceNotInitialized agent_id => agent_id
  | .ValueError message => message
  | .invalid_agent_id agent_id => "invalid agent_id: " ++ repr agent_id
  | .FileNotFoundError path | .IsADirectoryError path | .NotADirectoryError path => path
  | .os _ | .integrity | .database => ""

/-! ## State -/

/-- A row of `workspaces`. -/
structure WorkspaceRow where
  agent_id : String
  quota_bytes : Int
  used_bytes : Int
  deriving DecidableEq, Repr

/-- What is passed to `EventSink.emit`. -/
inductive QuotaSignal where
  | quota_exceeded_agent (agent_id : String) (limit would_use : Int)
  | quota_exceeded_company (limit would_use : Int)
  /-- with the ratio `used / limit` -/
  | quota_warning (agent_id : String) (used limit : Int)
  | quota_drift (agent_id : String) (drift_bytes : Int)
  deriving DecidableEq, Repr

structure WriteResult where
  bytes_written : Nat
  /-- in bytes; the source divides by 1024 * 1024 -/
  company_remaining : Int
  agent_remaining : Int
  deriving DecidableEq, Repr

structure FileMeta where
  relative_path : String
  size : Nat
  is_dir : Bool
  deriving DecidableEq, Repr

inductive QuotaScope where
  | CompanyQuota
  | AgentQuota (agent_id : String)
  deriving DecidableEq, Repr

/-- What fails during one operation. -/
structure Faults where
  /-- `BEGIN IMMEDIATE`, or a statement before a file changes -/
  begin_tx : Bool := false
  mkdir : Bool := false
  /-- the temporary file cannot be opened -/
  open_tmp : Bool := false
  /-- `write_bytes` stops after so many bytes -/
  short : Option Nat := none
  replace : Bool := false
  unlink : Bool := false
  /-- paths that `rmtree` cannot remove -/
  stuck : List FsPath := []
  /-- the statement that records the change, or the commit -/
  record : Bool := false
  deriving DecidableEq

/-- No call fails. -/
def Faults.none : Faults := {}

structure Storage where
  /-- `_workspaces_root` -/
  root : FsPath
  tree : Tree
  rows : List WorkspaceRow
  /-- the row of `company_quota`, if it is there -/
  company_quota : Option Int
  signals : List QuotaSignal
  touched : List FsPath

namespace Storage

def row (s : Storage) (agent_id : String) : Option WorkspaceRow :=
  Table.find WorkspaceRow.agent_id s.rows agent_id

/-- `SELECT COALESCE(SUM(used_bytes), 0) FROM workspaces` -/
def company_used (s : Storage) : Int := (s.rows.map WorkspaceRow.used_bytes).sum

def company_limit (s : Storage) : Int := s.company_quota.getD 0

/-- `Quota.usage` -/
def usage (s : Storage) : QuotaScope → Int
  | .CompanyQuota => s.company_used
  | .AgentQuota agent_id => ((s.row agent_id).map WorkspaceRow.used_bytes).getD 0

/-- `Quota.limit` -/
def limit (s : Storage) : QuotaScope → Int
  | .CompanyQuota => s.company_limit
  | .AgentQuota agent_id => ((s.row agent_id).map WorkspaceRow.quota_bytes).getD 0

/-- `Quota.remaining` -/
def remaining (s : Storage) (scope : QuotaScope) : Int := s.limit scope - s.usage scope

def touch (s : Storage) (paths : List FsPath) : Storage := { s with touched := s.touched ++ paths }

def emit (s : Storage) (signal : QuotaSignal) : Storage := { s with signals := s.signals ++ [signal] }

/-- The company `acme` with the agent `alice`, on a disk that holds `extra` besides. -/
def acme (extra : List (FsPath × Entry String UInt8)) : Storage where
  root := ["acme", "workspaces"]
  tree := .build ([(["acme"], .dir), (["acme", "workspaces"], .dir),
    (["acme", "workspaces", "alice"], .dir), (["acme", "company.db"], .file [7])] ++ extra)
  rows := [⟨"alice", 1048576, 0⟩]
  company_quota := some 1048576
  signals := []
  touched := []

end Storage

/-- The host of `acme`. -/
def linux : Host String UInt8 := fs_host 40 fun _ _ => 4096

/-! ## Paths as text -/

/-- One component of a path text. -/
def step_of (component : String) : Step String :=
  if component = "" then .blank
  else if component = "." then .here
  else if component = ".." then .up
  else .into component

/-- The components of a path as `pathlib` keeps them. -/
def parts (path : String) : List (Step String) :=
  ((path.toList.splitOn '/').map fun component => step_of (String.ofList component)).filter
    fun s => s ≠ .blank ∧ s ≠ .here

def is_absolute (path : String) : Bool := path.toList.head? = some '/'

/-- `base / path`: an absolute path replaces what is before it. -/
def join_path (base : List (Step String)) (path : String) : List (Step String) :=
  if is_absolute path then parts path else base ++ parts path

/-- `_validate_workspace_id` accepts the id. -/
def valid_workspace_id (agent_id : String) : Bool :=
  agent_id ≠ "" && !agent_id.toList.contains '/' && !agent_id.toList.contains '\\' &&
    agent_id ≠ "." && agent_id ≠ ".."

/-- A valid id is the name of one directory. -/
theorem parts_valid {agent_id : String} (hvalid : valid_workspace_id agent_id = true) :
    is_absolute agent_id = false ∧ parts agent_id = [.into agent_id] := by
  simp only [valid_workspace_id, Bool.and_eq_true, decide_eq_true_eq, Bool.not_eq_true',
    ne_eq] at hvalid
  obtain ⟨⟨⟨⟨hempty, hslash⟩, -⟩, hdot⟩, hdots⟩ := hvalid
  have hmem : '/' ∉ agent_id.toList := by simpa using hslash
  constructor
  · cases hlist : agent_id.toList with
    | nil => simp [is_absolute, hlist]
    | cons c rest =>
        rw [hlist] at hmem
        have hc : c ≠ '/' := fun heq => hmem (heq ▸ List.mem_cons_self)
        simp [is_absolute, hlist, hc]
  · have hsplit : agent_id.toList.splitOn '/' = [agent_id.toList] := by
      apply List.splitOnP_eq_singleton
      intro c hc
      have hne : c ≠ '/' := fun heq => hmem (heq ▸ hc)
      simpa using hne
    rw [parts, hsplit]
    simp [step_of, hempty, hdot, hdots]

end CompanyFactory
