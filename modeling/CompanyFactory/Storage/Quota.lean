import CompanyFactory.Lib.Run
import CompanyFactory.Storage.Usage

/-!
# `Storage.Quota` — the counter over whole runs

A company starts with no workspace (`Fresh`), and its files and rows change through the operations only.
Between two operations:

* **Covered** — as long as no call fails, the bytes on disk of every agent are at most its counter, and a
  write that returns leaves its agent and the company within their quotas (`quota_enforced`);
* **Exact** — the two are equal in every run whose steps are `Accurate`. A step is not if a write frees the
  name of a temporary file at which a file with some bytes was, or if a call fails once a file has changed.

The first direction of the difference is the harmless one: a file that a write loses at its temporary name
stays on the counter.
-/

namespace CompanyFactory

open FileTree Machine

namespace Storage

/-- The operations on workspaces and quotas. -/
inductive QuotaOp where
  | create_for_agent (agent_id : String) (quota_mb : Int)
  | ensure_for_agent (agent_id : String) (quota_mb : Int)
  | write (agent_id relative_path : String) (data : Bytes)
  | delete (agent_id relative_path : String)
  | delete_for_agent (agent_id : String)
  | reconcile_quota
  | set_limit (scope : QuotaScope) (mb : Int)

/-- The ids that the operation names. -/
def QuotaOp.agents : QuotaOp → List String
  | .create_for_agent agent_id _ | .ensure_for_agent agent_id _ | .write agent_id _ _
  | .delete agent_id _ | .delete_for_agent agent_id | .set_limit (.AgentQuota agent_id) _ => [agent_id]
  | .reconcile_quota | .set_limit .CompanyQuota _ => []

def QuotaOp.Valid (op : QuotaOp) : Prop := ∀ agent_id ∈ op.agents, valid_workspace_id agent_id = true

instance (op : QuotaOp) : Decidable op.Valid := by
  unfold QuotaOp.Valid
  infer_instance

/-- The state after an operation, whether it returned or raised. -/
def step (h : Host String UInt8) (s : Storage) : QuotaOp × Faults → Storage
  | (.create_for_agent agent_id quota_mb, f) => (create_for_agent h f agent_id quota_mb s).2
  | (.ensure_for_agent agent_id quota_mb, f) => (ensure_for_agent h f agent_id quota_mb s).2
  | (.write agent_id relative_path data, f) => (write h f agent_id relative_path data s).2
  | (.delete agent_id relative_path, f) => (delete h f agent_id relative_path s).2
  | (.delete_for_agent agent_id, f) => (delete_for_agent h f agent_id s).2
  | (.reconcile_quota, f) => (reconcile_quota h f s).2
  | (.set_limit scope mb, f) => (set_limit f scope mb s).2

/-- A company without agents: no link leads to the workspaces root, and nothing is in it. -/
structure Fresh (s : Storage) : Prop where
  no_rows : s.rows = []
  straight : s.tree.Straight s.root
  bare : ∀ p, Below s.root p → s.tree.entry p = none

namespace Fresh

variable {s : Storage}

theorem nothing (hfresh : Fresh s) (agent_id : String) : s.tree.entry (s.root ++ [agent_id]) = none :=
  hfresh.bare _ ⟨List.prefix_append _ _, by simp⟩

theorem settled (hfresh : Fresh s) : Settled s where
  ground :=
    { walled :=
        { straight := hfresh.straight
          no_link := by
            intro p hp r
            by_cases heq : p = s.root
            · exact hfresh.straight p (heq ▸ List.prefix_rfl) r
            · rw [hfresh.bare p ⟨hp, heq⟩]
              simp }
      floor := by
        intro n data
        rw [hfresh.nothing]
        simp }
  registered :=
    { unique := by simp [hfresh.no_rows]
      valid := by simp [hfresh.no_rows] }

theorem disk_eq (hfresh : Fresh s) (agent_id : String) : s.disk agent_id = 0 :=
  weigh_not_dir (by simp [hfresh.nothing]) _

theorem used_zero (hfresh : Fresh s) (agent_id : String) : s.used agent_id = 0 := by
  rw [used_eq, hfresh.no_rows]
  rfl

end Fresh

/-- For every agent, `R` holds of the bytes on disk and the counter. -/
structure Metered (R : Int → Int → Prop) (s : Storage) : Prop where
  settled : Settled s
  meets : ∀ agent_id, R (s.disk agent_id) (s.used agent_id)

namespace Metered

variable {R : Int → Int → Prop} {s s' : Storage}

theorem of_fresh (hR : ∀ n, R n n) (hfresh : Fresh s) : Metered R s where
  settled := hfresh.settled
  meets := by
    intro agent_id
    rw [hfresh.disk_eq, hfresh.used_zero]
    exact hR 0

/-- An operation that leaves both numbers alone. -/
theorem keep (hs : Metered R s) (h : Settled s' ∧ Kept s s') : Metered R s' where
  settled := h.1
  meets := by
    intro agent_id
    rw [h.2.disk, h.2.used]
    exact hs.meets agent_id

/-- An operation that leaves the others alone. -/
theorem only (hs : Metered R s) {agent_id : String} (hsettled : Settled s') (honly : Only agent_id s s')
    (hown : R (s'.disk agent_id) (s'.used agent_id)) : Metered R s' where
  settled := hsettled
  meets := by
    intro other
    by_cases heq : other = agent_id
    · rw [heq]
      exact hown
    · rw [honly.disk other heq, honly.used other heq]
      exact hs.meets other

theorem reconcile (hs : Metered R s) (hR : ∀ n, R n n) (h : Host String UInt8) (f : Faults) :
    Metered R (reconcile_quota h f s).2 := by
  obtain ⟨hsettled, hnumbers⟩ := reconcile_quota_effect hs.settled h f
  refine ⟨hsettled, fun agent_id => ?_⟩
  obtain ⟨hdisk, hused | hused⟩ := hnumbers agent_id
  · rw [hdisk, hused]
    exact hs.meets agent_id
  · rw [hdisk, hused]
    exact hR _

end Metered

/-! ## Covered -/

/-- The bytes on disk are at most the counter. -/
abbrev Covered : Storage → Prop := Metered (· ≤ ·)

theorem none_record : ¬ Faults.none.record = true := Bool.false_ne_true

theorem covered_step {h : Host String UInt8} {s : Storage} (hs : Covered s) {i : QuotaOp × Faults}
    (hi : i.1.Valid ∧ i.2 = .none) : Covered (step h s i) := by
  obtain ⟨op, f⟩ := i
  obtain ⟨hvalid, rfl⟩ := hi
  cases op with
  | create_for_agent agent_id quota_mb =>
      exact hs.keep (create_for_agent_effect hs.settled h .none agent_id quota_mb)
  | ensure_for_agent agent_id quota_mb =>
      exact hs.keep (ensure_for_agent_effect hs.settled h .none agent_id quota_mb)
  | write agent_id relative_path data =>
      have hcleans : Cleans h .none s agent_id relative_path data := fun _ _ _ _ _ _ _ _ => rfl
      obtain ⟨hsettled, honly, hkept | ⟨dir, name, row, made, dirs, -, hwrote⟩⟩ :=
        write_effect hs.settled (hvalid agent_id (by simp [QuotaOp.agents])) hcleans
      · exact hs.keep ⟨hsettled, hkept⟩
      · have hcovered := hs.meets agent_id
        show Covered (write h .none agent_id relative_path data s).2
        refine hs.only hsettled honly ?_
        -- what was at the temporary name is off the disk and still on the counter
        cases hwrote with
        | raised hnot hremoves hdisk hused =>
            rw [hused]
            omega
        | stored hmoves hdisk hused =>
            rw [hused, if_neg none_record]
            omega
  | delete agent_id relative_path =>
      obtain ⟨hsettled, honly, hkept | ⟨target, -, -, -, hdisk, hused⟩⟩ :=
        delete_effect hs.settled h .none (hvalid agent_id (by simp [QuotaOp.agents])) relative_path
      · exact hs.keep ⟨hsettled, hkept⟩
      · have hcovered := hs.meets agent_id
        show Covered (delete h .none agent_id relative_path s).2
        refine hs.only hsettled honly ?_
        rw [hused, if_neg none_record]
        omega
  | delete_for_agent agent_id =>
      obtain ⟨hsettled, honly, hkept | ⟨hdisk, hused⟩ | ⟨hwhy, -⟩⟩ :=
        delete_for_agent_effect hs.settled h .none (hvalid agent_id (by simp [QuotaOp.agents]))
      · exact hs.keep ⟨hsettled, hkept⟩
      · show Covered (delete_for_agent h .none agent_id s).2
        refine hs.only hsettled honly ?_
        rw [hdisk, hused]
        exact le_rfl
      · rcases hwhy with ⟨k, hk, -⟩ | hrecord
        · cases hk
        · cases hrecord
  | reconcile_quota => exact hs.reconcile (fun _ => le_rfl) h .none
  | set_limit scope mb => exact hs.keep (set_limit_effect hs.settled .none scope mb)

/-- What a write that returns has checked and recorded. -/
theorem write_ok {h : Host String UInt8} {f : Faults} {s : Storage} {agent_id relative_path : String}
    {data : Bytes} {r : WriteResult} (hok : (write h f agent_id relative_path data s).1 = .ok r) :
    ∃ target row, s.row agent_id = some row ∧ WithinQuota h s row target data ∧
      (write h f agent_id relative_path data s).2.rows =
        (s.set_used agent_id
          fun _ => row.used_bytes - existing_size h s.tree target + data.length).rows := by
  by_cases hstores : ∃ target row, s.resolve h agent_id relative_path = .ok target ∧
      s.probe h agent_id relative_path = false ∧ f.begin_tx = false ∧ s.row agent_id = some row ∧
      WithinQuota h s row target data
  · obtain ⟨target, row, hres, hprobe, hbegin, hrow, hwithin⟩ := hstores
    obtain ⟨-, hrows, herror, -⟩ := write_stores (f := f) hres hprobe hbegin hrow hwithin
    have hstored : (store_file h f s.tree target data).1 = .ok () ∧ f.record = false := by
      constructor
      · cases hstore : (store_file h f s.tree target data).1 with
        | ok u => rfl
        | error e =>
            obtain ⟨e', he'⟩ := herror (.inl ⟨e, hstore⟩)
            rw [hok] at he'
            cases he'
      · cases hrecord : f.record with
        | false => rfl
        | true =>
            obtain ⟨e', he'⟩ := herror (.inr hrecord)
            rw [hok] at he'
            cases he'
    rw [if_pos hstored] at hrows
    exact ⟨target, row, hrow, hwithin, hrows⟩
  · have hstops : ∃ e, (write h f agent_id relative_path data s).1 = .error e :=
      (write_stops fun target row hres hprobe hbegin hrow hwithin =>
        hstores ⟨target, row, hres, hprobe, hbegin, hrow, hwithin⟩).1
    obtain ⟨e, he⟩ := hstops
    rw [hok] at he
    cases he

/-- A write that returns leaves its agent and the company within their quotas. -/
theorem write_within {h : Host String UInt8} {f : Faults} {s s' : Storage}
    {agent_id relative_path : String} {data : Bytes} {r : WriteResult} (hs : Settled s)
    (hok : write h f agent_id relative_path data s = (.ok r, s')) :
    s'.used agent_id ≤ s'.limit (.AgentQuota agent_id) ∧ s'.company_used ≤ s'.company_limit := by
  obtain ⟨target, row, hrow, ⟨hagent, hcompany⟩, hrows⟩ := write_ok (congrArg Prod.fst hok)
  have hquota := (write_frame h f agent_id relative_path data s).2
  rw [hok] at hrows hquota
  have hlimit : s'.company_limit = s.company_limit := congrArg (Option.getD · 0) hquota
  let g (r : WorkspaceRow) : WorkspaceRow :=
    { r with used_bytes := row.used_bytes - existing_size h s.tree target + data.length }
  have hg : ∀ r, (g r).agent_id = r.agent_id := fun _ => rfl
  have hupdate : s'.rows = Table.update WorkspaceRow.agent_id agent_id g s.rows := hrows
  have hafter : s'.row agent_id = some (g row) := by
    unfold Storage.row at hrow ⊢
    rw [hupdate, Table.find_update_key hg, if_pos rfl, hrow]
    rfl
  constructor
  · simp only [used, usage, limit, hafter, Option.map_some, Option.getD_some]
    exact hagent
  · have hsum := Table.sum_update hg hs.registered.unique WorkspaceRow.used_bytes hrow
    rw [← hupdate] at hsum
    have hused : (g row).used_bytes = row.used_bytes - existing_size h s.tree target + data.length := rfl
    have hcompany' : s'.company_used = (s'.rows.map WorkspaceRow.used_bytes).sum := rfl
    have hbefore : s.company_used = (s.rows.map WorkspaceRow.used_bytes).sum := rfl
    rw [hlimit]
    omega

/-- **Quotas are enforced.** In every run in which no call fails, the bytes on disk of every agent are at
    most its counter, and a write that returns leaves its agent and the company within their quotas. -/
theorem quota_enforced {h : Host String UInt8} {s : Storage} (hfresh : Fresh s)
    {is : List (QuotaOp × Faults)} (hrun : Along (step h) (fun _ i => i.1.Valid ∧ i.2 = .none) s is) :
    (∀ agent_id, (disk (exec (step h) s is) agent_id : Int) ≤ used (exec (step h) s is) agent_id) ∧
      ∀ agent_id relative_path data r s', valid_workspace_id agent_id = true →
        write h .none agent_id relative_path data (exec (step h) s is) = (.ok r, s') →
          s'.used agent_id ≤ s'.limit (.AgentQuota agent_id) ∧ s'.company_used ≤ s'.company_limit := by
  have hstep : ∀ s i, Covered s → i.1.Valid ∧ i.2 = .none → Covered (step h s i) :=
    fun _ _ hs hi => covered_step hs hi
  have hcovered := exec_invariant_along hstep (.of_fresh (fun _ => le_rfl) hfresh) hrun
  exact ⟨hcovered.meets, fun _ _ _ _ _ _ hok => write_within hcovered.settled hok⟩

/-- The company `acme` before its first agent. -/
def founded : Storage where
  root := ["acme", "workspaces"]
  tree := .build [(["acme"], .dir), (["acme", "workspaces"], .dir), (["acme", "company.db"], .file [7])]
  rows := []
  company_quota := some 1048576
  signals := []
  touched := []

theorem founded_fresh : Fresh founded where
  no_rows := rfl
  straight := (Walled.of_rows (t := founded.tree) (by decide +kernel) founded.root).straight
  bare := by
    have hrows : ∀ row ∈ founded.tree.rows, ¬ Below founded.root row.1 := by decide +kernel
    intro p hbelow
    by_contra hentry
    obtain ⟨e, he⟩ := Option.ne_none_iff_exists'.mp hentry
    have hne : p ≠ [] := by
      rintro rfl
      exact hbelow.2 (List.prefix_nil.mp hbelow.1).symm
    exact hrows _ (mem_of_entry hne he) hbelow

/-- `alice` gets a workspace and writes a file. -/
def first_file : List (QuotaOp × Faults) :=
  [(.create_for_agent "alice" 1, .none), (.write "alice" "notes.txt" [1, 2], .none)]

theorem quota_enforced_first_file :
    (∀ agent_id, (disk (exec (step linux) founded first_file) agent_id : Int) ≤
        used (exec (step linux) founded first_file) agent_id) ∧
      ∀ agent_id relative_path data r s', valid_workspace_id agent_id = true →
        write linux .none agent_id relative_path data (exec (step linux) founded first_file) = (.ok r, s') →
          s'.used agent_id ≤ s'.limit (.AgentQuota agent_id) ∧ s'.company_used ≤ s'.company_limit := by
  refine quota_enforced founded_fresh ⟨⟨?_, rfl⟩, ⟨?_, rfl⟩, trivial⟩ <;> decide +kernel

/-! ## Exact -/

/-- Storing `dir / name` keeps the counter on the bytes. -/
structure Accounts (h : Host String UInt8) (f : Faults) (s : Storage) (data : Bytes) (dir : FsPath)
    (name : String) : Prop where
  /-- a temporary file that is not moved can be unlinked -/
  unlinked : Opens h f s.tree dir name → ¬ Moves h f s.tree dir name → f.unlink = false
  /-- no bytes were at the temporary name if it is free afterwards -/
  free : Moves h f s.tree dir name ∨ Removes h f s.tree dir name →
    size_at s.tree (dir ++ [name ++ ".tmp"]) = 0
  /-- a file that is moved and not recorded has the size of the one before it -/
  recorded : Moves h f s.tree dir name → f.record = true →
    size_at s.tree (dir ++ [name]) = data.length

/-- The steps after which the counter is what is on disk, if it was so before. -/
def Accurate (h : Host String UInt8) (s : Storage) : QuotaOp × Faults → Prop
  | (.write agent_id relative_path data, f) => ∀ dir name row made dirs,
      Gets h f s agent_id relative_path data dir name row made dirs → Accounts h f s data dir name
  | (.delete agent_id relative_path, f) => f.begin_tx = false → f.unlink = false → f.record = true →
      ∀ target, s.resolve h agent_id relative_path = .ok target → size_at s.tree target = 0
  | (.delete_for_agent agent_id, f) => f.begin_tx = false →
      Stuck f (s.root ++ [agent_id]) ∨ f.record = true → s.disk agent_id = 0
  | _ => True

/-- The bytes on disk are what the counter says. -/
abbrev Exact : Storage → Prop := Metered (· = ·)

theorem exact_step {h : Host String UInt8} {s : Storage} (hs : Exact s) {i : QuotaOp × Faults}
    (hvalid : i.1.Valid) (hi : Accurate h s i) : Exact (step h s i) := by
  obtain ⟨op, f⟩ := i
  cases op with
  | create_for_agent agent_id quota_mb =>
      exact hs.keep (create_for_agent_effect hs.settled h f agent_id quota_mb)
  | ensure_for_agent agent_id quota_mb =>
      exact hs.keep (ensure_for_agent_effect hs.settled h f agent_id quota_mb)
  | write agent_id relative_path data =>
      obtain ⟨hsettled, honly, hkept | ⟨dir, name, row, made, dirs, hg, hwrote⟩⟩ :=
        write_effect hs.settled (hvalid agent_id (by simp [QuotaOp.agents]))
          fun dir name row made dirs hg => (hi dir name row made dirs hg).unlinked
      · exact hs.keep ⟨hsettled, hkept⟩
      · have hexact := hs.meets agent_id
        have haccounts := hi dir name row made dirs hg
        show Exact (write h f agent_id relative_path data s).2
        refine hs.only hsettled honly ?_
        cases hwrote with
        | raised hnot hremoves hdisk hused =>
            rw [haccounts.free (.inr hremoves)] at hdisk
            rw [hused]
            omega
        | stored hmoves hdisk hused =>
            rw [haccounts.free (.inl hmoves)] at hdisk
            rw [hused]
            split
            · rename_i hrecord
              have hsize := haccounts.recorded hmoves hrecord
              omega
            · omega
  | delete agent_id relative_path =>
      obtain ⟨hsettled, honly, hkept | ⟨target, hres, hbegin, hfault, hdisk, hused⟩⟩ :=
        delete_effect hs.settled h f (hvalid agent_id (by simp [QuotaOp.agents])) relative_path
      · exact hs.keep ⟨hsettled, hkept⟩
      · have hexact := hs.meets agent_id
        show Exact (delete h f agent_id relative_path s).2
        refine hs.only hsettled honly ?_
        rw [hused]
        split
        · rename_i hrecord
          have hsize := hi hbegin hfault hrecord target hres
          omega
        · omega
  | delete_for_agent agent_id =>
      obtain ⟨hsettled, honly, hkept | ⟨hdisk, hused⟩ | ⟨hwhy, hbegin, hdisk, hused⟩⟩ :=
        delete_for_agent_effect hs.settled h f (hvalid agent_id (by simp [QuotaOp.agents]))
      · exact hs.keep ⟨hsettled, hkept⟩
      · show Exact (delete_for_agent h f agent_id s).2
        refine hs.only hsettled honly ?_
        rw [hdisk, hused]
        rfl
      · have hexact := hs.meets agent_id
        have hempty := hi hbegin hwhy
        show Exact (delete_for_agent h f agent_id s).2
        refine hs.only hsettled honly ?_
        rw [hused]
        omega
  | reconcile_quota => exact hs.reconcile (fun _ => rfl) h f
  | set_limit scope mb => exact hs.keep (set_limit_effect hs.settled f scope mb)

/-- **Accounting is exact.** In every run of accurate steps, whatever other calls fail, the counter of every
    agent is the total size of its files. -/
theorem accounting_exact {h : Host String UInt8} {s : Storage} (hfresh : Fresh s)
    {is : List (QuotaOp × Faults)}
    (hrun : Along (step h) (fun s i => i.1.Valid ∧ Accurate h s i) s is) :
    ∀ agent_id, (disk (exec (step h) s is) agent_id : Int) = used (exec (step h) s is) agent_id := by
  have hstep : ∀ s i, Exact s → i.1.Valid ∧ Accurate h s i → Exact (step h s i) :=
    fun _ _ hs hi => exact_step hs hi.1 hi.2
  have hexact := exec_invariant_along hstep (.of_fresh (fun _ => rfl) hfresh) hrun
  exact hexact.meets

/-- No call fails, and no bytes are at the temporary name. -/
theorem accurate_of_free {h : Host String UInt8} {s : Storage} {agent_id relative_path : String}
    {data : Bytes} {dir : FsPath} {name : String}
    (hres : s.resolve h agent_id relative_path = .ok (dir ++ [name]))
    (htmp : size_at s.tree (dir ++ [name ++ ".tmp"]) = 0) :
    Accurate h s (.write agent_id relative_path data, .none) := by
  intro dir' name' row made dirs hg
  have heq := hg.resolved
  rw [hres] at heq
  obtain ⟨rfl, hname⟩ := List.append_inj' (Except.ok.inj heq) rfl
  cases hname
  exact ⟨fun _ _ => rfl, fun _ => htmp, fun _ hrecord => absurd hrecord none_record⟩

theorem accounting_exact_first_file :
    (disk (exec (step linux) founded first_file) "alice" : Int) =
      used (exec (step linux) founded first_file) "alice" := by
  have hrun : Along (step linux) (fun s i => i.1.Valid ∧ Accurate linux s i) founded first_file := by
    refine ⟨⟨?_, trivial⟩, ⟨?_, ?_⟩, trivial⟩
    · decide +kernel
    · decide +kernel
    · have hres : (exec (step linux) founded [(.create_for_agent "alice" 1, .none)]).resolve linux
          "alice" "notes.txt" = .ok (["acme", "workspaces", "alice"] ++ ["notes.txt"]) := by decide +kernel
      exact accurate_of_free hres (by decide +kernel)
  exact accounting_exact founded_fresh hrun "alice"

/-- **A lost file stays on the counter.** `alice` writes three bytes to `x.tmp` and one to `x`. -/
theorem miscounts : ¬ ∀ is, Along (step linux) (fun _ i => i.1.Valid ∧ i.2 = .none) founded is →
    ∀ agent_id, (disk (exec (step linux) founded is) agent_id : Int) =
      used (exec (step linux) founded is) agent_id := by
  intro hexact
  have hcounts := hexact [(.create_for_agent "alice" 1, .none), (.write "alice" "x.tmp" [1, 2, 3], .none),
    (.write "alice" "x" [4], .none)] ⟨⟨by decide, rfl⟩, ⟨by decide, rfl⟩, ⟨by decide, rfl⟩, trivial⟩ "alice"
  revert hcounts
  decide +kernel

end Storage

end CompanyFactory
