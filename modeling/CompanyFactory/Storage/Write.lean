import CompanyFactory.Storage.Contained

/-!
# `Storage.Write` — how far a write gets

`write` can stop at many places before its temporary file: a path that is refused, a link on it, no row, the
quotas, a directory that cannot be made. `Gets` collects the conditions under which it stops at none of
them. A write that does not get that far raises and leaves the tree and the rows alone (`write_not_gets`);
what becomes of one that does is up to `store_file` (`write_stores`).
-/

namespace CompanyFactory

open FileTree

namespace Storage

/-- If the agent's path leads anywhere, then to its workspace directory. -/
def Housed (h : Host String UInt8) (s : Storage) (agent_id : String) : Prop :=
  ∀ d, h.follow s.tree (s.agent_dir agent_id) = .ok d → s.home h agent_id = some d

/-- The conditions under which a write gets to its temporary file, for the target `dir / name`. -/
structure Gets (h : Host String UInt8) (f : Faults) (s : Storage) (agent_id relative_path : String)
    (data : Bytes) (dir : FsPath) (name : String) (row : WorkspaceRow) (made : Tree)
    (dirs : List FsPath) : Prop where
  resolved : s.resolve h agent_id relative_path = .ok (dir ++ [name])
  probed : s.probe h agent_id relative_path = false
  began : f.begin_tx = false
  has_row : s.row agent_id = some row
  within : WithinQuota h s row (dir ++ [name]) data
  mkdir : f.mkdir = false
  made : h.mkdirs s.tree dir = .ok (made, dirs)

/-- A path that `_resolve` accepts has a last name. -/
theorem target_name {h : Host String UInt8} {s : Storage} {agent_id relative_path : String}
    {target : FsPath} (hhoused : Housed h s agent_id)
    (hres : s.resolve h agent_id relative_path = .ok target) : ∃ dir name, target = dir ++ [name] := by
  obtain ⟨d, hd, -, hunder⟩ := resolve_ok hres
  have hhome := hhoused d hd
  have hne : target ≠ [] := by
    rintro rfl
    obtain ⟨-, r, -, -, hd⟩ := home_some hhome
    rw [List.prefix_nil.mp hunder] at hd
    simp at hd
  exact ⟨_, _, (List.dropLast_concat_getLast hne).symm⟩

/-! ## Stopping before the store -/

/-- A write that does not get to `store_file` leaves the tree alone and raises. -/
theorem write_stops {h : Host String UInt8} {f : Faults} {s : Storage} {agent_id relative_path : String}
    {data : Bytes}
    (hstops : ∀ target row, s.resolve h agent_id relative_path = .ok target →
      s.probe h agent_id relative_path = false → f.begin_tx = false → s.row agent_id = some row →
        ¬ WithinQuota h s row target data) :
    (∃ e, (write h f agent_id relative_path data s).1 = .error e) ∧
      (write h f agent_id relative_path data s).2.tree = s.tree ∧
      (write h f agent_id relative_path data s).2.rows = s.rows := by
  unfold write
  cases hres : s.resolve h agent_id relative_path with
  | error e => exact ⟨⟨e, rfl⟩, rfl, rfl⟩
  | ok target =>
      cases hprobe : s.probe h agent_id relative_path with
      | true => exact ⟨⟨_, rfl⟩, rfl, rfl⟩
      | false =>
          simp only [Bool.false_eq_true, if_false]
          unfold write_locked
          cases hbegin : f.begin_tx with
          | true => exact ⟨⟨_, rfl⟩, rfl, rfl⟩
          | false =>
              cases hrow : s.row agent_id with
              | none => exact ⟨⟨_, rfl⟩, rfl, rfl⟩
              | some row =>
                  have hover := hstops target row hres hprobe hbegin hrow
                  simp only [Bool.false_eq_true, if_false]
                  split
                  · exact ⟨⟨_, rfl⟩, rfl, rfl⟩
                  · rename_i hagent
                    split
                    · exact ⟨⟨_, rfl⟩, rfl, rfl⟩
                    · rename_i hcompany
                      exact absurd ⟨Int.not_lt.mp hagent, Int.not_lt.mp hcompany⟩ hover

/-- A write that gets to `store_file`. -/
theorem write_stores {h : Host String UInt8} {f : Faults} {s : Storage} {agent_id relative_path : String}
    {data : Bytes} {target : FsPath} {row : WorkspaceRow}
    (hres : s.resolve h agent_id relative_path = .ok target)
    (hprobe : s.probe h agent_id relative_path = false) (hbegin : f.begin_tx = false)
    (hrow : s.row agent_id = some row) (hwithin : WithinQuota h s row target data) :
    (write h f agent_id relative_path data s).2.tree = (store_file h f s.tree target data).2.1 ∧
      (write h f agent_id relative_path data s).2.rows =
        (if (store_file h f s.tree target data).1 = .ok () ∧ f.record = false then
          (s.set_used agent_id fun _ => row.used_bytes - existing_size h s.tree target + data.length).rows
        else s.rows) ∧
      (((∃ e, (store_file h f s.tree target data).1 = .error e) ∨ f.record = true) →
        ∃ e, (write h f agent_id relative_path data s).1 = .error e) ∧
      ((store_file h f s.tree target data).1 = .ok () → f.record = false →
        ∃ r, (write h f agent_id relative_path data s).1 = .ok r) := by
  obtain ⟨hagent, hcompany⟩ := hwithin
  have hlimit : ∀ l, (s.touch l).company_limit = s.company_limit := fun _ => rfl
  have htree : ∀ l, (s.touch l).tree = s.tree := fun _ => rfl
  have hwrite : write h f agent_id relative_path data s = write_locked h f agent_id target data s := by
    simp [write, hres, hprobe]
  rw [hwrite, write_locked, hbegin, hrow]
  simp only [Bool.false_eq_true, if_false]
  rw [if_neg (Int.not_lt.mpr hagent), hlimit, if_neg (Int.not_lt.mpr hcompany), htree]
  obtain ⟨result, tree, touched⟩ := store_file h f s.tree target data
  cases result with
  | error e => simp [touch]
  | ok u =>
      cases f.record with
      | true => simp [touch]
      | false =>
          simp only [Bool.false_eq_true, if_false]
          split <;> simp [touch, set_used, emit]

/-- A write that does not get to its temporary file. -/
theorem write_not_gets {h : Host String UInt8} {f : Faults} {s : Storage}
    {agent_id relative_path : String} {data : Bytes} (hhoused : Housed h s agent_id)
    (hnot : ∀ dir name row made dirs, ¬ Gets h f s agent_id relative_path data dir name row made dirs) :
    (∃ e, (write h f agent_id relative_path data s).1 = .error e) ∧
      (write h f agent_id relative_path data s).2.tree = s.tree ∧
      (write h f agent_id relative_path data s).2.rows = s.rows := by
  by_cases hstores : ∃ target row, s.resolve h agent_id relative_path = .ok target ∧
      s.probe h agent_id relative_path = false ∧ f.begin_tx = false ∧ s.row agent_id = some row ∧
      WithinQuota h s row target data
  · obtain ⟨target, row, hres, hprobe, hbegin, hrow, hwithin⟩ := hstores
    obtain ⟨dir, name, rfl⟩ := target_name hhoused hres
    obtain ⟨htree, hrows, herror, -⟩ := write_stores (f := f) hres hprobe hbegin hrow hwithin
    have hfails : ∃ e, (if f.mkdir then .error .failed else h.mkdirs s.tree dir) = .error e := by
      cases hmkdir : f.mkdir with
      | true => exact ⟨.failed, rfl⟩
      | false =>
          cases hmk : h.mkdirs s.tree dir with
          | error e => exact ⟨e, rfl⟩
          | ok made => exact absurd ⟨hres, hprobe, hbegin, hrow, hwithin, hmkdir, hmk⟩ (hnot _ _ _ _ _)
    obtain ⟨e, he⟩ := hfails
    have hstore : store_file h f s.tree (dir ++ [name]) data = (.error (.of_errno e), s.tree, []) := by
      simp [store_file, he]
    rw [hstore] at htree hrows herror
    rw [if_neg (by simp)] at hrows
    exact ⟨herror (.inl ⟨_, rfl⟩), htree, hrows⟩
  · exact write_stops fun target row hres hprobe hbegin hrow hwithin =>
      hstores ⟨target, row, hres, hprobe, hbegin, hrow, hwithin⟩

theorem write_frame (h : Host String UInt8) (f : Faults) (agent_id relative_path : String) (data : Bytes)
    (s : Storage) : (write h f agent_id relative_path data s).2.root = s.root ∧
      (write h f agent_id relative_path data s).2.company_quota = s.company_quota := by
  unfold write
  split
  · exact ⟨rfl, rfl⟩
  · split
    · exact ⟨rfl, rfl⟩
    · unfold write_locked
      split
      · exact ⟨rfl, rfl⟩
      · split
        · exact ⟨rfl, rfl⟩
        · simp only
          split
          · exact ⟨rfl, rfl⟩
          · split
            · exact ⟨rfl, rfl⟩
            · split
              · exact ⟨rfl, rfl⟩
              · split
                · exact ⟨rfl, rfl⟩
                · simp only
                  split <;> exact ⟨rfl, rfl⟩

end Storage

end CompanyFactory
