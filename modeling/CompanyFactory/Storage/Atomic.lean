import CompanyFactory.Storage.Write

/-!
# `Storage.Atomic` — a write changes its file and nothing else

A write is atomic if, when it returns, the file reads back and every other file of every agent is as it was,
and when it raises, every file is as it was and there is no new one. A link counts as a file here: what a
path holds is whatever is no directory (`file_at`).

The temporary sibling `<target>.tmp` is a name that agents may use as well. A file there is overwritten and
moved away by a write that goes well, and overwritten and unlinked by one that fails. Where no link is met,
that is the way a write loses a file, next to two failures: the database does not record the change of a file
that is in place, and the clean-up cannot unlink (`write_atomic_iff`).
-/

namespace CompanyFactory

open FileTree

namespace Storage

/-- The file or link at a path. -/
def file_at (t : Tree) (p : FsPath) : Option (Entry String UInt8) :=
  (t.entry p).filter fun e => !e.isDir

/-- The path is in the workspace of some agent. -/
def AgentFile (h : Host String UInt8) (s : Storage) (p : FsPath) : Prop :=
  ∃ agent_id d, s.home h agent_id = some d ∧ Below d p

/-- What an atomic write promises, of the result and the state after it. -/
def Atomic (h : Host String UInt8) (f : Faults) (s : Storage) (agent_id relative_path : String)
    (data : Bytes) : Prop :=
  match write h f agent_id relative_path data s with
  | (.ok _, s') =>
      (read_own h agent_id relative_path s').1 = .ok data ∧
        ∃ target, s.resolve h agent_id relative_path = .ok target ∧
          ∀ p, AgentFile h s p → p ≠ target → file_at s'.tree p = file_at s.tree p
  | (.error _, s') =>
      (∀ p, AgentFile h s p → file_at s'.tree p = file_at s.tree p) ∧
        ∀ p, file_at s.tree p = none → file_at s'.tree p = none

/-- No link is met on the way to the target, and none is at the target's temporary name. -/
def LinkFree (h : Host String UInt8) (s : Storage) (agent_id relative_path : String) : Prop :=
  ∀ dir name, s.resolve h agent_id relative_path = .ok (dir ++ [name]) → Plain s.tree dir name

/-- Storing `dir / name` costs no file. -/
structure Spares (h : Host String UInt8) (f : Faults) (s : Storage) (data : Bytes) (dir : FsPath)
    (name : String) : Prop where
  /-- no file of an agent is at the temporary name, which is free afterwards -/
  vacated : Moves h f s.tree dir name ∨ Removes h f s.tree dir name →
    AgentFile h s (dir ++ [name ++ ".tmp"]) → file_at s.tree (dir ++ [name ++ ".tmp"]) = none
  /-- where the clean-up cannot unlink what was written, it was there before -/
  left : ¬ Moves h f s.tree dir name → ¬ Removes h f s.tree dir name →
    Opens h f s.tree dir name → file_at s.tree (dir ++ [name ++ ".tmp"]) ≠ none ∧
      (AgentFile h s (dir ++ [name ++ ".tmp"]) →
        s.tree.entry (dir ++ [name ++ ".tmp"]) = some (.file (written f data)))
  /-- where the database does not record the change, there was none -/
  recorded : f.record = true → Moves h f s.tree dir name →
    s.tree.entry (dir ++ [name]) = some (.file data)

/-- If the write gets to its temporary file, that costs no file. -/
def Harmless (h : Host String UInt8) (f : Faults) (s : Storage) (agent_id relative_path : String)
    (data : Bytes) : Prop :=
  ∀ dir name row made dirs, Gets h f s agent_id relative_path data dir name row made dirs →
    Spares h f s data dir name

theorem file_at_of_entry {t u : Tree} {p : FsPath} (h : u.entry p = t.entry p) :
    file_at u p = file_at t p := by rw [file_at, h, file_at]

/-- Directories that are added change no file. -/
theorem file_at_made {t u : Tree} (hext : Extends t u) (p : FsPath) : file_at u p = file_at t p := by
  unfold file_at
  rcases hext p with hsame | ⟨hnone, hdir⟩
  · rw [hsame]
  · rw [hnone, hdir]
    rfl

/-! ## Reading back -/

/-- The tables and the log of an operation do not matter to `_resolve`. -/
theorem resolve_congr (h : Host String UInt8) {s s' : Storage} {agent_id relative_path : String}
    {d target : FsPath} (hroot : s'.root = s.root) (hhome : s.home h agent_id = some d)
    (hres : s.resolve h agent_id relative_path = .ok target)
    (hdirs : ∀ p, s.tree.entry p = some .dir → s'.tree.entry p = some .dir)
    (hlinks : SameLinks s.tree s'.tree) : s'.resolve h agent_id relative_path = .ok target := by
  have hdir : s'.agent_dir agent_id = s.agent_dir agent_id := by
    unfold agent_dir
    rw [hroot]
  have hfollow : h.follow s'.tree (s.agent_dir agent_id) = .ok d :=
    walk_keeps hdirs (fun p r => (hlinks p r).mp) _ (follow_home hhome) (home_entry hhome)
  unfold resolve at hres ⊢
  rw [follow_home hhome] at hres
  rw [hdir, hfollow, ← realpath_congr h hlinks]
  exact hres

theorem read_back (h : Host String UInt8) {s s' : Storage} {agent_id relative_path : String}
    {d target : FsPath} {data : Bytes} (hroot : s'.root = s.root) (hhome : s.home h agent_id = some d)
    (hres : s.resolve h agent_id relative_path = .ok target) (hstraight : s.tree.Straight target)
    (hdirs : ∀ p, s.tree.entry p = some .dir → s'.tree.entry p = some .dir)
    (hlinks : SameLinks s.tree s'.tree) (hfile : s'.tree.entry target = some (.file data)) :
    (read_own h agent_id relative_path s').1 = .ok data := by
  have hres' := resolve_congr h hroot hhome hres hdirs hlinks
  have hfollow : h.follow s'.tree (names target) = .ok target :=
    follow_straight (hlinks.straight hstraight) (by simp [hfile])
  simp [read_own, hres', hfollow, hfile]

/-! ## The condition -/

/-- A write that raises is atomic as far as the files it leaves go. -/
theorem atomic_of_error {h : Host String UInt8} {f : Faults} {s : Storage}
    {agent_id relative_path : String} {data : Bytes}
    (herror : ∃ e, (write h f agent_id relative_path data s).1 = .error e) :
    Atomic h f s agent_id relative_path data ↔
      (∀ p, AgentFile h s p →
        file_at (write h f agent_id relative_path data s).2.tree p = file_at s.tree p) ∧
      ∀ p, file_at s.tree p = none → file_at (write h f agent_id relative_path data s).2.tree p = none := by
  obtain ⟨e, he⟩ := herror
  unfold Atomic
  generalize write h f agent_id relative_path data s = out at he ⊢
  obtain ⟨result, s'⟩ := out
  cases he
  rfl

theorem file_at_file {t : Tree} {p : FsPath} {data : Bytes} :
    file_at t p = some (.file data) ↔ t.entry p = some (.file data) := by
  unfold file_at
  cases t.entry p with
  | none => simp
  | some e => cases e <;> simp [Entry.isDir]

/-- A write that does not get to its temporary file changes no file. -/
theorem atomic_of_not_gets {h : Host String UInt8} {f : Faults} {s : Storage}
    {agent_id relative_path : String} {data : Bytes} (hhoused : Housed h s agent_id)
    (hnot : ∀ dir name row made dirs, ¬ Gets h f s agent_id relative_path data dir name row made dirs) :
    Atomic h f s agent_id relative_path data := by
  obtain ⟨herror, htree, -⟩ := write_not_gets hhoused hnot
  rw [atomic_of_error herror, htree]
  exact ⟨fun _ _ => rfl, fun _ hnone => hnone⟩

/-- The file or link that an option holds. -/
theorem filter_file {data : Bytes} :
    (some (Entry.file (N := String) data)).filter (fun e => !e.isDir) = some (.file data) := rfl

section Stored

variable {h : Host String UInt8} {f : Faults} {s : Storage} {agent_id relative_path : String}
  {data : Bytes} {dir : FsPath} {name : String} {row : WorkspaceRow} {made : Tree} {dirs : List FsPath}

/-- The condition speaks of one target only. -/
theorem harmless_iff (hg : Gets h f s agent_id relative_path data dir name row made dirs) :
    Harmless h f s agent_id relative_path data ↔ Spares h f s data dir name := by
  constructor
  · exact fun hharmless => hharmless dir name row made dirs hg
  · intro hspares dir' name' row' made' dirs' hg'
    have heq : dir' ++ [name'] = dir ++ [name] := by
      have hres := hg'.resolved
      rw [hg.resolved] at hres
      exact (Except.ok.inj hres).symm
    obtain ⟨rfl, hname⟩ := List.append_inj' heq rfl
    cases hname
    exact hspares

/-- A write that gets to its temporary file and does not move it. -/
theorem not_moved_atomic_iff (hnot : ¬ Moves h f s.tree dir name)
    (herror : ∃ e, (write h f agent_id relative_path data s).1 = .error e)
    (hfile : ∀ p, file_at (write h f agent_id relative_path data s).2.tree p =
      if p = dir ++ [name ++ ".tmp"] then
        (leftover h f s.tree dir name data).filter fun e => !e.isDir
      else file_at s.tree p) :
    Atomic h f s agent_id relative_path data ↔ Spares h f s data dir name := by
  rw [atomic_of_error herror]
  have hiff : (∀ p, AgentFile h s p →
        file_at (write h f agent_id relative_path data s).2.tree p = file_at s.tree p) ∧
      (∀ p, file_at s.tree p = none → file_at (write h f agent_id relative_path data s).2.tree p = none) ↔
      (AgentFile h s (dir ++ [name ++ ".tmp"]) →
        ((leftover h f s.tree dir name data).filter fun e => !e.isDir) =
          file_at s.tree (dir ++ [name ++ ".tmp"])) ∧
      (file_at s.tree (dir ++ [name ++ ".tmp"]) = none →
        ((leftover h f s.tree dir name data).filter fun e => !e.isDir) = none) := by
    constructor
    · rintro ⟨hsame, hnew⟩
      have htmp := hfile (dir ++ [name ++ ".tmp"])
      rw [if_pos rfl] at htmp
      rw [← htmp]
      exact ⟨hsame _, hnew _⟩
    · rintro ⟨hsame, hnew⟩
      refine ⟨fun p hp => ?_, fun p hp => ?_⟩ <;> rw [hfile] <;> split
      · rename_i heq
        exact heq ▸ hsame (heq ▸ hp)
      · rfl
      · rename_i heq
        exact hnew (heq ▸ hp)
      · exact hp
  rw [hiff]
  by_cases hremoves : Removes h f s.tree dir name
  · -- the name is free afterwards
    rw [leftover, if_pos hremoves]
    constructor
    · rintro ⟨hsame, -⟩
      exact ⟨fun _ htmp => (hsame htmp).symm, fun _ hkeeps => absurd hremoves hkeeps,
        fun _ hmoves => absurd hmoves hnot⟩
    · intro hspares
      exact ⟨fun htmp => (hspares.vacated (.inr hremoves) htmp).symm, fun _ => rfl⟩
  · rw [leftover, if_neg hremoves]
    by_cases hopens : Opens h f s.tree dir name
    · -- what was written stays
      rw [if_pos hopens, filter_file]
      constructor
      · rintro ⟨hsame, hnew⟩
        refine ⟨fun hfree => absurd hfree (not_or.mpr ⟨hnot, hremoves⟩), fun _ _ _ => ⟨fun hnone => ?_, ?_⟩,
          fun _ hmoves => absurd hmoves hnot⟩
        · cases hnew hnone
        · intro htmp
          exact file_at_file.mp (hsame htmp).symm
      · intro hspares
        obtain ⟨hthere, hdata⟩ := hspares.left hnot hremoves hopens
        exact ⟨fun htmp => (file_at_file.mpr (hdata htmp)).symm, fun hnone => absurd hnone hthere⟩
    · -- nothing happened
      rw [if_neg hopens]
      exact ⟨fun _ => ⟨fun hfree => absurd hfree (not_or.mpr ⟨hnot, hremoves⟩),
        fun _ _ hopens' => absurd hopens' hopens, fun _ hmoves => absurd hmoves hnot⟩,
        fun _ => ⟨fun _ => rfl, fun hnone => hnone⟩⟩

/-- The write has a target in the workspace, and the target is no directory. -/
theorem target_file {d : FsPath} (hhome : s.home h agent_id = some d)
    (hres : s.resolve h agent_id relative_path = .ok (dir ++ [name]))
    (hmoves : Moves h f s.tree dir name) : AgentFile h s (dir ++ [name]) := by
  refine ⟨agent_id, d, hhome, resolve_home hres hhome, ?_⟩
  rintro heq
  exact hmoves.2.2.2 (heq ▸ home_entry hhome)

/-! ### After the move -/

section AfterMove

variable {t' : Tree}

theorem AfterMove.files (hafter : AfterMove made t' dir name data) (hext : Extends s.tree made) (p : FsPath) :
    file_at t' p = if p = dir ++ [name] then some (.file data)
      else if p = dir ++ [name ++ ".tmp"] then none else file_at s.tree p := by
  have hentry := hafter p
  split
  · rename_i hp
    rw [if_pos hp] at hentry
    exact file_at_file.mpr hentry
  · rename_i hp
    rw [if_neg hp] at hentry
    split
    · rename_i hp
      rw [if_pos hp] at hentry
      rw [file_at, hentry]
      rfl
    · rename_i hp
      rw [if_neg hp] at hentry
      rw [file_at_of_entry hentry, file_at_made hext]

/-- The move replaces files only. -/
theorem AfterMove.keeps (hafter : AfterMove made t' dir name data) (hext : Extends s.tree made)
    (hplain : Plain s.tree dir name) (hmoves : Moves h f s.tree dir name) {p : FsPath} {e : Entry String UInt8}
    (he : s.tree.entry p = some e) (hnot : ∀ data, e ≠ .file data) : t'.entry p = some e := by
  have hold := hext.of_some he
  rw [hafter, if_neg, if_neg, hold]
  · rintro rfl
    cases e with
    | file part => exact hnot part rfl
    | dir => exact hmoves.1.2.2 he
    | link r => exact hplain.no_link r he
  · rintro rfl
    cases e with
    | file part => exact hnot part rfl
    | dir => exact hmoves.2.2.2 he
    | link r => exact hplain.straight _ List.prefix_rfl r he

theorem AfterMove.same_links (hafter : AfterMove made t' dir name data) (hext : Extends s.tree made)
    (hplain : Plain s.tree dir name) (hmoves : Moves h f s.tree dir name) : SameLinks s.tree t' := by
  intro p r
  refine ⟨fun he => hafter.keeps hext hplain hmoves he (by simp), fun he => ?_⟩
  rw [hafter] at he
  split at he
  · cases he
  · split at he
    · cases he
    · exact (hext.sameLinks p r).mpr he

/-- The condition, in terms of the tree after the move. -/
theorem AfterMove.spares_iff (hafter : AfterMove made t' dir name data) (hext : Extends s.tree made)
    (hmoves : Moves h f s.tree dir name) :
    Spares h f s data dir name ↔
      (∀ p, AgentFile h s p → p ≠ dir ++ [name] → file_at t' p = file_at s.tree p) ∧
      (f.record = true → s.tree.entry (dir ++ [name]) = some (.file data)) := by
  have hother : (AgentFile h s (dir ++ [name ++ ".tmp"]) → file_at s.tree (dir ++ [name ++ ".tmp"]) = none) ↔
      ∀ p, AgentFile h s p → p ≠ dir ++ [name] → file_at t' p = file_at s.tree p := by
    have htmp : dir ++ [name ++ ".tmp"] ≠ dir ++ [name] := by simp
    constructor
    · intro hnone p hp hne
      rw [hafter.files hext, if_neg hne]
      split
      · rename_i heq
        subst heq
        exact (hnone hp).symm
      · rfl
    · intro hall hp
      rw [← hall _ hp htmp, hafter.files hext, if_neg htmp, if_pos rfl]
  rw [← hother]
  exact ⟨fun hs => ⟨hs.vacated (.inl hmoves), fun hrecord => hs.recorded hrecord hmoves⟩,
    fun hs => ⟨fun _ => hs.1, fun hnot => absurd hmoves hnot, fun hrecord _ => hs.2 hrecord⟩⟩

end AfterMove

/-- A write that moves its file. -/
theorem moved_atomic_iff (hhoused : Housed h s agent_id) (hplain : Plain s.tree dir name)
    (hg : Gets h f s agent_id relative_path data dir name row made dirs) (hmoves : Moves h f s.tree dir name)
    (herror : f.record = true → ∃ e, (write h f agent_id relative_path data s).1 = .error e)
    (hok : f.record = false → ∃ r, (write h f agent_id relative_path data s).1 = .ok r)
    (hafter : AfterMove made (write h f agent_id relative_path data s).2.tree dir name data) :
    Atomic h f s agent_id relative_path data ↔ Spares h f s data dir name := by
  have hext := (mkdirs_spec hg.made).1
  obtain ⟨d, hd, -, -⟩ := resolve_ok hg.resolved
  have hhome := hhoused d hd
  have hfile := hafter.files hext
  rw [hafter.spares_iff hext hmoves]
  cases hrecord : f.record with
  | true =>
      -- the row was not written: nothing may have changed
      rw [atomic_of_error (herror hrecord)]
      constructor
      · rintro ⟨hfiles, -⟩
        refine ⟨fun p hp _ => hfiles p hp, fun _ => ?_⟩
        rw [← file_at_file, ← hfiles _ (target_file hhome hg.resolved hmoves), hfile, if_pos rfl]
      · rintro ⟨hfiles, hsame⟩
        have hdata := file_at_file.mpr (hsame rfl)
        refine ⟨fun p hp => ?_, fun p hnone => ?_⟩
        · by_cases heq : p = dir ++ [name]
          · rw [heq, hfile, if_pos rfl, hdata]
          · exact hfiles p hp heq
        · rw [hfile]
          split
          · rename_i heq
            rw [heq, hdata] at hnone
            cases hnone
          · split
            · rfl
            · exact hnone
  | false =>
      have hread : (read_own h agent_id relative_path
          (write h f agent_id relative_path data s).2).1 = .ok data := by
        refine read_back h (write_frame ..).1 hhome hg.resolved hplain.straight ?_
          (hafter.same_links hext hplain hmoves) ?_
        · exact fun p he => hafter.keeps hext hplain hmoves he (by simp)
        · rw [hafter, if_pos rfl]
      obtain ⟨r, hr⟩ := hok hrecord
      unfold Atomic
      generalize write h f agent_id relative_path data s = out at hr hread ⊢
      obtain ⟨result, s'⟩ := out
      cases hr
      constructor
      · rintro ⟨-, target, hres, hfiles⟩
        rw [hg.resolved] at hres
        cases hres
        exact ⟨hfiles, by simp⟩
      · rintro ⟨hfiles, -⟩
        exact ⟨hread, _, hg.resolved, hfiles⟩

end Stored

/-- **Atomic writes.** Whatever calls fail: without links, a write is atomic exactly if it is harmless. -/
theorem write_atomic_iff {h : Host String UInt8} {f : Faults} {s : Storage}
    {agent_id relative_path : String} {data : Bytes} (hhoused : Housed h s agent_id)
    (hfree : LinkFree h s agent_id relative_path) :
    Atomic h f s agent_id relative_path data ↔ Harmless h f s agent_id relative_path data := by
  by_cases hgets : ∃ dir name row made dirs,
      Gets h f s agent_id relative_path data dir name row made dirs
  · obtain ⟨dir, name, row, made, dirs, hg⟩ := hgets
    have hplain := hfree dir name hg.resolved
    have hext := (mkdirs_spec hg.made).1
    obtain ⟨htree, -, herror, hok⟩ := write_stores (f := f) hg.resolved hg.probed hg.began hg.has_row hg.within
    rw [harmless_iff hg]
    rcases hplain.stored data hg.mkdir hg.made with
      ⟨e, hresult, hnot, hentries⟩ | ⟨hresult, hmoves, hentries⟩
    · refine not_moved_atomic_iff hnot (herror (.inl ⟨e, hresult⟩)) fun p => ?_
      have hentry := hentries p
      rw [← htree] at hentry
      split
      · rename_i hp
        rw [if_pos hp] at hentry
        rw [file_at, hentry]
      · rename_i hp
        rw [if_neg hp] at hentry
        rw [file_at_of_entry hentry, file_at_made hext]
    · refine moved_atomic_iff hhoused hplain hg hmoves (fun hrecord => herror (.inr hrecord))
        (hok hresult) fun p => ?_
      rw [htree]
      exact hentries p
  · push Not at hgets
    exact ⟨fun _ dir name row made dirs hg => absurd hg (hgets dir name row made dirs),
      fun _ => atomic_of_not_gets hhoused hgets⟩

/-- Below a root without links, no write meets one. -/
theorem linkFree_of_walled {h : Host String UInt8} {s : Storage} {agent_id : String}
    (hwalled : Walled s.tree s.root) (hhoused : Housed h s agent_id) (relative_path : String) :
    LinkFree h s agent_id relative_path := by
  intro dir name hres
  obtain ⟨d, hd, -, hunder⟩ := resolve_ok hres
  obtain ⟨-, r, hroot, -, rfl⟩ := home_some (hhoused d hd)
  rw [follow_straight_eq hwalled.straight hroot] at hunder
  exact hwalled.plain (Walled.dir_below hunder) name

theorem write_atomic_iff_acme :
    Atomic linux {} (.acme []) "alice" "notes.txt" [1] ↔
      Harmless linux {} (.acme []) "alice" "notes.txt" [1] := by
  have hwalled : Walled (Storage.acme []).tree (Storage.acme []).root :=
    .of_rows (by decide +kernel) _
  have hhoused : Housed linux (Storage.acme []) "alice" := by
    have hhome : (Storage.acme []).home linux "alice" = some ["acme", "workspaces", "alice"] := by
      decide +kernel
    intro d hd
    rw [follow_home hhome] at hd
    cases hd
    exact hhome
  exact write_atomic_iff hhoused (linkFree_of_walled hwalled hhoused _)

/-- A file of an agent that an atomic write leaves alone. -/
theorem atomic_keeps {h : Host String UInt8} {f : Faults} {s : Storage} {agent_id relative_path : String}
    {data : Bytes} {p target : FsPath} (hatomic : Atomic h f s agent_id relative_path data)
    (hp : AgentFile h s p) (hres : s.resolve h agent_id relative_path = .ok target) (hne : p ≠ target) :
    file_at (write h f agent_id relative_path data s).2.tree p = file_at s.tree p := by
  unfold Atomic at hatomic
  generalize write h f agent_id relative_path data s = out at hatomic ⊢
  obtain ⟨result, s'⟩ := out
  cases result with
  | error e => exact hatomic.1 p hp
  | ok r =>
      obtain ⟨-, target', hres', hfiles⟩ := hatomic
      rw [hres] at hres'
      cases hres'
      exact hfiles p hp hne

/-- **A write that loses a file.** With `x.tmp` in the workspace, a write of `x` returns, and `x.tmp` is
    gone. -/
theorem loses_file : ¬ Atomic linux {} (.acme [(["acme", "workspaces", "alice", "x.tmp"], .file [9])])
    "alice" "x" [1] := by
  intro hatomic
  have hagent : AgentFile linux (.acme [(["acme", "workspaces", "alice", "x.tmp"], .file [9])])
      ["acme", "workspaces", "alice", "x.tmp"] :=
    ⟨"alice", ["acme", "workspaces", "alice"], by decide +kernel, by decide⟩
  have hres : (Storage.acme [(["acme", "workspaces", "alice", "x.tmp"], .file [9])]).resolve linux "alice" "x" =
      .ok ["acme", "workspaces", "alice", "x"] := by decide +kernel
  have hkept := atomic_keeps hatomic hagent hres (by decide)
  have hlost : file_at (write linux {} "alice" "x" [1]
      (.acme [(["acme", "workspaces", "alice", "x.tmp"], .file [9])])).2.tree
      ["acme", "workspaces", "alice", "x.tmp"] = none := by decide +kernel
  rw [hlost] at hkept
  revert hkept
  decide +kernel

end Storage

end CompanyFactory
