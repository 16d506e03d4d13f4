import CompanyFactory.Storage.Workspace

/-!
# `Storage.Store` — what `store_file` does to the tree

Once the directory of the target is made, its path leads to a directory `d`, and everything else happens at
two names in it: the target's, and the temporary one. The lemmas fix the two places (`Ready`), say what the
clean-up does there, and sum `store_file` up in one case analysis (`store_file_cases`): it gives up before
the temporary file is opened, or the file is cut short or not moved, or it is moved over the target.
-/

namespace CompanyFactory

open FileTree

namespace Storage

theorem tmp_path_concat (dir : FsPath) (name : String) :
    tmp_path (dir ++ [name]) = dir ++ [name ++ ".tmp"] := by
  simp [tmp_path]

theorem tmp_ne (name : String) : name ++ ".tmp" ≠ name := by
  intro heq
  have hlen := congrArg String.length heq
  rw [String.length_append] at hlen
  have htmp : ".tmp".length = 4 := rfl
  omega

/-- The path `dir` leads to the directory `d`. -/
structure Ready (h : Host String UInt8) (u : Tree) (dir d : FsPath) : Prop where
  leads : h.follow u (names dir) = .ok d
  is_dir : u.entry d = some .dir

namespace Ready

variable {h : Host String UInt8} {u : Tree} {dir d : FsPath}

theorem slot (hready : Ready h u dir d) (name : String) :
    h.slot u (names (dir ++ [name])) = .ok (d ++ [name]) := slot_concat name hready.leads hready.is_dir

theorem of_mkdirs {t : Tree} {dirs : List FsPath} (hmk : h.mkdirs t dir = .ok (u, dirs)) :
    Ready h u dir (h.landing t dir) where
  leads := (mkdirs_spec hmk).2.1
  is_dir := (mkdirs_spec hmk).2.2.1

/-- A file that is put where no link is leaves the directory where it was. -/
theorem put (hready : Ready h u dir d) {p : FsPath} {data : Bytes} (hopen : u.Open p)
    (hlink : ∀ r, u.entry p ≠ some (.link r)) : Ready h (u.put p (.file data)) dir d where
  leads := walk_keeps (fun _ => keeps_dir hopen) (fun _ _ => keeps_link hopen hlink) _ hready.leads
    hready.is_dir
  is_dir := keeps_dir hopen hready.is_dir

/-- A file is moved over another name of the directory, unless that holds a directory. -/
theorem replace (hready : Ready h u dir d) {a b : String} (hne : a ≠ b) {data : Bytes}
    (ha : u.entry (d ++ [a]) = some (.file data)) :
    h.replace u (dir ++ [a]) (dir ++ [b]) =
      if u.entry (d ++ [b]) = some .dir then .error .EISDIR
      else .ok (d ++ [a], d ++ [b], (u.remove (d ++ [a])).put (d ++ [b]) (.file data)) := by
  have hplaces : d ++ [a] ≠ d ++ [b] := by simpa using hne
  simp [Host.replace, hready.slot, ha, hplaces]

/-- The clean-up removes the file or link that the temporary name holds, if it leads somewhere. -/
theorem clean_up (hready : Ready h u dir d) (f : Faults) (name : String) :
    (h.stat u (names (dir ++ [name ++ ".tmp"])) ≠ none ∧ f.unlink = false ∧
        (∃ e, u.entry (d ++ [name ++ ".tmp"]) = some e ∧ e ≠ .dir) ∧
        Storage.clean_up h f u (dir ++ [name]) =
          (u.remove (d ++ [name ++ ".tmp"]), [d ++ [name ++ ".tmp"]])) ∨
      (h.stat u (names (dir ++ [name ++ ".tmp"])) = none ∨ f.unlink = true ∨
          ∀ e, u.entry (d ++ [name ++ ".tmp"]) = some e → e = .dir) ∧
        Storage.clean_up h f u (dir ++ [name]) = (u, []) := by
  have hslot := hready.slot (name ++ ".tmp")
  unfold Storage.clean_up
  rw [tmp_path_concat]
  cases hstat : h.stat u (names (dir ++ [name ++ ".tmp"])) with
  | none => exact .inr ⟨.inl rfl, rfl⟩
  | some e =>
      cases hf : f.unlink with
      | true => exact .inr ⟨.inr (.inl rfl), rfl⟩
      | false =>
          cases hentry : u.entry (d ++ [name ++ ".tmp"]) with
          | none => exact .inr ⟨.inr (.inr (by simp)), by simp [Host.unlink, hslot, hentry]⟩
          | some e =>
              cases e with
              | dir => exact .inr ⟨.inr (.inr (by simp)), by simp [Host.unlink, hslot, hentry]⟩
              | file | link =>
                  exact .inl ⟨by simp, rfl, ⟨_, rfl, by simp⟩, by simp [Host.unlink, hslot, hentry]⟩

end Ready

/-! ## The ways `store_file` ends -/

/-- A tree and what the clean-up removed from it. -/
def Cleaned (h : Host String UInt8) (f : Faults) (w : Tree) (target : FsPath) (u : Tree)
    (gone : List FsPath) : Prop :=
  (u, gone) = clean_up h f w target ∨ (u = w ∧ gone = [])

/-- How `store_file` ends for the target `dir / name`. -/
inductive Stored (h : Host String UInt8) (f : Faults) (t : Tree) (dir : FsPath) (name : String)
    (data : Bytes) : Except StorageError Unit × Tree × List FsPath → Prop
  /-- the directory cannot be made -/
  | no_dir (e : StorageError) : Stored h f t dir name data (.error e, t, [])
  /-- the temporary file cannot be opened -/
  | no_tmp {made u : Tree} {dirs gone : List FsPath} (e : StorageError)
      (hmk : h.mkdirs t dir = .ok (made, dirs)) (hclean : Cleaned h f made (dir ++ [name]) u gone) :
      Stored h f t dir name data (.error e, u, dirs ++ gone)
  /-- the temporary file is cut short, or it cannot be moved -/
  | not_moved {made u : Tree} {dirs gone : List FsPath} {place : FsPath} (part : Bytes) (e : StorageError)
      (hmk : h.mkdirs t dir = .ok (made, dirs))
      (hplace : h.place made (dir ++ [name ++ ".tmp"]) = .ok place)
      (hclean : (u, gone) = clean_up h f (made.put place (.file part)) (dir ++ [name])) :
      Stored h f t dir name data (.error e, u, dirs ++ [place] ++ gone)
  | moved {made u : Tree} {dirs : List FsPath} {place src dst : FsPath}
      (hmk : h.mkdirs t dir = .ok (made, dirs))
      (hplace : h.place made (dir ++ [name ++ ".tmp"]) = .ok place)
      (hreplace : h.replace (made.put place (.file data)) (dir ++ [name ++ ".tmp"]) (dir ++ [name]) =
        .ok (src, dst, u)) :
      Stored h f t dir name data (.ok (), u, dirs ++ [place, src, dst])

/-- The paths of the target `dir / name` and of its temporary file are their own places. -/
structure Plain (t : Tree) (dir : FsPath) (name : String) : Prop where
  straight : t.Straight (dir ++ [name])
  no_link : ∀ r, t.entry (dir ++ [name ++ ".tmp"]) ≠ some (.link r)

/-- The temporary file can be opened. -/
def Opens (h : Host String UInt8) (f : Faults) (t : Tree) (dir : FsPath) (name : String) : Prop :=
  f.open_tmp = false ∧ h.refused (name ++ ".tmp") = false ∧
    t.entry (dir ++ [name ++ ".tmp"]) ≠ some .dir

/-- Once it is opened, it is written whole and moved. -/
def Moves (h : Host String UInt8) (f : Faults) (t : Tree) (dir : FsPath) (name : String) : Prop :=
  Opens h f t dir name ∧ f.short = none ∧ f.replace = false ∧ t.entry (dir ++ [name]) ≠ some .dir

/-- What `write_bytes` writes before it fails. -/
def written (f : Faults) (data : Bytes) : Bytes :=
  match f.short with
  | some n => data.take n
  | none => data

/-- After an error, what is at the temporary name is unlinked: it is no directory, and the error is not that
    the host refuses the name. -/
def Removes (h : Host String UInt8) (f : Faults) (t : Tree) (dir : FsPath) (name : String) : Prop :=
  t.entry (dir ++ [name ++ ".tmp"]) ≠ some .dir ∧ f.unlink = false ∧
    (f.open_tmp = true ∨ h.refused (name ++ ".tmp") = false)

instance (h : Host String UInt8) (f : Faults) (t : Tree) (dir : FsPath) (name : String) :
    Decidable (Opens h f t dir name) := by
  unfold Opens
  infer_instance

instance (h : Host String UInt8) (f : Faults) (t : Tree) (dir : FsPath) (name : String) :
    Decidable (Removes h f t dir name) := by
  unfold Removes
  infer_instance

/-- What is at the temporary name after an error. -/
def leftover (h : Host String UInt8) (f : Faults) (t : Tree) (dir : FsPath) (name : String)
    (data : Bytes) : Option (Entry String UInt8) :=
  if Removes h f t dir name then none
  else if Opens h f t dir name then some (.file (written f data))
  else t.entry (dir ++ [name ++ ".tmp"])

/-- What a tree is after the move: the data is at the target, and nothing at the temporary name. -/
def AfterMove (made t' : Tree) (dir : FsPath) (name : String) (data : Bytes) : Prop :=
  ∀ p, t'.entry p = if p = dir ++ [name] then some (.file data)
    else if p = dir ++ [name ++ ".tmp"] then none else made.entry p

namespace Plain

variable {h : Host String UInt8} {t made : Tree} {dir : FsPath} {name : String} {dirs : List FsPath}

theorem no_link_made (hplain : Plain t dir name) (hmk : h.mkdirs t dir = .ok (made, dirs))
    (r : Route String) : made.entry (dir ++ [name ++ ".tmp"]) ≠ some (.link r) := by
  intro hlink
  exact hplain.no_link r (((mkdirs_spec hmk).1.same (by simp)).mp hlink)

theorem ready (hplain : Plain t dir name) (hmk : h.mkdirs t dir = .ok (made, dirs)) :
    Ready h made dir dir := by
  obtain ⟨hext, hleads, -⟩ := mkdirs_spec hmk
  have hstraight : made.Straight dir :=
    hext.sameLinks.straight (hplain.straight.front (List.prefix_append _ _))
  have hready := Ready.of_mkdirs hmk
  rwa [follow_straight_eq hstraight hleads] at hready

/-- The directories that were made are above the two names. -/
theorem made_entry (hplain : Plain t dir name) (hmk : h.mkdirs t dir = .ok (made, dirs)) (n : String) :
    made.entry (dir ++ [n]) = t.entry (dir ++ [n]) := by
  obtain ⟨-, hleads, -, hmade, hother⟩ := mkdirs_spec hmk
  refine hother _ fun hmem => ?_
  have hlanding : h.landing t dir = dir := by
    have hready := (hplain.ready hmk).leads
    rw [hready] at hleads
    exact (Except.ok.inj hleads).symm
  have hlen := (hmade _ hmem).1.length_le
  rw [hlanding, List.length_append, List.length_singleton] at hlen
  omega

theorem place (hplain : Plain t dir name) (hmk : h.mkdirs t dir = .ok (made, dirs)) :
    h.place made (dir ++ [name ++ ".tmp"]) =
      if h.refused (name ++ ".tmp") then .error .EINVAL
      else if made.entry (dir ++ [name ++ ".tmp"]) = some .dir then .error .EISDIR
      else .ok (dir ++ [name ++ ".tmp"]) :=
  place_concat (hplain.ready hmk).leads (hplain.ready hmk).is_dir (hplain.no_link_made hmk)

/-- The clean-up removes a file that the temporary name holds. -/
theorem cleaned {u : Tree} {f : Faults} (hready : Ready h u dir dir)
    (hlink : ∀ r, u.entry (dir ++ [name ++ ".tmp"]) ≠ some (.link r)) (p : FsPath) :
    (clean_up h f u (dir ++ [name])).1.entry p =
      if p = dir ++ [name ++ ".tmp"] ∧ u.entry (dir ++ [name ++ ".tmp"]) ≠ some .dir ∧ f.unlink = false
      then none else u.entry p := by
  rcases hready.clean_up f name with ⟨-, hunlink, ⟨e, he, hdir⟩, hclean⟩ | ⟨hnot, hclean⟩
  · have hnotdir : u.entry (dir ++ [name ++ ".tmp"]) ≠ some .dir := by
      rw [he]
      exact fun heq => hdir (Option.some_inj.mp heq)
    rw [hclean, entry_remove u hnotdir]
    simp [hnotdir, hunlink]
  · rw [hclean]
    split
    · rename_i hp
      obtain ⟨rfl, hnotdir, hunlink⟩ := hp
      cases hentry : u.entry (dir ++ [name ++ ".tmp"]) with
      | none => rfl
      | some e =>
          exfalso
          rcases hnot with hnone | hfault | hdir
          · -- a file is found by `stat`
            have hwalk : h.follow u (names (dir ++ [name ++ ".tmp"])) = .ok (dir ++ [name ++ ".tmp"]) := by
              have hleads := hready.leads
              unfold Host.follow at hleads ⊢
              rw [names_concat, walk_append, hleads]
              show u.walk h.limit dir [.into _] = _
              rw [walk_into hready.is_dir, hentry]
              cases e with
              | file | dir => rfl
              | link r => exact absurd hentry (hlink r)
            simp [Host.stat, hwalk, Except.toOption, hentry] at hnone
          · rw [hunlink] at hfault
            cases hfault
          · exact hnotdir (hdir e hentry ▸ hentry)
    · rfl

theorem tmp_open (hplain : Plain t dir name) {f : Faults} (hmk : h.mkdirs t dir = .ok (made, dirs))
    (hopens : Opens h f t dir name) : made.Open (dir ++ [name ++ ".tmp"]) := by
  refine ⟨by simp, ?_, ?_⟩
  · rw [List.dropLast_concat]
    exact (hplain.ready hmk).is_dir
  · rw [hplain.made_entry hmk]
    exact hopens.2.2

/-! ### The body of the `try` statement -/

/-- How the body ends. -/
inductive Tried (h : Host String UInt8) (f : Faults) (t made : Tree) (dir : FsPath) (name : String)
    (data : Bytes) : Except StorageError Unit × Tree × List FsPath → Prop
  | not_opened (e : Errno) (hnot : ¬ Opens h f t dir name)
      (hos : f.open_tmp = true ∨ h.refused (name ++ ".tmp") = false) :
      Tried h f t made dir name data (.error (.os e), made, [])
  /-- a `ValueError`, without clean-up -/
  | refused (e : StorageError) (hos : ∀ errno, e ≠ .os errno) (hopen : f.open_tmp = false)
      (hnamed : h.refused (name ++ ".tmp") = true) :
      Tried h f t made dir name data (.error e, made, [])
  | not_moved (e : Errno) (touched : List FsPath) (hopens : Opens h f t dir name)
      (hnot : ¬ Moves h f t dir name) :
      Tried h f t made dir name data
        (.error (.os e), made.put (dir ++ [name ++ ".tmp"]) (.file (written f data)), touched)
  | moved (u : Tree) (touched : List FsPath) (hmoves : Moves h f t dir name)
      (hentries : ∀ p, u.entry p = if p = dir ++ [name] then some (.file data)
        else if p = dir ++ [name ++ ".tmp"] then none else made.entry p) :
      Tried h f t made dir name data (.ok (), u, touched)

/-- The temporary file is not opened. -/
theorem tried_not_opened (hplain : Plain t dir name) {f : Faults}
    (hmk : h.mkdirs t dir = .ok (made, dirs)) (data : Bytes) (hnot : ¬ Opens h f t dir name) :
    Tried h f t made dir name data (write_replace h f made (dir ++ [name]) data) := by
  have hplace := hplain.place hmk
  rw [hplain.made_entry hmk] at hplace
  unfold write_replace
  rw [tmp_path_concat]
  cases hopen : f.open_tmp with
  | true => exact .not_opened .failed hnot (.inl hopen)
  | false =>
      simp only [Bool.false_eq_true, if_false]
      cases hnamed : h.refused (name ++ ".tmp") with
      | true =>
          rw [hplace, hnamed]
          exact .refused _ (by simp [StorageError.of_errno]) hopen hnamed
      | false =>
          have hdir : t.entry (dir ++ [name ++ ".tmp"]) = some .dir := by
            by_contra hdir
            exact hnot ⟨hopen, hnamed, hdir⟩
          rw [hplace, hnamed, if_neg Bool.false_ne_true, if_pos hdir]
          exact .not_opened .EISDIR hnot (.inr hnamed)

/-- The temporary file is opened. -/
theorem tried_opened (hplain : Plain t dir name) {f : Faults}
    (hmk : h.mkdirs t dir = .ok (made, dirs)) (data : Bytes) (hopens : Opens h f t dir name) :
    Tried h f t made dir name data (write_replace h f made (dir ++ [name]) data) := by
  obtain ⟨hopen, hnamed, hdir⟩ := id hopens
  have hopened := hplain.tmp_open hmk hopens
  have hplace : h.place made (dir ++ [name ++ ".tmp"]) = .ok (dir ++ [name ++ ".tmp"]) := by
    rw [hplain.place hmk, hplain.made_entry hmk, hnamed, if_neg Bool.false_ne_true, if_neg hdir]
  unfold write_replace
  rw [tmp_path_concat, hopen, if_neg Bool.false_ne_true, hplace]
  cases hshort : f.short with
  | some n =>
      have hpart : data.take n = written f data := by rw [written, hshort]
      simp only
      rw [hpart]
      exact .not_moved .failed _ hopens fun hmoves => by simp [hmoves.2.1] at hshort
  | none =>
      have hpart : data = written f data := by rw [written, hshort]
      cases hrename : f.replace with
      | true =>
          have hnot : ¬ Moves h f t dir name := fun hmoves => by simp [hmoves.2.2.1] at hrename
          have htried : Tried h f t made dir name data _ :=
            .not_moved .failed [dir ++ [name ++ ".tmp"]] hopens hnot
          rw [← hpart] at htried
          exact htried
      | false =>
          have hplaces : dir ++ [name] ≠ dir ++ [name ++ ".tmp"] := by simpa using (tmp_ne name).symm
          have htmp : (made.put (dir ++ [name ++ ".tmp"]) (.file data)).entry (dir ++ [name ++ ".tmp"]) =
              some (.file data) := by rw [entry_put hopened, if_pos rfl]
          have htarget : (made.put (dir ++ [name ++ ".tmp"]) (.file data)).entry (dir ++ [name]) =
              t.entry (dir ++ [name]) := by
            rw [entry_put hopened, if_neg hplaces, hplain.made_entry hmk]
          have hreplace := ((hplain.ready hmk).put hopened (hplain.no_link_made hmk)).replace (tmp_ne name) htmp
          rw [htarget] at hreplace
          simp only [Bool.false_eq_true, if_false]
          by_cases hisdir : t.entry (dir ++ [name]) = some .dir
          · have hnot : ¬ Moves h f t dir name := fun hmoves => hmoves.2.2.2 hisdir
            have htried : Tried h f t made dir name data _ :=
              .not_moved .EISDIR [dir ++ [name ++ ".tmp"]] hopens hnot
            rw [← hpart] at htried
            rw [hreplace, if_pos hisdir]
            exact htried
          · rw [if_neg hisdir] at hreplace
            rw [hreplace]
            refine .moved _ _ ⟨hopens, hshort, hrename, hisdir⟩ fun p => ?_
            obtain ⟨-, -, e, he, -, -, hentries⟩ := replace_spec hreplace
            rw [htmp] at he
            cases he
            rw [hentries]
            by_cases hp : p = dir ++ [name ++ ".tmp"]
            · simp [hp]
            · simp [hp, entry_put hopened]

theorem tried (hplain : Plain t dir name) (f : Faults) (hmk : h.mkdirs t dir = .ok (made, dirs))
    (data : Bytes) : Tried h f t made dir name data (write_replace h f made (dir ++ [name]) data) := by
  by_cases hopens : Opens h f t dir name
  · exact hplain.tried_opened hmk data hopens
  · exact hplain.tried_not_opened hmk data hopens

/-! ### The whole of it -/

/-- The temporary name after the clean-up, if the file was not opened. -/
theorem cleaned_not_opened (hplain : Plain t dir name) {f : Faults}
    (hmk : h.mkdirs t dir = .ok (made, dirs)) (data : Bytes) (hnot : ¬ Opens h f t dir name)
    (hos : f.open_tmp = true ∨ h.refused (name ++ ".tmp") = false) (p : FsPath) :
    (clean_up h f made (dir ++ [name])).1.entry p =
      if p = dir ++ [name ++ ".tmp"] then leftover h f t dir name data else made.entry p := by
  have htmp := hplain.made_entry hmk (name ++ ".tmp")
  rw [cleaned (hplain.ready hmk) (hplain.no_link_made hmk), htmp]
  by_cases hp : p = dir ++ [name ++ ".tmp"]
  · rw [if_pos hp, leftover]
    by_cases hremoves : Removes h f t dir name
    · rw [if_pos hremoves, if_pos ⟨hp, hremoves.1, hremoves.2.1⟩]
    · rw [if_neg hremoves, if_neg hnot, if_neg fun hc => hremoves ⟨hc.2.1, hc.2.2, hos⟩, hp, htmp]
  · rw [if_neg fun hc => hp hc.1, if_neg hp]

/-- The temporary name after the clean-up, if the file was written. -/
theorem cleaned_opened (hplain : Plain t dir name) {f : Faults}
    (hmk : h.mkdirs t dir = .ok (made, dirs)) (data : Bytes) (hopens : Opens h f t dir name) (p : FsPath) :
    (clean_up h f (made.put (dir ++ [name ++ ".tmp"]) (.file (written f data))) (dir ++ [name])).1.entry p =
      if p = dir ++ [name ++ ".tmp"] then leftover h f t dir name data else made.entry p := by
  have hopened := hplain.tmp_open hmk hopens
  have hlink := hplain.no_link_made hmk
  have htmp : (made.put (dir ++ [name ++ ".tmp"]) (.file (written f data))).entry (dir ++ [name ++ ".tmp"]) =
      some (.file (written f data)) := by rw [entry_put hopened, if_pos rfl]
  rw [cleaned ((hplain.ready hmk).put hopened hlink) (by simp [htmp])]
  by_cases hp : p = dir ++ [name ++ ".tmp"]
  · subst hp
    rw [if_pos rfl, leftover]
    by_cases hunlink : f.unlink = false
    · rw [if_pos ⟨rfl, by simp [htmp], hunlink⟩, if_pos ⟨hopens.2.2, hunlink, .inr hopens.2.1⟩]
    · rw [if_neg fun hc => hunlink hc.2.2, htmp, if_neg fun hc => hunlink hc.2.1, if_pos hopens]
  · rw [if_neg fun hc => hp hc.1, if_neg hp, entry_put hopened, if_neg hp]

/-- **What `store_file` does without links.** It raises, and only the temporary name is not as before; or it
    moves the file. -/
theorem stored (hplain : Plain t dir name) {f : Faults} (data : Bytes) (hmkdir : f.mkdir = false)
    (hmk : h.mkdirs t dir = .ok (made, dirs)) :
    (∃ e, (store_file h f t (dir ++ [name]) data).1 = .error e ∧ ¬ Moves h f t dir name ∧
        ∀ p, (store_file h f t (dir ++ [name]) data).2.1.entry p =
          if p = dir ++ [name ++ ".tmp"] then leftover h f t dir name data else made.entry p) ∨
      ((store_file h f t (dir ++ [name]) data).1 = .ok () ∧ Moves h f t dir name ∧
        ∀ p, (store_file h f t (dir ++ [name]) data).2.1.entry p =
          if p = dir ++ [name] then some (.file data)
          else if p = dir ++ [name ++ ".tmp"] then none else made.entry p) := by
  have hne : dir ++ [name] ≠ [] := by simp
  have htried := hplain.tried f hmk data
  unfold store_file
  rw [List.dropLast_concat, hmkdir, if_neg Bool.false_ne_true, hmk]
  simp only [hne, if_false]
  generalize write_replace h f made (dir ++ [name]) data = out at htried ⊢
  cases htried with
  | not_opened e hnot hos =>
      exact .inl ⟨_, rfl, fun hmoves => hnot hmoves.1, hplain.cleaned_not_opened hmk data hnot hos⟩
  | refused e hos hopen hnamed =>
      have hnot : ¬ Opens h f t dir name := fun hopens => by simp [hopens.2.1] at hnamed
      have hkeeps : ¬ Removes h f t dir name := fun hremoves => by
        simpa [hopen, hnamed] using hremoves.2.2
      cases e with
      | os errno => exact absurd rfl (hos errno)
      | _ =>
          refine .inl ⟨_, rfl, fun hmoves => hnot hmoves.1, fun p => ?_⟩
          by_cases hp : p = dir ++ [name ++ ".tmp"]
          · rw [if_pos hp, leftover, if_neg hkeeps, if_neg hnot, hp]
            exact hplain.made_entry hmk _
          · rw [if_neg hp]
  | not_moved e touched hopens hnot => exact .inl ⟨_, rfl, hnot, hplain.cleaned_opened hmk data hopens⟩
  | moved u touched hmoves hentries => exact .inr ⟨rfl, hmoves, hentries⟩

end Plain

/-! ## A tree without links below the root

The operations make no links, so a workspaces root that has none below it keeps having none. -/

/-- No link is met on the way to `root`, and none is below it. -/
structure Walled (t : Tree) (root : FsPath) : Prop where
  straight : t.Straight root
  no_link : ∀ p, root <+: p → ∀ r, t.entry p ≠ some (.link r)

namespace Walled

variable {t : Tree} {root : FsPath}

theorem straight_below (hwalled : Walled t root) {p : FsPath} (hp : root <+: p) : t.Straight p := by
  intro q hq
  rcases List.prefix_or_prefix_of_prefix hq hp with hout | hin
  · exact hwalled.straight q hout
  · exact hwalled.no_link q hin

/-- The directory of a target that is below a part of the root is the root, or below it. -/
theorem dir_below {dir : FsPath} {part name : String} (h : root ++ [part] <+: dir ++ [name]) : root <+: dir := by
  have hlen := h.length_le
  simp only [List.length_append, List.length_singleton] at hlen
  exact List.prefix_of_prefix_length_le ((List.prefix_append _ _).trans h) (List.prefix_append _ _) (by omega)

/-- In such a tree, every target is plain. -/
theorem plain (hwalled : Walled t root) {dir : FsPath} (hdir : root <+: dir) (name : String) :
    Plain t dir name where
  straight := hwalled.straight_below (hdir.trans (List.prefix_append _ _))
  no_link := hwalled.no_link _ (hdir.trans (List.prefix_append _ _))

theorem of_rows (hlinks : ∀ row ∈ t.rows, row.2.isLink = false) (root : FsPath) : Walled t root := by
  have hno : ∀ p r, t.entry p ≠ some (.link r) := by
    intro p r hp
    have hne : p ≠ [] := by
      rintro rfl
      rw [entry_nil] at hp
      cases hp
    have hlink := hlinks _ (mem_of_entry hne hp)
    cases hlink
  exact ⟨fun q _ => hno q, fun p _ => hno p⟩

end Walled

end Storage

end CompanyFactory
