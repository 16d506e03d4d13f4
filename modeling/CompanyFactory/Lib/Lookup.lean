import CompanyFactory.Lib.FileTree

/-!
# `Lib.Lookup` — what a path leads to

Paths are resolved twice by a program that wants to know where they end. The **kernel** walks a path one
step at a time, follows every link on the way, and needs a directory before each step (`walk`, `follow`).
The **library** computes `realpath` from the texts of the links alone: a name that is missing is taken as
it stands, and on a loop of links the remainder is appended to the link that loops and the dots are
removed from the text (`joinrealpath`, `abspath`).

The two agree on a path that meets no link (`follow_straight`), and a path that `realpath` could resolve
meets none (`realpath_straight`). After a loop they can differ: the text that is left may go through other
links.

`realpath` looks at the links of the tree and at nothing else (`realpath_congr`).
-/

namespace FileTree

inductive Errno where
  | ENOENT | ENOTDIR | EISDIR | EEXIST | ELOOP
  /-- a name that no system call accepts -/
  | EINVAL
  /-- any other error -/
  | failed
  deriving DecidableEq, Repr

/-- What the host decides. -/
structure Host (N β : Type) [DecidableEq N] where
  /-- how deep links may nest -/
  limit : Nat
  /-- names that no system call accepts -/
  refused : N → Bool
  /-- the `st_size` of a directory -/
  dir_bytes : FileTree N β → List N → Nat

variable {N β : Type} [DecidableEq N]

/-- Where a link in the directory `cur` starts. -/
def Route.start (r : Route N) (cur : List N) : List N := if r.absolute then [] else cur

/-- A path of names, as steps. -/
def names (p : List N) : List (Step N) := p.map .into

omit [DecidableEq N] in
theorem names_concat (p : List N) (n : N) : names (p ++ [n]) = names p ++ [.into n] := by
  simp [names]

omit [DecidableEq N] in
theorem names_append (p q : List N) : names (p ++ q) = names p ++ names q := by
  simp [names]

/-! ## The kernel's walk -/

/-- One step from `cur`; `next` walks the route of a link. -/
def walkStep (t : FileTree N β) (next : List N → List (Step N) → Except Errno (List N))
    (cur : List N) (s : Step N) : Except Errno (List N) :=
  if t.entry cur = some .dir then
    match s with
    | .blank | .here => .ok cur
    | .up => .ok cur.dropLast
    | .into n =>
      match t.entry (cur ++ [n]) with
      | none => .error .ENOENT
      | some (.link r) => next (Route.start r cur) r.steps
      | some _ => .ok (cur ++ [n])
  else .error .ENOTDIR

theorem walkStep_error (t : FileTree N β) (next : List N → List (Step N) → Except Errno (List N))
    {cur : List N} (hcur : t.entry cur ≠ some .dir) (s : Step N) :
    walkStep t next cur s = .error .ENOTDIR := by
  unfold walkStep
  rw [if_neg hcur]

/-- Walk the steps from `cur`, following links up to the given depth. -/
def walk (t : FileTree N β) : Nat → List N → List (Step N) → Except Errno (List N)
  | 0, cur, steps => steps.foldlM (walkStep t fun _ _ => .error .ELOOP) cur
  | depth + 1, cur, steps => steps.foldlM (walkStep t (walk t depth)) cur

/-- What `walk` does with a link. -/
def walkLink (t : FileTree N β) : Nat → List N → List (Step N) → Except Errno (List N)
  | 0 => fun _ _ => .error .ELOOP
  | depth + 1 => walk t depth

theorem walk_eq (t : FileTree N β) (depth : Nat) (cur : List N) (steps : List (Step N)) :
    walk t depth cur steps = steps.foldlM (walkStep t (walkLink t depth)) cur := by
  cases depth <;> rfl

@[simp] theorem walk_nil (t : FileTree N β) (depth : Nat) (cur : List N) :
    walk t depth cur [] = .ok cur := by
  rw [walk_eq]
  rfl

theorem walk_cons (t : FileTree N β) (depth : Nat) (cur : List N) (s : Step N) (steps : List (Step N)) :
    walk t depth cur (s :: steps) =
      (walkStep t (walkLink t depth) cur s).bind fun next => walk t depth next steps := by
  rw [walk_eq, List.foldlM_cons]
  simp only [walk_eq]
  rfl

theorem walk_append (t : FileTree N β) (depth : Nat) (cur : List N) (xs ys : List (Step N)) :
    walk t depth cur (xs ++ ys) = (walk t depth cur xs).bind fun next => walk t depth next ys := by
  induction xs generalizing cur with
  | nil => rw [List.nil_append, walk_nil]; rfl
  | cons s xs ih =>
      rw [List.cons_append, walk_cons, walk_cons]
      cases walkStep t (walkLink t depth) cur s with
      | error e => rfl
      | ok next => exact ih next

/-- Where a path leads. -/
def Host.follow (h : Host N β) (t : FileTree N β) (steps : List (Step N)) : Except Errno (List N) :=
  walk t h.limit [] steps

/-- `os.stat`: the entry a path leads to. -/
def Host.stat (h : Host N β) (t : FileTree N β) (steps : List (Step N)) : Option (Entry N β) :=
  (h.follow t steps).toOption.bind t.entry

/-- Where the entry that a path names has its place, its last name not being followed. -/
def Host.slot (h : Host N β) (t : FileTree N β) (steps : List (Step N)) : Except Errno (List N) :=
  match steps.getLast? with
  | some (.into n) =>
    match h.follow t steps.dropLast with
    | .ok d => if t.entry d = some .dir then .ok (d ++ [n]) else .error .ENOTDIR
    | .error e => .error e
  | _ => h.follow t steps

/-- `os.lstat` sees a link. -/
def Host.is_symlink (h : Host N β) (t : FileTree N β) (steps : List (Step N)) : Bool :=
  match h.slot t steps with
  | .ok p => match t.entry p with
    | some (.link _) => true
    | _ => false
  | .error _ => false

/-- What holds at the root and is kept by every step that follows no link holds where a walk ends. -/
theorem walk_invariant {t : FileTree N β} {P : List N → Prop} (hroot : P [])
    (hup : ∀ p, P p → P p.dropLast)
    (hinto : ∀ p n e, P p → t.entry (p ++ [n]) = some e → (∀ r, e ≠ .link r) → P (p ++ [n]))
    (depth : Nat) : ∀ (steps : List (Step N)) {cur p : List N}, P cur →
      walk t depth cur steps = .ok p → P p := by
  induction depth using Nat.strongRecOn with
  | ind depth ihdepth =>
      intro steps
      induction steps with
      | nil =>
          intro cur p hcur hwalk
          rw [walk_nil] at hwalk
          cases hwalk
          exact hcur
      | cons s steps ih =>
          intro cur p hcur hwalk
          rw [walk_cons] at hwalk
          cases hstep : walkStep t (walkLink t depth) cur s with
          | error e =>
              rw [hstep] at hwalk
              cases hwalk
          | ok next =>
              rw [hstep] at hwalk
              refine ih ?_ hwalk
              unfold walkStep at hstep
              split at hstep
              · cases s with
                | blank | here => cases hstep; exact hcur
                | up => cases hstep; exact hup cur hcur
                | into n =>
                    cases hentry : t.entry (cur ++ [n]) with
                    | none => simp [hentry] at hstep
                    | some e =>
                        cases e with
                        | file | dir =>
                            simp only [hentry] at hstep
                            cases hstep
                            exact hinto cur n _ hcur hentry (by simp)
                        | link r =>
                            simp only [hentry] at hstep
                            have hstart : P (Route.start r cur) := by
                              unfold Route.start
                              split
                              · exact hroot
                              · exact hcur
                            cases depth with
                            | zero => cases hstep
                            | succ depth => exact ihdepth depth (Nat.lt_succ_self _) r.steps hstart hstep
              · cases hstep

/-- A walk ends at an entry of the tree. -/
theorem walk_entry {t : FileTree N β} {depth : Nat} {steps : List (Step N)} {cur p : List N}
    (hcur : t.entry cur ≠ none) (hwalk : walk t depth cur steps = .ok p) : t.entry p ≠ none := by
  refine walk_invariant (P := fun p => t.entry p ≠ none) ?_ ?_ ?_ depth steps hcur hwalk
  · rw [entry_nil]
    simp
  · intro p hp
    obtain ⟨e, he⟩ := Option.ne_none_iff_exists'.mp hp
    rw [entry_parent he]
    simp
  · intro p n e _ he _
    rw [he]
    simp

theorem follow_entry {h : Host N β} {t : FileTree N β} {steps : List (Step N)} {p : List N}
    (hfollow : h.follow t steps = .ok p) : t.entry p ≠ none :=
  walk_entry (by simp) hfollow

theorem walk_one (t : FileTree N β) (depth : Nat) (cur : List N) (s : Step N) :
    walk t depth cur [s] = walkStep t (walkLink t depth) cur s := by
  rw [walk_cons]
  cases walkStep t (walkLink t depth) cur s with
  | error e => rfl
  | ok next => exact walk_nil t depth next

theorem walk_into {t : FileTree N β} {depth : Nat} {cur : List N} (hcur : t.entry cur = some .dir) (n : N) :
    walk t depth cur [.into n] = match t.entry (cur ++ [n]) with
      | none => .error .ENOENT
      | some (.link r) => walkLink t depth (Route.start r cur) r.steps
      | some _ => .ok (cur ++ [n]) := by
  rw [walk_one, walkStep, if_pos hcur]

/-- A walk that ends at a directory starts at one. -/
theorem walk_start {t : FileTree N β} {depth : Nat} {steps : List (Step N)} {cur p : List N}
    (hwalk : walk t depth cur steps = .ok p) (hp : t.entry p = some .dir) : t.entry cur = some .dir := by
  cases steps with
  | nil =>
      rw [walk_nil] at hwalk
      cases hwalk
      exact hp
  | cons s steps =>
      by_cases hcur : t.entry cur = some .dir
      · exact hcur
      · rw [walk_cons, walkStep_error t _ hcur] at hwalk
        cases hwalk

/-- A tree in which the directories and links stay leads the same way to a directory. -/
theorem walk_keeps {t u : FileTree N β} (hdirs : ∀ p, t.entry p = some .dir → u.entry p = some .dir)
    (hlinks : ∀ p r, t.entry p = some (.link r) → u.entry p = some (.link r)) (depth : Nat) :
    ∀ {steps : List (Step N)} {cur p : List N}, walk t depth cur steps = .ok p →
      t.entry p = some .dir → walk u depth cur steps = .ok p := by
  induction depth using Nat.strongRecOn with
  | ind depth ihdepth =>
      intro steps
      induction steps with
      | nil =>
          intro cur p hwalk _
          simpa using hwalk
      | cons s steps ih =>
          intro cur p hwalk hp
          have hcur := walk_start hwalk hp
          rw [walk_cons] at hwalk ⊢
          cases hstep : walkStep t (walkLink t depth) cur s with
          | error e =>
              rw [hstep] at hwalk
              cases hwalk
          | ok next =>
              rw [hstep] at hwalk
              have hnext : t.entry next = some .dir := walk_start hwalk hp
              have hstep' : walkStep u (walkLink u depth) cur s = .ok next := by
                unfold walkStep at hstep ⊢
                rw [if_pos hcur] at hstep
                rw [if_pos (hdirs cur hcur)]
                cases s with
                | blank | here | up => exact hstep
                | into n =>
                    cases hentry : t.entry (cur ++ [n]) with
                    | none => simp [hentry] at hstep
                    | some e =>
                        cases e with
                        | file data =>
                            -- a file on the way is the end of the walk, which is a directory
                            simp only [hentry] at hstep
                            cases hstep
                            rw [hentry] at hnext
                            cases hnext
                        | dir =>
                            simp only [hentry] at hstep
                            simp only [hdirs _ hentry]
                            exact hstep
                        | link r =>
                            simp only [hentry] at hstep
                            simp only [hlinks _ r hentry]
                            cases depth with
                            | zero => cases hstep
                            | succ depth => exact ihdepth depth (Nat.lt_succ_self _) hstep hnext
              rw [hstep']
              exact ih hwalk hp

/-! ### Paths that meet no link -/

/-- An entry at the end of a path that meets no link is where the path leads. -/
theorem follow_straight {h : Host N β} {t : FileTree N β} {p : List N} (hstraight : t.Straight p)
    (hentry : t.entry p ≠ none) : h.follow t (names p) = .ok p := by
  induction p using List.reverseRecOn with
  | nil => exact walk_nil _ _ _
  | append_singleton p n ih =>
      obtain ⟨e, he⟩ := Option.ne_none_iff_exists'.mp hentry
      have hdir : t.entry p = some .dir := by
        have hparent := entry_parent he
        rwa [List.dropLast_concat] at hparent
      have hp := ih (hstraight.front (List.prefix_append p [n])) (by simp [hdir])
      unfold Host.follow at hp ⊢
      rw [names_concat, walk_append, hp]
      show walk t h.limit p [.into n] = _
      rw [walk_into hdir, he]
      cases e with
      | file | dir => rfl
      | link r => exact absurd he (hstraight _ List.prefix_rfl r)

/-- A path that meets no link leads nowhere else. -/
theorem follow_straight_eq {h : Host N β} {t : FileTree N β} {p q : List N} (hstraight : t.Straight p)
    (hfollow : h.follow t (names p) = .ok q) : q = p := by
  induction p using List.reverseRecOn generalizing q with
  | nil =>
      have hnil : h.follow t (names []) = .ok [] := walk_nil _ _ _
      rw [hnil] at hfollow
      cases hfollow
      rfl
  | append_singleton p n ih =>
      unfold Host.follow at hfollow
      rw [names_concat, walk_append] at hfollow
      cases hunder : walk t h.limit [] (names p) with
      | error e =>
          rw [hunder] at hfollow
          cases hfollow
      | ok c =>
          have hc : c = p := ih (hstraight.front (List.prefix_append p [n])) hunder
          subst hc
          rw [hunder] at hfollow
          by_cases hdir : t.entry c = some .dir
          · have hlast : walk t h.limit c [.into n] = .ok q := hfollow
            rw [walk_into hdir] at hlast
            cases hentry : t.entry (c ++ [n]) with
            | none => simp [hentry] at hlast
            | some e =>
                cases e with
                | file | dir =>
                    simp only [hentry] at hlast
                    cases hlast
                    rfl
                | link r => exact absurd hentry (hstraight _ List.prefix_rfl r)
          · have hlast : walk t h.limit c [.into n] = .ok q := hfollow
            rw [walk_cons, walkStep_error t _ hdir] at hlast
            cases hlast

/-! ## The library's `realpath` -/

/-- What `realpath` makes of a path. -/
inductive Resolution (N : Type) where
  | done (path : List N)
  /-- a loop of links: the text that is left -/
  | looped (steps : List (Step N))
  /-- a name that no system call accepts: `ValueError` -/
  | refused
  deriving DecidableEq, Repr

/-- `os.path.join`: a remainder that starts with a separator replaces what is before it. -/
def rejoin (base rest : List (Step N)) : List (Step N) :=
  match rest with
  | .blank :: s :: more => s :: more
  | _ => base ++ rest

/-- `os.path.abspath`: the dots are removed from the text. -/
def abspath (steps : List (Step N)) : List N :=
  steps.foldl (fun path s => match s with
    | .blank | .here => path
    | .up => path.dropLast
    | .into n => path ++ [n]) []

def realpathWith (h : Host N β) (t : FileTree N β)
    (next : List (List N) → List N → List (Step N) → Resolution N) (seen : List (List N)) :
    List N → List (Step N) → Resolution N
  | path, [] => .done path
  | path, .blank :: rest => realpathWith h t next seen path rest
  | path, .here :: rest => realpathWith h t next seen path rest
  | path, .up :: rest => realpathWith h t next seen path.dropLast rest
  | path, .into n :: rest =>
    if h.refused n then .refused
    else match t.entry (path ++ [n]) with
      | some (.link r) =>
        if path ++ [n] ∈ seen then .looped (rejoin (names (path ++ [n])) rest)
        else match next ((path ++ [n]) :: seen) (Route.start r path) r.steps with
          | .done path' => realpathWith h t next seen path' rest
          | .looped left => .looped (rejoin left rest)
          | .refused => .refused
      | _ => realpathWith h t next seen (path ++ [n]) rest

/-- `_joinrealpath`. Each level adds a link to `seen`, so as many levels as there are links are enough. -/
def joinrealpath (h : Host N β) (t : FileTree N β) :
    Nat → List (List N) → List N → List (Step N) → Resolution N
  | 0 => realpathWith h t fun _ path steps => .looped (rejoin (names path) steps)
  | levels + 1 => realpathWith h t (joinrealpath h t levels)

/-- The links of the tree. -/
def links (t : FileTree N β) : List (List N × Entry N β) := t.rows.filter (fun row => row.2.isLink)

def Host.resolution (h : Host N β) (t : FileTree N β) (steps : List (Step N)) : Resolution N :=
  joinrealpath h t t.links.length [] [] steps

/-- `os.path.realpath`; `none` is a `ValueError`. -/
def Host.realpath (h : Host N β) (t : FileTree N β) (steps : List (Step N)) : Option (List N) :=
  match h.resolution t steps with
  | .done path => some path
  | .looped left => some (abspath left)
  | .refused => none

/-- `realpath` runs into a loop of links. -/
def Host.Loops (h : Host N β) (t : FileTree N β) (steps : List (Step N)) : Prop :=
  ∃ left, h.resolution t steps = .looped left

instance (h : Host N β) (t : FileTree N β) (steps : List (Step N)) : Decidable (h.Loops t steps) :=
  match hres : h.resolution t steps with
  | .done _ => isFalse (by rintro ⟨left, hleft⟩; rw [hres] at hleft; cases hleft)
  | .looped left => isTrue ⟨left, hres⟩
  | .refused => isFalse (by rintro ⟨left, hleft⟩; rw [hres] at hleft; cases hleft)

theorem realpathWith_straight {h : Host N β} {t : FileTree N β}
    {next : List (List N) → List N → List (Step N) → Resolution N}
    (hnext : ∀ seen path steps p, t.Straight path → next seen path steps = .done p → t.Straight p)
    (seen : List (List N)) (steps : List (Step N)) :
    ∀ {path p : List N}, t.Straight path → realpathWith h t next seen path steps = .done p →
      t.Straight p := by
  induction steps with
  | nil =>
      intro path p hpath hdone
      cases hdone
      exact hpath
  | cons s rest ih =>
      intro path p hpath hdone
      cases s with
      | blank | here => exact ih hpath hdone
      | up => exact ih (hpath.front (List.dropLast_prefix path)) hdone
      | into n =>
          rw [realpathWith] at hdone
          split at hdone
          · cases hdone
          · split at hdone
            · rename_i r hlink
              split at hdone
              · cases hdone
              · split at hdone
                · rename_i path' hinner
                  refine ih (hnext _ _ _ _ ?_ hinner) hdone
                  unfold Route.start
                  split
                  · exact t.straight_nil
                  · exact hpath
                · cases hdone
                · cases hdone
            · rename_i hlink
              exact ih (hpath.concat hlink) hdone

/-- **A path that `realpath` could resolve meets no link.** -/
theorem realpath_straight {h : Host N β} {t : FileTree N β} {steps : List (Step N)} {p : List N}
    (hreal : h.realpath t steps = some p) (hloops : ¬ h.Loops t steps) : t.Straight p := by
  have hlevels : ∀ levels seen path steps p, t.Straight path →
      joinrealpath h t levels seen path steps = .done p → t.Straight p := by
    intro levels
    induction levels with
    | zero =>
        intro seen path steps p
        exact realpathWith_straight (fun _ _ _ _ _ hdone => by cases hdone) seen steps
    | succ levels ih =>
        intro seen path steps p
        exact realpathWith_straight (fun seen path steps p => ih seen path steps p) seen steps
  unfold Host.realpath at hreal
  split at hreal
  · rename_i path hdone
    cases hreal
    exact hlevels _ _ _ _ _ t.straight_nil hdone
  · rename_i left hlooped
    exact absurd ⟨left, hlooped⟩ hloops
  · cases hreal

/-! ### Trees with the same links -/

/-- The two trees have the same links. -/
def SameLinks (t u : FileTree N β) : Prop :=
  ∀ p r, t.entry p = some (.link r) ↔ u.entry p = some (.link r)

theorem SameLinks.straight {t u : FileTree N β} (hsame : SameLinks t u) {p : List N}
    (hstraight : t.Straight p) : u.Straight p := fun q hq r hr => hstraight q hq r ((hsame q r).mpr hr)

theorem mem_links {t : FileTree N β} {p : List N} {e : Entry N β} :
    (p, e) ∈ t.links ↔ ∃ r, e = .link r ∧ t.entry p = some (.link r) := by
  unfold links
  rw [List.mem_filter]
  constructor
  · rintro ⟨hrow, hlink⟩
    cases e with
    | file | dir => cases hlink
    | link r => exact ⟨r, rfl, entry_of_mem hrow⟩
  · rintro ⟨r, rfl, hentry⟩
    refine ⟨mem_of_entry ?_ hentry, rfl⟩
    rintro rfl
    simp at hentry

theorem links_nodup (t : FileTree N β) : t.links.Nodup := (List.Nodup.of_map _ t.unique).filter _

theorem SameLinks.length_links {t u : FileTree N β} (hsame : SameLinks t u) :
    t.links.length = u.links.length := by
  have hperm : t.links.Perm u.links := by
    rw [List.perm_ext_iff_of_nodup t.links_nodup u.links_nodup]
    rintro ⟨p, e⟩
    rw [mem_links, mem_links]
    exact exists_congr fun r => and_congr_right fun _ => hsame p r
  exact hperm.length_eq

theorem realpathWith_congr {h : Host N β} {t u : FileTree N β} (hsame : SameLinks t u)
    (next : List (List N) → List N → List (Step N) → Resolution N) (seen : List (List N))
    (steps : List (Step N)) :
    ∀ path, realpathWith h t next seen path steps = realpathWith h u next seen path steps := by
  induction steps with
  | nil => intro path; rfl
  | cons s rest ih =>
      intro path
      cases s with
      | blank | here => exact ih path
      | up => exact ih path.dropLast
      | into n =>
          rw [realpathWith, realpathWith]
          split
          · rfl
          · by_cases hlink : ∃ r, t.entry (path ++ [n]) = some (.link r)
            · obtain ⟨r, hr⟩ := hlink
              simp only [hr, (hsame _ r).mp hr, ih]
            · have hother : ¬ ∃ r, u.entry (path ++ [n]) = some (.link r) :=
                fun ⟨r, hr⟩ => hlink ⟨r, (hsame _ r).mpr hr⟩
              push Not at hlink hother
              split
              · rename_i r hr
                exact absurd hr (hlink r)
              · exact ih (path ++ [n])

/-- `realpath` looks at the links only. -/
theorem realpath_congr (h : Host N β) {t u : FileTree N β} (hsame : SameLinks t u)
    (steps : List (Step N)) : h.realpath t steps = h.realpath u steps := by
  have hlevels : ∀ levels, joinrealpath h t levels = joinrealpath h u levels := by
    intro levels
    induction levels with
    | zero =>
        funext seen path steps
        exact realpathWith_congr hsame _ seen steps path
    | succ levels ih =>
        funext seen path steps
        rw [joinrealpath, joinrealpath, ih]
        exact realpathWith_congr hsame _ seen steps path
  unfold Host.realpath Host.resolution
  rw [hlevels, hsame.length_links]

end FileTree
