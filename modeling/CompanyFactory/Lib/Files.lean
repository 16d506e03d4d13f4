import CompanyFactory.Lib.Lookup

/-!
# `Lib.Files` — making, writing, moving and removing files

The calls that change a tree, stated over the kernel's walk. Each takes a path of names and says which
entries it changed, under their own path; a call that fails leaves the tree alone.

* `mkdirs` — `mkdir(parents=True, exist_ok=True)`: the names that are missing are made in turn below the
  last directory that is there (`ground`);
* `place` — where `open` with `O_CREAT` puts a file; a link at the last name is followed, also when it
  dangles;
* `replace` — `rename` of a file or link over a name, which follows neither;
* `unlink`.
-/

namespace FileTree

variable {N β : Type} [DecidableEq N]

/-! ## Directories -/

/-- The last directory on the way to `cur / rest` that is there, and the names that are missing. -/
def Host.ground (h : Host N β) (t : FileTree N β) (cur : List N) : List N → List N × List N
  | [] => (cur, [])
  | n :: rest =>
    match walk t h.limit cur [.into n] with
    | .ok d => if t.entry d = some .dir then h.ground t d rest else (cur, n :: rest)
    | .error _ => (cur, n :: rest)

/-- Make the directories `cur / n₁`, `cur / n₁ / n₂`, … -/
def grow (t : FileTree N β) (cur : List N) : List N → FileTree N β
  | [] => t
  | n :: rest => grow (t.put (cur ++ [n]) .dir) (cur ++ [n]) rest

/-- The directories that `grow` makes. -/
def grown (cur : List N) : List N → List (List N)
  | [] => []
  | n :: rest => (cur ++ [n]) :: grown (cur ++ [n]) rest

/-- `mkdir(parents=True, exist_ok=True)`: the tree afterwards and the directories made. -/
def Host.mkdirs (h : Host N β) (t : FileTree N β) (p : List N) :
    Except Errno (FileTree N β × List (List N)) :=
  if p.any h.refused then .error .EINVAL
  else match h.ground t [] p with
    | (_, []) => .ok (t, [])
    | (cur, n :: rest) =>
      match t.entry (cur ++ [n]) with
      | none => .ok (t.grow cur (n :: rest), grown cur (n :: rest))
      | some (.file _) => .error (if rest = [] then .EEXIST else .ENOTDIR)
      | some _ => .error .EEXIST

/-- Nothing but directories were added. -/
def Extends (t u : FileTree N β) : Prop :=
  ∀ p, u.entry p = t.entry p ∨ t.entry p = none ∧ u.entry p = some .dir

theorem Extends.refl (t : FileTree N β) : Extends t t := fun _ => .inl rfl

theorem Extends.trans {t u v : FileTree N β} (htu : Extends t u) (huv : Extends u v) : Extends t v := by
  intro p
  rcases huv p with hsame | ⟨hnone, hdir⟩
  · rw [hsame]
    exact htu p
  · rcases htu p with hsame' | ⟨-, hdir'⟩
    · rw [← hsame']
      exact .inr ⟨hnone, hdir⟩
    · rw [hdir'] at hnone
      cases hnone

theorem Extends.of_some {t u : FileTree N β} (h : Extends t u) {p : List N} {e : Entry N β}
    (he : t.entry p = some e) : u.entry p = some e := by
  rcases h p with hsame | ⟨hnone, -⟩
  · rw [hsame, he]
  · rw [he] at hnone
    cases hnone

/-- Files and links are where they were. -/
theorem Extends.same {t u : FileTree N β} (h : Extends t u) {p : List N} {e : Entry N β}
    (hdir : e ≠ .dir) : u.entry p = some e ↔ t.entry p = some e := by
  refine ⟨fun he => ?_, h.of_some⟩
  rcases h p with hsame | ⟨-, hdir'⟩
  · rw [← hsame, he]
  · rw [hdir', Option.some_inj] at he
    exact absurd he.symm hdir

theorem Extends.walk {t u : FileTree N β} (h : Extends t u) {depth : Nat} {steps : List (Step N)}
    {cur p : List N} (hwalk : t.walk depth cur steps = .ok p) (hp : t.entry p = some .dir) :
    u.walk depth cur steps = .ok p :=
  walk_keeps (fun _ => h.of_some) (fun _ _ => h.of_some) depth hwalk hp

theorem Extends.sameLinks {t u : FileTree N β} (h : Extends t u) : SameLinks t u :=
  fun _ _ => (h.same (by simp)).symm

theorem mkdir_extends {t : FileTree N β} {cur : List N} {n : N} (hcur : t.entry cur = some .dir)
    (hnone : t.entry (cur ++ [n]) = none) :
    Extends t (t.put (cur ++ [n]) .dir) ∧ (t.put (cur ++ [n]) .dir).entry (cur ++ [n]) = some .dir := by
  have hopen : t.Open (cur ++ [n]) := ⟨by simp, by simpa using hcur, by simp [hnone]⟩
  refine ⟨fun p => ?_, ?_⟩
  · rw [entry_put hopen]
    by_cases hp : p = cur ++ [n]
    · rw [hp, if_pos rfl]
      exact .inr ⟨hnone, rfl⟩
    · rw [if_neg hp]
      exact .inl rfl
  · rw [entry_put hopen, if_pos rfl]

/-- The missing names are made below a directory that has none of them. -/
theorem grow_spec (rest : List N) :
    ∀ {t : FileTree N β} {cur : List N} {n : N}, t.entry cur = some .dir →
      t.entry (cur ++ [n]) = none →
      Extends t (t.grow cur (n :: rest)) ∧
        (t.grow cur (n :: rest)).entry (cur ++ n :: rest) = some .dir := by
  induction rest with
  | nil => exact mkdir_extends
  | cons m rest ih =>
      intro t cur n hcur hnone
      obtain ⟨hstep, hmade⟩ := mkdir_extends hcur hnone
      have hbelow : (t.put (cur ++ [n]) .dir).entry (cur ++ [n] ++ [m]) = none := by
        have hold : t.entry (cur ++ [n] ++ [m]) = none :=
          entry_below (p := cur ++ [n]) (by simp [hnone]) (List.prefix_append _ _) (by simp)
        rw [entry_put ⟨by simp, by simpa using hcur, by simp [hnone]⟩, if_neg (by simp), hold]
      obtain ⟨hext, hdir⟩ := ih hmade hbelow
      rw [List.append_assoc] at hdir
      exact ⟨hstep.trans hext, hdir⟩

omit [DecidableEq N] in
theorem mem_grown {rest : List N} :
    ∀ {cur p : List N}, p ∈ grown cur rest → cur <+: p ∧ p ≠ cur ∧ p <+: cur ++ rest := by
  induction rest with
  | nil =>
      intro cur p hp
      cases hp
  | cons n rest ih =>
      intro cur p hp
      rcases List.mem_cons.mp hp with rfl | hmem
      · exact ⟨List.prefix_append _ _, by simp, by simp⟩
      · obtain ⟨hpre, -, hpost⟩ := ih hmem
        rw [List.append_assoc] at hpost
        refine ⟨(List.prefix_append _ _).trans hpre, ?_, hpost⟩
        rintro rfl
        have hlen := hpre.length_le
        rw [List.length_append, List.length_singleton] at hlen
        omega

theorem grow_other {rest p : List N} :
    ∀ {t : FileTree N β} {cur : List N}, p ∉ grown cur rest → (t.grow cur rest).entry p = t.entry p := by
  induction rest with
  | nil => intro t cur _; rfl
  | cons n rest ih =>
      intro t cur hp
      rw [grown, List.mem_cons, not_or] at hp
      rw [grow, ih hp.2, entry_put_ne t _ hp.1]

/-- What `ground` finds: the names before the missing ones lead to a directory. -/
theorem ground_spec (h : Host N β) (t : FileTree N β) (rest : List N) :
    ∀ {cur : List N}, t.entry cur = some .dir →
      ∃ there, rest = there ++ (h.ground t cur rest).2 ∧
        t.walk h.limit cur (names there) = .ok (h.ground t cur rest).1 ∧
        t.entry (h.ground t cur rest).1 = some .dir := by
  induction rest with
  | nil =>
      intro cur hcur
      exact ⟨[], rfl, walk_nil _ _ _, hcur⟩
  | cons n rest ih =>
      intro cur hcur
      rw [Host.ground]
      split
      · rename_i d hwalk
        split
        · rename_i hd
          obtain ⟨there, hrest, hthere, hdir⟩ := ih hd
          refine ⟨n :: there, by rw [List.cons_append, ← hrest], ?_, hdir⟩
          show t.walk h.limit cur ([.into n] ++ names there) = _
          rw [walk_append, hwalk]
          exact hthere
        · exact ⟨[], rfl, walk_nil _ _ _, hcur⟩
      · exact ⟨[], rfl, walk_nil _ _ _, hcur⟩

/-- A walk down directories. -/
theorem walk_down {t : FileTree N β} (depth : Nat) (rest : List N) :
    ∀ {cur : List N}, t.entry (cur ++ rest) = some .dir →
      t.walk depth cur (names rest) = .ok (cur ++ rest) := by
  induction rest with
  | nil =>
      intro cur _
      simp [names]
  | cons n rest ih =>
      intro cur hdir
      have hcur : t.entry cur = some .dir := entry_above cur hdir (List.prefix_append _ _) (by simp)
      have hassoc : cur ++ n :: rest = cur ++ [n] ++ rest := by simp
      rw [hassoc] at hdir ⊢
      have hn : t.entry (cur ++ [n]) = some .dir := by
        by_cases hrest : rest = []
        · subst hrest
          simpa using hdir
        · exact entry_above _ hdir (List.prefix_append _ _) (by simpa using hrest)
      show t.walk depth cur ([.into n] ++ names rest) = _
      rw [walk_append, walk_into hcur, hn]
      exact ih hdir

/-- Where a path leads once its missing names are made. -/
def Host.landing (h : Host N β) (t : FileTree N β) (p : List N) : List N :=
  (h.ground t [] p).1 ++ (h.ground t [] p).2

/-- **What `mkdirs` does.** It adds directories only, below the last one that was there; the path then leads
    to its landing. -/
theorem mkdirs_spec {h : Host N β} {t u : FileTree N β} {p : List N} {made : List (List N)}
    (hmk : h.mkdirs t p = .ok (u, made)) :
    Extends t u ∧ h.follow u (names p) = .ok (h.landing t p) ∧
      u.entry (h.landing t p) = some .dir ∧
      (∀ q ∈ made, q <+: h.landing t p ∧ t.entry q = none) ∧
      ∀ q, q ∉ made → u.entry q = t.entry q := by
  obtain ⟨there, hp, hthere, hdir⟩ := ground_spec h t p t.entry_nil
  have hground : Extends t u → u.entry (h.landing t p) = some .dir →
      h.follow u (names p) = .ok (h.landing t p) := by
    intro hext hland
    have hwalk := hext.walk hthere hdir
    unfold Host.follow
    conv_lhs => rw [hp]
    rw [names_append, walk_append, hwalk]
    exact walk_down h.limit _ hland
  unfold Host.mkdirs at hmk
  split at hmk
  · cases hmk
  · unfold Host.landing at hground ⊢
    split at hmk
    · rename_i cur hcur
      cases hmk
      rw [hcur] at hdir hground ⊢
      have hland : t.entry (cur ++ []) = some .dir := by simpa using hdir
      exact ⟨.refl t, hground (.refl t) hland, hland, by simp, fun _ _ => rfl⟩
    · rename_i cur n rest hcur
      rw [hcur] at hdir hground ⊢
      split at hmk
      · rename_i hnone
        cases hmk
        obtain ⟨hext, hland⟩ := grow_spec rest hdir hnone
        refine ⟨hext, hground hext hland, hland, fun q hq => ?_, fun q hq => grow_other hq⟩
        obtain ⟨hpre, -, hpost⟩ := mem_grown hq
        refine ⟨hpost, ?_⟩
        have hfirst : cur ++ [n] <+: q := by
          rcases List.mem_cons.mp hq with rfl | hmem
          · exact List.prefix_rfl
          · exact (mem_grown hmem).1
        by_cases heq : cur ++ [n] = q
        · rw [← heq, hnone]
        · exact entry_below (by simp [hnone]) hfirst heq
      · cases hmk
      · cases hmk

/-! ## Files -/

/-- Where an `open` with `O_CREAT` ends; `next` follows the route of a link at the last name. -/
def Host.placeWith (h : Host N β) (t : FileTree N β) (depth : Nat)
    (next : List N → List (Step N) → Except Errno (List N)) (cur : List N) (steps : List (Step N)) :
    Except Errno (List N) :=
  match walk t depth cur steps.dropLast, steps.getLast? with
  | .error e, _ => .error e
  | .ok d, some (.into n) =>
    if t.entry d = some .dir then
      if h.refused n then .error .EINVAL
      else match t.entry (d ++ [n]) with
        | some .dir => .error .EISDIR
        | some (.link r) => next (Route.start r d) r.steps
        | _ => .ok (d ++ [n])
    else .error .ENOTDIR
  | .ok _, _ => .error .EISDIR

def Host.placeFrom (h : Host N β) (t : FileTree N β) :
    Nat → List N → List (Step N) → Except Errno (List N)
  | 0 => h.placeWith t 0 fun _ _ => .error .ELOOP
  | depth + 1 => h.placeWith t (depth + 1) (h.placeFrom t depth)

theorem placeFrom_eq (h : Host N β) (t : FileTree N β) (depth : Nat) :
    ∃ next, h.placeFrom t depth = h.placeWith t depth next := by
  cases depth <;> exact ⟨_, rfl⟩

/-- Where `open(path, O_CREAT | O_TRUNC)` puts the file. -/
def Host.place (h : Host N β) (t : FileTree N β) (p : List N) : Except Errno (List N) :=
  h.placeFrom t h.limit [] (names p)

/-- `os.rename` of a file or link: where it was, where it is, and the tree. -/
def Host.replace (h : Host N β) (t : FileTree N β) (src dst : List N) :
    Except Errno (List N × List N × FileTree N β) :=
  match h.slot t (names src), h.slot t (names dst) with
  | .ok s, .ok d =>
    match t.entry s with
    | none => .error .ENOENT
    | some .dir => .error .ENOTDIR
    | some e =>
      if t.entry d = some .dir then .error .EISDIR
      else if s = d then .ok (s, d, t)
      else .ok (s, d, (t.remove s).put d e)
  | .error e, _ => .error e
  | .ok _, .error e => .error e

/-- `os.unlink`: what was removed, and the tree. -/
def Host.unlink (h : Host N β) (t : FileTree N β) (p : List N) : Except Errno (List N × FileTree N β) :=
  match h.slot t (names p) with
  | .error e => .error e
  | .ok s =>
    match t.entry s with
    | none => .error .ENOENT
    | some .dir => .error .EISDIR
    | some _ => .ok (s, t.remove s)

theorem keeps_dir {t : FileTree N β} {s p : List N} {e : Entry N β} (hopen : t.Open s)
    (hp : t.entry p = some .dir) : (t.put s e).entry p = some .dir := by
  have hne : p ≠ s := fun heq => hopen.2.2 (heq ▸ hp)
  rw [entry_put hopen, if_neg hne, hp]

theorem keeps_link {t : FileTree N β} {s p : List N} {e : Entry N β} {r : Route N} (hopen : t.Open s)
    (hlink : ∀ r, t.entry s ≠ some (.link r)) (hp : t.entry p = some (.link r)) :
    (t.put s e).entry p = some (.link r) := by
  have hne : p ≠ s := fun heq => hlink r (heq ▸ hp)
  rw [entry_put hopen, if_neg hne, hp]

/-- The place of a name in the directory its path leads to. -/
theorem slot_concat {h : Host N β} {t : FileTree N β} {p d : List N} (n : N)
    (hfollow : h.follow t (names p) = .ok d) (hd : t.entry d = some .dir) :
    h.slot t (names (p ++ [n])) = .ok (d ++ [n]) := by
  unfold Host.slot
  rw [names_concat, List.getLast?_concat, List.dropLast_concat]
  simp [hfollow, hd]

/-- An `open` in a directory where no link has the name. -/
theorem place_concat {h : Host N β} {t : FileTree N β} {p d : List N} {n : N}
    (hfollow : h.follow t (names p) = .ok d) (hd : t.entry d = some .dir)
    (hlink : ∀ r, t.entry (d ++ [n]) ≠ some (.link r)) :
    h.place t (p ++ [n]) =
      if h.refused n then .error .EINVAL
      else if t.entry (d ++ [n]) = some .dir then .error .EISDIR else .ok (d ++ [n]) := by
  obtain ⟨next, hnext⟩ := placeFrom_eq h t h.limit
  unfold Host.place
  rw [hnext]
  unfold Host.placeWith
  rw [names_concat, List.getLast?_concat, List.dropLast_concat]
  unfold Host.follow at hfollow
  rw [hfollow]
  simp only [hd, if_true]
  cases hentry : t.entry (d ++ [n]) with
  | none => simp
  | some e =>
      cases e with
      | file | dir => simp
      | link r => exact absurd hentry (hlink r)

theorem slot_parent {h : Host N β} {t : FileTree N β} {p s : List N}
    (hslot : h.slot t (names p) = .ok s) : t.entry s.dropLast = some .dir := by
  unfold Host.slot at hslot
  split at hslot
  · split at hslot
    · split at hslot
      · rename_i hd
        cases hslot
        simpa using hd
      · cases hslot
    · cases hslot
  · rename_i hlast
    have hnil : p = [] := by
      induction p using List.reverseRecOn with
      | nil => rfl
      | append_singleton p n _ =>
          rw [names_concat, List.getLast?_concat] at hlast
          exact absurd rfl (hlast n)
    subst hnil
    have hroot : h.follow t (names []) = .ok [] := walk_nil _ _ _
    rw [hroot] at hslot
    cases hslot
    exact t.entry_nil

/-- **What `replace` does.** A file or link is moved over a name that is no directory. -/
theorem replace_spec {h : Host N β} {t u : FileTree N β} {src dst s d : List N}
    (hreplace : h.replace t src dst = .ok (s, d, u)) :
    h.slot t (names src) = .ok s ∧ h.slot t (names dst) = .ok d ∧
      ∃ e, t.entry s = some e ∧ e ≠ .dir ∧ t.entry d ≠ some .dir ∧
        ∀ q, u.entry q = if q = d then some e else if q = s then none else t.entry q := by
  unfold Host.replace at hreplace
  split at hreplace
  · rename_i s' d' hs hd
    split at hreplace
    · cases hreplace
    · cases hreplace
    · rename_i e hdir he
      split at hreplace
      · cases hreplace
      · rename_i hnotdir
        split at hreplace
        · rename_i heq
          cases hreplace
          subst heq
          refine ⟨hs, hd, e, he, hdir, hnotdir, fun q => ?_⟩
          by_cases hq : q = s
          · rw [if_pos hq, hq, he]
          · rw [if_neg hq, if_neg hq]
        · rename_i hne
          cases hreplace
          have hsdir : t.entry s ≠ some .dir := by
            rw [he]
            exact fun h => hdir (Option.some_inj.mp h)
          have hopen : (t.remove s).Open d := by
            refine ⟨?_, ?_, ?_⟩
            · rintro rfl
              exact hnotdir t.entry_nil
            · rw [entry_remove t hsdir, if_neg, slot_parent hd]
              intro heq
              exact hsdir (heq ▸ slot_parent hd)
            · rw [entry_remove t hsdir, if_neg (Ne.symm hne)]
              exact hnotdir
          refine ⟨hs, hd, e, he, hdir, hnotdir, fun q => ?_⟩
          rw [entry_put hopen, entry_remove t hsdir]
  · cases hreplace
  · cases hreplace

theorem unlink_spec {h : Host N β} {t u : FileTree N β} {p s : List N}
    (hunlink : h.unlink t p = .ok (s, u)) :
    h.slot t (names p) = .ok s ∧ (∃ e, t.entry s = some e ∧ e ≠ .dir) ∧ u = t.remove s := by
  unfold Host.unlink at hunlink
  split at hunlink
  · cases hunlink
  · rename_i s' hs
    split at hunlink
    · cases hunlink
    · cases hunlink
    · rename_i e hdir he
      cases hunlink
      exact ⟨hs, ⟨e, he, hdir⟩, rfl⟩

end FileTree
