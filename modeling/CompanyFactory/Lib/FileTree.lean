import Mathlib.Data.List.Induction
import Mathlib.Data.List.Perm.Basic
import Mathlib.Data.List.Dedup
import Mathlib.Algebra.Order.BigOperators.Group.List
import Mathlib.Algebra.Order.Group.Nat
import CompanyFactory.Lib.Table
import Mathlib.Algebra.GroupWithZero.Nat
import Mathlib.Data.List.TakeDrop

/-!
# `Lib.FileTree` — directories, files and symbolic links

A tree is a table of entries keyed by their path, the list of names from the root down. Its fields say
what every file system guarantees: one entry for each path, and the parent of an entry is a directory. The
root itself is a directory and has no row.

Three changes keep the tree well formed, each with the lemma that says what every path holds afterwards:

* `put` — a new entry, or one in place of a file or link;
* `remove` — a file or link goes;
* `prune` — a directory goes with everything below, except what leads to the paths that are stuck.

`weigh` adds up a weight over the entries strictly below a directory. It does not see what weighs nothing
(`weigh_congr`), and one change trades what was at the path for what is there now (`weigh_off`).

A path may also be walked without a look at the tree: a name goes down, and `..` goes up, the root being its own parent.
How it moves does not depend on where it starts: it climbs a number of steps out of its start, and then stands at some
names of its own.

* `normal_eq` — where a path leads from a directory, by its climb and its stand.
* `prefix_normal_iff` — when it leads back into the directory from which it started.
-/

/-- One component of a path as it is written. -/
inductive Step (N : Type) where
  /-- nothing between two separators, or after the last one -/
  | blank
  /-- `.` -/
  | here
  /-- `..` -/
  | up
  | into (name : N)
  deriving DecidableEq, Repr

/-- The text of a symbolic link, taken apart at its separators. -/
structure Route (N : Type) where
  absolute : Bool
  steps : List (Step N)
  deriving DecidableEq, Repr

inductive Entry (N β : Type) where
  | file (data : List β)
  | dir
  | link (target : Route N)
  deriving DecidableEq, Repr

def Entry.isDir {N β : Type} : Entry N β → Bool
  | .dir => true
  | _ => false

def Entry.isLink {N β : Type} : Entry N β → Bool
  | .link _ => true
  | _ => false

/-- A file tree with names `N` and bytes `β`. -/
structure FileTree (N β : Type) [DecidableEq N] where
  rows : List (List N × Entry N β)
  unique : (rows.map Prod.fst).Nodup
  rooted : ∀ row ∈ rows, row.1 ≠ []
  closed : ∀ row ∈ rows, row.1.dropLast ≠ [] → (row.1.dropLast, .dir) ∈ rows

namespace FileTree

variable {N β : Type} [DecidableEq N]

/-- What is at a path. -/
def entry (t : FileTree N β) (p : List N) : Option (Entry N β) :=
  if p = [] then some .dir else (Table.find Prod.fst t.rows p).map Prod.snd

/-- A tree with nothing but the root. -/
def empty : FileTree N β where
  rows := []
  unique := by simp
  rooted := by simp
  closed := by simp

@[simp] theorem entry_nil (t : FileTree N β) : t.entry [] = some .dir := by simp [entry]

theorem entry_of_ne (t : FileTree N β) {p : List N} (hp : p ≠ []) :
    t.entry p = (Table.find Prod.fst t.rows p).map Prod.snd := by rw [entry, if_neg hp]

theorem find_of_entry {t : FileTree N β} {p : List N} {e : Entry N β} (hp : p ≠ [])
    (h : t.entry p = some e) : Table.find Prod.fst t.rows p = some (p, e) := by
  rw [entry_of_ne t hp, Option.map_eq_some_iff] at h
  obtain ⟨⟨q, e'⟩, hfind, rfl⟩ := h
  have hq : q = p := Table.key_of_find hfind
  rw [hfind, hq]

theorem mem_of_entry {t : FileTree N β} {p : List N} {e : Entry N β} (hp : p ≠ [])
    (h : t.entry p = some e) : (p, e) ∈ t.rows := Table.mem_of_find (find_of_entry hp h)

theorem entry_of_mem {t : FileTree N β} {p : List N} {e : Entry N β} (h : (p, e) ∈ t.rows) :
    t.entry p = some e := by
  have hfind : Table.find Prod.fst t.rows p = some (p, e) := Table.find_of_mem t.unique h
  rw [entry_of_ne t (t.rooted _ h), hfind]
  rfl

/-! ## Parents and prefixes -/

/-- The parent of an entry is a directory. -/
theorem entry_parent {t : FileTree N β} {p : List N} {e : Entry N β} (h : t.entry p = some e) :
    t.entry p.dropLast = some .dir := by
  by_cases hp : p = []
  · subst hp
    exact t.entry_nil
  · by_cases hq : p.dropLast = []
    · rw [hq]
      exact t.entry_nil
    · exact entry_of_mem (t.closed _ (mem_of_entry hp h) hq)

/-- Every proper prefix of an entry's path is a directory. -/
theorem entry_above {t : FileTree N β} (q : List N) :
    ∀ {p : List N} {e : Entry N β}, t.entry p = some e → q <+: p → q ≠ p →
      t.entry q = some .dir := by
  intro p
  induction p using List.reverseRecOn with
  | nil =>
      intro e _ hq hne
      exact absurd (List.prefix_nil.mp hq) hne
  | append_singleton p n ih =>
      intro e h hq hne
      have hparent : t.entry p = some .dir := by
        have hdir := entry_parent h
        rwa [List.dropLast_concat] at hdir
      rcases List.prefix_concat_iff.mp hq with heq | hpre
      · exact absurd heq hne
      · by_cases hqp : q = p
        · rw [hqp]
          exact hparent
        · exact ih hparent hpre hqp

/-- Nothing is below a path that is no directory. -/
theorem entry_below {t : FileTree N β} {p q : List N} (h : t.entry p ≠ some .dir) (hq : p <+: q)
    (hne : p ≠ q) : t.entry q = none := by
  cases hentry : t.entry q with
  | none => rfl
  | some e => exact absurd (entry_above p hentry hq hne) h

/-- The path meets no link: neither it nor a directory on its way is one. -/
def Straight (t : FileTree N β) (p : List N) : Prop :=
  ∀ q, q <+: p → ∀ r, t.entry q ≠ some (.link r)

theorem straight_nil (t : FileTree N β) : t.Straight [] := by
  intro q hq r
  rw [List.prefix_nil.mp hq, entry_nil]
  simp

theorem Straight.front {t : FileTree N β} {p q : List N} (h : t.Straight p) (hq : q <+: p) :
    t.Straight q := fun s hs => h s (hs.trans hq)

theorem Straight.concat {t : FileTree N β} {p : List N} {n : N} (h : t.Straight p)
    (hn : ∀ r, t.entry (p ++ [n]) ≠ some (.link r)) : t.Straight (p ++ [n]) := by
  intro q hq
  rcases List.prefix_concat_iff.mp hq with heq | hpre
  · rw [heq]
    exact hn
  · exact h q hpre

/-! ## Changes -/

/-- Can an entry be put at `p`? Its parent is a directory, and no directory is in the way. -/
def Open (t : FileTree N β) (p : List N) : Prop :=
  p ≠ [] ∧ t.entry p.dropLast = some .dir ∧ t.entry p ≠ some .dir

theorem Open.parent {t : FileTree N β} {p : List N} (h : t.Open p) :
    t.entry p.dropLast = some .dir := h.2.1

omit [DecidableEq N] in
theorem isDir_iff {o : Option (Entry N β)} : o.any Entry.isDir = true ↔ o = some .dir := by
  cases o with
  | none => simp
  | some e => cases e <;> simp [Entry.isDir]

instance (o : Option (Entry N β)) : Decidable (o = some .dir) := decidable_of_iff _ isDir_iff

instance (t : FileTree N β) (p : List N) : Decidable (t.Open p) := by
  unfold Open
  infer_instance

/-- No row is below a path that is no directory. -/
theorem not_parent {t : FileTree N β} {p : List N} (hp : t.entry p ≠ some .dir)
    {row : List N × Entry N β} (hrow : row ∈ t.rows) : row.1.dropLast ≠ p := by
  rintro rfl
  exact hp (entry_parent (entry_of_mem (e := row.2) hrow))

/-- Keep the rows whose path meets `q`, which every directory on the way to such a row does. -/
def keep (t : FileTree N β) (q : List N → Prop) [DecidablePred q]
    (hq : ∀ row ∈ t.rows, q row.1 → row.1.dropLast ≠ [] → q row.1.dropLast) : FileTree N β where
  rows := t.rows.filter (fun row => q row.1)
  unique := t.unique.sublist (List.filter_sublist.map _)
  rooted := fun row hrow => t.rooted row (List.mem_filter.mp hrow).1
  closed := by
    intro row hrow hne
    rw [List.mem_filter] at hrow ⊢
    have hkept := hq row hrow.1 (by simpa using hrow.2) hne
    exact ⟨t.closed row hrow.1 hne, by simpa using hkept⟩

theorem entry_keep (t : FileTree N β) (q : List N → Prop) [DecidablePred q] (hq) {p : List N}
    (hp : p ≠ []) : (t.keep q hq).entry p = if q p then t.entry p else none := by
  rw [entry_of_ne _ hp, entry_of_ne _ hp]
  show (Table.find Prod.fst (t.rows.filter fun row => decide (q row.1)) p).map _ = _
  rw [Table.find_filter]
  split <;> rfl

/-- Remove a file or link; anything else is left alone. -/
def remove (t : FileTree N β) (p : List N) : FileTree N β :=
  if h : t.entry p = some .dir then t
  else t.keep (fun q => q ≠ p) (fun _ hrow _ _ => not_parent h hrow)

theorem entry_remove (t : FileTree N β) {p : List N} (hp : t.entry p ≠ some .dir) (q : List N) :
    (t.remove p).entry q = if q = p then none else t.entry q := by
  have hroot : p ≠ [] := by
    rintro rfl
    exact hp t.entry_nil
  rw [remove, dif_neg hp]
  by_cases hq : q = []
  · subst hq
    rw [if_neg hroot.symm, entry_nil, entry_nil]
  · rw [entry_keep _ _ _ hq]
    by_cases heq : q = p <;> simp [heq]

/-- Put an entry at `p`, in place of the file or link there. -/
def put (t : FileTree N β) (p : List N) (e : Entry N β) : FileTree N β :=
  if h : t.Open p then
    { rows := (p, e) :: (t.remove p).rows
      unique := by
        rw [List.map_cons, List.nodup_cons]
        refine ⟨fun hmem => ?_, (t.remove p).unique⟩
        obtain ⟨⟨q, e'⟩, hrow, heq⟩ := List.mem_map.mp hmem
        have hentry := entry_of_mem hrow
        rw [entry_remove t h.2.2, if_pos heq] at hentry
        cases hentry
      rooted := by
        intro row hrow
        rcases List.mem_cons.mp hrow with rfl | hmem
        · exact h.1
        · exact (t.remove p).rooted row hmem
      closed := by
        intro row hrow hne
        rcases List.mem_cons.mp hrow with rfl | hmem
        · refine List.mem_cons_of_mem _ (mem_of_entry hne ?_)
          rw [entry_remove t h.2.2, if_neg, h.parent]
          intro heq
          exact h.2.2 (heq ▸ h.parent)
        · exact List.mem_cons_of_mem _ ((t.remove p).closed row hmem hne) }
  else t

/-- A tree with these entries, each after its parent. -/
def build (entries : List (List N × Entry N β)) : FileTree N β :=
  entries.foldl (fun t row => t.put row.1 row.2) empty

theorem entry_put {t : FileTree N β} {p : List N} (h : t.Open p) (e : Entry N β) (q : List N) :
    (t.put p e).entry q = if q = p then some e else t.entry q := by
  rw [put, dif_pos h]
  by_cases hq : q = []
  · subst hq
    rw [if_neg h.1.symm, entry_nil, entry_nil]
  · rw [entry_of_ne _ hq]
    show (Table.find Prod.fst ((p, e) :: (t.remove p).rows) q).map Prod.snd = _
    rw [Table.find_cons]
    by_cases heq : p = q
    · simp [heq]
    · rw [if_neg heq, if_neg (Ne.symm heq), ← entry_of_ne _ hq, entry_remove t h.2.2,
        if_neg (Ne.symm heq)]

theorem entry_put_ne (t : FileTree N β) (e : Entry N β) {p q : List N} (hne : q ≠ p) :
    (t.put p e).entry q = t.entry q := by
  by_cases h : t.Open p
  · rw [entry_put h, if_neg hne]
  · rw [put, dif_neg h]

/-- Does `prune` leave the path alone? It is not in the directory, or it leads to a path that is
    stuck. -/
def Survives (d : List N) (stuck : List (List N)) (p : List N) : Prop :=
  ¬ d <+: p ∨ ∃ k ∈ stuck, p <+: k

instance (d : List N) (stuck : List (List N)) : DecidablePred (Survives d stuck) := fun p => by
  unfold Survives
  infer_instance

/-- Remove `d` and everything below it, except what leads to a path that is stuck. -/
def prune (t : FileTree N β) (d : List N) (stuck : List (List N)) : FileTree N β :=
  t.keep (Survives d stuck) (by
    intro row _ hsurvives _
    have hparent := List.dropLast_prefix row.1
    rcases hsurvives with hout | ⟨k, hk, hpre⟩
    · exact .inl fun hd => hout (hd.trans hparent)
    · exact .inr ⟨k, hk, hparent.trans hpre⟩)

/-- `prune` adds nothing. -/
theorem prune_le (t : FileTree N β) (d : List N) (stuck : List (List N)) {p : List N} {e : Entry N β}
    (h : (t.prune d stuck).entry p = some e) : t.entry p = some e := by
  by_cases hp : p = []
  · subst hp
    rw [entry_nil] at h ⊢
    exact h
  · unfold prune at h
    rw [entry_keep _ _ _ hp] at h
    split at h
    · exact h
    · cases h

theorem entry_prune (t : FileTree N β) (d : List N) (stuck : List (List N)) {p : List N} (hp : p ≠ []) :
    (t.prune d stuck).entry p = if Survives d stuck p then t.entry p else none :=
  entry_keep _ _ _ hp

/-! ## Weights -/

/-- Is `p` strictly below the directory `d`? -/
def Below (d p : List N) : Prop := d <+: p ∧ p ≠ d

instance (d p : List N) : Decidable (Below d p) := by
  unfold Below
  infer_instance

/-- The rows strictly below `d`. -/
def below (t : FileTree N β) (d : List N) : List (List N × Entry N β) :=
  t.rows.filter (fun row => Below d row.1)

/-- The weight of all entries strictly below `d`. -/
def weigh (t : FileTree N β) (d : List N) (w : List N → Entry N β → Nat) : Nat :=
  ((t.below d).map (fun row => w row.1 row.2)).sum

/-- What an entry at `p` counts for the directory `d`. -/
def share (d : List N) (w : List N → Entry N β → Nat) (p : List N) (o : Option (Entry N β)) : Nat :=
  if Below d p then o.elim 0 (w p) else 0

theorem mem_below {t : FileTree N β} {d p : List N} {e : Entry N β} :
    (p, e) ∈ t.below d ↔ t.entry p = some e ∧ Below d p := by
  unfold below
  rw [List.mem_filter, decide_eq_true_iff]
  constructor
  · rintro ⟨hrow, hbelow⟩
    exact ⟨entry_of_mem hrow, hbelow⟩
  · rintro ⟨hentry, hbelow⟩
    refine ⟨mem_of_entry ?_ hentry, hbelow⟩
    rintro rfl
    exact hbelow.2 (List.prefix_nil.mp hbelow.1).symm

theorem below_nodup (t : FileTree N β) (d : List N) : (t.below d).Nodup :=
  (List.Nodup.of_map _ t.unique).filter _

omit [DecidableEq N] in
theorem sum_heavy (rows : List (List N × Entry N β)) (w : List N → Entry N β → Nat) :
    ((rows.filter (fun row => decide (w row.1 row.2 ≠ 0))).map (fun row => w row.1 row.2)).sum =
      (rows.map (fun row => w row.1 row.2)).sum := by
  induction rows with
  | nil => rfl
  | cons row rest ih =>
      by_cases hrow : w row.1 row.2 = 0
      · rw [List.filter_cons_of_neg (by simpa using hrow), List.map_cons, List.sum_cons, ih, hrow,
          Nat.zero_add]
      · rw [List.filter_cons_of_pos (by simpa using hrow), List.map_cons, List.sum_cons, List.map_cons,
          List.sum_cons, ih]

/-- The weight depends on what is below the directory and weighs anything. -/
theorem weigh_congr {t u : FileTree N β} {d : List N} {w : List N → Entry N β → Nat}
    (h : ∀ p e, Below d p → w p e ≠ 0 → (u.entry p = some e ↔ t.entry p = some e)) :
    u.weigh d w = t.weigh d w := by
  have hperm : ((u.below d).filter (fun row => decide (w row.1 row.2 ≠ 0))).Perm
      ((t.below d).filter (fun row => decide (w row.1 row.2 ≠ 0))) := by
    rw [List.perm_ext_iff_of_nodup ((u.below_nodup d).filter _) ((t.below_nodup d).filter _)]
    rintro ⟨p, e⟩
    rw [List.mem_filter, List.mem_filter, mem_below, mem_below, decide_eq_true_iff]
    constructor
    · rintro ⟨⟨hentry, hbelow⟩, hheavy⟩
      exact ⟨⟨(h p e hbelow hheavy).mp hentry, hbelow⟩, hheavy⟩
    · rintro ⟨⟨hentry, hbelow⟩, hheavy⟩
      exact ⟨⟨(h p e hbelow hheavy).mpr hentry, hbelow⟩, hheavy⟩
  unfold weigh
  rw [← sum_heavy (u.below d), ← sum_heavy (t.below d)]
  exact (hperm.map _).sum_eq

theorem weigh_eq {t : FileTree N β} {d : List N} {w v : List N → Entry N β → Nat}
    (h : ∀ p e, t.entry p = some e → Below d p → w p e = v p e) : t.weigh d w = t.weigh d v := by
  unfold weigh
  congr 1
  refine List.map_congr_left ?_
  rintro ⟨p, e⟩ hrow
  obtain ⟨hentry, hbelow⟩ := mem_below.mp hrow
  exact h p e hentry hbelow

/-- The weight, taken apart at one path. -/
theorem weigh_apart (t : FileTree N β) (d : List N) (w : List N → Entry N β → Nat) (p : List N) :
    t.weigh d w = share d w p (t.entry p) + t.weigh d (fun q e => if q = p then 0 else w q e) := by
  have hkeys : ((t.below d).map Prod.fst).Nodup := t.unique.sublist (List.filter_sublist.map _)
  have hfind : (Table.find Prod.fst (t.below d) p).elim 0 (fun row => w row.1 row.2) =
      share d w p (t.entry p) := by
    unfold below
    rw [Table.find_filter (fun q => Below d q), share]
    split
    · rename_i hbelow
      have hne : p ≠ [] := by
        rintro rfl
        exact hbelow.2 (List.prefix_nil.mp hbelow.1).symm
      rw [entry_of_ne t hne]
      cases hrow : Table.find Prod.fst t.rows p with
      | none => rfl
      | some row =>
          have hkey : row.1 = p := Table.key_of_find hrow
          simp [hkey]
    · rfl
  have hmasked : (Table.find Prod.fst (t.below d) p).elim 0
      (fun row => if row.1 = p then 0 else w row.1 row.2) = 0 := by
    cases hrow : Table.find Prod.fst (t.below d) p with
    | none => rfl
    | some row =>
        have hkey : row.1 = p := Table.key_of_find hrow
        simp [hkey]
  unfold weigh
  rw [Table.sum_apart hkeys (fun row => w row.1 row.2) p, hfind,
    Table.sum_apart hkeys (fun row => if row.1 = p then 0 else w row.1 row.2) p, hmasked, Nat.zero_add]
  congr 2
  refine List.map_congr_left fun row hrow => ?_
  have hne : row.1 ≠ p := by simpa using (List.mem_filter.mp hrow).2
  rw [if_neg hne]

/-- **One change.** Two trees that agree off a path, up to what weighs nothing. -/
theorem weigh_off {t u : FileTree N β} (d : List N) (w : List N → Entry N β → Nat) {p : List N}
    (h : ∀ q e, q ≠ p → w q e ≠ 0 → (u.entry q = some e ↔ t.entry q = some e)) :
    u.weigh d w + share d w p (t.entry p) = t.weigh d w + share d w p (u.entry p) := by
  have hrest : u.weigh d (fun q e => if q = p then 0 else w q e) =
      t.weigh d (fun q e => if q = p then 0 else w q e) := by
    apply weigh_congr
    intro q e _ hheavy
    by_cases hq : q = p
    · simp [hq] at hheavy
    · rw [if_neg hq] at hheavy
      exact h q e hq hheavy
  have ht := weigh_apart t d w p
  have hu := weigh_apart u d w p
  omega

/-- A tree with fewer entries weighs no more. -/
theorem weigh_mono {t u : FileTree N β} (d : List N) (w : List N → Entry N β → Nat)
    (h : ∀ p e, u.entry p = some e → t.entry p = some e) : u.weigh d w ≤ t.weigh d w := by
  have hsubset : u.below d ⊆ t.below d := by
    rintro ⟨p, e⟩ hrow
    obtain ⟨hentry, hbelow⟩ := mem_below.mp hrow
    exact mem_below.mpr ⟨h p e hentry, hbelow⟩
  obtain ⟨rows, hperm, hsublist⟩ := List.subperm_of_subset (u.below_nodup d) hsubset
  unfold weigh
  rw [← (hperm.map _).sum_eq]
  exact (hsublist.map _).sum_le_sum fun _ _ => Nat.zero_le _

/-- Nothing is below a path that is no directory. -/
theorem weigh_not_dir {t : FileTree N β} {d : List N} (hd : t.entry d ≠ some .dir)
    (w : List N → Entry N β → Nat) : t.weigh d w = 0 := by
  have hnil : t.below d = [] := by
    rw [List.eq_nil_iff_forall_not_mem]
    rintro ⟨p, e⟩ hrow
    obtain ⟨hentry, hbelow⟩ := mem_below.mp hrow
    exact hd (entry_above d hentry hbelow.1 hbelow.2.symm)
  rw [weigh, hnil]
  rfl

end FileTree

/-! ## Paths that are normalised as they are written -/

namespace FileTree

variable {N : Type}

/-- One component, lexically. -/
def move (at_dir : List N) : Step N → List N
  | .blank => at_dir
  | .here => at_dir
  | .up => at_dir.dropLast
  | .into name => at_dir ++ [name]

/-- The normalised path. -/
def normal (base : List N) (steps : List (Step N)) : List N := steps.foldl move base

/-- How a path moves. -/
structure Trail (N : Type) where
  /-- how often it goes up with nothing of its own left -/
  climbed : Nat
  /-- the names of its own that are left -/
  standing : List N
  deriving DecidableEq

def Trail.move (t : Trail N) : Step N → Trail N
  | .blank => t
  | .here => t
  | .up => if t.standing.isEmpty then { t with climbed := t.climbed + 1 } else { t with standing := t.standing.dropLast }
  | .into name => { t with standing := t.standing ++ [name] }

def trail (steps : List (Step N)) : Trail N := steps.foldl Trail.move { climbed := 0, standing := [] }

/-- Where a trail leads from a directory. -/
def Trail.from_dir (t : Trail N) (base : List N) : List N := base.take (base.length - t.climbed) ++ t.standing

theorem Trail.move_from (t : Trail N) (base : List N) (s : Step N) :
    (t.move s).from_dir base = FileTree.move (t.from_dir base) s := by
  cases s with
  | blank => rfl
  | here => rfl
  | into name => simp [Trail.move, from_dir, FileTree.move]
  | up =>
    unfold Trail.move FileTree.move from_dir
    rcases hstand : t.standing with _ | ⟨name, rest⟩
    · simp only [List.isEmpty_nil, if_true, List.append_nil]
      rw [List.dropLast_eq_take, List.take_take, List.length_take]
      congr 1
      omega
    · simp [List.dropLast_append_of_ne_nil]

/-- **Where a path leads**, by induction on its last component. -/
theorem normal_eq (base : List N) (steps : List (Step N)) : normal base steps = (trail steps).from_dir base := by
  induction steps using List.reverseRecOn with
  | nil => simp [normal, trail, Trail.from_dir]
  | append_singleton steps s ih =>
    rw [normal, trail, List.foldl_append, List.foldl_append]
    show move (normal base steps) s = ((trail steps).move s).from_dir base
    rw [ih, Trail.move_from]

/-- A path leads back into its start exactly if the names that it stands at begin with those that it climbed out of. -/
theorem prefix_normal_iff (base : List N) (steps : List (Step N)) :
    base <+: normal base steps ↔ base.drop (base.length - (trail steps).climbed) <+: (trail steps).standing := by
  rw [normal_eq, Trail.from_dir]
  generalize base.length - (trail steps).climbed = n
  calc base <+: base.take n ++ (trail steps).standing
      ↔ base.take n ++ base.drop n <+: base.take n ++ (trail steps).standing := by rw [List.take_append_drop]
    _ ↔ base.drop n <+: (trail steps).standing := List.prefix_append_right_inj _

/-- From the root, a path leads to the names that it stands at. -/
theorem normal_root (steps : List (Step N)) : normal [] steps = (trail steps).standing := by
  rw [normal_eq]
  simp [Trail.from_dir]

end FileTree
