import Mathlib.Data.List.Sort

/-!
# `Lib.Paging` — reading a table page by page

The rows of a table are sorted by a key. A page is the first rows whose key is past a cursor, and the cursor of the
next page is the key of the last row of this one. The reader stops at a page that is not full.

* `collect_eq` — **every row once, in order**, after exactly one page more than there are full ones.
* `collect_snapshot` — if rows are added at the end between the pages, what was read is the table as the last page found
  it.
-/

namespace Paging

variable {α K : Type*} [LinearOrder K] (key : α → K)

/-- The rows past a cursor. -/
def past (rows : List α) (since : K) : List α := rows.filter fun r => decide (since < key r)

def page (size : Nat) (rows : List α) (since : K) : List α := (past key rows since).take size

/-- At most so many pages; the `k`-th one is of the table as it is then. `none` while the reader is not done. -/
def collect (size : Nat) (rows : Nat → List α) : Nat → Nat → K → List α → Option (List α)
  | 0, _, _, _ => none
  | reads + 1, k, since, out =>
    match (page key size (rows k) since).getLast? with
    | none => some out
    | some last =>
      if (page key size (rows k) since).length < size then some (out ++ page key size (rows k) since)
      else collect size rows reads (k + 1) (key last) (out ++ page key size (rows k) since)

/-- The keys are strictly increasing. -/
def Sorted (rows : List α) : Prop := rows.Pairwise fun r s => key r < key s

/-- The cursor is behind the rows that were read, and before the rest. -/
structure Between (since : K) (out rest : List α) : Prop where
  read : ∀ r ∈ out, key r ≤ since
  unread : ∀ r ∈ rest, since < key r

variable {key} {since : K} {out rest : List α}

theorem Between.past (h : Between key since out rest) : past key (out ++ rest) since = rest := by
  have hout : out.filter (fun r => decide (since < key r)) = [] := by
    rw [List.filter_eq_nil_iff]
    intro r hr
    simpa using h.read r hr
  have hrest : rest.filter (fun r => decide (since < key r)) = rest := by
    rw [List.filter_eq_self]
    intro r hr
    simpa using h.unread r hr
  rw [Paging.past, List.filter_append, hout, hrest, List.nil_append]

theorem Between.page (h : Between key since out rest) (size : Nat) : page key size (out ++ rest) since = rest.take size := by
  rw [Paging.page, h.past]

/-- The cursor moves on to the last row of a page. -/
theorem Between.next {last : α} {front more : List α} (hsorted : Sorted key (out ++ (front ++ [last]) ++ more)) :
    Between key (key last) (out ++ (front ++ [last])) more := by
  obtain ⟨hread, -, hmore⟩ := List.pairwise_append.mp hsorted
  have hlast : last ∈ out ++ (front ++ [last]) := by simp
  refine ⟨fun r hr => ?_, fun r hr => hmore last hlast r hr⟩
  rw [← List.append_assoc] at hread hr
  obtain ⟨-, -, hbefore⟩ := List.pairwise_append.mp hread
  rcases List.mem_append.mp hr with hin | hin
  · exact le_of_lt (hbefore r hin last (List.mem_singleton_self last))
  · rw [List.mem_singleton.mp hin]

/-! ## One page -/

section Page

variable {size : Nat} (rows : Nat → List α) (k : Nat) (hrows : rows k = out ++ rest) (h : Between key since out rest)

include hrows h

/-- A page that is not full is the last one. -/
theorem collect_short (hshort : rest.length < size) (reads : Nat) :
    collect key size rows (reads + 1) k since out = some (out ++ rest) := by
  have hpage : page key size (rows k) since = rest := by
    rw [hrows, h.page, List.take_of_length_le (Nat.le_of_lt hshort)]
  rw [collect, hpage]
  cases hlast : rest.getLast? with
  | none => rw [List.getLast?_eq_none_iff.mp hlast, List.append_nil]
  | some last => exact if_pos hshort

/-- A full page is read, and its last row is the cursor of the next one. -/
theorem collect_full (hsize : 0 < size) (hfull : size ≤ rest.length) (reads : Nat) :
    ∃ front last, rest.take size = front ++ [last] ∧
      collect key size rows (reads + 1) k since out =
        collect key size rows reads (k + 1) (key last) (out ++ (front ++ [last])) := by
  have hlength : (rest.take size).length = size := List.length_take_of_le hfull
  have hne : rest.take size ≠ [] := by
    intro hnil
    rw [hnil] at hlength
    exact absurd hlength (Nat.ne_of_lt hsize)
  obtain ⟨front, last, hpage⟩ := (List.eq_nil_or_concat' _).resolve_left hne
  have hread : page key size (rows k) since = front ++ [last] := by rw [hrows, h.page, hpage]
  rw [hpage] at hlength
  refine ⟨front, last, hpage, ?_⟩
  rw [collect, hread, List.getLast?_concat]
  exact if_neg (by omega)

end Page

/-! ## All pages -/

/-- **Paging a table** takes one page more than there are full pages left. -/
theorem collect_eq {size : Nat} (hsize : 0 < size) (reads : Nat) : ∀ {k : Nat} {since : K} {out rest : List α},
    Sorted key (out ++ rest) → Between key since out rest →
    collect key size (fun _ => out ++ rest) reads k since out =
      if rest.length / size < reads then some (out ++ rest) else none := by
  induction reads with
  | zero => intro k since out rest _ _; rfl
  | succ reads ih =>
    intro k since out rest hsorted hbetween
    by_cases hshort : rest.length < size
    · rw [collect_short (fun _ => out ++ rest) k rfl hbetween hshort, Nat.div_eq_of_lt hshort, if_pos (Nat.succ_pos reads)]
    · have hfull := Nat.not_lt.mp hshort
      obtain ⟨front, last, hpage, hread⟩ := collect_full (fun _ => out ++ rest) k rfl hbetween hsize hfull reads
      have hparts : out ++ rest = out ++ (front ++ [last]) ++ rest.drop size := by
        rw [← hpage, List.append_assoc, List.take_append_drop]
      rw [hread, hparts, ih (hparts ▸ hsorted) (.next (hparts ▸ hsorted)), List.length_drop,
        Nat.div_eq_sub_div hsize hfull]
      simp only [Nat.add_lt_add_iff_right]

theorem prefix_of_le {rows : Nat → List α} (hgrows : ∀ k, rows k <+: rows (k + 1)) {j k : Nat} (hjk : j ≤ k) :
    rows j <+: rows k := by
  induction hjk with
  | refl => exact List.prefix_rfl
  | step _ ih => exact ih.trans (hgrows _)

/-- What was read is the table as one of the pages found it. -/
theorem collect_snapshot {size : Nat} (hsize : 0 < size) {rows : Nat → List α} (hsorted : ∀ k, Sorted key (rows k))
    (hgrows : ∀ k, rows k <+: rows (k + 1)) (reads : Nat) : ∀ {k : Nat} {since : K} {out all : List α},
    (∀ j, k ≤ j → ∃ rest, rows j = out ++ rest ∧ Between key since out rest) →
    collect key size rows reads k since out = some all → ∃ j, k ≤ j ∧ j < k + reads ∧ all = rows j := by
  induction reads with
  | zero => intro k since out all _ h; cases h
  | succ reads ih =>
    intro k since out all hbetween hall
    obtain ⟨rest, hrows, hb⟩ := hbetween k le_rfl
    by_cases hshort : rest.length < size
    · rw [collect_short rows k hrows hb hshort] at hall
      exact ⟨k, le_rfl, by omega, (Option.some.inj hall).symm.trans hrows.symm⟩
    · obtain ⟨front, last, hpage, hread⟩ := collect_full rows k hrows hb hsize (Nat.not_lt.mp hshort) reads
      rw [hread] at hall
      have hnext : ∀ j, k + 1 ≤ j →
          ∃ more, rows j = out ++ (front ++ [last]) ++ more ∧ Between key (key last) (out ++ (front ++ [last])) more := by
        intro j hj
        -- later tables start with the rows of this page
        have hstart : out ++ (front ++ [last]) <+: rows j := by
          have hpart : out ++ rest.take size <+: rows k := by
            rw [hrows]
            exact (List.prefix_append_right_inj out).mpr (List.take_prefix size rest)
          rw [← hpage]
          exact hpart.trans (prefix_of_le hgrows (Nat.le_of_succ_le hj))
        obtain ⟨more, hmore⟩ := hstart
        exact ⟨more, hmore.symm, .next (hmore ▸ hsorted j)⟩
      obtain ⟨j, hj, hlt, heq⟩ := ih hnext hall
      exact ⟨j, by omega, by omega, heq⟩

end Paging
