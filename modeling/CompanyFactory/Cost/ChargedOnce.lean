import CompanyFactory.Cost.Subscriptions
import CompanyFactory.Lib.Schedule

/-!
# `Cost.ChargedOnce` — each due day is charged once

The row says which day is to be charged next. As long as **every charge that goes through is followed by the update of
its row**, the days that were charged are the days of the schedule before the next one (`Booked`), whatever else is
called, at whatever days the ticks come. An append that raises after the money was taken ends the tick before the
update, and the next tick charges the same day again.

* `settles` — the condition on a step: no charge that goes through is cut off from its update.
* `smooth` — on top of it nothing is refused, and the ticks come day by day.
* `charged_once` — at most once in settled runs; exactly the due days up to the last tick in smooth ones.
-/

namespace CompanyFactory

open Act Machine Schedule

namespace Subscriptions

/-! ## The loop -/

/-- The due days of a row whose first one was `first`. -/
def due_day (first : String → Int) (sub : Subscription) (n : Int) : Prop := Due (first sub.id) sub.period_days n

/-- **The books are right.** The days that were charged are the due days before the next one, and each was charged
    once. -/
structure Booked (first : String → Int) (s : Subscriptions) : Prop where
  ids : (s.rows.map Subscription.id).Nodup
  next : ∀ sub ∈ s.rows, due_day first sub sub.next_charge_company_day
  charged : ∀ sub ∈ s.rows, ∀ n,
    (sub.id, n) ∈ s.charged ↔ n < sub.next_charge_company_day ∧ due_day first sub n
  known : ∀ c ∈ s.charged, ∃ sub ∈ s.rows, sub.id = c.1
  once : s.charged.Nodup

/-- If the charge goes through, its events are taken and the next day is written. -/
def Settles (sub : Subscription) (b : Budget) : Prop :=
  sub.grants b = true → sub.takes b = true ∧ fits sub.advanced.next_charge_company_day = true

/-- So it is for each row of a tick, at the budget that the rows before it leave; and a charge that comes last in its
    process does not go through. -/
def AllSettle (cut : Option Subscription) : List Subscription → Budget → Prop
  | [], b => ∀ sub ∈ cut, sub.grants b = false
  | sub :: subs, b => Settles sub b ∧ (sub.takes b = true → AllSettle cut subs (b.step sub.call))

def decideAllSettle (cut : Option Subscription) : ∀ subs b, Decidable (AllSettle cut subs b)
  | [], b => inferInstanceAs (Decidable (∀ sub ∈ cut, sub.grants b = false))
  | sub :: subs, b =>
      have := decideAllSettle cut subs (b.step sub.call)
      inferInstanceAs (Decidable (
        (sub.grants b = true → sub.takes b = true ∧ fits sub.advanced.next_charge_company_day = true) ∧
          (sub.takes b = true → AllSettle cut subs (b.step sub.call))))

instance (cut : Option Subscription) (subs : List Subscription) (b : Budget) : Decidable (AllSettle cut subs b) :=
  decideAllSettle cut subs b

section Loop

variable {first : String → Int} {s : Subscriptions} {sub : Subscription}

theorem Booked.budget (h : Booked first s) (budget : Budget) : Booked first { s with budget } :=
  ⟨h.ids, h.next, h.charged, h.known, h.once⟩

theorem Booked.cancel (h : Booked first s) (sub_id : String) : Booked first (cancel sub_id s) := by
  have hold : ∀ row ∈ (Subscriptions.cancel sub_id s).rows, ∃ old ∈ s.rows, row.id = old.id ∧
      row.next_charge_company_day = old.next_charge_company_day ∧ row.period_days = old.period_days := by
    intro row hrow
    obtain ⟨old, hmem, ⟨-, rfl⟩ | ⟨-, rfl⟩⟩ := Table.mem_update hrow
    · exact ⟨_, hmem, rfl, rfl, rfl⟩
    · exact ⟨old, hmem, rfl, rfl, rfl⟩
  refine ⟨?_, fun row hrow => ?_, fun row hrow n => ?_, fun c hc => ?_, h.once⟩
  · rw [cancel_ids]
    exact h.ids
  · obtain ⟨old, hmem, hid, hnext, hperiod⟩ := hold row hrow
    unfold due_day
    rw [hid, hnext, hperiod]
    exact h.next old hmem
  · obtain ⟨old, hmem, hid, hnext, hperiod⟩ := hold row hrow
    unfold due_day
    rw [hid, hnext, hperiod]
    exact h.charged old hmem n
  · obtain ⟨old, hmem, hid⟩ := h.known c hc
    obtain ⟨row, hrow, hrowid⟩ := Table.exists_of_keys (cancel_ids sub_id s) hmem
    exact ⟨row, hrow, hrowid.trans hid⟩

/-- **A charge and its update.** -/
theorem Booked.paid_moved (h : Booked first s) (hsub : sub ∈ s.rows) :
    Booked first (moved sub (paid sub s)) := by
  have hdue := h.next sub hsub
  have hnew : (sub.id, sub.next_charge_company_day) ∉ s.charged := fun hmem =>
    absurd ((h.charged sub hsub _).mp hmem).1 (lt_irrefl _)
  refine ⟨?_, fun row hrow => ?_, fun row hrow n => ?_, fun c hc => ?_, ?_⟩
  · rw [moved_ids]
    exact h.ids
  · obtain ⟨old, hmem, ⟨-, rfl⟩ | ⟨hid, rfl⟩⟩ := Table.mem_update hrow
    · exact h.next _ hmem
    · obtain rfl := eq_of_id h.ids hmem hsub hid
      exact hdue.advance
  · show (row.id, n) ∈ s.charged ++ [(sub.id, sub.next_charge_company_day)] ↔ _
    rw [List.mem_append, List.mem_singleton, Prod.mk.injEq]
    obtain ⟨old, hmem, ⟨hid, rfl⟩ | ⟨hid, rfl⟩⟩ := Table.mem_update hrow
    · rw [h.charged _ hmem]
      exact or_iff_left fun heq => hid heq.1
    · obtain rfl := eq_of_id h.ids hmem hsub hid
      have hstep := due_below_advance (n := n) old.positive hdue
      show (old.id, n) ∈ s.charged ∨ _ ↔ n < old.next_charge_company_day + old.period_days ∧ due_day first old n
      rw [h.charged old hmem]
      refine Iff.trans (or_congr_right ?_) hstep.symm
      exact and_iff_right rfl
  · have hids := moved_ids sub (paid sub s)
    rcases List.mem_append.mp hc with hold | hlast
    · obtain ⟨old, hmem, hid⟩ := h.known c hold
      obtain ⟨row, hrow, hrowid⟩ := Table.exists_of_keys hids hmem
      exact ⟨row, hrow, hrowid.trans hid⟩
    · rw [List.mem_singleton.mp hlast]
      exact Table.exists_of_keys hids hsub
  · show (s.charged ++ [(sub.id, sub.next_charge_company_day)]).Nodup
    rw [List.nodup_append]
    refine ⟨h.once, List.nodup_singleton _, fun a ha b hb heq => ?_⟩
    rw [List.mem_singleton.mp hb] at heq
    exact hnew (heq ▸ ha)

/-- One turn of the loop. -/
theorem charge_due_booked (h : Booked first s) (hsub : sub ∈ s.rows) (hC : Settles sub s.budget) :
    Booked first (charge_due sub s).2 ∧ ((charge_due sub s).1 = .ok () →
      sub.takes s.budget = true ∧ (charge_due sub s).2.budget = s.budget.step sub.call ∧
        ∀ row ∈ s.rows, row.id ≠ sub.id → row ∈ (charge_due sub s).2.rows) := by
  obtain ⟨-, htakes, -, hrun⟩ | ⟨hgrants, hcut, -⟩ | ⟨-, htakes, hrun⟩ | ⟨-, -, e, hrun⟩ := charge_due_cases sub s
  · rw [hrun]
    exact ⟨h.paid_moved hsub, fun _ => ⟨htakes, rfl, fun row hrow hid => Table.mem_update_of_ne hrow hid⟩⟩
  · -- the money is taken and the row stays where it is: no step of the run does this
    obtain ⟨htakes, hfits⟩ := hC hgrants
    rcases hcut with hrefused | hover
    · exact absurd (htakes.symm.trans hrefused) nofun
    · exact absurd (hfits.symm.trans hover) nofun
  · rw [hrun]
    exact ⟨(h.budget _).cancel _, fun _ => ⟨htakes, rfl, fun row hrow hid => Table.mem_update_of_ne hrow hid⟩⟩
  · rw [hrun]
    exact ⟨h.budget _, nofun⟩

/-- **The whole loop**, over rows of the table. -/
theorem charge_all_booked {cut : Option Subscription} (subs : List Subscription) :
    ∀ {s : Subscriptions}, Booked first s → (∀ sub ∈ subs, sub ∈ s.rows) → (subs.map Subscription.id).Nodup →
      AllSettle cut subs s.budget → Booked first (charge_all subs s).2 ∧
        ((charge_all subs s).1 = .ok () → ∀ sub, cut = some sub → sub.grants (charge_all subs s).2.budget = false) := by
  induction subs with
  | nil => exact fun h _ _ hC => ⟨h, fun _ => hC⟩
  | cons sub subs ih =>
      intro s h hrows hids hC
      obtain ⟨hsettles, hrest⟩ := hC
      rw [List.map_cons, List.nodup_cons] at hids
      obtain ⟨hbooked, hreturned⟩ := charge_due_booked h (hrows sub List.mem_cons_self) hsettles
      unfold charge_all
      rw [bind_run]
      rcases hrun : charge_due sub s with ⟨result, s'⟩
      rw [hrun] at hbooked hreturned
      cases result with
      | error e => exact ⟨hbooked, nofun⟩
      | ok u =>
          obtain ⟨htakes, hbudget, hstay⟩ := hreturned rfl
          -- the ids are distinct, so the rows of the later charges are as the loop has read them
          refine ih hbooked (fun row hrow => ?_) hids.2 (hbudget ▸ hrest htakes)
          refine hstay row (hrows row (List.mem_cons_of_mem _ hrow)) fun heq => hids.1 ?_
          exact heq ▸ List.mem_map_of_mem hrow

/-- A charge that is not followed by anything. -/
theorem charge_last_booked (h : Booked first s) {cut : Option Subscription}
    (hC : ∀ sub, cut = some sub → sub.grants s.budget = false) : Booked first (charge_last cut s).2 := by
  cases cut with
  | none => exact h
  | some sub =>
      have hafter : (charge sub s).2 = refused sub s := by
        rw [charge_after, hC sub rfl]
        rfl
      have hlast : (charge_last (some sub) s).2 = (charge sub s).2 := Act.bind_pure_state _ _ _
      rw [hlast, hafter]
      exact h.budget _

/-! ### The tick -/

theorem on_day_tick_run (day : Int) (s : Subscriptions) : (on_day_tick day).after s =
    if fits day then (charge_all (s.due day) s).2 else s := by
  unfold on_day_tick Act.after
  split <;> rfl

theorem tick_booked (h : Booked first s) (day : Int) (hC : AllSettle none (s.due day) s.budget) :
    Booked first ((on_day_tick day).after s) := by
  rw [on_day_tick_run]
  split
  · exact (charge_all_booked _ h (fun sub hsub => (mem_due.mp hsub).1) (due_ids h.ids day) hC).1
  · exact h

theorem dies_booked (h : Booked first s) (day : Int) (k : Nat) (charges : Bool)
    (hC : AllSettle (if charges then (s.due day)[k]? else none) ((s.due day).take k) s.budget) :
    Booked first ((tick_dies day k charges).after s) := by
  unfold tick_dies Act.after
  split
  · rw [read_bind, bind_run]
    obtain ⟨hbooked, hcut⟩ := charge_all_booked _ h (fun sub hsub => (mem_due.mp (List.mem_of_mem_take hsub)).1)
      ((due_ids h.ids day).sublist ((List.take_sublist k _).map _)) hC
    rcases hrun : charge_all ((s.due day).take k) s with ⟨result, s'⟩
    rw [hrun] at hbooked hcut
    cases result with
    | error e => exact hbooked
    | ok u => exact charge_last_booked hbooked (hcut rfl)
  · exact h

end Loop

/-! ## Runs -/

/-- The subscriptions, with what the run did to them. -/
structure Watched where
  subs : Subscriptions
  /-- the due day with which a subscription was added -/
  first : String → Int
  /-- the last tick that a subscription saw while it was active -/
  seen : String → Option Int
  /-- the last tick -/
  last : Option Int

/-- Is it in the table, and not cancelled? -/
def active (s : Subscriptions) (sub_id : String) : Bool :=
  (Table.find Subscription.id s.rows sub_id).any fun row => !row.cancelled

def watch (w : Watched) (label : Label) : Watched :=
  { subs := w.subs.step label
    first := match label with
      | .add sub_id _ _ _ next_charge_company_day _ =>
        if (Table.find Subscription.id w.subs.rows sub_id).isSome then w.first
        else Function.update w.first sub_id next_charge_company_day
      | _ => w.first
    seen := match label with
      | .on_day_tick day | .tick_dies day _ _ => fun sub_id => if active w.subs sub_id then some day else w.seen sub_id
      | _ => w.seen
    last := match label with
      | .on_day_tick day | .tick_dies day _ _ => some day
      | _ => w.last }

/-- The subscriptions of a company that is opened. -/
def watched (budget : Budget) : Watched :=
  { subs := opened budget, first := fun _ => 0, seen := fun _ => none, last := none }

/-- **A settled step.** No charge of it that goes through is cut off from the update of its row. -/
def settles (w : Watched) : Label → Prop
  | .on_day_tick day => AllSettle none (w.subs.due day) w.subs.budget
  | .tick_dies day k charges =>
      AllSettle (if charges then (w.subs.due day)[k]? else none) ((w.subs.due day).take k) w.subs.budget
  | _ => True

/-- **A step in time.** A tick is of the day of the last one, or of the next day; no subscription that was added since
    the last one was due before it. -/
def timely (w : Watched) : Label → Prop
  | .on_day_tick day | .tick_dies day _ _ => (∀ d ∈ w.last, day = d ∨ day = d + 1) ∧
      ∀ sub ∈ w.subs.rows, sub.cancelled = false → w.seen sub.id = none → day ≤ w.first sub.id
  | _ => True

/-- Each of the charges is granted, its events are taken, and the next day is written. -/
def AllGo : List Subscription → Budget → Prop
  | [], _ => True
  | sub :: subs, b => (sub.grants b = true ∧ sub.takes b = true ∧ fits sub.advanced.next_charge_company_day = true) ∧
      AllGo subs (b.step sub.call)

def decideAllGo : ∀ subs b, Decidable (AllGo subs b)
  | [], _ => isTrue trivial
  | sub :: subs, b => @instDecidableAnd _ _ _ (decideAllGo subs (b.step sub.call))

instance (subs : List Subscription) (b : Budget) : Decidable (AllGo subs b) := decideAllGo subs b

/-- **A smooth step.** It is in time; no charge of a tick is refused or fails. -/
def smooth (w : Watched) (label : Label) : Prop :=
  timely w label ∧ match label with
    | .on_day_tick day => fits day = true ∧ AllGo (w.subs.due day) w.subs.budget
    | .tick_dies _ _ _ => False
    | _ => True

instance (w : Watched) (label : Label) : Decidable (settles w label) := by
  cases label
  all_goals unfold settles; infer_instance

instance (w : Watched) (label : Label) : Decidable (timely w label) := by
  cases label
  all_goals unfold timely; infer_instance

instance (w : Watched) (label : Label) : Decidable (smooth w label) := by
  cases label
  all_goals unfold smooth; infer_instance

/-- The books of a run are right. -/
def InOrder (w : Watched) : Prop := Booked w.first w.subs

/-- What was charged is a due day of a subscription, and no day was charged twice. -/
def Once (w : Watched) : Prop := w.subs.charged.Nodup ∧
  ∀ c ∈ w.subs.charged, ∃ sub ∈ w.subs.rows, sub.id = c.1 ∧ due_day w.first sub c.2

/-- The subscription was charged for exactly its due days up to a tick, if there was one. -/
def ChargedUpTo (w : Watched) (sub : Subscription) (tick : Option Int) : Prop :=
  ∀ n, (sub.id, n) ∈ w.subs.charged ↔ (∃ d, tick = some d ∧ n ≤ d) ∧ due_day w.first sub n

section Runs

variable {w : Watched}

/-- A new subscription, under an id that is not in the table. -/
theorem Booked.add {first : String → Int} {s : Subscriptions} (h : Booked first s) {sub : Subscription}
    (hnew : Table.find Subscription.id s.rows sub.id = none) :
    Booked (Function.update first sub.id sub.next_charge_company_day) { s with rows := s.rows ++ [sub] } := by
  have hne : ∀ row ∈ s.rows, row.id ≠ sub.id := Table.find_eq_none.mp hnew
  have hsame : ∀ row ∈ s.rows,
      Function.update first sub.id sub.next_charge_company_day row.id = first row.id :=
    fun row hrow => Function.update_of_ne (hne row hrow) _ _
  have hfirst : Function.update first sub.id sub.next_charge_company_day sub.id = sub.next_charge_company_day :=
    Function.update_self _ _ _
  refine ⟨Table.keys_insert h.ids hnew, fun row hrow => ?_, fun row hrow n => ?_, fun c hc => ?_, h.once⟩
  · unfold due_day
    rcases List.mem_append.mp hrow with hold | hlast
    · rw [hsame row hold]
      exact h.next row hold
    · rw [List.mem_singleton.mp hlast, hfirst]
      exact due_first
  · unfold due_day
    rcases List.mem_append.mp hrow with hold | hlast
    · rw [hsame row hold]
      exact h.charged row hold n
    · obtain rfl := List.mem_singleton.mp hlast
      rw [hfirst]
      -- no day of the schedule is before its first one, and nothing was charged under a new id
      constructor
      · intro hmem
        obtain ⟨old, hold, hid⟩ := h.known _ hmem
        exact absurd hid (hne old hold)
      · rintro ⟨hlt, hn⟩
        exact absurd hlt (not_lt_of_ge (hn.first_le row.positive))
  · obtain ⟨old, hold, hid⟩ := h.known c hc
    exact ⟨old, List.mem_append_left _ hold, hid⟩

/-- A change at an id that is not in the table is not seen. -/
theorem Booked.congr {first first' : String → Int} {s : Subscriptions} (h : Booked first s)
    (heq : ∀ sub ∈ s.rows, first' sub.id = first sub.id) : Booked first' s := by
  refine ⟨h.ids, fun sub hsub => ?_, fun sub hsub n => ?_, h.known, h.once⟩
  · unfold due_day
    rw [heq sub hsub]
    exact h.next sub hsub
  · unfold due_day
    rw [heq sub hsub]
    exact h.charged sub hsub n

/-- **What an `add` does to a run**: the rows stay, and no first day of theirs changes; or it is a new row. -/
theorem watch_add_cases (w : Watched) (sub_id description : String) (amount : Money) (category : Category)
    (next period : Int) :
    (∃ first : String → Int, (∀ row ∈ w.subs.rows, first row.id = w.first row.id) ∧
      watch w (.add sub_id description amount category next period) = { w with first }) ∨
    ∃ sub : Subscription, Table.find Subscription.id w.subs.rows sub.id = none ∧
      watch w (.add sub_id description amount category next period) =
        { w with subs := { w.subs with rows := w.subs.rows ++ [sub] }
                 first := Function.update w.first sub.id sub.next_charge_company_day } := by
  dsimp only [watch, step]
  cases hfind : Table.find Subscription.id w.subs.rows sub_id with
  | some row =>
      obtain heq | ⟨hnone, -⟩ := add_cases sub_id description amount category next period w.subs
      · rw [heq]
        exact .inl ⟨w.first, fun _ _ => rfl, rfl⟩
      · exact absurd (hfind.symm.trans hnone) nofun
  | none =>
      obtain heq | ⟨-, sub, rfl, rfl, heq⟩ := add_cases sub_id description amount category next period w.subs
      · -- the arguments were refused, and the run has written down a first day under an id that no row has
        rw [heq]
        refine .inl ⟨_, fun row hrow => Function.update_of_ne ?_ _ _, rfl⟩
        exact Table.find_eq_none.mp hfind row hrow
      · rw [heq]
        exact .inr ⟨sub, hfind, rfl⟩

/-- **Every settled step keeps the books.** -/
theorem step_booked (h : InOrder w) (label : Label) (hC : settles w label) : InOrder (watch w label) := by
  cases label with
  | add sub_id description amount category next period =>
      obtain ⟨first, hfirst, heq⟩ | ⟨sub, hnew, heq⟩ :=
        watch_add_cases w sub_id description amount category next period
      · rw [heq]
        exact h.congr hfirst
      · rw [heq]
        exact h.add hnew
  | remove sub_id => exact h.cancel sub_id
  | on_day_tick day => exact tick_booked h day hC
  | tick_dies day k charges => exact dies_booked h day k charges hC
  | budget call => exact h.budget _
  | restart => exact h

/-! ### Smooth runs -/

theorem AllGo.settle (subs : List Subscription) : ∀ {b : Budget}, AllGo subs b → AllSettle none subs b := by
  induction subs with
  | nil => exact fun _ sub hsub => nomatch hsub
  | cons sub subs ih =>
      rintro b ⟨⟨-, htakes, hfits⟩, hrest⟩
      exact ⟨fun _ => ⟨htakes, hfits⟩, fun _ => ih hrest⟩

/-- **A smooth loop** moves each of its rows on by one period. -/
theorem charge_all_smooth (subs : List Subscription) : ∀ {s : Subscriptions}, (s.rows.map Subscription.id).Nodup →
    (∀ sub ∈ subs, sub ∈ s.rows) → (subs.map Subscription.id).Nodup → AllGo subs s.budget →
    (charge_all subs s).2.rows =
      s.rows.map fun row => if row.id ∈ subs.map Subscription.id then row.advanced else row := by
  induction subs with
  | nil =>
      intro s _ _ _ _
      simp [charge_all]
  | cons sub subs ih =>
      intro s hkeys hrows hids ⟨⟨hgrants, htakes, hfits⟩, hrest⟩
      rw [List.map_cons, List.nodup_cons] at hids
      have hsub := hrows sub List.mem_cons_self
      have hrun : charge_due sub s = (.ok (), moved sub (paid sub s)) := by
        obtain ⟨-, -, -, hrun⟩ | ⟨-, hrefused | hover, -⟩ | ⟨hno, -⟩ | ⟨hno, -⟩ := charge_due_cases sub s
        · exact hrun
        · exact absurd (htakes.symm.trans hrefused) nofun
        · exact absurd (hfits.symm.trans hover) nofun
        · exact absurd (hgrants.symm.trans hno) nofun
        · exact absurd (hgrants.symm.trans hno) nofun
      have hstay : ∀ row ∈ subs, row ∈ (moved sub (paid sub s)).rows := fun row hrow =>
        Table.mem_update_of_ne (hrows row (List.mem_cons_of_mem _ hrow)) fun heq =>
          hids.1 (heq ▸ List.mem_map_of_mem hrow)
      have hkeys' : ((moved sub (paid sub s)).rows.map Subscription.id).Nodup := (moved_ids sub (paid sub s)).symm ▸ hkeys
      unfold charge_all
      rw [bind_of_ok hrun, ih hkeys' hstay hids.2 hrest]
      show (s.rows.map _).map _ = _
      rw [List.map_map]
      refine List.map_congr_left fun row hrow => ?_
      rw [Function.comp_apply]
      by_cases hid : row.id = sub.id
      · obtain rfl := eq_of_id hkeys hrow hsub hid
        have hmem : row.id ∈ (row :: subs).map Subscription.id := List.mem_cons_self
        rw [if_pos rfl, if_pos hmem]
        exact if_neg hids.1
      · rw [if_neg hid]
        have hmem : row.id ∈ (sub :: subs).map Subscription.id ↔ row.id ∈ subs.map Subscription.id :=
          ⟨fun h => (List.mem_cons.mp h).resolve_left hid, List.mem_cons_of_mem _⟩
        exact if_congr hmem.symm rfl rfl

/-- **Paid up.** Every row was moved past the last tick that it saw, and not further. -/
structure PaidUp (w : Watched) : Prop where
  booked : InOrder w
  unseen : ∀ sub ∈ w.subs.rows, w.seen sub.id = none → sub.next_charge_company_day = w.first sub.id
  passed : ∀ sub ∈ w.subs.rows, ∀ d, w.seen sub.id = some d → d < sub.next_charge_company_day ∧
    (sub.next_charge_company_day = w.first sub.id ∨ sub.next_charge_company_day - sub.period_days ≤ d)
  latest : ∀ sub ∈ w.subs.rows, sub.cancelled = false → ∀ d, w.seen sub.id = some d → w.last = some d
  absent : ∀ sub_id, Table.find Subscription.id w.subs.rows sub_id = none → w.seen sub_id = none

theorem active_of_mem {s : Subscriptions} (h : (s.rows.map Subscription.id).Nodup) {sub : Subscription}
    (hsub : sub ∈ s.rows) : active s sub.id = !sub.cancelled := by
  unfold active
  rw [Table.find_of_mem h hsub]
  rfl

/-- Rows with the same schedule, under the same ids, that are active only if they were. -/
theorem PaidUp.rows (h : PaidUp w) {subs : Subscriptions} (hbooked : Booked w.first subs)
    (hids : subs.rows.map Subscription.id = w.subs.rows.map Subscription.id)
    (hrows : ∀ row ∈ subs.rows, ∃ old ∈ w.subs.rows, row.id = old.id ∧ row.period_days = old.period_days ∧
      row.next_charge_company_day = old.next_charge_company_day ∧ (row.cancelled = false → old.cancelled = false)) :
    PaidUp { w with subs } := by
  refine ⟨hbooked, fun row hrow hnone => ?_, fun row hrow d hd => ?_, fun row hrow hactive d hd => ?_, fun sub_id hnone => ?_⟩
  · obtain ⟨old, hold, hid, -, hnext, -⟩ := hrows row hrow
    dsimp only at hnone ⊢
    rw [hid] at hnone ⊢
    rw [hnext]
    exact h.unseen old hold hnone
  · obtain ⟨old, hold, hid, hperiod, hnext, -⟩ := hrows row hrow
    dsimp only at hd ⊢
    rw [hid] at hd ⊢
    rw [hnext, hperiod]
    exact h.passed old hold d hd
  · obtain ⟨old, hold, hid, -, -, hcancelled⟩ := hrows row hrow
    dsimp only at hd ⊢
    rw [hid] at hd
    exact h.latest old hold (hcancelled hactive) d hd
  · exact h.absent sub_id (Table.find_none_of_keys hids hnone)

/-- A subscription that is added has seen no tick. -/
theorem PaidUp.add (h : PaidUp w) {sub : Subscription} (hnew : Table.find Subscription.id w.subs.rows sub.id = none) :
    PaidUp { w with subs := { w.subs with rows := w.subs.rows ++ [sub] }
                    first := Function.update w.first sub.id sub.next_charge_company_day } := by
  have hne : ∀ row ∈ w.subs.rows, row.id ≠ sub.id := Table.find_eq_none.mp hnew
  have hsame : ∀ row ∈ w.subs.rows,
      Function.update w.first sub.id sub.next_charge_company_day row.id = w.first row.id :=
    fun row hrow => Function.update_of_ne (hne row hrow) _ _
  have hunseen := h.absent sub.id hnew
  refine ⟨h.booked.add hnew, fun row hrow hnone => ?_, fun row hrow d hd => ?_, fun row hrow hactive d hd => ?_,
    fun sub_id hnone => ?_⟩
  · rcases List.mem_append.mp hrow with hold | hlast
    · exact (h.unseen row hold hnone).trans (hsame row hold).symm
    · obtain rfl := List.mem_singleton.mp hlast
      exact (Function.update_self row.id row.next_charge_company_day w.first).symm
  · rcases List.mem_append.mp hrow with hold | hlast
    · dsimp only
      rw [hsame row hold]
      exact h.passed row hold d hd
    · obtain rfl := List.mem_singleton.mp hlast
      exact absurd (hunseen.symm.trans hd) nofun
  · rcases List.mem_append.mp hrow with hold | hlast
    · exact h.latest row hold hactive d hd
    · obtain rfl := List.mem_singleton.mp hlast
      exact absurd (hunseen.symm.trans hd) nofun
  · have hother : ∀ row ∈ w.subs.rows ++ [sub], row.id ≠ sub_id := Table.find_eq_none.mp hnone
    have hgone : Table.find Subscription.id w.subs.rows sub_id = none :=
      Table.find_eq_none.mpr fun old hold => hother old (List.mem_append_left _ hold)
    exact h.absent sub_id hgone

/-! ### A smooth tick -/

theorem tick_rows {day : Int} (hkeys : (w.subs.rows.map Subscription.id).Nodup) (hC : smooth w (.on_day_tick day)) :
    (watch w (.on_day_tick day)).subs.rows = w.subs.rows.map fun row =>
      if row.id ∈ (w.subs.due day).map Subscription.id then row.advanced else row := by
  show ((on_day_tick day).after w.subs).rows = _
  rw [on_day_tick_run, if_pos hC.2.1]
  exact charge_all_smooth _ hkeys (fun sub hsub => (mem_due.mp hsub).1) (due_ids hkeys day) hC.2.2

theorem tick_ids {day : Int} (hkeys : (w.subs.rows.map Subscription.id).Nodup) (hC : smooth w (.on_day_tick day)) :
    (watch w (.on_day_tick day)).subs.rows.map Subscription.id = w.subs.rows.map Subscription.id := by
  rw [tick_rows hkeys hC]
  refine Table.keys_update (fun row => ?_) _
  split <;> rfl

theorem tick_seen (day : Int) (hkeys : (w.subs.rows.map Subscription.id).Nodup) {row : Subscription}
    (hrow : row ∈ w.subs.rows) : (watch w (.on_day_tick day)).seen row.id =
      if row.cancelled = false then some day else w.seen row.id := by
  show (if active w.subs row.id then some day else w.seen row.id) = _
  rw [active_of_mem hkeys hrow]
  cases row.cancelled <;> rfl

/-- No active row is due before the day of the tick. -/
theorem PaidUp.not_before (h : PaidUp w) {day : Int} (hC : timely w (.on_day_tick day)) {row : Subscription}
    (hrow : row ∈ w.subs.rows) (hactive : row.cancelled = false) : day ≤ row.next_charge_company_day := by
  obtain ⟨hday, hadded⟩ := hC
  cases hseen : w.seen row.id with
  | none => exact (h.unseen row hrow hseen).symm ▸ hadded row hrow hactive hseen
  | some d =>
      -- the row was moved past the last tick, and this tick is at most one day later
      have hlt := (h.passed row hrow d hseen).1
      rcases hday d (h.latest row hrow hactive d hseen) with heq | heq
      · omega
      · omega

/-- What becomes of a row: it is cancelled; or due later; or due on the very day, and moved on. -/
inductive Ticked (day : Int) (old row : Subscription) : Prop
  | cancelled : old.cancelled = true → row.next_charge_company_day = old.next_charge_company_day → Ticked day old row
  | later : old.cancelled = false → day < old.next_charge_company_day →
      row.next_charge_company_day = old.next_charge_company_day → Ticked day old row
  | due : old.cancelled = false → row.next_charge_company_day = day + old.period_days → Ticked day old row

theorem PaidUp.tick_cases (h : PaidUp w) {day : Int} (hC : smooth w (.on_day_tick day)) {row : Subscription}
    (hrow : row ∈ (watch w (.on_day_tick day)).subs.rows) : ∃ old ∈ w.subs.rows, row.id = old.id ∧
      row.period_days = old.period_days ∧ row.cancelled = old.cancelled ∧ Ticked day old row := by
  have hkeys := h.booked.ids
  rw [tick_rows hkeys hC] at hrow
  obtain ⟨old, hold, heq⟩ := List.mem_map.mp hrow
  have hdue : old.id ∈ (w.subs.due day).map Subscription.id ↔ old ∈ w.subs.due day := by
    refine ⟨fun hmem => ?_, List.mem_map_of_mem⟩
    obtain ⟨sub, hsub, hid⟩ := List.mem_map.mp hmem
    exact eq_of_id hkeys (mem_due.mp hsub).1 hold hid ▸ hsub
  refine ⟨old, hold, ?_⟩
  by_cases hmem : old ∈ w.subs.due day
  · rw [if_pos (hdue.mpr hmem)] at heq
    obtain ⟨-, hactive, hle⟩ := mem_due.mp hmem
    have hnext : old.next_charge_company_day = day := le_antisymm hle (h.not_before hC.1 hold hactive)
    rw [← heq]
    exact ⟨rfl, rfl, rfl, .due hactive (by rw [Subscription.advanced, hnext])⟩
  · rw [if_neg (mt hdue.mp hmem)] at heq
    rw [← heq]
    refine ⟨rfl, rfl, rfl, ?_⟩
    cases hcancelled : old.cancelled with
    | true => exact .cancelled hcancelled rfl
    | false =>
        have hlater : ¬ old.next_charge_company_day ≤ day := fun hle => hmem (mem_due.mpr ⟨hold, hcancelled, hle⟩)
        exact .later hcancelled (Int.not_le.mp hlater) rfl

/-- **A smooth tick.** -/
theorem PaidUp.tick (h : PaidUp w) {day : Int} (hC : smooth w (.on_day_tick day)) :
    PaidUp (watch w (.on_day_tick day)) := by
  have hkeys := h.booked.ids
  refine ⟨step_booked h.booked _ hC.2.2.settle, fun row hrow hnone => ?_, fun row hrow d hd => ?_,
    fun row hrow hactive d hd => ?_, fun sub_id hnone => ?_⟩
  · obtain ⟨old, hold, hid, -, -, hcase⟩ := h.tick_cases hC hrow
    rw [hid, tick_seen day hkeys hold] at hnone
    rw [hid]
    cases hcase with
    | cancelled hcancelled hnext =>
        rw [hcancelled, if_neg Bool.noConfusion] at hnone
        exact hnext.trans (h.unseen old hold hnone)
    | later hactive =>
        rw [if_pos hactive] at hnone
        cases hnone
    | due hactive =>
        rw [if_pos hactive] at hnone
        cases hnone
  · obtain ⟨old, hold, hid, hperiod, -, hcase⟩ := h.tick_cases hC hrow
    rw [hid, tick_seen day hkeys hold] at hd
    rw [hid, hperiod]
    cases hcase with
    | cancelled hcancelled hnext =>
        rw [hcancelled, if_neg Bool.noConfusion] at hd
        rw [hnext]
        exact h.passed old hold d hd
    | later hactive hlt hnext =>
        rw [if_pos hactive] at hd
        obtain rfl := Option.some.inj hd
        rw [hnext]
        refine ⟨hlt, ?_⟩
        cases hwas : w.seen old.id with
        | none => exact .inl (h.unseen old hold hwas)
        | some d =>
            -- it was due no later than a period after the tick before, and the ticks only grow
            refine (h.passed old hold d hwas).2.imp_right fun hle => ?_
            rcases hC.1.1 d (h.latest old hold hactive d hwas) with heq | heq
            · omega
            · omega
    | due hactive hnext =>
        rw [if_pos hactive] at hd
        obtain rfl := Option.some.inj hd
        have hpos := old.positive
        rw [hnext]
        exact ⟨by omega, .inr (by omega)⟩
  · obtain ⟨old, hold, hid, -, hcancelled, -⟩ := h.tick_cases hC hrow
    rw [hid, tick_seen day hkeys hold, if_pos (hcancelled ▸ hactive)] at hd
    exact hd
  · have hgone := Table.find_none_of_keys (tick_ids hkeys hC) hnone
    have hinactive : active w.subs sub_id = false := by
      unfold active
      rw [hgone]
      rfl
    show (if active w.subs sub_id then some day else w.seen sub_id) = none
    rw [hinactive]
    exact h.absent sub_id hgone

/-- **Every smooth step keeps the rows paid up.** -/
theorem PaidUp.step (h : PaidUp w) {label : Label} (hC : smooth w label) : PaidUp (watch w label) := by
  cases label with
  | add sub_id description amount category next period =>
      obtain ⟨first, hfirst, heq⟩ | ⟨sub, hnew, heq⟩ :=
        watch_add_cases w sub_id description amount category next period
      · rw [heq]
        refine ⟨h.booked.congr hfirst, fun row hrow hnone => ?_, fun row hrow d hd => ?_, h.latest, h.absent⟩
        · exact (h.unseen row hrow hnone).trans (hfirst row hrow).symm
        · dsimp only
          rw [hfirst row hrow]
          exact h.passed row hrow d hd
      · rw [heq]
        exact h.add hnew
  | remove sub_id =>
      refine h.rows (h.booked.cancel sub_id) (cancel_ids sub_id w.subs) fun row hrow => ?_
      obtain ⟨old, hold, ⟨-, rfl⟩ | ⟨-, rfl⟩⟩ := Table.mem_update hrow
      · exact ⟨_, hold, rfl, rfl, rfl, id⟩
      · exact ⟨old, hold, rfl, rfl, rfl, nofun⟩
  | on_day_tick day => exact h.tick hC
  | tick_dies => exact hC.2.elim
  | budget call => exact h.rows (h.booked.budget _) rfl fun row hrow => ⟨row, hrow, rfl, rfl, rfl, id⟩
  | restart => exact h

/-- Rows that are paid up were charged for what was due. -/
theorem PaidUp.charged_up_to (h : PaidUp w) {sub : Subscription} (hsub : sub ∈ w.subs.rows) :
    ChargedUpTo w sub (w.seen sub.id) := by
  intro n
  have hdue := h.booked.next sub hsub
  rw [h.booked.charged sub hsub]
  cases hseen : w.seen sub.id with
  | none =>
      rw [h.unseen sub hsub hseen]
      constructor
      · rintro ⟨hlt, hn⟩
        exact absurd hlt (not_lt_of_ge (hn.first_le sub.positive))
      · rintro ⟨⟨d, hnone, -⟩, -⟩
        cases hnone
  | some d =>
      obtain ⟨hlt, hnext⟩ := h.passed sub hsub d hseen
      refine (due_below_iff sub.positive hdue hlt hnext).trans (and_congr_left' ?_)
      refine ⟨fun hle => ⟨d, rfl, hle⟩, ?_⟩
      rintro ⟨d', heq, hle⟩
      obtain rfl := Option.some.inj heq
      exact hle

theorem watched_paid_up (budget : Budget) : PaidUp (watched budget) :=
  ⟨⟨.nil, nofun, nofun, nofun, .nil⟩, nofun, nofun, nofun, fun _ _ => rfl⟩

end Runs

/-- **Exactly once.** In a run from the opening of a company whose steps are all settled, no subscription is charged
    twice for a due day, and none for another day. If moreover the ticks come day by day, and nothing of them is
    refused or fails: after the tick of a day, every active subscription was charged for exactly its due days up to that
    day; every other one, for those up to the last tick that it saw. -/
theorem charged_once (budget : Budget) (run : List Label) :
    (Along watch settles (watched budget) run → Once (exec watch (watched budget) run)) ∧
    (∀ day, Along watch smooth (watched budget) (run ++ [.on_day_tick day]) →
      ∀ sub ∈ (exec watch (watched budget) (run ++ [.on_day_tick day])).subs.rows,
        ChargedUpTo (exec watch (watched budget) (run ++ [.on_day_tick day])) sub
          (if sub.cancelled then (exec watch (watched budget) run).seen sub.id else some day)) := by
  constructor
  · intro hrun
    have hstep : ∀ w label, InOrder w → settles w label → InOrder (watch w label) :=
      fun _ label h hC => step_booked h label hC
    have hbooked : InOrder (exec watch (watched budget) run) :=
      exec_invariant_along hstep (watched_paid_up budget).booked hrun
    refine ⟨hbooked.once, fun c hc => ?_⟩
    obtain ⟨sub, hsub, hid⟩ := hbooked.known c hc
    have hmem : (sub.id, c.2) ∈ (exec watch (watched budget) run).subs.charged := hid ▸ hc
    exact ⟨sub, hsub, hid, ((hbooked.charged sub hsub c.2).mp hmem).2⟩
  · intro day hrun sub hsub
    obtain ⟨hbefore, hlast⟩ := along_snoc.mp hrun
    have hpaid : PaidUp (exec watch (watched budget) run) :=
      exec_invariant_along (fun _ _ h hC => h.step hC) (watched_paid_up budget) hbefore
    have hafter := hpaid.step hlast
    rw [exec_snoc] at hsub ⊢
    obtain ⟨old, hold, hid, -, hcancelled, -⟩ := hpaid.tick_cases hlast hsub
    have hcharged := hafter.charged_up_to hsub
    rw [hid, tick_seen day hpaid.booked.ids hold] at hcharged
    rw [hcancelled, hid]
    cases hwas : old.cancelled with
    | true =>
        rw [hwas] at hcharged
        exact hcharged
    | false =>
        rw [hwas] at hcharged
        exact hcharged

/-- Two days of a subscription that is due every day, the first one ticked twice; then it is removed. -/
theorem charged_once_small :
    Once (exec watch (watched (.fresh .quiet))
      [.budget (.set_total ⟨1000000⟩), .add "a" "mail" ⟨5000⟩ .EMAIL 1 1, .on_day_tick 1, .on_day_tick 1, .on_day_tick 2,
        .remove "a"]) ∧
    ∀ sub ∈ (exec watch (watched (.fresh .quiet))
      [.budget (.set_total ⟨1000000⟩), .add "a" "mail" ⟨5000⟩ .EMAIL 1 1, .on_day_tick 1, .on_day_tick 1, .on_day_tick 2,
        .remove "a", .on_day_tick 3]).subs.rows,
      ChargedUpTo (exec watch (watched (.fresh .quiet))
        [.budget (.set_total ⟨1000000⟩), .add "a" "mail" ⟨5000⟩ .EMAIL 1 1, .on_day_tick 1, .on_day_tick 1,
          .on_day_tick 2, .remove "a", .on_day_tick 3]) sub (some 2) := by
  have h := charged_once (.fresh .quiet) [.budget (.set_total ⟨1000000⟩), .add "a" "mail" ⟨5000⟩ .EMAIL 1 1,
    .on_day_tick 1, .on_day_tick 1, .on_day_tick 2, .remove "a"]
  refine ⟨h.1 (by decide +kernel), fun sub hsub => ?_⟩
  have hcharged := h.2 3 (by decide +kernel) sub hsub
  have hall : ∀ sub ∈ (exec watch (watched (.fresh .quiet))
      [.budget (.set_total ⟨1000000⟩), .add "a" "mail" ⟨5000⟩ .EMAIL 1 1, .on_day_tick 1, .on_day_tick 1, .on_day_tick 2,
        .remove "a", .on_day_tick 3]).subs.rows, sub.id = "a" ∧ sub.cancelled = true := by decide +kernel
  have hseen : (exec watch (watched (.fresh .quiet)) [.budget (.set_total ⟨1000000⟩), .add "a" "mail" ⟨5000⟩ .EMAIL 1 1,
      .on_day_tick 1, .on_day_tick 1, .on_day_tick 2, .remove "a"]).seen "a" = some 2 := by decide +kernel
  rw [(hall sub hsub).2, if_pos rfl, (hall sub hsub).1, hseen] at hcharged
  exact hcharged

/-- **Money taken twice.** The event log refuses the event of the first charge, after the money was taken; the tick of the
    same day takes it again. -/
theorem charged_twice :
    Along watch timely (watched (.fresh (.refusing 0)))
      [.budget (.set_total ⟨1000000⟩), .add "a" "hosting" ⟨500000⟩ .HOSTING 1 30, .on_day_tick 1, .on_day_tick 1] ∧
    (exec watch (watched (.fresh (.refusing 0)))
      [.budget (.set_total ⟨1000000⟩), .add "a" "hosting" ⟨500000⟩ .HOSTING 1 30, .on_day_tick 1,
        .on_day_tick 1]).subs.charged = [("a", 1), ("a", 1)] := by
  decide +kernel

end Subscriptions

end CompanyFactory
