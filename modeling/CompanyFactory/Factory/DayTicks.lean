import CompanyFactory.Clock.Ticks
import CompanyFactory.Cost.Subscriptions

/-!
# `Factory.DayTicks` — who hears a day tick

`build_company` joins the clock, the event log, the budget and the subscriptions: all of them get the same log, and the
subscriptions get the budget. The clock appends the day ticks to the log. **Nothing takes them from there**: no module
calls `on_day_tick`, and the builder hands the subscriptions to the handle only. Rows come and go through the handle.

* `Later` — how the table may change in such a company: rows are added, and cancelled by a removal; no due day moves.
* `driven` — what a tick is for: when the next one is appended, what was due at it has been served.
* `day_ticks_drive` — the steps of a run are `driven` exactly if nothing that is still active was due.
-/

namespace CompanyFactory

open Act Machine

/-- The parts of a `CompanyHandle` that a day tick concerns. They have one event log. -/
structure Wired where
  clock : Clock
  subscriptions : Subscriptions

namespace Wired

inductive Label where
  | clock (label : Clock.Label)
  | add (sub_id description : String) (amount : Money) (category : Category) (next_charge_company_day period_days : Int)
  | remove (sub_id : String)
  | budget (call : Budget.Call)

/-- The subscriptions over a log. -/
def on_log (events : EventStore) (s : Subscriptions) : Subscriptions := { s with budget := { s.budget with events } }

/-- A step, at a reading of the wall clock. A restart is one of the clock: the other objects keep nothing that is not in
    the tables. -/
def step (h : Wired) (i : Time × Label) : Wired :=
  match i.2 with
  | .clock label =>
      { clock := h.clock.step (i.1, label)
        subscriptions := on_log (h.clock.step (i.1, label)).events h.subscriptions }
  | .add sub_id description amount category next_charge_company_day period_days =>
      { h with subscriptions :=
          h.subscriptions.step (.add sub_id description amount category next_charge_company_day period_days) }
  | .remove sub_id => { h with subscriptions := h.subscriptions.step (.remove sub_id) }
  | .budget call =>
      let subscriptions := (on_log (h.clock.at_wall i.1).events h.subscriptions).step (.budget call)
      { clock := { h.clock with events := subscriptions.budget.events }, subscriptions }

/-- A company that is opened: `Clock(db, events, ...)`, `Subscriptions(db, Budget(db, events), events)`. -/
def built (events : EventStore) (rate : ClockRate) (now : Time) (db : BudgetDb) : Wired :=
  { clock := .opened events rate now
    subscriptions := .opened { db, events } }

/-! ## What a tick is for -/

/-- The day of a `DAY_TICK`. -/
def day_of : Option Json → Option Int
  | some (.num q) => if q.den = 1 then some q.num else none
  | _ => none

/-- The days of the ticks that the step appends, as they stand in the log. -/
def new_ticks (h : Wired) (i : Time × Label) : List Int :=
  ((Clock.days (step h i).clock.events.log).drop (Clock.days h.clock.events.log).length).filterMap day_of

/-- The company, and the last day tick with the subscriptions as they were when it was appended. -/
structure Watched where
  company : Wired
  tick : Option (Int × Subscriptions)

/-- The ticks of a step; nothing but the clock moves while it appends them. -/
def ticks (w : Watched) (i : Time × Label) : List (Int × Subscriptions) :=
  (new_ticks w.company i).map fun day => (day, w.company.subscriptions)

def watch (w : Watched) (i : Time × Label) : Watched :=
  { company := step w.company i
    tick := (w.tick.toList ++ ticks w i).getLast? }

def watched (events : EventStore) (rate : ClockRate) (now : Time) (db : BudgetDb) : Watched :=
  { company := built events rate now db, tick := none }

/-- For each tick that the step appends: the tick before it. -/
def followed (w : Watched) (i : Time × Label) : List (Int × Subscriptions) :=
  if ticks w i = [] then [] else (w.tick.toList ++ ticks w i).dropLast

/-- The subscription has been charged for its due day, or is no longer active. -/
def served (now : Subscriptions) (sub : Subscription) : Prop :=
  (sub.id, sub.next_charge_company_day) ∈ now.charged ∨ ∃ row ∈ now.rows, row.id = sub.id ∧ row.cancelled = true

/-- **A driven step.** When a tick is appended, every subscription that was due at the tick before it has been served. -/
def driven (w : Watched) (i : Time × Label) : Prop :=
  ∀ tick ∈ followed w i, ∀ sub ∈ tick.2.due tick.1, served w.company.subscriptions sub

/-- **An undue step.** When a tick is appended, every active subscription that was there at the tick before it is due
    later than that tick. -/
def undue (w : Watched) (i : Time × Label) : Prop :=
  ∀ tick ∈ followed w i, ∀ row ∈ w.company.subscriptions.rows, row.cancelled = false →
    row.id ∈ tick.2.rows.map Subscription.id → tick.1 < row.next_charge_company_day

instance (w : Watched) (i : Time × Label) : Decidable (driven w i) := by
  unfold driven served
  infer_instance

/-! ## How the table changes -/

/-- Nothing was charged, and ids are unique. -/
structure Uncharged (s : Subscriptions) : Prop where
  charged : s.charged = []
  ids : (s.rows.map Subscription.id).Nodup

/-- Every row is still there, due when it was, and cancelled if it was. -/
def Later (old now : Subscriptions) : Prop := ∀ sub ∈ old.rows, ∃ row ∈ now.rows, row.id = sub.id ∧
  row.next_charge_company_day = sub.next_charge_company_day ∧ (sub.cancelled = true → row.cancelled = true)

theorem Later.refl (s : Subscriptions) : Later s s := fun sub hsub => ⟨sub, hsub, rfl, rfl, id⟩

theorem Later.trans {a b c : Subscriptions} (h : Later a b) (h' : Later b c) : Later a c := by
  intro sub hsub
  obtain ⟨row, hrow, hid, hnext, hcancelled⟩ := h sub hsub
  obtain ⟨last, hlast, hid', hnext', hcancelled'⟩ := h' row hrow
  exact ⟨last, hlast, hid'.trans hid, hnext'.trans hnext, hcancelled' ∘ hcancelled⟩

/-- **What was due has been served exactly if nothing active was due**, in a table where nothing is ever charged. -/
theorem Later.served_iff {old now : Subscriptions} (h : Later old now) (hnow : Uncharged now) (day : Int) :
    (∀ sub ∈ old.due day, served now sub) ↔
      ∀ row ∈ now.rows, row.cancelled = false → row.id ∈ old.rows.map Subscription.id →
        day < row.next_charge_company_day := by
  constructor
  · intro hserved row hrow hactive hmem
    obtain ⟨sub, hsub, hid⟩ := List.mem_map.mp hmem
    obtain ⟨row', hrow', hid', hnext, hcancelled⟩ := h sub hsub
    obtain rfl := Subscriptions.eq_of_id hnow.ids hrow' hrow (hid'.trans hid)
    by_contra hdue
    have hsubactive : sub.cancelled = false := by
      cases hwas : sub.cancelled with
      | false => rfl
      | true => exact absurd (hactive.symm.trans (hcancelled hwas)) nofun
    have hin : sub ∈ old.due day := Subscriptions.mem_due.mpr ⟨hsub, hsubactive, by omega⟩
    rcases hserved sub hin with hcharged | ⟨gone, hgone, hgoneid, hgonecancelled⟩
    · -- nothing in the company calls `on_day_tick`
      rw [hnow.charged] at hcharged
      cases hcharged
    · obtain rfl := Subscriptions.eq_of_id hnow.ids hgone hrow (hgoneid.trans hid)
      exact absurd (hactive.symm.trans hgonecancelled) nofun
  · intro hundue sub hin
    obtain ⟨hsub, -, hle⟩ := Subscriptions.mem_due.mp hin
    obtain ⟨row, hrow, hid, hnext, -⟩ := h sub hsub
    right
    refine ⟨row, hrow, hid, ?_⟩
    cases hcancelled : row.cancelled with
    | true => rfl
    | false =>
        have hlt := hundue row hrow hcancelled (hid ▸ List.mem_map_of_mem hsub)
        omega

/-- **What a step does to the table.** -/
theorem step_table {h : Wired} (hs : Uncharged h.subscriptions) (i : Time × Label) :
    Uncharged (step h i).subscriptions ∧ Later h.subscriptions (step h i).subscriptions := by
  obtain ⟨now, label⟩ := i
  cases label with
  | clock label => exact ⟨⟨hs.charged, hs.ids⟩, .refl h.subscriptions⟩
  | budget call => exact ⟨⟨hs.charged, hs.ids⟩, .refl h.subscriptions⟩
  | add sub_id description amount category next period =>
      dsimp only [step, Subscriptions.step]
      obtain heq | ⟨hnew, sub, rfl, -, heq⟩ :=
        Subscriptions.add_cases sub_id description amount category next period h.subscriptions
      · rw [heq]
        exact ⟨hs, .refl _⟩
      · rw [heq]
        refine ⟨⟨hs.charged, Table.keys_insert hs.ids hnew⟩, fun row hrow => ?_⟩
        exact ⟨row, List.mem_append_left _ hrow, rfl, rfl, id⟩
  | remove sub_id =>
      refine ⟨⟨hs.charged, (Subscriptions.cancel_ids sub_id h.subscriptions).symm ▸ hs.ids⟩, fun sub hsub => ?_⟩
      by_cases hid : sub.id = sub_id
      · exact ⟨{ sub with cancelled := true }, List.mem_map.mpr ⟨sub, hsub, if_pos hid⟩, rfl, rfl, fun _ => rfl⟩
      · exact ⟨sub, Table.mem_update_of_ne hsub hid, rfl, rfl, id⟩

/-! ## Runs -/

/-- Since the last tick, rows have come, and were cancelled. -/
structure Kept (w : Watched) : Prop where
  uncharged : Uncharged w.company.subscriptions
  later : ∀ tick ∈ w.tick, Later tick.2 w.company.subscriptions

theorem Kept.all (h : Kept w) (i : Time × Label) :
    ∀ tick ∈ w.tick.toList ++ ticks w i, Later tick.2 w.company.subscriptions := by
  intro tick hmem
  rcases List.mem_append.mp hmem with hold | hnew
  · exact h.later tick (Option.mem_toList.mp hold)
  · obtain ⟨day, -, rfl⟩ := List.mem_map.mp hnew
    exact .refl _

theorem Kept.step (h : Kept w) (i : Time × Label) : Kept (watch w i) := by
  obtain ⟨huncharged, hlater⟩ := step_table h.uncharged i
  refine ⟨huncharged, fun tick htick => ?_⟩
  exact (h.all i tick (List.mem_of_getLast? htick)).trans hlater

theorem driven_iff (h : Kept w) (i : Time × Label) : driven w i ↔ undue w i := by
  refine forall₂_congr fun tick htick => Later.served_iff (h.all i tick ?_) h.uncharged tick.1
  unfold followed at htick
  split at htick
  · cases htick
  · exact (List.dropLast_sublist _).subset htick

/-- **Day ticks drive nothing.** In a run of the clock, the budget and the subscriptions of a company, everything that
    is due at a day tick has been served when the next one is appended, if and only if nothing is: every active
    subscription that was there at the earlier tick is due later. -/
theorem day_ticks_drive (events : EventStore) (rate : ClockRate) (now : Time) (db : BudgetDb)
    (run : List (Time × Label)) :
    Along watch driven (watched events rate now db) run ↔ Along watch undue (watched events rate now db) run := by
  refine along_iff_along (F := fun _ _ => True) (I := Kept) (fun w i h _ _ => h.step i) (fun w i h _ => driven_iff h i) ?_
    (along_of_forall (fun _ _ => trivial) run)
  exact ⟨⟨rfl, .nil⟩, nofun⟩

/-- **A day without its charge.** A subscription is due at day 1; the clock appends the tick of day 1, and an hour later
    that of day 2. Nothing was charged. -/
theorem day_one_not_charged :
    ¬ Along watch driven (watched .quiet .realtime 0 .fresh)
      [(0, .budget (.set_total ⟨1000000⟩)), (0, .add "a" "hosting" ⟨500000⟩ .HOSTING 1 30),
        (3600000000, .clock (.pump_once none)), (7200000000, .clock (.pump_once none))] := by
  decide +kernel

end Wired

end CompanyFactory
