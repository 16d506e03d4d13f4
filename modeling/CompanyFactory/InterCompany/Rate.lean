import CompanyFactory.InterCompany.Outbox
import CompanyFactory.Lib.Meter

/-!
# `InterCompany.Rate` — the hourly cap of a link

`_enforce_rate` is a log of the last hour (`SlidingLog`), one for each link, shared by all sends over the link:
those that are delivered, queued or rejected later. The cap is read from the link at every call, but a link keeps its
scope (`step_terms`), so it is the same cap in the whole run.

* `hourly_cap` — in every window of an hour, no more calls pass the gate of a link than its cap.
-/

namespace CompanyFactory

open Act Machine Meter

namespace InterCompany

open BoardApi

/-- The time of a call that reaches the rate gate of the link. -/
def reaches_rate (link_id : String) (ic : InterCompany) : Label → Option Rat
  | .send_cross args =>
    if args.link_id = link_id ∧ (admitted ic.board args).isOk then some args.monotonic else none
  | .deliver_pending _ _ => none
  | .board _ => none

/-- The call passes the rate gate of the link. -/
def passes_rate (link_id : String) (ic : InterCompany) : Label → Bool
  | .send_cross args =>
    match admitted ic.board args with
    | .ok link => decide (link.id = link_id) && (enforce_rate link args.monotonic ic).1.isOk
    | .error _ => false
  | .deliver_pending _ _ => false
  | .board _ => false

/-- How many calls of a run pass the rate gate of the link between two times. -/
def passed (link_id : String) (ic : InterCompany) (run : List Label) (lo hi : Rat) : Nat :=
  tally step (fun ic label => passes_rate link_id ic label &&
    (reaches_rate link_id ic label).any fun t => lo ≤ t && t ≤ hi) ic run

/-- The reading of the monotonic clock in a call. -/
def Label.monotonic : Label → Option Rat
  | .send_cross args => some args.monotonic
  | .deliver_pending _ _ => none
  | .board _ => none

/-! ## What a call does to the gates -/

/-- The same links, and the same logs. -/
def SameGates (ic ic' : InterCompany) : Prop := ic'.board.links = ic.board.links ∧ ic'.buckets = ic.buckets

theorem SameGates.refl (ic : InterCompany) : SameGates ic ic := ⟨rfl, rfl⟩

theorem SameGates.trans (a b c : InterCompany) (h : SameGates a b) (h' : SameGates b c) : SameGates a c :=
  ⟨h'.1.trans h.1, h'.2.trans h.2⟩

theorem record_and_emit_gates (entry : CrossEntry) : Moves SameGates (record_and_emit entry) := by
  have hinsert : Moves SameGates (insert_entry entry) := by
    intro ic
    unfold insert_entry
    split <;> exact ⟨rfl, rfl⟩
  have hemit : ∀ post company_id, Moves SameGates (emit_event post company_id) :=
    fun post company_id ic => ⟨(Board.emit_to_company_same post company_id ic.board).1, rfl⟩
  refine .bind SameGates.trans hinsert fun _ => .bind SameGates.trans (hemit _ _) fun _ => ?_
  exact .bind SameGates.trans (hemit _ _) fun _ => .pure SameGates.refl _

theorem hand_over_gates (p : Parcel) (handle : CompanyHandle) (now : Time) :
    Moves SameGates (hand_over p handle now) := fun _ => ⟨rfl, rfl⟩

theorem deliver_gates (args : CrossSend) (link : Link) (handle : CompanyHandle) (target_agent : Option String) :
    Moves SameGates (deliver args link handle target_agent) := by
  cases target_agent with
  | none => exact record_and_emit_gates _
  | some agent =>
      refine .bind SameGates.trans (.attempt (hand_over_gates _ _ _)) fun result => ?_
      cases result with
      | error e => exact .ite (record_and_emit_gates _) (.raise SameGates.refl _)
      | ok result => exact record_and_emit_gates _

theorem update_status_gates (outbox_id : String) (status : CrossStatus) (reason target_agent : Option String)
    (now : Time) : Moves SameGates (update_status outbox_id status reason target_agent now) := fun _ => ⟨rfl, rfl⟩

theorem redeliver_gates (company_id : String) (now : Time) (handle : CompanyHandle) (row : CrossEntry) :
    Moves SameGates (redeliver company_id now handle row) := by
  refine .bind SameGates.trans (.read SameGates.refl _) fun b => ?_
  refine .bind SameGates.trans (.ofExcept SameGates.refl _) fun link => ?_
  refine .ite (.bind SameGates.trans (update_status_gates _ _ _ _ _) fun _ => .pure SameGates.refl _) ?_
  split
  · exact .bind SameGates.trans (update_status_gates _ _ _ _ _) fun _ => .pure SameGates.refl _
  · refine .bind SameGates.trans (.attempt (hand_over_gates _ _ _)) fun result => ?_
    cases result with
    | error e => exact .ite (.pure SameGates.refl _) (.raise SameGates.refl _)
    | ok result =>
        exact .ite (.pure SameGates.refl _)
          (.bind SameGates.trans (update_status_gates _ _ _ _ _) fun _ => .pure SameGates.refl _)

theorem flush_gates (company_id : String) (now : Time) (rows : List CrossEntry) :
    Moves SameGates (flush company_id now rows) := by
  induction rows with
  | nil => exact .pure SameGates.refl 0
  | cons row rows ih =>
      refine .bind SameGates.trans (.read SameGates.refl _) fun b => ?_
      split
      · exact .pure SameGates.refl 0
      · refine .bind SameGates.trans (redeliver_gates _ _ _ _) fun settled => ?_
        exact .bind SameGates.trans ih fun _ => .pure SameGates.refl _

theorem deliver_pending_gates (company_id : String) (now : Time) : Moves SameGates (deliver_pending company_id now) :=
  .bind SameGates.trans (.read SameGates.refl _) fun _ => flush_gates _ _ _

/-- A call that is not admitted changes nothing. -/
theorem send_cross_refused {args : CrossSend} {ic : InterCompany} {e : Exn} (h : admitted ic.board args = .error e) :
    send_cross args ic = (.error e, ic) := by
  rw [send_cross, read_bind, h]
  rfl

/-- A call that is admitted leaves the gates as the rate check leaves them. -/
theorem send_cross_gates {args : CrossSend} {ic : InterCompany} {link : Link} (h : admitted ic.board args = .ok link) :
    SameGates (enforce_rate link args.monotonic ic).2 (send_cross args ic).2 := by
  rw [send_cross, read_bind, h, ofExcept_ok_bind, bind_run]
  generalize enforce_rate link args.monotonic ic = checked
  obtain ⟨_ | _, ic'⟩ := checked
  · exact SameGates.refl ic'
  · exact Moves.bind SameGates.trans (.ofExcept SameGates.refl _) (fun handle => deliver_gates _ _ _ _) ic'

/-- The rate check is an attempt on the log of the link. -/
theorem enforce_rate_own {link : Link} (hcap : 0 < link.scope.rate_limit_per_hour) (now : Rat) (ic : InterCompany) :
    (enforce_rate link now ic).1.isOk =
        (SlidingLog.attempt link.scope.rate_limit_per_hour.toNat _HOUR_SECONDS (ic.buckets link.id) now).1 ∧
      (enforce_rate link now ic).2.buckets = Function.update ic.buckets link.id
        (SlidingLog.attempt link.scope.rate_limit_per_hour.toNat _HOUR_SECONDS (ic.buckets link.id) now).2 := by
  have hne : link.scope.rate_limit_per_hour.toNat ≠ 0 := by omega
  unfold enforce_rate SlidingLog.attempt SlidingLog.recent
  dsimp only
  rw [if_neg hne]
  split
  · exact ⟨rfl, rfl⟩
  · exact ⟨rfl, rfl⟩

theorem admitted_id {b : Board} {args : CrossSend} {link : Link} (h : admitted b args = .ok link) :
    link.id = args.link_id := Table.key_of_find (admitted_ok h).row

/-! ## Runs -/

/-- A step leaves every link that there is, with its terms. -/
theorem step_keeps_terms (ic : InterCompany) (label : Label) {link_id : String} {link : Link}
    (hrow : Board.find_link ic.board.links link_id = some link) :
    ∃ link', Board.find_link (step ic label).board.links link_id = some link' ∧ SameTerms link link' := by
  have hsame : ∀ ic', SameGates ic ic' →
      ∃ link', Board.find_link ic'.board.links link_id = some link' ∧ SameTerms link link' := by
    intro ic' h
    exact ⟨link, by rw [h.1, hrow], rfl, rfl, rfl⟩
  cases label with
  | send_cross args =>
      cases hadmitted : admitted ic.board args with
      | error e =>
          refine hsame _ ?_
          show SameGates ic (send_cross args ic).2
          rw [send_cross_refused hadmitted]
          exact SameGates.refl ic
      | ok checked =>
          refine ⟨link, ?_, rfl, rfl, rfl⟩
          show Board.find_link (send_cross args ic).2.board.links link_id = _
          rw [(send_cross_gates hadmitted).1, enforce_rate_board, hrow]
  | deliver_pending company_id now => exact hsame _ (deliver_pending_gates company_id now ic)
  | board label => exact step_terms ic.board label hrow

/-- So does a run. -/
theorem exec_keeps_terms (run : List Label) {link_id : String} : ∀ {ic : InterCompany} {link : Link},
    Board.find_link ic.board.links link_id = some link →
      ∃ link', Board.find_link (exec step ic run).board.links link_id = some link' ∧ SameTerms link link' := by
  induction run with
  | nil => intro ic link hrow; exact ⟨link, hrow, rfl, rfl, rfl⟩
  | cons label run ih =>
      intro ic link hrow
      obtain ⟨link₁, hrow₁, hfrom, hto, hscope⟩ := step_keeps_terms ic label hrow
      obtain ⟨link', hrow', hfrom', hto', hscope'⟩ := ih hrow₁
      exact ⟨link', hrow', hfrom'.trans hfrom, hto'.trans hto, hscope'.trans hscope⟩

/-- Whenever the link is there, it has this scope. -/
def HasScope (link_id : String) (scope : LinkScope) (ic : InterCompany) : Prop :=
  ∀ link, Board.find_link ic.board.links link_id = some link → link.scope = scope

/-- A step that does not reach the gate of the link leaves its log alone. -/
theorem step_other {link_id : String} {ic : InterCompany} {label : Label}
    (hnone : reaches_rate link_id ic label = none) : (step ic label).buckets link_id = ic.buckets link_id := by
  cases label with
  | send_cross args =>
      show (send_cross args ic).2.buckets link_id = _
      cases hadmitted : admitted ic.board args with
      | error e => rw [send_cross_refused hadmitted]
      | ok link =>
          have hne : link_id ≠ link.id := by
            rintro rfl
            rw [reaches_rate, if_pos ⟨(admitted_id hadmitted).symm, by rw [hadmitted]; rfl⟩] at hnone
            cases hnone
          rw [(send_cross_gates hadmitted).2]
          unfold enforce_rate
          dsimp only
          split
          · rfl
          · split <;> exact Function.update_of_ne hne _ _
  | deliver_pending company_id now => rw [step, Act.after, (deliver_pending_gates company_id now ic).2]
  | board label => rfl

/-- A call that reaches the gate of the link is an attempt on its log. -/
theorem step_own {link_id : String} {scope : LinkScope} {ic : InterCompany} {label : Label} {now : Rat}
    (hscope : HasScope link_id scope ic) (hcap : 0 < scope.rate_limit_per_hour)
    (hsome : reaches_rate link_id ic label = some now) :
    passes_rate link_id ic label =
        (SlidingLog.attempt scope.rate_limit_per_hour.toNat _HOUR_SECONDS (ic.buckets link_id) now).1 ∧
      (step ic label).buckets link_id =
        (SlidingLog.attempt scope.rate_limit_per_hour.toNat _HOUR_SECONDS (ic.buckets link_id) now).2 := by
  cases label with
  | send_cross args =>
      simp only [reaches_rate, Option.ite_none_right_eq_some, Option.some.injEq] at hsome
      obtain ⟨⟨rfl, hok⟩, rfl⟩ := hsome
      cases hadmitted : admitted ic.board args with
      | error e =>
          rw [hadmitted] at hok
          cases hok
      | ok link =>
          -- the cap that is enforced is the one of the link's row, which is the one of the scope
          have hid := admitted_id hadmitted
          obtain rfl := hscope link (admitted_ok hadmitted).row
          obtain ⟨hpass, hlog⟩ := enforce_rate_own hcap args.monotonic ic
          rw [hid] at hpass hlog
          constructor
          · simp only [passes_rate, hadmitted, hid, decide_true, Bool.true_and, hpass]
          · show (send_cross args ic).2.buckets args.link_id = _
            rw [(send_cross_gates hadmitted).2, hlog, Function.update_self]
  | deliver_pending company_id now => cases hsome
  | board label => cases hsome

/-- **The hourly cap.** In every run of link operations, sends, deliveries of queued messages and whatever happens to
    the companies, with times that do not go back: in every window of an hour, no more calls pass the rate gate of a
    link than its cap, if that is positive. -/
theorem hourly_cap (companies : String → Option CompanyStatus) (handles : String → Option CompanyHandle)
    (run : List Label) (hsorted : (run.filterMap Label.monotonic).Pairwise (· ≤ ·)) {link_id : String} {link : Link}
    (hlink : Board.find_link (exec step (fresh companies handles) run).board.links link_id = some link)
    (hcap : 0 < link.scope.rate_limit_per_hour) (lo : Rat) :
    (passed link_id (fresh companies handles) run lo (lo + _HOUR_SECONDS) : Int) ≤ link.scope.rate_limit_per_hour := by
  -- whatever the link was in the run, its scope is the one that it has in the end
  have hscope : Along step (fun ic _ => HasScope link_id link.scope ic) (fresh companies handles) run := by
    rw [along_iff_cut]
    rintro pre label post rfl before hbefore
    obtain ⟨after, hafter, -, -, hsame⟩ := exec_keeps_terms (label :: post) hbefore
    rw [← exec_append] at hafter
    obtain rfl := Option.some.inj (hafter.symm.trans hlink)
    exact hsame.symm
  have hclock : ∀ ic label t, reaches_rate link_id ic label = some t → Label.monotonic label = some t := by
    intro ic label t h
    cases label with
    | send_cross args =>
        simp only [reaches_rate, Option.ite_none_right_eq_some, Option.some.injEq] at h
        rw [Label.monotonic, h.2]
    | deliver_pending company_id now => cases h
    | board label => cases h
  have hle : passed link_id (fresh companies handles) run lo (lo + _HOUR_SECONDS) ≤
      link.scope.rate_limit_per_hour.toNat :=
    SlidingLog.tally_within (fun ic => ic.buckets link_id) (reaches_rate link_id) (fun _ _ _ hnone => step_other hnone)
      (fun _ _ _ hscope hsome => step_own hscope hcap hsome) hclock (Nat.zero_le _) hscope hsorted lo
  omega

/-- An inquiry over `L1`, in the hour that begins with it. -/
theorem hourly_cap_inquiry :
    ∃ link, Board.find_link (exec step a_and_b (link_a_b ++ [.send_cross inquiry])).board.links "L1" = some link ∧
      (passed "L1" a_and_b (link_a_b ++ [.send_cross inquiry]) 3 (3 + _HOUR_SECONDS) : Int) ≤
        link.scope.rate_limit_per_hour := by
  have hcap : (Board.find_link (exec step a_and_b (link_a_b ++ [.send_cross inquiry])).board.links "L1").map
      (fun link => link.scope.rate_limit_per_hour) = some 100 := by decide +kernel
  obtain ⟨link, hlink, hhundred⟩ := Option.map_eq_some_iff.mp hcap
  have hpositive : 0 < link.scope.rate_limit_per_hour := by omega
  exact ⟨link, hlink, hourly_cap _ _ _ (by decide +kernel) hlink hpositive 3⟩

end InterCompany

end CompanyFactory
