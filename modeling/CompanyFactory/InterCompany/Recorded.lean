import CompanyFactory.InterCompany.Rate

/-!
# `InterCompany.Recorded` — which attempts leave a row

`send_cross` has two kinds of refusals. The checks on the link, the rate gate and the check on the target company leave
by exception, **before** the row is written; a missing inbox agent, a rejection by the target and an error in the
delivery are written down as `REJECTED`.

* `recorded_iff` — with a fresh id, an attempt is recorded exactly if it gets past the checks that raise.
-/

namespace CompanyFactory

open Act Machine

namespace InterCompany

open BoardApi Orchestrator

/-- What became of a message that was handed over. -/
def told : Except Exn SendResult → CrossStatus
  | .ok .QUEUED => .DELIVERED
  | .ok .REJECTED_PAUSED => .QUEUED
  | .ok _ => .REJECTED
  | .error _ => .REJECTED

/-- The outcome of an attempt: what the target company did with the message, and `REJECTED` if it was refused before. -/
def outcome (ic : InterCompany) (args : CrossSend) : CrossStatus :=
  match sent_parcel ic args with
  | none => .REJECTED
  | some (p, handle) => told (Orchestrator.system_send (p.request args.now) handle.orchestra).1

/-- The attempt is recorded: afterwards, there is exactly one row with its id, and the status tells the outcome. -/
def Recorded (ic : InterCompany) (args : CrossSend) : Prop :=
  ∃ row, (send_cross args ic).2.outbox.filter (fun entry => entry.id = args.rid) = [row] ∧
    row.status = outcome ic args

/-- The rate gate of the link is open. -/
def HasRoom (ic : InterCompany) (link : Link) (monotonic : Rat) : Prop :=
  link.scope.rate_limit_per_hour ≤ 0 ∨
    ((ic.buckets link.id).dropWhile (fun t => t < monotonic - _HOUR_SECONDS)).length <
      link.scope.rate_limit_per_hour.toNat

/-- The attempt gets past the checks that raise: the link is known, approved, in this direction, and its scope allows
    the message; the hourly cap is not reached; the target company has not ended and is loaded. -/
def GetsPast (ic : InterCompany) (args : CrossSend) : Prop :=
  ∃ link handle, admitted ic.board args = .ok link ∧ HasRoom ic link args.monotonic ∧
    get_target_handle ic.board link.to_company = .ok handle

variable {ic : InterCompany} {args : CrossSend}

/-! ## The checks that raise -/

theorem enforce_rate_iff (link : Link) (monotonic : Rat) :
    (enforce_rate link monotonic ic).1 = .ok () ↔ HasRoom ic link monotonic := by
  unfold enforce_rate HasRoom
  dsimp only
  by_cases hcap : link.scope.rate_limit_per_hour.toNat = 0
  · rw [if_pos hcap]
    exact iff_of_true rfl (.inl (by omega))
  · rw [if_neg hcap]
    have hpositive : ¬ link.scope.rate_limit_per_hour ≤ 0 := by omega
    by_cases hfull : link.scope.rate_limit_per_hour.toNat ≤
        ((ic.buckets link.id).dropWhile (fun t => t < monotonic - _HOUR_SECONDS)).length
    · rw [if_pos hfull]
      refine iff_of_false nofun ?_
      rintro (hle | hlt)
      · exact hpositive hle
      · omega
    · rw [if_neg hfull]
      exact iff_of_true rfl (.inr (by omega))

/-- An attempt that one of these checks stops leaves the outbox as it is. -/
theorem stopped_outbox (h : ¬ GetsPast ic args) : (send_cross args ic).2.outbox = ic.outbox := by
  cases hadmitted : admitted ic.board args with
  | error e => rw [send_cross_refused hadmitted]
  | ok link =>
      rw [send_cross, read_bind, hadmitted, ofExcept_ok_bind]
      have hbooks := enforce_rate_books link args.monotonic ic
      rcases hrate : enforce_rate link args.monotonic ic with ⟨e | _, paid⟩
      · rw [hrate] at hbooks
        rw [bind_of_error hrate]
        exact hbooks.1
      · rw [hrate] at hbooks
        rw [bind_of_ok hrate]
        have hroom : HasRoom ic link args.monotonic := (enforce_rate_iff link args.monotonic).mp (by rw [hrate])
        cases htarget : get_target_handle ic.board link.to_company with
        | error e => exact hbooks.1
        | ok handle => exact absurd ⟨link, handle, hadmitted, hroom, htarget⟩ h

/-! ## What is written down -/

theorem told_eq_map_result (result : SendResult) : told (.ok result) = map_result result := by
  cases result <;> rfl

/-- The record of a hand-over has the status of its outcome. -/
theorem record_outcome_row (args : CrossSend) (link : Link) (agent : String) {result : Except Exn SendResult}
    (hcaught : ∀ e, result = .error e → e.isException = true) (ic' : InterCompany) :
    ∃ reason, (record_outcome args link agent result ic').2.outbox =
      add_entry (args.entry link (some agent) (told result) reason) ic'.outbox := by
  cases result with
  | error e =>
      refine ⟨some "delivery_error", ?_⟩
      rw [record_outcome, if_pos (hcaught e rfl)]
      exact (record_books _ _).1
  | ok result =>
      refine ⟨rejection result, ?_⟩
      rw [record_outcome, told_eq_map_result]
      exact (record_books _ _).1

/-- Whatever a hand-over raises is caught. -/
theorem hand_over_caught (p : Parcel) (handle : CompanyHandle) (now : Time) (ic' : InterCompany) {e : Exn}
    (h : (hand_over p handle now ic').1 = .error e) : e.isException = true := by
  rcases hand_over_result p handle now ic' with
    ⟨-, -, hok⟩ | ⟨-, -, e', he', hcaught⟩ | ⟨-, ⟨result, hok, -⟩ | ⟨e', he', hcaught⟩⟩
  · rw [hok] at h
    cases h
  · rw [he'] at h
    cases h
    exact hcaught
  · rw [hok] at h
    cases h
  · rw [he'] at h
    cases h
    exact hcaught

/-- An attempt that gets past the checks writes one row, with the status of its outcome. -/
theorem past_outbox (h : GetsPast ic args) :
    ∃ row, row.id = args.rid ∧ row.status = outcome ic args ∧
      (send_cross args ic).2.outbox = add_entry row ic.outbox := by
  obtain ⟨link, handle, hadmitted, hroom, htarget⟩ := h
  have hbooks := enforce_rate_books link args.monotonic ic
  have hpass := (enforce_rate_iff link args.monotonic).mpr hroom
  rcases hrate : enforce_rate link args.monotonic ic with ⟨_ | _, paid⟩
  · rw [hrate] at hpass
    cases hpass
  · rw [hrate] at hbooks
    have hparcel : sent_parcel ic args =
        (resolve_inbox_agent ic.board link.to_company).map fun agent => (args.parcel link agent, handle) := by
      rw [sent_parcel, hadmitted]
      simp only [hrate, htarget]
      rfl
    rw [send_cross, read_bind, hadmitted, ofExcept_ok_bind, bind_of_ok hrate, htarget, ofExcept_ok_bind]
    -- without an inbox agent nothing is handed over; otherwise the row tells what came of it
    cases hagent : resolve_inbox_agent ic.board link.to_company with
    | none =>
        have houtcome : outcome ic args = .REJECTED := by
          rw [outcome, hparcel, hagent]
          rfl
        rw [houtcome]
        refine ⟨args.entry link none .REJECTED (some "no_inbox_agent"), rfl, rfl, ?_⟩
        rw [deliver, (record_books _ paid).1, hbooks.1]
    | some agent =>
        obtain ⟨reason, hrow⟩ := record_outcome_row args link agent
          (fun e he => hand_over_caught (args.parcel link agent) handle args.now paid he)
          (hand_over (args.parcel link agent) handle args.now paid).2
        have hresult : (hand_over (args.parcel link agent) handle args.now paid).1 =
            (Orchestrator.system_send ((args.parcel link agent).request args.now) handle.orchestra).1 := by
          simp only [hand_over]
        have houtcome : outcome ic args =
            told (Orchestrator.system_send ((args.parcel link agent).request args.now) handle.orchestra).1 := by
          rw [outcome, hparcel, hagent, Option.map_some]
        rw [hresult] at hrow
        rw [houtcome]
        generalize (Orchestrator.system_send ((args.parcel link agent).request args.now) handle.orchestra).1 = result
          at hresult hrow
        refine ⟨args.entry link (some agent) (told result) reason, rfl, rfl, ?_⟩
        rw [deliver, attempt_bind, hresult, hrow, hand_over_handed.2, hbooks.1]

/-- **Which attempts are recorded.** With a fresh id: exactly those that get past the checks that raise. -/
theorem recorded_iff (hfresh : find_entry ic.outbox args.rid = none) : Recorded ic args ↔ GetsPast ic args := by
  have hnone : ic.outbox.filter (fun entry => entry.id = args.rid) = [] := by
    apply List.filter_eq_nil_iff.mpr
    intro row hrow
    simpa using Table.find_eq_none.mp hfresh row hrow
  constructor
  · rintro ⟨row, hrows, -⟩
    by_contra hno
    rw [stopped_outbox hno, hnone] at hrows
    cases hrows
  · intro hpast
    obtain ⟨row, hid, hstatus, houtbox⟩ := past_outbox hpast
    refine ⟨row, ?_, hstatus⟩
    rw [houtbox, add_entry_new (by rw [hid, hfresh]), List.filter_append, hnone]
    simp [hid]

theorem inquiry_recorded :
    Recorded (exec step a_and_b link_a_b) inquiry ↔ GetsPast (exec step a_and_b link_a_b) inquiry :=
  recorded_iff (by decide +kernel)

/-- An attempt over a link that does not exist, or is not approved yet, leaves no row. -/
theorem unknown_link_unrecorded :
    ¬ ∀ (ic : InterCompany) (args : CrossSend), find_entry ic.outbox args.rid = none → Recorded ic args := by
  intro h
  obtain ⟨row, hrows, -⟩ := h a_and_b inquiry (by decide +kernel)
  have hempty : ((send_cross inquiry a_and_b).2.outbox.filter fun entry => entry.id = inquiry.rid) = [] := by
    decide +kernel
  rw [hempty] at hrows
  cases hrows

end InterCompany

end CompanyFactory
