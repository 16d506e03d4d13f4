import CompanyFactory.InterCompany.Mirror
import CompanyFactory.InterCompany.Receipts
import CompanyFactory.Orchestrator.System

/-!
# `InterCompany.Outbox` — when the outbox tells the truth

A send hands the message over and then writes the row; a flush hands the message of a row over and then writes its
status. Between the two writes a lot can be said against the second one: **the id may have a row already**, and the
target may have taken the message and raised, because its log refused the event.

* `send_cross_cases`, `deliver_one_cases` — what a send and one row of a flush leave in the two lists.
* `flush_eq` — a flush goes through its rows one by one.
* `outbox_truth` — the outbox is truthful in every state of a run, if and only if every step `tells_truth`.
-/

namespace CompanyFactory

open Act Machine

namespace InterCompany

open BoardApi

/-- What a `send_cross` hands over, and to whom, if it comes to that. -/
def sent_parcel (ic : InterCompany) (args : CrossSend) : Option (Parcel × CompanyHandle) :=
  match admitted ic.board args with
  | .error _ => none
  | .ok link =>
    if (enforce_rate link args.monotonic ic).1.isOk then
      match get_target_handle ic.board link.to_company with
      | .error _ => none
      | .ok handle =>
        (resolve_inbox_agent ic.board link.to_company).map fun agent => (args.parcel link agent, handle)
    else none

/-- What a row of `deliver_pending` hands over, and to whom. -/
def row_parcel (ic : InterCompany) (company_id : String) (row : CrossEntry) : Option (Parcel × CompanyHandle) :=
  match get_target_handle ic.board company_id, lookup_link ic.board row.link_id with
  | .ok handle, .ok link =>
    if link.status = .APPROVED then
      (inbox_of ic.board row company_id).map fun agent => (row.parcel company_id agent, handle)
    else none
  | _, _ => none

/-- Does the queue of the company take the parcel? -/
def Parcel.taken (p : Parcel) (handle : CompanyHandle) (now : Time) : Bool :=
  Orchestrator.takes handle.orchestra (p.request now)

/-- Does the log of the company take the event about the parcel? -/
def Parcel.logged (p : Parcel) (handle : CompanyHandle) (now : Time) : Bool :=
  Orchestrator.logs handle.orchestra (p.request now)

/-! ## Handing over -/

section HandOver

variable {p : Parcel} {handle : CompanyHandle} {now : Time} {ic : InterCompany}

/-- The record of a hand-over says whether the queue took the message. -/
theorem hand_over_handed : (hand_over p handle now ic).2.handed =
    ic.handed ++ [p.handover ic.board (p.taken handle now)] ∧
    (hand_over p handle now ic).2.outbox = ic.outbox := by
  refine ⟨?_, rfl⟩
  have hcases : Orchestrator.Outcome handle.orchestra (p.request now) _ _ :=
    Orchestrator.system_send_cases handle.orchestra rfl rfl
  show ic.handed ++ [p.handover ic.board (decide (_ ≠ handle.orchestra.sent.length))] = _
  generalize Orchestrator.system_send (p.request now) handle.orchestra = sent at hcases
  obtain ⟨result, o'⟩ := sent
  unfold Parcel.taken
  cases hcases with
  | queued _ htakes _ hsent => rw [htakes, hsent]; simp
  | unlogged _ _ htakes _ _ hsent => rw [htakes, hsent]; simp
  | rejected _ _ htakes _ hsent => rw [htakes, hsent]; simp
  | raised _ _ htakes _ hsent => rw [htakes, hsent]; simp

/-- The result of a hand-over. -/
theorem hand_over_result (p : Parcel) (handle : CompanyHandle) (now : Time) (ic : InterCompany) :
    (p.taken handle now = true ∧ p.logged handle now = true ∧ (hand_over p handle now ic).1 = .ok .QUEUED) ∨
    (p.taken handle now = true ∧ p.logged handle now = false ∧
      ∃ e, (hand_over p handle now ic).1 = .error e ∧ e.isException = true) ∨
    (p.taken handle now = false ∧ ((∃ result, (hand_over p handle now ic).1 = .ok result ∧ result ≠ .QUEUED) ∨
      ∃ e, (hand_over p handle now ic).1 = .error e ∧ e.isException = true)) := by
  have hcases : Orchestrator.Outcome handle.orchestra (p.request now) _ _ :=
    Orchestrator.system_send_cases handle.orchestra rfl rfl
  have hresult : (hand_over p handle now ic).1 =
      (Orchestrator.system_send (p.request now) handle.orchestra).1 := by simp only [hand_over]
  rw [hresult]
  unfold Parcel.taken Parcel.logged
  generalize Orchestrator.system_send (p.request now) handle.orchestra = sent at hcases ⊢
  obtain ⟨result, o'⟩ := sent
  cases hcases with
  | queued _ htakes hlogs _ => exact .inl ⟨htakes, hlogs, rfl⟩
  | unlogged e _ htakes hlogs he _ => exact .inr (.inl ⟨htakes, hlogs, e, rfl, he⟩)
  | rejected result _ htakes hresult _ => exact .inr (.inr ⟨htakes, .inl ⟨result, rfl, hresult⟩⟩)
  | raised e _ htakes he _ => exact .inr (.inr ⟨htakes, .inr ⟨e, rfl, he⟩⟩)

end HandOver

/-- Only a queued message counts as delivered. -/
theorem map_result_ne {result : Orchestrator.SendResult} (h : result ≠ .QUEUED) :
    map_result result ≠ .DELIVERED := by
  cases result <;> first | exact absurd rfl h | decide

/-! ## Sending -/

/-- The status that a message gets, from what the target did with it. -/
structure Fits (status : CrossStatus) (taken logged : Bool) : Prop where
  delivered : taken = true → logged = true → status = .DELIVERED
  rejected : taken = true → logged = false → status = .REJECTED
  other : taken = false → status ≠ .DELIVERED

/-- The two lists are the same. -/
def SameBooks (ic ic' : InterCompany) : Prop := ic'.outbox = ic.outbox ∧ ic'.handed = ic.handed

theorem emit_event_books (post : Post) (company_id : String) : Moves SameBooks (emit_event post company_id) :=
  fun _ => ⟨rfl, rfl⟩

theorem SameBooks.trans (a b c : InterCompany) (h : SameBooks a b) (h' : SameBooks b c) : SameBooks a c :=
  ⟨h'.1.trans h.1, h'.2.trans h.2⟩

/-- What a record leaves. -/
theorem record_books (entry : CrossEntry) (ic : InterCompany) :
    (record_and_emit entry ic).2.outbox = add_entry entry ic.outbox ∧
      (record_and_emit entry ic).2.handed = ic.handed := by
  have hrest : Moves SameBooks (do
      emit_event (external_call entry "outbound") entry.from_company
      emit_event (external_call entry "inbound") entry.to_company
      pure ({ id := entry.id, link_id := entry.link_id, status := entry.status
              target_agent := entry.target_agent, reason := entry.reason } : CrossResult)) := by
    refine .bind SameBooks.trans (emit_event_books _ _) fun _ => ?_
    exact .bind SameBooks.trans (emit_event_books _ _) fun _ => .pure (fun _ => ⟨rfl, rfl⟩) _
  cases htaken : (find_entry ic.outbox entry.id).isSome with
  | true =>
      have hinsert : insert_entry entry ic = (.error outbox_error, ic) := if_pos htaken
      rw [record_and_emit, bind_of_error hinsert, add_entry_taken htaken]
      exact ⟨rfl, rfl⟩
  | false =>
      have hinsert : insert_entry entry ic = (.ok (), { ic with outbox := ic.outbox ++ [entry] }) :=
        if_neg (by rw [htaken]; decide)
      rw [record_and_emit, bind_of_ok hinsert, add_entry_new (by simpa using htaken)]
      exact hrest { ic with outbox := ic.outbox ++ [entry] }

/-- What the outcome of a hand-over leaves: a row, with a status that fits. -/
theorem record_outcome_books (args : CrossSend) (link : Link) (agent : String) (handle : CompanyHandle)
    (ic : InterCompany) : ∃ entry, entry.id = args.rid ∧ entry.to_company = link.to_company ∧
      Fits entry.status ((args.parcel link agent).taken handle args.now)
        ((args.parcel link agent).logged handle args.now) ∧
      ∀ ic', (record_outcome args link agent (hand_over (args.parcel link agent) handle args.now ic).1 ic').2.outbox =
          add_entry entry ic'.outbox ∧
        (record_outcome args link agent (hand_over (args.parcel link agent) handle args.now ic).1 ic').2.handed =
          ic'.handed := by
  have hcases := hand_over_result (args.parcel link agent) handle args.now ic
  generalize (hand_over (args.parcel link agent) handle args.now ic).1 = result at hcases
  have herror : ∀ {e : Exn}, e.isException = true → record_outcome args link agent (.error e) =
      record_and_emit (args.entry link (some agent) .REJECTED (some "delivery_error")) := fun he => if_pos he
  obtain ⟨htaken, hlogged, rfl⟩ | ⟨htaken, hlogged, e, rfl, he⟩ | ⟨hno, hrest⟩ := hcases
  · refine ⟨args.entry link (some agent) .DELIVERED none, rfl, rfl, ?_, record_books _⟩
    exact ⟨fun _ _ => rfl, by simp [hlogged], by simp [htaken]⟩
  · rw [herror he]
    refine ⟨_, rfl, rfl, ?_, record_books _⟩
    exact ⟨by simp [hlogged], fun _ _ => rfl, by simp [htaken]⟩
  · obtain ⟨result, rfl, hne⟩ | ⟨e, rfl, he⟩ := hrest
    · refine ⟨args.entry link (some agent) (map_result result) (rejection result), rfl, rfl, ?_, record_books _⟩
      exact ⟨by simp [hno], by simp [hno], fun _ => map_result_ne hne⟩
    · rw [herror he]
      refine ⟨_, rfl, rfl, ?_, record_books _⟩
      exact ⟨by simp [hno], by simp [hno], fun _ => nofun⟩

/-- What a `send_cross` leaves in the two lists. -/
inductive Sent (ic : InterCompany) (args : CrossSend) : List CrossEntry → List Handover → Prop where
  | kept (hnone : sent_parcel ic args = none) : Sent ic args ic.outbox ic.handed
  | refused (entry : CrossEntry) (hnone : sent_parcel ic args = none) (hstatus : entry.status = .REJECTED) :
      Sent ic args (add_entry entry ic.outbox) ic.handed
  | handed (p : Parcel) (handle : CompanyHandle) (entry : CrossEntry)
      (hparcel : sent_parcel ic args = some (p, handle)) (hid : entry.id = p.id)
      (hto : entry.to_company = p.to_company)
      (hfits : Fits entry.status (p.taken handle args.now) (p.logged handle args.now)) :
      Sent ic args (add_entry entry ic.outbox) (ic.handed ++ [p.handover ic.board (p.taken handle args.now)])

theorem enforce_rate_books (link : Link) (monotonic : Rat) : Moves SameBooks (enforce_rate link monotonic) := by
  intro ic
  unfold enforce_rate
  dsimp only
  split
  · exact ⟨rfl, rfl⟩
  · split
    · exact ⟨rfl, rfl⟩
    · exact ⟨rfl, rfl⟩

/-- **What a send comes to.** -/
theorem send_cross_sent (ic : InterCompany) (args : CrossSend) :
    Sent ic args (send_cross args ic).2.outbox (send_cross args ic).2.handed := by
  have hkept : ∀ ic', SameBooks ic ic' → sent_parcel ic args = none → Sent ic args ic'.outbox ic'.handed := by
    intro ic' hbooks hnone
    rw [hbooks.1, hbooks.2]
    exact .kept hnone
  rw [send_cross, read_bind]
  cases hadmitted : admitted ic.board args with
  | error e => exact .kept (by rw [sent_parcel, hadmitted])
  | ok link =>
      rw [ofExcept_ok_bind]
      have hbooks := enforce_rate_books link args.monotonic ic
      have hboard := enforce_rate_board link args.monotonic ic
      rcases hrate : enforce_rate link args.monotonic ic with ⟨_ | _, paid⟩
      · rw [hrate] at hbooks
        rw [bind_of_error hrate]
        exact hkept paid hbooks (by rw [sent_parcel, hadmitted]; simp only [hrate]; rfl)
      · rw [hrate] at hbooks hboard
        rw [bind_of_ok hrate]
        cases htarget : get_target_handle ic.board link.to_company with
        | error e =>
            exact hkept paid hbooks (by rw [sent_parcel, hadmitted]; simp only [hrate, htarget]; rfl)
        | ok handle =>
            rw [ofExcept_ok_bind]
            have hparcel : sent_parcel ic args =
                (resolve_inbox_agent ic.board link.to_company).map fun agent => (args.parcel link agent, handle) := by
              rw [sent_parcel, hadmitted]
              simp only [hrate, htarget]
              rfl
            cases hagent : resolve_inbox_agent ic.board link.to_company with
            | none =>
                rw [hagent] at hparcel
                rw [deliver, (record_books _ paid).1, (record_books _ paid).2, hbooks.1, hbooks.2]
                exact .refused _ hparcel rfl
            | some agent =>
                rw [hagent] at hparcel
                obtain ⟨entry, hid, hto, hfits, hrecord⟩ := record_outcome_books args link agent handle paid
                obtain ⟨hhanded, houtbox⟩ : (hand_over (args.parcel link agent) handle args.now paid).2.handed = _ ∧ _ :=
                  hand_over_handed
                rw [deliver, attempt_bind, (hrecord _).1, (hrecord _).2, hhanded, houtbox, hboard, hbooks.1, hbooks.2]
                exact .handed _ handle entry hparcel hid hto hfits

/-- A send that keeps the outbox true: if its target takes the message, no row with the id is for that company, and
    without any row with the id, the target's log takes the event. -/
def sends_truth (ic : InterCompany) (args : CrossSend) : Prop :=
  ∀ p handle, sent_parcel ic args = some (p, handle) → p.taken handle args.now = true →
    (∀ row, find_entry ic.outbox p.id = some row → row.to_company ≠ p.to_company) ∧
    (find_entry ic.outbox p.id = none → p.logged handle args.now = true)

section SendTruth

variable {ic : InterCompany} {args : CrossSend} {outbox : List CrossEntry} {handed : List Handover}

theorem Sent.accounted (h : Sent ic args outbox handed) (hacc : Accounted ic.outbox ic.handed)
    (htruth : sends_truth ic args) : Accounted outbox handed := by
  cases h with
  | kept _ => exact hacc
  | refused entry _ hstatus => exact hacc.add_entry (by rw [hstatus]; decide)
  | handed p handle entry hparcel hid hto hfits =>
      cases htaken : p.taken handle args.now with
      | false => exact (hacc.refused rfl).add_entry (hfits.other htaken)
      | true =>
          obtain ⟨hforeign, hlogged⟩ := htruth p handle hparcel htaken
          cases hrow : find_entry ic.outbox p.id with
          | some row =>
              rw [add_entry_taken (by rw [hid, hrow]; rfl)]
              exact hacc.foreign hrow (hforeign row hrow)
          | none =>
              have hnew : find_entry ic.outbox entry.id = none := by rw [hid, hrow]
              rw [add_entry_new hnew]
              exact hacc.deliver hnew rfl hid hto (hfits.delivered htaken (hlogged hrow))

theorem Sent.untrue (h : Sent ic args outbox handed) (hacc : Accounted ic.outbox ic.handed)
    (hno : ¬ sends_truth ic args) : ¬ Truthful outbox handed := by
  unfold sends_truth at hno
  push Not at hno
  obtain ⟨p, handle, hparcel, htaken, hbad⟩ := hno
  cases h with
  | kept hnone => rw [hnone] at hparcel; cases hparcel
  | refused entry hnone hstatus => rw [hnone] at hparcel; cases hparcel
  | handed p' handle' entry hparcel' hid hto hfits =>
      rw [hparcel'] at hparcel
      obtain ⟨rfl, rfl⟩ := Prod.mk.inj (Option.some.inj hparcel)
      rw [htaken]
      cases hrow : find_entry ic.outbox p'.id with
      | some row =>
          rw [add_entry_taken (by rw [hid, hrow]; rfl)]
          refine hacc.untrue_again rfl hrow ?_
          by_contra hne
          obtain ⟨hnone, -⟩ := hbad fun other hother => by
            rw [hrow] at hother
            cases hother
            exact hne
          rw [hrow] at hnone
          cases hnone
      | none =>
          have hnew : find_entry ic.outbox entry.id = none := by rw [hid, hrow]
          obtain ⟨-, hunlogged⟩ := hbad fun other hother => by
            rw [hrow] at hother
            cases hother
          rw [add_entry_new hnew]
          exact untrue_rejected rfl hid hto (hfits.rejected htaken (by simpa using hunlogged))

end SendTruth

/-! ## Delivering what was queued -/

/-- One row of `deliver_pending`; without a target the loop ends. -/
def deliver_one (company_id : String) (now : Time) (ic : InterCompany) (row : CrossEntry) : InterCompany :=
  match get_target_handle ic.board company_id with
  | .error _ => ic
  | .ok handle => (redeliver company_id now handle row ic).2

/-- What one row of a flush leaves in the two lists. -/
inductive Flushed (company_id : String) (now : Time) (ic : InterCompany) (row : CrossEntry) :
    List CrossEntry → List Handover → Prop where
  | kept (hnone : row_parcel ic company_id row = none) : Flushed company_id now ic row ic.outbox ic.handed
  | dropped (reason : Option String) (hnone : row_parcel ic company_id row = none) :
      Flushed company_id now ic row (set_row row.id .REJECTED reason none now ic.outbox) ic.handed
  | delivered (p : Parcel) (handle : CompanyHandle) (hparcel : row_parcel ic company_id row = some (p, handle))
      (htaken : p.taken handle now = true) (hlogged : p.logged handle now = true) (agent : Option String) :
      Flushed company_id now ic row (set_row row.id .DELIVERED none agent now ic.outbox)
        (ic.handed ++ [p.handover ic.board true])
  | unlogged (p : Parcel) (handle : CompanyHandle) (hparcel : row_parcel ic company_id row = some (p, handle))
      (htaken : p.taken handle now = true) (hlogged : p.logged handle now = false) :
      Flushed company_id now ic row ic.outbox (ic.handed ++ [p.handover ic.board true])
  | waiting (p : Parcel) (handle : CompanyHandle) (hparcel : row_parcel ic company_id row = some (p, handle))
      (htaken : p.taken handle now = false) :
      Flushed company_id now ic row ic.outbox (ic.handed ++ [p.handover ic.board false])
  | refused (p : Parcel) (handle : CompanyHandle) (hparcel : row_parcel ic company_id row = some (p, handle))
      (htaken : p.taken handle now = false) (status : CrossStatus) (reason agent : Option String)
      (hstatus : status ≠ .DELIVERED) :
      Flushed company_id now ic row (set_row row.id status reason agent now ic.outbox)
        (ic.handed ++ [p.handover ic.board false])

section Redeliver

variable {company_id : String} {now : Time} {row : CrossEntry}

theorem row_parcel_some {ic : InterCompany} {p : Parcel} {handle : CompanyHandle}
    (h : row_parcel ic company_id row = some (p, handle)) : p.id = row.id ∧ p.to_company = company_id := by
  unfold row_parcel at h
  split at h
  · split at h
    · obtain ⟨agent, -, heq⟩ := Option.map_eq_some_iff.mp h
      obtain ⟨rfl, rfl⟩ := Prod.mk.inj heq
      exact ⟨rfl, rfl⟩
    · cases h
  · cases h

/-- A row whose link is there is settled or left, and the loop goes on. -/
theorem redeliver_flushed {ic : InterCompany} {handle : CompanyHandle} {link : Link}
    (htarget : get_target_handle ic.board company_id = .ok handle)
    (hlink : Board.find_link ic.board.links row.link_id = some link) :
    (∃ settled, (redeliver company_id now handle row ic).1 = .ok settled) ∧
      Flushed company_id now ic row (redeliver company_id now handle row ic).2.outbox
        (redeliver company_id now handle row ic).2.handed := by
  have hlookup : lookup_link ic.board row.link_id = .ok link := by rw [lookup_link, hlink]
  rw [redeliver, read_bind, hlookup, ofExcept_ok_bind]
  by_cases happroved : link.status = .APPROVED
  · rw [if_neg (not_not.mpr happroved)]
    have hparcel : row_parcel ic company_id row =
        (inbox_of ic.board row company_id).map fun agent => (row.parcel company_id agent, handle) := by
      rw [row_parcel, htarget, hlookup]
      exact if_pos happroved
    cases hagent : inbox_of ic.board row company_id with
    | none =>
        rw [hagent] at hparcel
        exact ⟨⟨true, rfl⟩, .dropped _ hparcel⟩
    | some agent =>
        rw [hagent] at hparcel
        dsimp only
        rw [attempt_bind]
        have hcases := hand_over_result (row.parcel company_id agent) handle now ic
        obtain ⟨hhanded, houtbox⟩ :
          (hand_over (row.parcel company_id agent) handle now ic).2.handed = _ ∧ _ := hand_over_handed
        generalize hand_over (row.parcel company_id agent) handle now ic = given at hcases hhanded houtbox ⊢
        obtain ⟨result, ic'⟩ := given
        dsimp only at hcases hhanded houtbox ⊢
        have herror : ∀ {e : Exn}, e.isException = true → settle row agent now (.error e) = pure false :=
          fun he => if_pos he
        obtain ⟨htaken, hlogged, rfl⟩ | ⟨htaken, hlogged, e, rfl, he⟩ | ⟨hno, hrest⟩ := hcases
        · refine ⟨⟨true, rfl⟩, ?_⟩
          have hset : (settle row agent now (.ok .QUEUED) ic').2.outbox =
              set_row row.id .DELIVERED none (some agent) now ic'.outbox := rfl
          have hsame : (settle row agent now (.ok .QUEUED) ic').2.handed = ic'.handed := rfl
          rw [hset, hsame, houtbox, hhanded, htaken]
          exact .delivered _ handle hparcel htaken hlogged _
        · rw [herror he]
          refine ⟨⟨false, rfl⟩, ?_⟩
          rw [pure_run, houtbox, hhanded, htaken]
          exact .unlogged _ handle hparcel htaken hlogged
        · obtain ⟨result, rfl, hne⟩ | ⟨e, rfl, he⟩ := hrest
          · by_cases hqueued : map_result result = .QUEUED
            · have hset : settle row agent now (.ok result) = pure false := if_pos hqueued
              rw [hset]
              refine ⟨⟨false, rfl⟩, ?_⟩
              rw [pure_run, houtbox, hhanded, hno]
              exact .waiting _ handle hparcel hno
            · have hset : settle row agent now (.ok result) ic' = (.ok true, { ic' with
                  outbox := set_row row.id (map_result result)
                    (if map_result result = .DELIVERED then none else some (result_value result)) (some agent) now
                    ic'.outbox }) := by
                rw [settle, if_neg hqueued]
                rfl
              rw [hset, houtbox, hhanded, hno]
              exact ⟨⟨true, rfl⟩, .refused _ handle hparcel hno _ _ _ (map_result_ne hne)⟩
          · rw [herror he]
            refine ⟨⟨false, rfl⟩, ?_⟩
            rw [pure_run, houtbox, hhanded, hno]
            exact .waiting _ handle hparcel hno
  · rw [if_pos happroved]
    refine ⟨⟨true, rfl⟩, .dropped _ ?_⟩
    rw [row_parcel, htarget, hlookup]
    exact if_neg happroved

theorem deliver_one_unavailable {ic : InterCompany} {e : Exn}
    (htarget : get_target_handle ic.board company_id = .error e) : deliver_one company_id now ic row = ic := by
  rw [deliver_one, htarget]

theorem deliver_one_available {ic : InterCompany} {handle : CompanyHandle}
    (htarget : get_target_handle ic.board company_id = .ok handle) :
    deliver_one company_id now ic row = (redeliver company_id now handle row ic).2 := by
  rw [deliver_one, htarget]

variable {L : List Link} {C : String → Option CompanyStatus}

theorem deliver_one_flushed {ic : InterCompany} (hkept : Kept L C ic) (hbacked : Backed L row) :
    Flushed company_id now ic row (deliver_one company_id now ic row).outbox
      (deliver_one company_id now ic row).handed := by
  obtain ⟨link, hlink, -⟩ := hbacked
  rw [← hkept.links] at hlink
  cases htarget : get_target_handle ic.board company_id with
  | error e =>
      rw [deliver_one_unavailable htarget]
      exact .kept (by rw [row_parcel, htarget])
  | ok handle =>
      rw [deliver_one_available htarget]
      exact (redeliver_flushed htarget hlink).2

theorem deliver_one_keeps {ic : InterCompany} (hkept : Kept L C ic) (hbacked : Backed L row)
    (hto : row.to_company = company_id) : Kept L C (deliver_one company_id now ic row) := by
  cases htarget : get_target_handle ic.board company_id with
  | error e => rwa [deliver_one_unavailable htarget]
  | ok handle =>
      rw [deliver_one_available htarget]
      obtain ⟨status, hstatus, hopen⟩ := target_open htarget
      rw [hkept.companies] at hstatus
      have hkeeps : Keeps L C (redeliver company_id now handle row) := redeliver_keeps now hbacked hto hstatus hopen
      exact hkeeps ic hkept

/-- **A flush goes through its rows one by one.** -/
theorem flush_eq (rows : List CrossEntry) {ic : InterCompany} (hkept : Kept L C ic)
    (hrows : ∀ row ∈ rows, Backed L row ∧ row.to_company = company_id) :
    (flush company_id now rows ic).2 = exec (deliver_one company_id now) ic rows := by
  have hstop : ∀ rows, ∀ {ic : InterCompany} {e : Exn}, get_target_handle ic.board company_id = .error e →
      exec (deliver_one company_id now) ic rows = ic := by
    intro rows
    induction rows with
    | nil => exact fun _ => rfl
    | cons row rows ih =>
        intro ic e htarget
        rw [exec_cons, deliver_one_unavailable htarget]
        exact ih htarget
  induction rows generalizing ic with
  | nil => rfl
  | cons row rows ih =>
      obtain ⟨hbacked, hto⟩ := hrows row List.mem_cons_self
      have hnext : Kept L C (deliver_one company_id now ic row) := deliver_one_keeps hkept hbacked hto
      have hrest := ih hnext fun other hmem => hrows other (List.mem_cons_of_mem _ hmem)
      rw [flush, read_bind]
      cases htarget : get_target_handle ic.board company_id with
      | error e =>
          rw [hstop _ htarget]
          rfl
      | ok handle =>
          rw [exec_cons, ← hrest, deliver_one_available htarget]
          obtain ⟨link, hlink, -⟩ := hbacked
          rw [← hkept.links] at hlink
          obtain ⟨⟨settled, hsettled⟩, -⟩ := redeliver_flushed htarget hlink
          dsimp only
          rw [bind_of_ok (Prod.ext hsettled rfl)]
          exact bind_pure_state _ _ _

/-! ### The row and the others -/

/-- The row of the message waits for its company. -/
def Waits (ic : InterCompany) (id company_id : String) : Prop :=
  ∃ row, find_entry ic.outbox id = some row ∧ row.to_company = company_id ∧ row.status = .QUEUED

variable {outbox : List CrossEntry} {handed : List Handover} {ic : InterCompany}

/-- A row whose log takes the event, if its queue takes the message. -/
def flushes_truth (company_id : String) (now : Time) (ic : InterCompany) (row : CrossEntry) : Prop :=
  ∀ p handle, row_parcel ic company_id row = some (p, handle) → p.taken handle now = true →
    p.logged handle now = true

theorem Flushed.accounted (h : Flushed company_id now ic row outbox handed)
    (hacc : Accounted ic.outbox ic.handed) (hwaits : Waits ic row.id company_id)
    (htruth : flushes_truth company_id now ic row) : Accounted outbox handed := by
  obtain ⟨row', hrow, hto, hqueued⟩ := hwaits
  have hold : row'.status ≠ .DELIVERED := by rw [hqueued]; decide
  cases h with
  | kept _ => exact hacc
  | dropped reason _ => exact hacc.set_row hrow hold (by decide)
  | delivered p handle hparcel htaken hlogged agent =>
      obtain ⟨hid, hcompany⟩ := row_parcel_some hparcel
      rw [← hid] at hrow ⊢
      exact hacc.set_delivered (h := p.handover ic.board true) hrow hold (hto.trans hcompany.symm) rfl
  | unlogged p handle hparcel htaken hlogged =>
      have hyes := htruth p handle hparcel htaken
      rw [hlogged] at hyes
      cases hyes
  | waiting p handle _ _ => exact hacc.refused rfl
  | refused p handle _ _ status reason agent hstatus => exact (hacc.set_row hrow hold hstatus).refused rfl

/-- The other rows, and what was taken for them, stay as they are. -/
theorem Flushed.others (h : Flushed company_id now ic row outbox handed) {id : String} (hne : row.id ≠ id) :
    find_entry outbox id = find_entry ic.outbox id ∧
      ∀ to_company, received handed id to_company = received ic.handed id to_company := by
  have hset : ∀ status reason agent,
      find_entry (set_row row.id status reason agent now ic.outbox) id = find_entry ic.outbox id := by
    intro status reason agent
    rw [find_set_row, if_neg hne]
  have hhanded : ∀ {p : Parcel} {handle : CompanyHandle} (accepted : Bool),
      row_parcel ic company_id row = some (p, handle) → ∀ to_company,
      received (ic.handed ++ [p.handover ic.board accepted]) id to_company = received ic.handed id to_company := by
    intro p handle accepted hparcel to_company
    refine received_other (counts_of_ne ?_)
    rwa [← (row_parcel_some hparcel).1] at hne
  cases h with
  | kept _ => exact ⟨rfl, fun _ => rfl⟩
  | dropped reason _ => exact ⟨hset _ _ _, fun _ => rfl⟩
  | delivered p handle hparcel _ _ agent => exact ⟨hset _ _ _, hhanded _ hparcel⟩
  | unlogged p handle hparcel _ _ => exact ⟨rfl, hhanded _ hparcel⟩
  | waiting p handle hparcel _ => exact ⟨rfl, hhanded _ hparcel⟩
  | refused p handle hparcel _ status reason agent _ => exact ⟨hset _ _ _, hhanded _ hparcel⟩

/-- A row that waits although its company has the message. -/
def Stuck (outbox : List CrossEntry) (handed : List Handover) (id : String) : Prop :=
  ∃ row, find_entry outbox id = some row ∧ row.status = .QUEUED ∧ received handed id row.to_company = 1

theorem Stuck.untrue {id : String} (h : Stuck outbox handed id) : ¬ Truthful outbox handed := by
  obtain ⟨row, hrow, hqueued, hone⟩ := h
  intro htrue
  obtain rfl : row.id = id := Table.key_of_find hrow
  have hdelivered := (htrue row (Table.mem_of_find hrow)).1.mpr hone
  rw [hqueued] at hdelivered
  cases hdelivered

/-- A message that is taken but not logged leaves its row waiting. -/
theorem Flushed.stuck (h : Flushed company_id now ic row outbox handed)
    (hacc : Accounted ic.outbox ic.handed) (hwaits : Waits ic row.id company_id)
    (hno : ¬ flushes_truth company_id now ic row) : Stuck outbox handed row.id := by
  unfold flushes_truth at hno
  push Not at hno
  obtain ⟨p, handle, hparcel, htaken, hlog⟩ := hno
  obtain ⟨row', hrow, hto, hqueued⟩ := hwaits
  cases h with
  | kept hnone => rw [hnone] at hparcel; cases hparcel
  | dropped reason hnone => rw [hnone] at hparcel; cases hparcel
  | delivered p' handle' hparcel' _ hlogged agent =>
      rw [hparcel'] at hparcel
      cases hparcel
      exact absurd hlogged hlog
  | unlogged p' handle' hparcel' _ _ =>
      obtain ⟨hid, hcompany⟩ := row_parcel_some hparcel'
      have hcounts : counts (p'.handover ic.board true) row.id row'.to_company = true :=
        counts_iff.mpr ⟨rfl, hid, hcompany.trans hto.symm⟩
      refine ⟨row', hrow, hqueued, ?_⟩
      have hnone := hacc.others row' (Table.mem_of_find hrow) (by rw [hqueued]; decide)
      have hkey : row'.id = row.id := Table.key_of_find hrow
      rw [hkey] at hnone
      rw [received_more hcounts, hnone]
  | waiting p' handle' hparcel' hno =>
      rw [hparcel'] at hparcel
      cases hparcel
      rw [hno] at htaken
      cases htaken
  | refused p' handle' hparcel' hno status reason agent _ =>
      rw [hparcel'] at hparcel
      cases hparcel
      rw [hno] at htaken
      cases htaken

/-! ### The loop -/

/-- The rows stand for messages that wait for the company: there is a link behind each. -/
structure Lined (L : List Link) (C : String → Option CompanyStatus) (company_id : String) (rows : List CrossEntry)
    (ic : InterCompany) : Prop where
  kept : Kept L C ic
  distinct : (rows.map CrossEntry.id).Nodup
  backed : ∀ row ∈ rows, Backed L row ∧ row.to_company = company_id
  waits : ∀ row ∈ rows, Waits ic row.id company_id

section Line

variable {rows : List CrossEntry}

theorem Lined.ne (h : Lined L C company_id (row :: rows) ic) {other : CrossEntry} (hmem : other ∈ rows) :
    row.id ≠ other.id := by
  have hdistinct := h.distinct
  rw [List.map_cons, List.nodup_cons] at hdistinct
  intro heq
  exact hdistinct.1 (heq ▸ List.mem_map_of_mem hmem)

theorem Lined.flushed (h : Lined L C company_id (row :: rows) ic) (now : Time) :
    Flushed company_id now ic row (deliver_one company_id now ic row).outbox
      (deliver_one company_id now ic row).handed :=
  deliver_one_flushed h.kept (h.backed row List.mem_cons_self).1

theorem Lined.next (h : Lined L C company_id (row :: rows) ic) (now : Time) :
    Lined L C company_id rows (deliver_one company_id now ic row) := by
  obtain ⟨hbacked, hto⟩ := h.backed row List.mem_cons_self
  have hflushed : Flushed company_id now ic row _ _ := h.flushed now
  refine ⟨deliver_one_keeps h.kept hbacked hto, (List.nodup_cons.mp h.distinct).2, ?_, fun other hmem => ?_⟩
  · exact fun other hmem => h.backed other (List.mem_cons_of_mem _ hmem)
  · obtain ⟨found, hfound, hrest⟩ := h.waits other (List.mem_cons_of_mem _ hmem)
    exact ⟨found, (hflushed.others (h.ne hmem)).1.trans hfound, hrest⟩

/-- The queued rows of a company are lined up. -/
theorem lined_pending (hsealed : Sealed ic) (hids : (ic.outbox.map CrossEntry.id).Nodup) (company_id : String) :
    Lined ic.board.links ic.board.companies company_id (pending ic.outbox company_id) ic := by
  refine ⟨hsealed, ?_, fun row hmem => ?_, fun row hmem => ?_⟩
  · have hperm := (List.perm_insertionSort (fun a b : CrossEntry => a.created_at ≤ b.created_at)
      (ic.outbox.filter fun entry => entry.to_company = company_id && entry.status = .QUEUED)).map CrossEntry.id
    rw [pending, hperm.nodup_iff]
    exact hids.sublist (List.filter_sublist.map _)
  · obtain ⟨hrow, hto, -⟩ := mem_pending.mp hmem
    exact ⟨hsealed.rows row hrow, hto⟩
  · obtain ⟨hrow, hto, hqueued⟩ := mem_pending.mp hmem
    exact ⟨row, Table.find_of_mem hids hrow, hto, hqueued⟩

end Line

/-- The state before a flush goes on: the remaining rows are different ones, and each waits in the outbox. -/
structure Ready (L : List Link) (C : String → Option CompanyStatus) (company_id : String) (rows : List CrossEntry)
    (ic : InterCompany) : Prop where
  kept : Kept L C ic
  accounted : Accounted ic.outbox ic.handed
  distinct : (rows.map CrossEntry.id).Nodup
  backed : ∀ row ∈ rows, Backed L row ∧ row.to_company = company_id
  waits : ∀ row ∈ rows, Waits ic row.id company_id

variable {rows : List CrossEntry}

theorem Ready.lined (h : Ready L C company_id rows ic) : Lined L C company_id rows ic :=
  ⟨h.kept, h.distinct, h.backed, h.waits⟩

theorem Ready.next (h : Ready L C company_id (row :: rows) ic) (htruth : flushes_truth company_id now ic row) :
    Ready L C company_id rows (deliver_one company_id now ic row) := by
  have hflushed : Flushed company_id now ic row _ _ := h.lined.flushed now
  have hrest := h.lined.next now
  refine ⟨hrest.kept, ?_, hrest.distinct, hrest.backed, hrest.waits⟩
  exact hflushed.accounted h.accounted (h.waits row List.mem_cons_self) htruth

/-- A stuck row stays stuck while other rows are delivered. -/
theorem exec_stuck {id : String} (hkept : Kept L C ic)
    (hrows : ∀ row ∈ rows, (Backed L row ∧ row.to_company = company_id) ∧ row.id ≠ id)
    (hstuck : Stuck ic.outbox ic.handed id) :
    Stuck (exec (deliver_one company_id now) ic rows).outbox (exec (deliver_one company_id now) ic rows).handed
      id := by
  induction rows generalizing ic with
  | nil => exact hstuck
  | cons row rows ih =>
      obtain ⟨⟨hbacked, hto⟩, hne⟩ := hrows row List.mem_cons_self
      have hflushed : Flushed company_id now ic row _ _ := deliver_one_flushed hkept hbacked
      obtain ⟨hfind, hreceived⟩ := hflushed.others hne
      obtain ⟨found, hfound, hqueued, hone⟩ := hstuck
      rw [exec_cons]
      refine ih (deliver_one_keeps hkept hbacked hto) (fun other hmem => hrows other (List.mem_cons_of_mem _ hmem)) ?_
      exact ⟨found, hfind.trans hfound, hqueued, (hreceived _).trans hone⟩

/-- A flush whose rows all keep the outbox true. -/
theorem Ready.accounted_after (h : Ready L C company_id rows ic)
    (htruth : Along (deliver_one company_id now) (flushes_truth company_id now) ic rows) :
    Accounted (exec (deliver_one company_id now) ic rows).outbox
      (exec (deliver_one company_id now) ic rows).handed := by
  induction rows generalizing ic with
  | nil => exact h.accounted
  | cons row rows ih => exact ih (h.next htruth.1) htruth.2

/-- A flush with a row that does not. -/
theorem Ready.stuck_after (h : Ready L C company_id rows ic)
    (hno : ¬ Along (deliver_one company_id now) (flushes_truth company_id now) ic rows) :
    ∃ id, Stuck (exec (deliver_one company_id now) ic rows).outbox
      (exec (deliver_one company_id now) ic rows).handed id := by
  induction rows generalizing ic with
  | nil => exact absurd trivial hno
  | cons row rows ih =>
      by_cases htruth : flushes_truth company_id now ic row
      · exact ih (h.next htruth) fun hrest => hno ⟨htruth, hrest⟩
      · obtain ⟨hbacked, hto⟩ := h.backed row List.mem_cons_self
        have hflushed : Flushed company_id now ic row _ _ := h.lined.flushed now
        have hstuck := hflushed.stuck h.accounted (h.waits row List.mem_cons_self) htruth
        refine ⟨row.id, ?_⟩
        rw [exec_cons]
        refine exec_stuck (deliver_one_keeps h.kept hbacked hto) (fun other hmem => ?_) hstuck
        exact ⟨h.backed other (List.mem_cons_of_mem _ hmem), (h.lined.ne hmem).symm⟩

/-- The queued rows of a company are ready. -/
theorem ready_pending (hsealed : Sealed ic) (hacc : Accounted ic.outbox ic.handed) (company_id : String) :
    Ready ic.board.links ic.board.companies company_id (pending ic.outbox company_id) ic := by
  have hlined := lined_pending hsealed hacc.ids company_id
  exact ⟨hsealed, hacc, hlined.distinct, hlined.backed, hlined.waits⟩

end Redeliver

/-! ## Runs -/

/-- **A step that keeps the outbox true**: for a send, `sends_truth`; for a flush, each row `flushes_truth` when its
    turn comes. -/
def tells_truth (ic : InterCompany) : Label → Prop
  | .send_cross args => sends_truth ic args
  | .deliver_pending company_id now =>
    Along (deliver_one company_id now) (flushes_truth company_id now) ic (pending ic.outbox company_id)
  | .board _ => True

theorem deliver_pending_eq {ic : InterCompany} (hsealed : Sealed ic) (company_id : String) (now : Time) :
    (deliver_pending company_id now ic).2 =
      exec (deliver_one company_id now) ic (pending ic.outbox company_id) := by
  rw [deliver_pending, read_bind]
  refine flush_eq _ hsealed fun row hmem => ?_
  obtain ⟨hrow, hto, -⟩ := mem_pending.mp hmem
  exact ⟨hsealed.rows row hrow, hto⟩

/-- What a run of such steps keeps. -/
structure InOrder (ic : InterCompany) : Prop where
  gated : Sealed ic
  accounted : Accounted ic.outbox ic.handed

theorem InOrder.step {ic : InterCompany} (h : InOrder ic) {label : Label} (htruth : tells_truth ic label) :
    InOrder (step ic label) := by
  refine ⟨h.gated.step label, ?_⟩
  cases label with
  | send_cross args => exact (send_cross_sent ic args).accounted h.accounted htruth
  | deliver_pending company_id now =>
      show Accounted (deliver_pending company_id now ic).2.outbox (deliver_pending company_id now ic).2.handed
      rw [deliver_pending_eq h.gated]
      exact (ready_pending h.gated h.accounted company_id).accounted_after htruth
  | board label => exact h.accounted

theorem InOrder.untrue {ic : InterCompany} (h : InOrder ic) {label : Label} (hno : ¬ tells_truth ic label) :
    ¬ Truthful (InterCompany.step ic label).outbox (InterCompany.step ic label).handed := by
  cases label with
  | send_cross args => exact (send_cross_sent ic args).untrue h.accounted hno
  | deliver_pending company_id now =>
      show ¬ Truthful (deliver_pending company_id now ic).2.outbox (deliver_pending company_id now ic).2.handed
      rw [deliver_pending_eq h.gated]
      obtain ⟨id, hstuck⟩ := (ready_pending h.gated h.accounted company_id).stuck_after hno
      exact hstuck.untrue
  | board label => exact absurd trivial hno

/-- **The outbox is truthful in every state of a run exactly if every step keeps it true.** -/
theorem outbox_truth (companies : String → Option CompanyStatus) (handles : String → Option CompanyHandle)
    (run : List Label) :
    Along step tells_truth (fresh companies handles) run ↔
      ∀ pre, pre <+: run → Truthful (exec step (fresh companies handles) pre).outbox
        (exec step (fresh companies handles) pre).handed := by
  have hfresh : InOrder (fresh companies handles) := by
    refine ⟨⟨rfl, rfl, fun _ h => absurd h List.not_mem_nil, fun _ h => absurd h List.not_mem_nil⟩, ?_⟩
    exact ⟨List.nodup_nil, fun _ h => absurd h List.not_mem_nil, fun _ h => absurd h List.not_mem_nil,
      fun _ h => absurd h List.not_mem_nil⟩
  have hall : ∀ label ∈ run, (fun _ : Label => True) label := fun _ _ => trivial
  exact along_iff_everywhere (P := fun ic => Truthful ic.outbox ic.handed) (fun ic h => h.accounted.truthful)
    (fun ic label _ h htruth => h.step htruth) (fun ic label _ h hno => h.untrue hno) hfresh hall

/-- `B` is paused, or resumed. -/
def set_accepting (accepting : Bool) : Label :=
  .board (.set_handle "B" (some { hr_company with
    orchestrator := { hr_company.orchestrator with accepting } }))

/-- The inquiry is sent to the paused `B` and waits; it is sent again to the running `B`, which takes it; then the
    queue is flushed. -/
def sent_again : List Label :=
  link_a_b ++ [set_accepting false, .send_cross inquiry, set_accepting true, .send_cross inquiry,
    .deliver_pending "B" 4]

/-- **A message that was taken is recorded as rejected.** -/
theorem outbox_untrue :
    ¬ ∀ companies handles run, Truthful (exec step (fresh companies handles) run).outbox
      (exec step (fresh companies handles) run).handed := by
  intro hall
  have htrue := hall a_and_b.board.companies a_and_b.board.handles sent_again
  have hbad : ∃ row ∈ (exec step a_and_b sent_again).outbox, row.status = .REJECTED ∧
      received (exec step a_and_b sent_again).handed row.id row.to_company = 1 := by decide +kernel
  obtain ⟨row, hmem, hrejected, hone⟩ := hbad
  have hzero := (htrue row hmem).2 hrejected
  have htaken : received (exec step a_and_b sent_again).handed row.id row.to_company = 0 := hzero
  omega

end InterCompany

end CompanyFactory
