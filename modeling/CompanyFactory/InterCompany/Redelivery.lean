import CompanyFactory.InterCompany.Recorded
import CompanyFactory.Orchestrator.Atomic

/-!
# `InterCompany.Redelivery` — which flushes deliver every row

A queued row remembers the agent that was the inbox of the target company when it was sent. `deliver_pending` hands the
row over to **that** agent, whatever has become of it since; only a row without one gets the inbox agent of today.

* `serves_iff` — a flush delivers every row over an approved link exactly if it is clear for all of them: each agent
  takes its message, and the log takes the events.
-/

namespace CompanyFactory

open Act Machine

namespace InterCompany

open BoardApi Orchestrator

/-- Is the row's link approved? -/
def over_approved (b : Board) (row : CrossEntry) : Bool :=
  (Board.find_link b.links row.link_id).any fun link => link.status = .APPROVED

/-- What a flush hands over for a row, to the recorded agent, or to the inbox agent if none is recorded. -/
def addressed (b : Board) (company_id : String) (row : CrossEntry) : Option Parcel :=
  (inbox_of b row company_id).map (row.parcel company_id)

/-- The events of the hand-overs for some rows. -/
def posts (b : Board) (company_id : String) (now : Time) (rows : List CrossEntry) : List Post :=
  ((rows.filter (over_approved b)).filterMap (addressed b company_id)).map fun p => message_sent (p.request now)

/-- **The flush is clear for these rows**: the company is loaded and has not ended; for each row over an approved link
    there is an agent who takes the message, and the log takes the events of all of them. -/
def Clear (company_id : String) (now : Time) (ic : InterCompany) (rows : List CrossEntry) : Prop :=
  ∃ handle, get_target_handle ic.board company_id = .ok handle ∧
    (∀ row ∈ rows, over_approved ic.board row = true →
      ∃ p, addressed ic.board company_id row = some p ∧ p.taken handle now = true) ∧
    handle.events.accepts (posts ic.board company_id now rows) = true

/-- The row is delivered in the second state, and its message was taken once since the first. -/
def DeliveredOnce (company_id : String) (ic ic' : InterCompany) (id : String) : Prop :=
  (∃ row, find_entry ic'.outbox id = some row ∧ row.status = .DELIVERED) ∧
    received ic'.handed id company_id = received ic.handed id company_id + 1

/-! ## Handing over a parcel that is taken -/

section Parcel

variable {p q : Parcel} {handle : CompanyHandle} {now : Time} {ic : InterCompany} {company_id : String}
  {row : CrossEntry}

/-- The company after it took a parcel. -/
def after_parcel (p : Parcel) (handle : CompanyHandle) (now : Time) : CompanyHandle :=
  with_orchestra handle (noted (message_sent (p.request now)) (enqueued handle.orchestra (p.request now)))

theorem hand_over_taken (h : p.taken handle now = true) : hand_over p handle now ic =
    ((EventStore.append (message_sent (p.request now)) handle.events).1.map fun _ => .QUEUED,
      { ic with
        board := ic.board.set_handle p.to_company (some (after_parcel p handle now))
        handed := ic.handed ++ [p.handover ic.board true] }) := by
  have hadmits : admits handle.orchestra (p.request now) = true ∧
      is_duplicate (p.request now) handle.orchestra = false ∧ handle.orchestra.queue.available = true := by
    simpa [Parcel.taken, takes, and_assoc] using h
  obtain ⟨hadmits, hnew, havailable⟩ := hadmits
  have hsent : Orchestrator.system_send (p.request now) handle.orchestra =
      ((EventStore.append (message_sent (p.request now)) handle.events).1.map fun _ => .QUEUED,
        noted (message_sent (p.request now)) (enqueued handle.orchestra (p.request now))) := by
    obtain ⟨hno, -⟩ | ⟨-, hrun⟩ := system_send_run handle.orchestra (p.request now) rfl rfl
    · have hgates : gates handle.orchestra (p.request now) = true := by rw [gates, hadmits]; rfl
      rw [hgates] at hno
      cases hno
    · rw [hrun]
      exact deliver_to_queue_of_available hnew havailable
  have hhanded : (hand_over p handle now ic).2.handed = ic.handed ++ [p.handover ic.board (p.taken handle now)] :=
    hand_over_handed.1
  rw [h] at hhanded
  have hrun : hand_over p handle now ic =
      ((Orchestrator.system_send (p.request now) handle.orchestra).1,
        { ic with
          board := ic.board.set_handle p.to_company
            (some (with_orchestra handle (Orchestrator.system_send (p.request now) handle.orchestra).2))
          handed := (hand_over p handle now ic).2.handed }) := rfl
  rw [hrun, hhanded, hsent]
  rfl

/-- Another parcel is taken as before. -/
theorem taken_after_parcel (hne : q.id ≠ p.id) : q.taken (after_parcel p handle now) now = q.taken handle now := by
  have hduplicate : is_duplicate (q.request now) (after_parcel p handle now).orchestra =
      is_duplicate (q.request now) handle.orchestra := by
    have hseen : (after_parcel p handle now).orchestra.queue.seen = handle.orchestra.queue.seen ++
        InMemoryMessageQueue.correlation_of (new_envelope handle.orchestra (p.request now)) := rfl
    have hother : (q.target_agent, q.id) ∉
        InMemoryMessageQueue.correlation_of (new_envelope handle.orchestra (p.request now)) := by
      show (q.target_agent, q.id) ∉ if p.id = "" then [] else [(p.target_agent, p.id)]
      split
      · exact List.not_mem_nil
      · intro hmem
        exact hne (Prod.mk.inj (List.mem_singleton.mp hmem)).2
    show (decide (q.id ≠ "") && (after_parcel p handle now).orchestra.queue.seen.contains (q.target_agent, q.id)) =
      (decide (q.id ≠ "") && handle.orchestra.queue.seen.contains (q.target_agent, q.id))
    rw [hseen, List.contains_eq_mem, List.contains_eq_mem]
    simp [hother]
  have hadmits : admits (after_parcel p handle now).orchestra (q.request now) =
      admits handle.orchestra (q.request now) := rfl
  have havailable : (after_parcel p handle now).orchestra.queue.available = handle.orchestra.queue.available := rfl
  unfold Parcel.taken takes
  rw [hduplicate, hadmits, havailable]

end Parcel

/-! ## One row -/

section Row

variable {L : List Link} {C : String → Option CompanyStatus} {company_id : String} {now : Time}
  {row other : CrossEntry} {rows : List CrossEntry} {ic : InterCompany} {handle : CompanyHandle} {p : Parcel}

/-- The rest of a flush leaves a row that it does not contain alone. -/
theorem Lined.exec_others (h : Lined L C company_id rows ic) (now : Time) {id : String}
    (hne : ∀ row ∈ rows, row.id ≠ id) :
    find_entry (exec (deliver_one company_id now) ic rows).outbox id = find_entry ic.outbox id ∧
      received (exec (deliver_one company_id now) ic rows).handed id company_id = received ic.handed id company_id := by
  induction rows generalizing ic with
  | nil => exact ⟨rfl, rfl⟩
  | cons row rows ih =>
      obtain ⟨hfind, hreceived⟩ := (h.flushed now).others (hne row List.mem_cons_self)
      obtain ⟨hfind', hreceived'⟩ := ih (h.next now) fun other hmem => hne other (List.mem_cons_of_mem _ hmem)
      rw [exec_cons, hfind', hreceived', hfind, hreceived]
      exact ⟨rfl, rfl⟩

/-- Over an approved link, what a flush hands over is what is addressed. -/
theorem row_parcel_eq (htarget : get_target_handle ic.board company_id = .ok handle)
    (happroved : over_approved ic.board row = true) :
    row_parcel ic company_id row = (addressed ic.board company_id row).map fun p => (p, handle) := by
  obtain ⟨link, hlink, hstatus⟩ := (Option.any_eq_true _ _).mp happroved
  have hlookup : lookup_link ic.board row.link_id = .ok link := by rw [lookup_link, hlink]
  rw [row_parcel, htarget, hlookup]
  dsimp only
  rw [if_pos (of_decide_eq_true hstatus), addressed, Option.map_map]
  rfl

/-- A row that waits is not delivered. -/
theorem not_delivered_of_waits (h : Waits ic row.id company_id) :
    ¬ ∃ row', find_entry ic.outbox row.id = some row' ∧ row'.status = .DELIVERED := by
  obtain ⟨found, hfound, -, hqueued⟩ := h
  rintro ⟨row', hrow', hdelivered⟩
  obtain rfl := Option.some.inj (hfound.symm.trans hrow')
  rw [hqueued] at hdelivered
  cases hdelivered

/-- Nor is it after an update to another status. -/
theorem not_delivered_of_set (h : Waits ic row.id company_id) (status : CrossStatus) (reason agent : Option String)
    (hne : status ≠ .DELIVERED) :
    ¬ ∃ row', find_entry (set_row row.id status reason agent now ic.outbox) row.id = some row' ∧
      row'.status = .DELIVERED := by
  obtain ⟨found, hfound, -⟩ := h
  rintro ⟨row', hrow', hdelivered⟩
  rw [find_set_row, if_pos rfl, hfound] at hrow'
  obtain rfl := Option.some.inj hrow'
  exact hne hdelivered

/-- The message of the row is taken, and its event logged. -/
def Goes (company_id : String) (now : Time) (ic : InterCompany) (handle : CompanyHandle) (row : CrossEntry) : Prop :=
  ∃ p, addressed ic.board company_id row = some p ∧ p.taken handle now = true ∧ p.logged handle now = true

theorem not_goes (haddressed : addressed ic.board company_id row = some p)
    (hno : p.taken handle now = false ∨ p.logged handle now = false) : ¬ Goes company_id now ic handle row := by
  rintro ⟨p', hp', htaken, hlogged⟩
  obtain rfl := Option.some.inj (haddressed.symm.trans hp')
  obtain hno | hno := hno
  · rw [hno] at htaken
    cases htaken
  · rw [hno] at hlogged
    cases hlogged

/-- **A row is delivered at its turn** exactly if its agent takes the message, and the log its event. -/
theorem Lined.delivered_iff (h : Lined L C company_id (row :: rows) ic)
    (htarget : get_target_handle ic.board company_id = .ok handle) (happroved : over_approved ic.board row = true) :
    DeliveredOnce company_id ic (deliver_one company_id now ic row) row.id ↔ Goes company_id now ic handle row := by
  have hwaits : Waits ic row.id company_id := h.waits row List.mem_cons_self
  have hsame := not_delivered_of_waits hwaits
  have hparcel := row_parcel_eq htarget happroved
  have hflushed : Flushed company_id now ic row _ _ := h.flushed now
  unfold DeliveredOnce
  have hgiven : ∀ {p handle'}, row_parcel ic company_id row = some (p, handle') →
      addressed ic.board company_id row = some p ∧ handle' = handle := by
    intro p handle' hrow
    rw [hparcel] at hrow
    obtain ⟨p', hp', heq⟩ := Option.map_eq_some_iff.mp hrow
    obtain ⟨rfl, rfl⟩ := Prod.mk.inj heq
    exact ⟨hp', rfl⟩
  have hnothing : row_parcel ic company_id row = none → ¬ Goes company_id now ic handle row := by
    rintro hrow ⟨p, hp, -⟩
    rw [hparcel, hp] at hrow
    cases hrow
  generalize (deliver_one company_id now ic row).outbox = outbox at hflushed ⊢
  generalize (deliver_one company_id now ic row).handed = handed at hflushed ⊢
  -- one case for each way in which a row can leave the flush
  cases hflushed with
  | kept hnone => exact iff_of_false (fun hd => hsame hd.1) (hnothing hnone)
  | dropped reason hnone =>
      exact iff_of_false (fun hd => not_delivered_of_set hwaits _ _ _ (by decide) hd.1) (hnothing hnone)
  | delivered p handle' hrow htaken hlogged agent =>
      obtain ⟨haddressed, rfl⟩ := hgiven hrow
      obtain ⟨hid, hcompany⟩ := row_parcel_some hrow
      obtain ⟨found, hfound, -⟩ := hwaits
      refine iff_of_true ⟨⟨updated .DELIVERED none agent now found, ?_, rfl⟩, ?_⟩ ⟨p, haddressed, htaken, hlogged⟩
      · rw [find_set_row, if_pos rfl, hfound]
        rfl
      · exact received_more (counts_iff.mpr ⟨rfl, hid, hcompany⟩)
  | unlogged p handle' hrow htaken hlogged =>
      obtain ⟨haddressed, rfl⟩ := hgiven hrow
      exact iff_of_false (fun hd => hsame hd.1) (not_goes haddressed (.inr hlogged))
  | waiting p handle' hrow hno =>
      obtain ⟨haddressed, rfl⟩ := hgiven hrow
      exact iff_of_false (fun hd => hsame hd.1) (not_goes haddressed (.inl hno))
  | refused p handle' hrow hno status reason agent hstatus =>
      obtain ⟨haddressed, rfl⟩ := hgiven hrow
      exact iff_of_false (fun hd => not_delivered_of_set hwaits _ _ _ hstatus hd.1) (not_goes haddressed (.inl hno))

/-! ## The company at the next row -/

/-- A row over a link that is not approved leaves the companies alone. -/
theorem Lined.board_of_unapproved (h : Lined L C company_id (row :: rows) ic)
    (htarget : get_target_handle ic.board company_id = .ok handle) (hno : over_approved ic.board row = false) :
    (deliver_one company_id now ic row).board = ic.board := by
  obtain ⟨⟨link, hlink, -⟩, -⟩ := h.backed row List.mem_cons_self
  rw [← h.kept.links] at hlink
  have hlookup : lookup_link ic.board row.link_id = .ok link := by rw [lookup_link, hlink]
  have hstatus : link.status ≠ .APPROVED := by
    rw [over_approved, hlink] at hno
    exact of_decide_eq_false hno
  rw [deliver_one_available htarget, redeliver, read_bind, hlookup, ofExcept_ok_bind, if_pos hstatus]
  rfl

/-- A row whose agent takes the message leaves the company after this parcel. -/
theorem board_of_taken (htarget : get_target_handle ic.board company_id = .ok handle)
    (happroved : over_approved ic.board row = true) (haddressed : addressed ic.board company_id row = some p)
    (htaken : p.taken handle now = true) :
    (deliver_one company_id now ic row).board =
      ic.board.set_handle company_id (some (after_parcel p handle now)) := by
  obtain ⟨link, hlink, hstatus⟩ := (Option.any_eq_true _ _).mp happroved
  have hlookup : lookup_link ic.board row.link_id = .ok link := by rw [lookup_link, hlink]
  obtain ⟨agent, hagent, rfl⟩ := Option.map_eq_some_iff.mp haddressed
  have hsettle : ∀ result ic', (settle row agent now result ic').2.board = ic'.board := by
    intro result ic'
    cases result with
    | error e =>
        rw [settle]
        split <;> rfl
    | ok result =>
        rw [settle]
        split <;> rfl
  rw [deliver_one_available htarget, redeliver, read_bind, hlookup, ofExcept_ok_bind,
    if_neg (not_not.mpr (of_decide_eq_true hstatus)), hagent]
  dsimp only
  rw [attempt_bind, hsettle, hand_over_taken htaken]
  rfl

/-- Such a company answers as before: the links, its status and its roster are the same. -/
theorem after_parcel_same (htarget : get_target_handle ic.board company_id = .ok handle)
    (hboard : (deliver_one company_id now ic row).board =
      ic.board.set_handle company_id (some (after_parcel p handle now))) :
    get_target_handle (deliver_one company_id now ic row).board company_id = .ok (after_parcel p handle now) ∧
      (∀ other, over_approved (deliver_one company_id now ic row).board other = over_approved ic.board other) ∧
      ∀ other, addressed (deliver_one company_id now ic row).board company_id other =
        addressed ic.board company_id other := by
  have hloaded : ic.board.handles company_id = some handle := target_loaded htarget
  have hafter : (ic.board.set_handle company_id (some (after_parcel p handle now))).handles company_id =
      some (after_parcel p handle now) := Function.update_self _ _ _
  obtain ⟨status, hstatus, hopen⟩ := target_open htarget
  have hinbox : resolve_inbox_agent (ic.board.set_handle company_id (some (after_parcel p handle now))) company_id =
      resolve_inbox_agent ic.board company_id := by
    unfold resolve_inbox_agent Board.get_handle
    rw [hafter, hloaded]
    rfl
  rw [hboard]
  refine ⟨?_, fun other => rfl, fun other => ?_⟩
  · have hcompanies : (ic.board.set_handle company_id (some (after_parcel p handle now))).companies =
        ic.board.companies := rfl
    simp [get_target_handle, Board.get_summary, Board.get_handle, hcompanies, hstatus, hopen, hafter]
  · unfold addressed inbox_of
    rw [hinbox]

theorem posts_cons_of_unapproved {b : Board} (hno : over_approved b row = false) :
    posts b company_id now (row :: rows) = posts b company_id now rows := by
  rw [posts, List.filter_cons_of_neg (by rw [hno]; exact Bool.false_ne_true)]
  rfl

theorem posts_cons_of_addressed {b : Board} (happroved : over_approved b row = true)
    (haddressed : addressed b company_id row = some p) :
    posts b company_id now (row :: rows) = message_sent (p.request now) :: posts b company_id now rows := by
  rw [posts, List.filter_cons_of_pos happroved, List.filterMap_cons_some haddressed]
  rfl

theorem posts_congr {b b' : Board} (happroved : ∀ row, over_approved b' row = over_approved b row)
    (haddressed : ∀ row, addressed b' company_id row = addressed b company_id row) :
    posts b' company_id now rows = posts b company_id now rows := by
  unfold posts
  rw [funext happroved, funext haddressed]

/-! ## All rows -/

/-- What is clear of the rows, with the company at hand. -/
theorem clear_iff (htarget : get_target_handle ic.board company_id = .ok handle) : Clear company_id now ic rows ↔
    (∀ row ∈ rows, over_approved ic.board row = true →
      ∃ p, addressed ic.board company_id row = some p ∧ p.taken handle now = true) ∧
    handle.events.accepts (posts ic.board company_id now rows) = true := by
  constructor
  · rintro ⟨handle', htarget', htakes, hlogs⟩
    obtain rfl := Except.ok.inj (htarget.symm.trans htarget')
    exact ⟨htakes, hlogs⟩
  · rintro ⟨htakes, hlogs⟩
    exact ⟨handle, htarget, htakes, hlogs⟩

/-- A row over a link that is not approved does not count. -/
theorem clear_cons_of_unapproved (hno : over_approved ic.board row = false) {ic' : InterCompany}
    (hboard : ic'.board = ic.board) : Clear company_id now ic (row :: rows) ↔ Clear company_id now ic' rows := by
  unfold Clear
  rw [hboard]
  refine exists_congr fun handle => and_congr_right fun _ => ?_
  rw [posts_cons_of_unapproved hno, List.forall_mem_cons, hno]
  exact and_congr_left fun _ => ⟨fun h => h.2, fun h => ⟨nofun, h⟩⟩

/-- A row that is delivered leaves the others to be clear. -/
theorem clear_cons_of_delivered (htarget : get_target_handle ic.board company_id = .ok handle)
    (happroved : over_approved ic.board row = true) (haddressed : addressed ic.board company_id row = some p)
    (htaken : p.taken handle now = true) (hlogged : p.logged handle now = true)
    (hne : ∀ other ∈ rows, row.id ≠ other.id) :
    Clear company_id now ic (row :: rows) ↔ Clear company_id now (deliver_one company_id now ic row) rows := by
  obtain ⟨htarget', happroved', haddressed'⟩ :=
    after_parcel_same htarget (board_of_taken htarget happroved haddressed htaken)
  have hid : ∀ {other : CrossEntry} {q : Parcel}, addressed ic.board company_id other = some q → q.id = other.id := by
    intro other q hq
    obtain ⟨agent, -, rfl⟩ := Option.map_eq_some_iff.mp hq
    rfl
  have hevents : (after_parcel p handle now).events =
      (EventStore.append (message_sent (p.request now)) handle.events).2 := rfl
  rw [clear_iff htarget, clear_iff htarget', posts_cons_of_addressed happroved haddressed,
    posts_congr happroved' haddressed', EventStore.accepts_cons, hevents, List.forall_mem_cons]
  -- the other agents' queues know other ids, so they take what they took before
  have htakes : ∀ other ∈ rows, (over_approved (deliver_one company_id now ic row).board other = true →
        ∃ q, addressed (deliver_one company_id now ic row).board company_id other = some q ∧
          q.taken (after_parcel p handle now) now = true) ↔
      (over_approved ic.board other = true →
        ∃ q, addressed ic.board company_id other = some q ∧ q.taken handle now = true) := by
    intro other hmem
    rw [happroved', haddressed']
    refine imp_congr_right fun _ => exists_congr fun q => and_congr_right fun hq => ?_
    rw [taken_after_parcel]
    rw [hid hq, hid haddressed]
    exact (hne other hmem).symm
  constructor
  · rintro ⟨⟨-, hrest⟩, -, hlogs⟩
    exact ⟨fun other hmem => (htakes other hmem).mpr (hrest other hmem), hlogs⟩
  · rintro ⟨hrest, hlogs⟩
    exact ⟨⟨fun _ => ⟨p, haddressed, htaken⟩, fun other hmem => (htakes other hmem).mp (hrest other hmem)⟩,
      hlogged, hlogs⟩

/-- A clear row is delivered at its turn. -/
theorem Clear.head (h : Clear company_id now ic (row :: rows))
    (htarget : get_target_handle ic.board company_id = .ok handle) (happroved : over_approved ic.board row = true) :
    Goes company_id now ic handle row := by
  obtain ⟨htakes, hlogs⟩ := (clear_iff htarget).mp h
  obtain ⟨p, haddressed, htaken⟩ := htakes row List.mem_cons_self happroved
  rw [posts_cons_of_addressed happroved haddressed, EventStore.accepts_cons] at hlogs
  exact ⟨p, haddressed, htaken, hlogs.1⟩

/-- **A flush delivers all rows over approved links exactly if it is clear for them.** The rows before a row do not
    change who takes it, because their ids are different ones. -/
theorem Lined.all_delivered_iff (h : Lined L C company_id rows ic)
    (htarget : get_target_handle ic.board company_id = .ok handle) :
    (∀ row ∈ rows, over_approved ic.board row = true →
      DeliveredOnce company_id ic (exec (deliver_one company_id now) ic rows) row.id) ↔
      Clear company_id now ic rows := by
  induction rows generalizing ic handle with
  | nil =>
      rw [clear_iff htarget]
      exact iff_of_true (List.forall_mem_nil _) ⟨List.forall_mem_nil _, rfl⟩
  | cons row rows ih =>
      have hnext : Lined L C company_id rows (deliver_one company_id now ic row) := h.next now
      -- the rest of the flush finds the other rows as they were
      have hrest : ∀ other ∈ rows, ∀ ic', DeliveredOnce company_id (deliver_one company_id now ic row) ic' other.id ↔
          DeliveredOnce company_id ic ic' other.id := by
        intro other hmem ic'
        unfold DeliveredOnce
        rw [((h.flushed now).others (h.ne hmem)).2]
      -- and leaves this row alone
      have hthis : DeliveredOnce company_id ic (exec (deliver_one company_id now) ic (row :: rows)) row.id ↔
          DeliveredOnce company_id ic (deliver_one company_id now ic row) row.id := by
        obtain ⟨hfind, hreceived⟩ := hnext.exec_others now fun other hmem => (h.ne hmem).symm
        unfold DeliveredOnce
        rw [exec_cons, hfind, hreceived]
      rw [List.forall_mem_cons]
      cases happroved : over_approved ic.board row with
      | false =>
          have hboard : (deliver_one company_id now ic row).board = ic.board :=
            h.board_of_unapproved htarget happroved
          rw [clear_cons_of_unapproved happroved hboard, ← ih hnext (hboard ▸ htarget), hboard]
          refine ⟨fun hall other hmem hother => (hrest other hmem _).mpr (hall.2 other hmem hother), fun hall => ?_⟩
          exact ⟨nofun, fun other hmem hother => (hrest other hmem _).mp (hall other hmem hother)⟩
      | true =>
          by_cases hdelivered : Goes company_id now ic handle row
          · obtain ⟨p, haddressed, htaken, hlogged⟩ := hdelivered
            obtain ⟨htarget', happroved', -⟩ :=
              after_parcel_same htarget (board_of_taken htarget happroved haddressed htaken)
            have hyes := (h.delivered_iff htarget happroved).mpr ⟨p, haddressed, htaken, hlogged⟩
            rw [clear_cons_of_delivered htarget happroved haddressed htaken hlogged fun other hmem => h.ne hmem,
              ← ih hnext htarget']
            constructor
            · intro hall other hmem hother
              rw [happroved'] at hother
              exact (hrest other hmem _).mpr (hall.2 other hmem hother)
            · intro hall
              refine ⟨fun _ => hthis.mpr hyes, fun other hmem hother => ?_⟩
              rw [← happroved' other] at hother
              exact (hrest other hmem _).mp (hall other hmem hother)
          · refine iff_of_false (fun hall => ?_) fun hclear => hdelivered (hclear.head htarget happroved)
            exact hdelivered ((h.delivered_iff htarget happroved).mp (hthis.mp (hall.1 rfl)))

/-- A flush keeps the ids of the rows. -/
theorem Lined.exec_ids (h : Lined L C company_id rows ic) :
    (exec (deliver_one company_id now) ic rows).outbox.map CrossEntry.id = ic.outbox.map CrossEntry.id := by
  induction rows generalizing ic with
  | nil => rfl
  | cons row rows ih =>
      rw [exec_cons, ih (h.next now)]
      have hflushed : Flushed company_id now ic row _ _ := h.flushed now
      generalize (deliver_one company_id now ic row).outbox = outbox at hflushed ⊢
      generalize (deliver_one company_id now ic row).handed = handed at hflushed
      cases hflushed with
      | kept _ => rfl
      | dropped reason _ => exact set_row_ids
      | delivered p handle _ _ _ agent => exact set_row_ids
      | unlogged p handle _ _ _ => rfl
      | waiting p handle _ _ => rfl
      | refused p handle _ _ status reason agent _ => exact set_row_ids

end Row

/-! ## Runs -/

/-- What every run keeps: the gate, and one row for an id. -/
structure Numbered (ic : InterCompany) : Prop where
  gated : Sealed ic
  ids : (ic.outbox.map CrossEntry.id).Nodup

variable {ic : InterCompany}

theorem Sent.ids {args : CrossSend} {outbox : List CrossEntry} {handed : List Handover} (h : Sent ic args outbox handed)
    (hids : (ic.outbox.map CrossEntry.id).Nodup) : (outbox.map CrossEntry.id).Nodup := by
  have hadd : ∀ entry, ((add_entry entry ic.outbox).map CrossEntry.id).Nodup := by
    intro entry
    cases hrow : find_entry ic.outbox entry.id with
    | some row =>
        rw [add_entry_taken (by rw [hrow]; rfl)]
        exact hids
    | none =>
        rw [add_entry_new hrow]
        exact Table.keys_insert hids hrow
  cases h with
  | kept _ => exact hids
  | refused entry _ _ => exact hadd entry
  | handed p handle entry _ _ _ _ => exact hadd entry

theorem Numbered.step (h : Numbered ic) (label : Label) : Numbered (step ic label) := by
  refine ⟨h.gated.step label, ?_⟩
  cases label with
  | send_cross args => exact (send_cross_sent ic args).ids h.ids
  | deliver_pending company_id now =>
      show ((deliver_pending company_id now ic).2.outbox.map CrossEntry.id).Nodup
      rw [deliver_pending_eq h.gated, (lined_pending h.gated h.ids company_id).exec_ids]
      exact h.ids
  | board label => exact h.ids

theorem numbered_run (companies : String → Option CompanyStatus) (handles : String → Option CompanyHandle)
    (run : List Label) : Numbered (exec InterCompany.step (fresh companies handles) run) := by
  refine exec_invariant (fun ic label h => h.step label) ?_ run
  exact ⟨⟨rfl, rfl, fun _ h => absurd h List.not_mem_nil, fun _ h => absurd h List.not_mem_nil⟩, List.nodup_nil⟩

/-- The company accepts messages, and somebody of the inbox roles is active, registered and not suspended. -/
def receptive (ic : InterCompany) (company_id : String) : Bool :=
  match get_target_handle ic.board company_id with
  | .error _ => false
  | .ok handle => handle.orchestrator.accepting && handle.identity.any fun a =>
      a.active && decide (a.role ∈ _INBOX_ROLES) && (handle.orchestra.registered a.id).isSome &&
        !is_suspended handle.orchestra a.id

/-- **A flush serves every deliverable row**: each row that waits for the company over an approved link is delivered,
    and its message taken once. -/
def Serves (ic : InterCompany) (company_id : String) (now : Time) : Prop :=
  ∀ row ∈ ic.outbox, row.to_company = company_id → row.status = .QUEUED → over_approved ic.board row = true →
    DeliveredOnce company_id ic (deliver_pending company_id now ic).2 row.id

/-- **A flush serves every row exactly if it is clear for them.** In every state of every run, for a company that
    accepts messages and has an agent for its inbox. -/
theorem serves_iff (companies : String → Option CompanyStatus) (handles : String → Option CompanyHandle)
    (run : List Label) (company_id : String) (now : Time)
    (hreceptive : receptive (exec step (fresh companies handles) run) company_id = true) :
    Serves (exec step (fresh companies handles) run) company_id now ↔
      Clear company_id now (exec step (fresh companies handles) run)
        (pending (exec step (fresh companies handles) run).outbox company_id) := by
  have hnumbered := numbered_run companies handles run
  generalize exec step (fresh companies handles) run = ic at hreceptive hnumbered ⊢
  cases htarget : get_target_handle ic.board company_id with
  | error e =>
      rw [receptive, htarget] at hreceptive
      cases hreceptive
  | ok handle =>
      have hlined := lined_pending hnumbered.gated hnumbered.ids company_id
      rw [← hlined.all_delivered_iff htarget, ← deliver_pending_eq hnumbered.gated]
      refine ⟨fun h row hmem happroved => ?_, fun h row hmem hto hqueued happroved => ?_⟩
      · obtain ⟨hrow, hto, hqueued⟩ := mem_pending.mp hmem
        exact h row hrow hto hqueued happroved
      · exact h row (mem_pending.mpr ⟨hmem, hto, hqueued⟩) happroved

/-- The inquiry comes in while `B` is paused, and waits for HR; then `B` is resumed. -/
def inquiry_waits : List Label :=
  link_a_b ++ [set_accepting false, .send_cross inquiry, set_accepting true]

theorem inquiry_served :
    Serves (exec step a_and_b inquiry_waits) "B" 4 ↔
      Clear "B" 4 (exec step a_and_b inquiry_waits) (pending (exec step a_and_b inquiry_waits).outbox "B") :=
  serves_iff a_and_b.board.companies a_and_b.board.handles inquiry_waits "B" 4 (by decide +kernel)

/-- `B` fires HR, and hires a CEO. -/
def ceo_for_hr : Label :=
  .board (.set_handle "B" (some {
    identity := hr_company.identity.map (fun a => { a with status := .FIRED }) ++
      [{ id := "ceo", role := .CEO, persona_ref := "default", reports_to := none, status := .ACTIVE, hired_at := 4 }]
    orchestrator := { hr_company.orchestrator with agents := [⟨"ceo", 0⟩] } }))

/-- The row was to be delivered to HR, and is rejected although the CEO could take it. -/
theorem fired_inbox_unserved :
    ¬ ∀ companies handles run company_id now,
      receptive (exec step (fresh companies handles) run) company_id = true →
        Serves (exec step (fresh companies handles) run) company_id now := by
  intro h
  have hserves := h a_and_b.board.companies a_and_b.board.handles (inquiry_waits ++ [ceo_for_hr]) "B" 5
    (by decide +kernel)
  have hrow : ∃ row ∈ (exec step a_and_b (inquiry_waits ++ [ceo_for_hr])).outbox, row.to_company = "B" ∧
      row.status = .QUEUED ∧ over_approved (exec step a_and_b (inquiry_waits ++ [ceo_for_hr])).board row = true ∧
      received (deliver_pending "B" 5 (exec step a_and_b (inquiry_waits ++ [ceo_for_hr]))).2.handed row.id "B" = 0 := by
    decide +kernel
  obtain ⟨row, hmem, hto, hqueued, happroved, hnone⟩ := hrow
  obtain ⟨-, hone⟩ := hserves row hmem hto hqueued happroved
  have hzero : received (deliver_pending "B" 5 (exec step a_and_b (inquiry_waits ++ [ceo_for_hr]))).2.handed
      row.id "B" = received (exec step a_and_b (inquiry_waits ++ [ceo_for_hr])).handed row.id "B" + 1 := hone
  omega

end InterCompany

end CompanyFactory
