import CompanyFactory.Approvals.Veto

/-!
# `Approvals.Final` — an approval is decided once

An approval leaves `PENDING` by a decision, a cancellation or a timeout. `leaves` says that a call takes it
out of `PENDING`; a row that has left is never written again, so this happens at most once, and the
call that does it announces it with one terminal event and one terminal broadcast.

* `tx_closes` — for each transaction, what it announces as ended is what it takes out of `PENDING`.
* `decided_once` — the law for whole runs.
-/

namespace CompanyFactory

namespace Approvals

open Act Machine

/-! ## Terminal announcements -/

/-- The event says that the approval has ended. -/
def terminal (rid : String) (kind : EventKind) (payload : Fields) : Bool :=
  (kind == .APPROVAL_DECIDED || kind == .APPROVAL_TIMEOUT) &&
    payload.lookup "approval_id" == some (.str rid)

/-- The terminal events of an approval in the log. -/
def terminal_events (rid : String) (a : Approvals) : Nat :=
  a.events.log.countP (fun event => terminal rid event.kind event.payload)

/-- The broadcast says that the approval has ended. -/
def ended (rid : String) (approval : Approval) : Bool :=
  approval.request_id == rid && approval.status != .PENDING

def terminal_broadcasts (rid : String) (a : Approvals) : Nat := a.broadcasts.countP (ended rid)

/-- The approval is `PENDING` in the first table, and has left it in the second one. -/
def closes (rid : String) (rows rows' : Rows) : Bool :=
  match find rows rid, find rows' rid with
  | some row, some row' => row.status == .PENDING && row'.status != .PENDING
  | _, _ => false

/-- The call takes the approval out of `PENDING`. -/
def leaves (rid : String) (a : Approvals) (c : Call) : Bool := closes rid a.rows (step a c).rows

/-- What is announced as ended for one approval, as events and as broadcasts. -/
def ends_posts (rid : String) (notices : List Notice) : Nat :=
  (notices.flatMap Notice.posts).countP (fun post => terminal rid post.kind post.payload)

def ends_broadcasts (rid : String) (notices : List Notice) : Nat :=
  (notices.map Notice.approval).countP (ended rid)

theorem closes_same {rid : String} {rows rows' : Rows} (h : find rows' rid = find rows rid) :
    closes rid rows rows' = false := by
  unfold closes
  rw [h]
  cases find rows rid with
  | none => rfl
  | some row =>
      show (row.status == .PENDING && row.status != .PENDING) = false
      cases row.status <;> rfl

/-- An update of one row. -/
theorem closes_update {f : Approval → Approval} (hf : ∀ row, (f row).request_id = row.request_id)
    {rows : Rows} {request_id : String} {row : Approval} (hrow : find rows request_id = some row)
    (hpending : row.status = .PENDING) (rid : String) :
    closes rid rows (update rows request_id f) =
      (request_id == rid && (f row).status != .PENDING) := by
  by_cases heq : request_id = rid
  · subst heq
    unfold closes
    rw [find_update_row hf, if_pos rfl, hrow]
    simp [hpending]
  · rw [closes_same (by rw [find_update_row hf, if_neg heq])]
    simp [heq]

/-! ## What a call announces -/

/-- The validated payload says as much of the end of an approval as the payload of the post. -/
def Legible (post : Post) : Prop :=
  ∀ validated, EventStore.validate_payload post.kind post.payload = .ok validated →
    ∀ rid, terminal rid post.kind validated = terminal rid post.kind post.payload

theorem requested_legible (approval : Approval) : Legible (requested_post approval) := by
  intro validated _ rid
  rfl

theorem decided_legible (request_id decider_id : String) (decision : Decision)
    (note : Option String) : Legible (decided_post request_id decider_id decision note) := by
  intro validated h rid
  cases note <;> cases h <;> rfl

theorem rejected_legible (request_id by_id note : String) :
    Legible (rejected_post request_id by_id note) := by
  intro validated h rid
  cases h
  rfl

theorem timeout_legible (approval : Approval) : Legible (timeout_post approval) := by
  intro validated h rid
  cases h
  rfl

theorem logged_terminal {posts : List Post} {events : List Event}
    (h : List.Forall₂ EventStore.Logged posts events) (hlegible : ∀ post ∈ posts, Legible post)
    (rid : String) :
    events.countP (fun event => terminal rid event.kind event.payload) =
      posts.countP (fun post => terminal rid post.kind post.payload) := by
  induction h with
  | nil => rfl
  | @cons post event posts events hlogged _ ih =>
      have hsame := hlegible post List.mem_cons_self event.payload hlogged.payload rid
      have hrest := ih fun p hp => hlegible p (List.mem_cons_of_mem _ hp)
      rw [List.countP_cons, List.countP_cons, hrest, hlogged.kind, hsame]

/-- Announcements that all go through are all in the log and handed to the subscribers. -/
theorem announce_ok {notices : List Notice}
    (hlegible : ∀ notice ∈ notices, ∀ post ∈ notice.posts, Legible post) (rid : String) :
    ∀ {a b : Approvals}, announce notices a = (.ok (), b) →
      terminal_events rid b = terminal_events rid a + ends_posts rid notices ∧
        terminal_broadcasts rid b = terminal_broadcasts rid a + ends_broadcasts rid notices := by
  induction notices with
  | nil =>
      intro a b h
      cases h
      exact ⟨rfl, rfl⟩
  | cons notice rest ih =>
      intro a b h
      obtain ⟨⟨⟩, u, hposts, h⟩ := bind_eq_ok.mp h
      obtain ⟨⟨⟩, v, hcast, h⟩ := bind_eq_ok.mp h
      cases hcast
      obtain ⟨hevents, hcasts⟩ := ih (fun n hn => hlegible n (List.mem_cons_of_mem _ hn)) h
      have hrun : EventStore.appendAll notice.posts a.events = (.ok (), u.events) := by
        have hfst := congrArg Prod.fst hposts
        have hsnd := congrArg (fun r => r.2.events) hposts
        exact Prod.ext hfst hsnd
      have hcast : u.broadcasts = a.broadcasts := by
        have hsnd := congrArg (fun r => r.2.broadcasts) hposts
        exact hsnd.symm
      obtain ⟨events, hlog, hall⟩ := EventStore.appendAll_logged hrun
      have hcount := logged_terminal hall (hlegible notice List.mem_cons_self) rid
      constructor
      · rw [hevents]
        unfold terminal_events ends_posts
        rw [List.flatMap_cons, List.countP_append, ← hcount]
        show u.events.log.countP _ + _ = _
        rw [hlog, List.countP_append, Nat.add_assoc]
      · rw [hcasts]
        unfold terminal_broadcasts ends_broadcasts
        rw [List.map_cons, List.countP_cons]
        show (u.broadcasts ++ [notice.approval]).countP _ + _ = _
        rw [hcast, List.countP_append, List.countP_singleton]
        omega

/-! ## The transactions -/

/-- What a transaction announces as ended is what it takes out of `PENDING`. -/
structure Announces (rid : String) (rows rows' : Rows) (notices : List Notice) : Prop where
  legible : ∀ notice ∈ notices, ∀ post ∈ notice.posts, Legible post
  posts : ends_posts rid notices = (closes rid rows rows').toNat
  broadcasts : ends_broadcasts rid notices = (closes rid rows rows').toNat

/-- Unique ids: the primary key of the table. -/
def Keyed (rows : Rows) : Prop := (rows.map Approval.request_id).Nodup

theorem Announces.silent {rid : String} {rows rows' : Rows} (h : find rows' rid = find rows rid) :
    Announces rid rows rows' [] where
  legible := by
    intro notice hmem
    cases hmem
  posts := by
    rw [closes_same h]
    rfl
  broadcasts := by
    rw [closes_same h]
    rfl

/-- One announcement. -/
theorem Announces.single {rid : String} {rows rows' : Rows} {posts : List Post}
    {approval : Approval} (hlegible : ∀ post ∈ posts, Legible post)
    (hposts : posts.countP (fun post => terminal rid post.kind post.payload) =
      (closes rid rows rows').toNat)
    (hended : ended rid approval = closes rid rows rows') :
    Announces rid rows rows' [{ posts, approval }] where
  legible := by
    intro notice hmem
    rw [List.mem_singleton] at hmem
    subst hmem
    exact hlegible
  posts := by
    unfold ends_posts
    rw [List.flatMap_cons, List.flatMap_nil, List.append_nil]
    exact hposts
  broadcasts := by
    unfold ends_broadcasts
    rw [List.map_singleton, List.countP_singleton, hended]
    cases closes rid rows rows' <;> rfl

theorem request_announces {config : ApprovalsConfig} {req : ApprovalRequest} {uuid : String}
    {now : Time} {rows rows' : Rows} {r : Approval} {notices : List Notice}
    (h : request_tx config req uuid now rows = .ok (r, notices, rows')) (rid : String) :
    Announces rid rows rows' notices := by
  unfold request_tx at h
  cases hrow : find rows (or_new_id req.request_id uuid) with
  | some existing =>
      simp only [hrow, Except.ok.injEq, Prod.mk.injEq] at h
      obtain ⟨-, rfl, rfl⟩ := h
      exact .silent rfl
  | none =>
      simp only [hrow, Except.ok.injEq, Prod.mk.injEq] at h
      obtain ⟨-, rfl, rfl⟩ := h
      have hopen : closes rid rows
          (rows ++ [new_row config req (or_new_id req.request_id uuid) now]) = false := by
        by_cases heq : or_new_id req.request_id uuid = rid
        · unfold closes
          rw [← heq, hrow]
        · refine closes_same ?_
          rw [find_append, if_neg (by exact heq), Option.or_none]
      refine .single ?_ ?_ ?_
      · intro post hmem
        rw [List.mem_singleton] at hmem
        subst hmem
        exact requested_legible _
      · rw [hopen]
        rfl
      · rw [hopen]
        unfold ended
        simp [new_row]

/-- The two kinds of terminal events name the approval in their first field. -/
theorem terminal_head (rid request_id : String) (rest : Fields) :
    terminal rid .APPROVAL_DECIDED (("approval_id", .str request_id) :: rest) =
        (request_id == rid) ∧
      terminal rid .APPROVAL_TIMEOUT (("approval_id", .str request_id) :: rest) =
        (request_id == rid) := by
  have hid : (some (Json.str request_id) == some (Json.str rid)) = (request_id == rid) := by
    rw [Bool.eq_iff_iff, beq_iff_eq, beq_iff_eq, Option.some.injEq, Json.str.injEq]
  unfold terminal
  rw [List.lookup_cons_self, hid]
  exact ⟨Bool.true_and _, Bool.true_and _⟩

/-- A decision ends the approval unless it is Security's approval. -/
theorem decided_row_ends (row : Approval) (decider_id : String) (decision : Decision)
    (note : Option String) (now : Time) (hpending : row.status = .PENDING) :
    ((decided_row row decider_id decision note now).status != .PENDING) =
      !(in_security_step row && decision == .APPROVE) := by
  unfold decided_row
  cases hstep : in_security_step row with
  | true =>
      cases decision with
      | APPROVE => simp [hpending]
      | DENY => rfl
  | false => cases decision <;> rfl

theorem decide_announces {request_id decider_id : String} {decision : Decision}
    {note : Option String} {now : Time} {rows rows' : Rows} {r : Approval} {notices : List Notice}
    (h : decide_tx request_id decider_id decision note now rows = .ok (r, notices, rows'))
    (rid : String) : Announces rid rows rows' notices := by
  unfold decide_tx at h
  cases hrow : find rows request_id with
  | none => simp [hrow] at h
  | some row =>
      simp only [hrow] at h
      split at h
      · split at h
        · cases h
          exact .silent rfl
        · cases h
      · rename_i hpending
        have hpending : row.status = .PENDING := not_not.mp hpending
        have hid : row.request_id = request_id := Table.key_of_find hrow
        have hends := decided_row_ends row decider_id decision note now hpending
        have hcloses := closes_update (fun row => decided_row_id row decider_id decision note now)
          hrow hpending rid
        cases h
        refine .single ?_ ?_ ?_
        · intro post hmem
          split at hmem
          · cases hmem
          · rw [List.mem_singleton] at hmem
            subst hmem
            exact decided_legible _ _ _ _
        · have hpost : terminal rid (decided_post request_id decider_id decision note).kind
              (decided_post request_id decider_id decision note).payload = (request_id == rid) :=
            (terminal_head rid request_id _).1
          rw [hcloses, hends]
          cases hrid : request_id == rid with
          | false =>
              rw [hrid] at hpost
              cases in_security_step row <;> cases decision <;> simp [hpost]
          | true =>
              rw [hrid] at hpost
              cases in_security_step row <;> cases decision <;> simp [hpost]
              rfl
        · rw [hcloses]
          unfold ended
          rw [decided_row_id, hid]

theorem cancel_announces {request_id by_id reason : String} {now : Time} {rows rows' : Rows}
    {r : Approval} {notices : List Notice}
    (h : cancel_tx request_id by_id reason now rows = .ok (r, notices, rows')) (rid : String) :
    Announces rid rows rows' notices := by
  unfold cancel_tx at h
  cases hrow : find rows request_id with
  | none => simp [hrow] at h
  | some row =>
      simp only [hrow] at h
      split at h
      · cases h
      · rename_i hpending
        have hid : row.request_id = request_id := Table.key_of_find hrow
        have hcloses := closes_update (f := fun row => cancelled_row row by_id reason now)
          (fun _ => rfl) hrow (not_not.mp hpending) rid
        cases h
        refine .single ?_ ?_ ?_
        · intro post hmem
          rw [List.mem_singleton] at hmem
          subst hmem
          exact rejected_legible _ _ _
        · have hpost : terminal rid (rejected_post request_id by_id reason).kind
              (rejected_post request_id by_id reason).payload = (request_id == rid) :=
            (terminal_head rid request_id _).1
          rw [hcloses]
          cases hrid : request_id == rid with
          | false =>
              rw [hrid] at hpost
              simp [hpost]
          | true =>
              rw [hrid] at hpost
              simp [hpost, cancelled_row]
              rfl
        · rw [hcloses]
          unfold ended
          simp [cancelled_row, hid]

theorem timed_out_ends (config : ApprovalsConfig) (now : Time) (row : Approval) :
    ((timed_out_row config now row).status != .PENDING) = true := by
  unfold timed_out_row
  dsimp only
  split <;> rfl

theorem closes_timeouts (config : ApprovalsConfig) (now : Time) (rows : Rows) (rid : String) :
    closes rid rows
        (rows.map (fun row => if expired now row then timed_out_row config now row else row)) =
      (find rows rid).any (expired now) := by
  have hid : ∀ row : Approval,
      (if expired now row then timed_out_row config now row else row).request_id =
        row.request_id := by
    intro row
    split <;> rfl
  unfold closes
  rw [find, find, Table.find_update hid]
  cases Table.find Approval.request_id rows rid with
  | none => rfl
  | some row =>
      show (row.status == .PENDING &&
        (if expired now row then timed_out_row config now row else row).status != .PENDING) =
          expired now row
      cases hexp : expired now row with
      | true =>
          have hpending : row.status = .PENDING := by
            simp only [expired, Bool.and_eq_true, decide_eq_true_eq] at hexp
            exact hexp.1
          rw [if_pos rfl, timed_out_ends, hpending]
          rfl
      | false =>
          rw [if_neg Bool.false_ne_true]
          cases row.status <;> rfl

/-- A timeout of each of the approvals. -/
theorem timeouts_posts (rid : String) (approvals : List Approval) :
    ends_posts rid (approvals.map
        (fun approval => { posts := [timeout_post approval], approval })) =
      approvals.countP (fun approval => approval.request_id == rid) := by
  induction approvals with
  | nil => rfl
  | cons approval rest ih =>
      have hpost : terminal rid (timeout_post approval).kind (timeout_post approval).payload =
          (approval.request_id == rid) := (terminal_head rid approval.request_id []).2
      unfold ends_posts at ih ⊢
      rw [List.map_cons, List.flatMap_cons, List.countP_append, ih, List.countP_singleton, hpost,
        List.countP_cons, Nat.add_comm]

theorem timeouts_announces {config : ApprovalsConfig} {now : Time} {rows rows' : Rows} {r : Nat}
    {notices : List Notice} (hkeys : Keyed rows)
    (h : process_timeouts_tx config now rows = .ok (r, notices, rows')) (rid : String) :
    Announces rid rows rows' notices := by
  cases h
  -- with unique ids at most one of the rows that time out is the one of the id
  have hcount : ((rows.filter (expired now)).map (timed_out_row config now)).countP
      (fun approval => approval.request_id == rid) =
        ((find rows rid).any (expired now)).toNat := by
    have hone := Table.countP_key hkeys (expired now) rid
    rw [List.countP_map, List.countP_filter, find, ← hone]
    apply List.countP_congr
    intro row _
    simp [timed_out_row, and_comm]
  constructor
  · intro notice hmem post hpost
    obtain ⟨approval, -, rfl⟩ := List.mem_map.mp hmem
    rw [List.mem_singleton] at hpost
    subst hpost
    exact timeout_legible _
  · rw [closes_timeouts, ← hcount]
    exact timeouts_posts rid _
  · rw [closes_timeouts, ← hcount]
    unfold ends_broadcasts
    rw [List.map_map, List.countP_map, List.countP_map, List.countP_map]
    apply List.countP_congr
    intro row _
    have hended : ended rid (timed_out_row config now row) = (row.request_id == rid) := by
      unfold ended
      rw [timed_out_ends, Bool.and_true]
      rfl
    exact Bool.eq_iff_iff.mp hended

/-! ## One call -/

/-- One of the four calls of the service. -/
def Call.whole : Call → Prop
  | .review_approval .. => False
  | _ => True

/-- No append of the call raises. -/
def Appends (a : Approvals) (c : Call) : Prop :=
  ∀ e, (handle c a).1 = .error e → e.isStoreError = false

theorem announce_error {notices : List Notice} :
    ∀ {a : Approvals} {e : Exn}, (announce notices a).1 = .error e → e.isStoreError = true := by
  induction notices with
  | nil =>
      intro a e h
      cases h
  | cons notice rest ih =>
      intro a e h
      unfold announce at h
      rw [bind_run] at h
      rcases hposts : append_events notice.posts a with ⟨r, b⟩
      rw [hposts] at h
      cases r with
      | error e' =>
          cases h
          have hfst : (EventStore.appendAll notice.posts a.events).1 = .error e :=
            congrArg Prod.fst hposts
          exact EventStore.appendAll_error hfst
      | ok u => exact ih h

/-- A transaction whose announcements go through: nothing happens, or all of it. -/
theorem transact_cases {α : Type} {tx : ApprovalsConfig → Rows → Tx α} {a : Approvals}
    (h : ∀ e, (transact tx a).1 = .error e → e.isStoreError = false) :
    (transact tx a).2 = a ∨ ∃ r notices rows, tx a.config a.rows = .ok (r, notices, rows) ∧
      announce notices { a with rows } = (.ok (), (transact tx a).2) := by
  rcases htx : tx a.config a.rows with e | ⟨r, notices, rows⟩
  · rw [transact_error htx]
    exact .inl rfl
  · refine .inr ⟨r, notices, rows, rfl, ?_⟩
    unfold transact at h ⊢
    rw [htx] at h ⊢
    dsimp only at h ⊢
    rcases hrun : announce notices { a with rows } with ⟨_ | u, b⟩
    · rename_i e
      rw [hrun] at h
      have hstore := announce_error (congrArg Prod.fst hrun)
      rw [h e rfl] at hstore
      cases hstore
    · rfl

/-- What a call adds to the terminal announcements is what it takes out of `PENDING`. -/
def Accounts (rid : String) (a b : Approvals) : Prop :=
  terminal_events rid b = terminal_events rid a + (closes rid a.rows b.rows).toNat ∧
    terminal_broadcasts rid b = terminal_broadcasts rid a + (closes rid a.rows b.rows).toNat

theorem transact_accounts {α : Type} {tx : ApprovalsConfig → Rows → Tx α} {a : Approvals}
    (h : ∀ e, (transact tx a).1 = .error e → e.isStoreError = false) {rid : String}
    (hann : ∀ r notices rows, tx a.config a.rows = .ok (r, notices, rows) →
      Announces rid a.rows rows notices) : Accounts rid a (transact tx a).2 := by
  obtain hsame | ⟨r, notices, rows, htx, hrun⟩ := transact_cases h
  · rw [hsame]
    unfold Accounts
    rw [closes_same rfl]
    exact ⟨rfl, rfl⟩
  · have hall := hann r notices rows htx
    obtain ⟨hevents, hcasts⟩ := announce_ok hall.legible rid hrun
    unfold Accounts
    rw [(transact_rows htx).1, ← hall.posts]
    refine ⟨hevents, ?_⟩
    rw [hall.posts, ← hall.broadcasts]
    exact hcasts

theorem returned {α : Type} {m : Act Approvals Exn α} {a : Approvals}
    (h : ∀ e, ((do let _ ← m; pure () : Act Approvals Exn Unit) a).1 = .error e →
      e.isStoreError = false) : ∀ e, (m a).1 = .error e → e.isStoreError = false := by
  intro e he
  apply h
  rw [bind_run]
  rcases hm : m a with ⟨r, b⟩
  rw [hm] at he
  cases he
  rfl

theorem step_accounts {a : Approvals} {c : Call} (hwhole : c.whole) (happends : Appends a c)
    (hkeys : Keyed a.rows) (rid : String) : Accounts rid a (step a c) := by
  cases c with
  | request req uuid now =>
      rw [step, handle, bind_pure_state]
      exact transact_accounts (returned happends) fun _ _ _ htx => request_announces htx rid
  | decide request_id decider_id decision note now =>
      rw [step, handle, bind_pure_state]
      exact transact_accounts (returned happends) fun _ _ _ htx => decide_announces htx rid
  | cancel request_id by_id reason now =>
      rw [step, handle, bind_pure_state]
      exact transact_accounts (returned happends) fun _ _ _ htx => cancel_announces htx rid
  | process_timeouts now =>
      rw [step, handle, bind_pure_state]
      exact transact_accounts (returned happends) fun _ _ _ htx =>
        timeouts_announces hkeys htx rid
  | review_approval => exact absurd hwhole id

theorem decide_keyed {request_id decider_id : String} {decision : Decision} {note : Option String}
    {now : Time} {a : Approvals} (h : Keyed a.rows) :
    Keyed (Approvals.decide request_id decider_id decision note now a).2.rows := by
  obtain hrows | ⟨row, -, -, hrows⟩ := decide_rows request_id decider_id decision note now a
  · rw [hrows]
    exact h
  · rw [hrows]
    unfold Keyed update Table.update
    rw [Table.keys_update fun row => by split <;> first | exact decided_row_id row _ _ _ _ | rfl]
    exact h

theorem step_keyed (c : Call) {a : Approvals} (h : Keyed a.rows) : Keyed (step a c).rows := by
  cases c with
  | request req uuid now =>
      rw [step, handle, bind_pure_state]
      rcases htx : request_tx a.config req uuid now a.rows with e | ⟨r, ns, rows⟩
      · rw [request, transact_error htx]
        exact h
      · rw [request, (transact_rows htx).1]
        obtain ⟨-, rfl⟩ | ⟨hnone, rfl, rfl⟩ := request_tx_ok htx
        · exact h
        · exact Table.keys_insert h hnone
  | decide request_id decider_id decision note now =>
      rw [step, handle, bind_pure_state]
      exact decide_keyed h
  | cancel request_id by_id reason now =>
      rw [step, handle, bind_pure_state]
      rcases htx : cancel_tx request_id by_id reason now a.rows with e | ⟨r, ns, rows⟩
      · rw [cancel, transact_error htx]
        exact h
      · rw [cancel, (transact_rows htx).1]
        obtain ⟨row, -, -, -, rfl⟩ := cancel_tx_ok htx
        unfold Keyed update Table.update
        rw [Table.keys_update fun row => by split <;> rfl]
        exact h
  | process_timeouts now =>
      rw [step, handle, bind_pure_state]
      have htx : process_timeouts_tx a.config now a.rows = .ok (_, _, _) := rfl
      rw [process_timeouts, (transact_rows htx).1]
      unfold Keyed
      rw [Table.keys_update fun row => by split <;> rfl]
      exact h
  | review_approval agent_id approval findings llm_reviewer now =>
      rw [step, handle, bind_pure_state, SecurityPolicy.review_rows]
      split
      · split
        · exact decide_keyed h
        · exact h
      · exact h

/-! ## Runs -/

/-- The approval has left `PENDING`. -/
def Closed (rid : String) (a : Approvals) : Prop :=
  ∃ row, find a.rows rid = some row ∧ row.status ≠ .PENDING

/-- A row that has left `PENDING` is not written again. -/
theorem step_frozen {rid : String} {a : Approvals} {row : Approval} (c : Call)
    (hrow : find a.rows rid = some row) (hclosed : row.status ≠ .PENDING) :
    find (step a c).rows rid = some row := by
  have hstep := row_step c a rid
  rw [hrow] at hstep
  generalize find (step a c).rows rid = after at hstep ⊢
  cases hstep with
  | same => rfl
  | decided _ decider_id decision note now _ hpending => exact absurd hpending hclosed
  | closed _ row' _ hpending => exact absurd hpending hclosed

theorem run_frozen {rid : String} {row : Approval} (calls : List Call) {a : Approvals}
    (hrow : find a.rows rid = some row) (hclosed : row.status ≠ .PENDING) :
    find (exec step a calls).rows rid = some row := by
  have hstep : ∀ a c, find a.rows rid = some row → find (step a c).rows rid = some row := by
    intro a c hrow
    exact step_frozen c hrow hclosed
  exact exec_invariant hstep hrow calls

theorem leaves_at_most_once (rid : String) (a : Approvals) (calls : List Call) :
    tally step (leaves rid) a calls ≤ 1 := by
  have hclosed : ∀ a c, leaves rid a c = true → ¬ Closed rid a ∧ Closed rid (step a c) := by
    intro a c h
    unfold leaves closes at h
    split at h
    · rename_i row row' hrow hrow'
      rw [Bool.and_eq_true, beq_iff_eq, bne_iff_ne] at h
      refine ⟨?_, row', hrow', h.2⟩
      rintro ⟨row₁, hrow₁, hne⟩
      rw [hrow] at hrow₁
      cases hrow₁
      exact hne h.1
    · cases h
  have hstay : ∀ a c, True → Closed rid a → Closed rid (step a c) := by
    rintro a c - ⟨row, hrow, hne⟩
    exact ⟨row, step_frozen c hrow hne, hne⟩
  have hrun : Along step (fun _ _ => True) a calls := along_of_forall (fun _ _ => trivial) _
  exact (tally_le_one_of_latch hstay (fun a c _ h => (hclosed a c h).1)
    (fun a c _ h => (hclosed a c h).2) hrun).1

theorem request_known {req : ApprovalRequest} {uuid : String} {now : Time} {a : Approvals}
    {existing : Approval} (h : find a.rows (or_new_id req.request_id uuid) = some existing) :
    request req uuid now a = (.ok existing, a) := by
  have htx : request_tx a.config req uuid now a.rows = .ok (existing, [], a.rows) := by
    unfold request_tx
    simp only [h]
  exact transact_silent htx

/-- **Finality.** In every run of whole calls, from a table with unique ids:

    * a row that has left `PENDING` stays as it is;
    * an approval leaves `PENDING` at most once;
    * a request with an id that is known returns its row and does nothing;
    * if no append raises, each departure from `PENDING` has produced one terminal event and one terminal
      broadcast, and nothing else has. -/
theorem decided_once (a : Approvals) (calls : List Call) (hkeys : Keyed a.rows)
    (hwhole : ∀ c ∈ calls, c.whole) (rid : String) :
    (∀ before after row, calls = before ++ after → find (exec step a before).rows rid = some row →
      row.status ≠ .PENDING → find (exec step a calls).rows rid = some row) ∧
    tally step (leaves rid) a calls ≤ 1 ∧
    (∀ req uuid now existing,
      find (exec step a calls).rows (or_new_id req.request_id uuid) = some existing →
        request req uuid now (exec step a calls) = (.ok existing, exec step a calls)) ∧
    (Along step Appends a calls →
      terminal_events rid (exec step a calls) =
          terminal_events rid a + tally step (leaves rid) a calls ∧
        terminal_broadcasts rid (exec step a calls) =
          terminal_broadcasts rid a + tally step (leaves rid) a calls) := by
  refine ⟨?_, leaves_at_most_once rid a calls, ?_, ?_⟩
  · rintro before after row rfl hrow hne
    rw [exec_append]
    exact run_frozen after hrow hne
  · intro req uuid now existing h
    exact request_known h
  · intro happends
    have hC : Along step (fun a c => c.whole ∧ Appends a c) a calls := by
      clear hkeys
      induction calls generalizing a with
      | nil => trivial
      | cons c rest ih =>
          exact ⟨⟨hwhole c List.mem_cons_self, happends.1⟩,
            ih (step a c) (fun c' hc' => hwhole c' (List.mem_cons_of_mem _ hc')) happends.2⟩
    have hinv : ∀ a c, Keyed a.rows → (c.whole ∧ Appends a c) → Keyed (step a c).rows :=
      fun a c h _ => step_keyed c h
    have hcount : ∀ a c, Keyed a.rows → (c.whole ∧ Appends a c) → Accounts rid a (step a c) :=
      fun a c h hc => step_accounts hc.1 hc.2 h rid
    exact ⟨tally_add hinv (fun a c h hc => (hcount a c h hc).1) hkeys hC,
      tally_add hinv (fun a c h hc => (hcount a c h hc).2) hkeys hC⟩

/-- A request, the approval of both legs, a request with the same id, a cancellation that comes too late. -/
def approved_then_cancelled : List Call :=
  [.request external_action "" 0, .decide "x1" "security" .APPROVE none 1,
    .decide "x1" "user" .APPROVE none 2, .request external_action "" 3, .cancel "x1" "user" "late" 4]

theorem decided_once_run :
    find (exec step (fresh {} .quiet) approved_then_cancelled).rows "x1" =
        find (exec step (fresh {} .quiet) (approved_then_cancelled.take 3)).rows "x1" ∧
      terminal_events "x1" (exec step (fresh {} .quiet) approved_then_cancelled) = 1 := by
  obtain ⟨hfrozen, -, -, hcount⟩ :=
    decided_once (fresh {} .quiet) approved_then_cancelled List.nodup_nil
      (by simp [approved_then_cancelled, Call.whole]) "x1"
  constructor
  · exact hfrozen (approved_then_cancelled.take 3) (approved_then_cancelled.drop 3) _ rfl rfl
      (by rintro ⟨⟩)
  · refine (hcount ⟨?_, ?_, ?_, ?_, ?_, trivial⟩).1.trans rfl
    all_goals
      intro e he
      cases he
    rfl

end Approvals

end CompanyFactory
