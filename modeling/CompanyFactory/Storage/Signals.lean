import CompanyFactory.EventStore.Store
import CompanyFactory.Storage.Quota

/-!
# `Storage.Signals` — what becomes of the quota signals

`Workspace` hands its signals to an `EventSink`; in a company that is the `EventStoreEventSink`, which looks the kind
up in `_SUPPORTED` and appends an event to the log. The two sides do not use the same names: the workspace says
`quota_exceeded`, the table has `quota.exceeded`. So the sink ignores every signal: none becomes an event
(`emit_ignores`), and for the same reason none can make an operation fail (`write_same`, `reconcile_same`).

The payloads are not to blame: each fits the payload model of its event (`payload_fits`).
-/

namespace CompanyFactory

open FileTree Machine

namespace QuotaSignal

/-- The `kind` that `Workspace` passes to `emit`. -/
def kind : QuotaSignal → String
  | .quota_exceeded_agent .. | .quota_exceeded_company .. => "quota_exceeded"
  | .quota_warning .. => "quota_warning"
  | .quota_drift .. => "quota_drift"

/-- The `payload`; the ratio stands for its exact value. -/
def payload : QuotaSignal → Fields
  | .quota_exceeded_agent agent_id limit would_use =>
      [("scope", .str "agent"), ("agent_id", .str agent_id), ("limit", .int limit), ("would_use", .int would_use)]
  | .quota_exceeded_company limit would_use =>
      [("scope", .str "company"), ("limit", .int limit), ("would_use", .int would_use)]
  | .quota_warning agent_id used limit =>
      [("agent_id", .str agent_id), ("used", .int used), ("limit", .int limit),
        ("ratio", .num (if limit = 0 then 1 else used / limit))]
  | .quota_drift agent_id drift_bytes => [("agent_id", .str agent_id), ("drift_bytes", .int drift_bytes)]

/-- The event kind that the signal is about. -/
def event_kind : QuotaSignal → EventKind
  | .quota_exceeded_agent .. | .quota_exceeded_company .. => .QUOTA_EXCEEDED
  | .quota_warning .. => .QUOTA_WARNING
  | .quota_drift .. => .QUOTA_DRIFT

/-- The store would take the payload of every signal. -/
theorem payload_fits (signal : QuotaSignal) :
    ∃ validated, EventStore.validate_payload signal.event_kind signal.payload = .ok validated := by
  cases signal <;> exact ⟨_, rfl⟩

end QuotaSignal

/-- The kinds of the three signals. -/
def EventKind.is_quota : EventKind → Bool
  | .QUOTA_WARNING | .QUOTA_EXCEEDED | .QUOTA_DRIFT => true
  | _ => false

namespace EventStoreEventSink

/-- `_SUPPORTED` -/
def SUPPORTED : List (String × EventKind) :=
  [("quota.warning", .QUOTA_WARNING), ("quota.exceeded", .QUOTA_EXCEEDED), ("quota.drift", .QUOTA_DRIFT)]

/-- `payload.get("agent_id")` -/
def actor_of (payload : Fields) : Option String :=
  match payload.lookup "agent_id" with
  | some (.str agent_id) => some agent_id
  | _ => none

/-- `EventStoreEventSink.emit` -/
def emit (kind : String) (payload : Fields) : Act EventStore Exn Unit :=
  match SUPPORTED.lookup kind with
  | none => pure ()
  | some target => do
      let _ ← EventStore.append { kind := target, payload, actor := actor_of payload }

/-- **The sink ignores every signal**: the table does not have its name. -/
theorem emit_ignores (signal : QuotaSignal) : emit signal.kind signal.payload = pure () := by
  have hlookup : SUPPORTED.lookup signal.kind = none := by
    cases signal <;> rfl
  rw [emit, hlookup]

end EventStoreEventSink

/-- What a call of `Workspace` raises: an exception of its own, or one that came out of the sink. -/
inductive WorkspaceExn where
  | own (e : StorageError)
  | sink (e : Exn)

/-- The workspaces of a company, wired to its event log. -/
structure Workspace where
  storage : Storage
  events : EventStore

namespace Workspace

/-- `self._events.emit(…)`; the storage keeps the list of what was emitted. -/
def emit (signal : QuotaSignal) : Act Workspace WorkspaceExn Unit := fun w =>
  let sent := EventStoreEventSink.emit signal.kind signal.payload w.events
  (sent.1.mapError .sink, { storage := w.storage.emit signal, events := sent.2 })

/-- The transaction of `write`, with the sink where the source has it. -/
def write_locked (h : Host String UInt8) (f : Faults) (agent_id : String) (target : FsPath) (data : Bytes) :
    Act Workspace WorkspaceExn WriteResult := fun w =>
  let s := w.storage
  if f.begin_tx then (.error (.own .database), w)
  else match s.row agent_id with
    | none => (.error (.own (.WorkspaceNotInitialized agent_id)), w)
    | some row =>
      let existing_size : Int := Storage.existing_size h s.tree target
      let new_agent_used := row.used_bytes - existing_size + data.length
      let new_company_used := s.company_used - existing_size + data.length
      let s := s.touch (Storage.stat_touches h s.tree target)
      if new_agent_used > row.quota_bytes then
        -- still inside the transaction; what the sink raises takes the place of `QuotaExceeded`
        (do emit (.quota_exceeded_agent agent_id row.quota_bytes new_agent_used)
            Act.raise (.own (.QuotaExceeded_agent agent_id new_agent_used row.quota_bytes))
          : Act Workspace WorkspaceExn WriteResult).run { w with storage := s }
      else if new_company_used > s.company_limit then
        (do emit (.quota_exceeded_company s.company_limit new_company_used)
            Act.raise (.own (.QuotaExceeded_company new_company_used s.company_limit))
          : Act Workspace WorkspaceExn WriteResult).run { w with storage := s }
      else match Storage.store_file h f s.tree target data with
        | (.error e, tree, touched) => (.error (.own e), { w with storage := { s with tree }.touch touched })
        | (.ok (), tree, touched) =>
          let stored := { s with tree }.touch touched
          if f.record then (.error (.own .database), { w with storage := stored })
          else
            let done := stored.set_used agent_id fun _ => new_agent_used
            let crossed_warning := row.quota_bytes > 0 ∧ 10 * row.used_bytes < 9 * row.quota_bytes ∧
              10 * new_agent_used ≥ 9 * row.quota_bytes
            -- the transaction is over: what the sink raises takes the place of the result
            (do if crossed_warning then emit (.quota_warning agent_id new_agent_used row.quota_bytes)
                pure
                  { bytes_written := data.length
                    company_remaining := s.company_limit - new_company_used
                    agent_remaining := row.quota_bytes - new_agent_used }
              : Act Workspace WorkspaceExn WriteResult).run { w with storage := done }

/-- `Workspace.write` -/
def write (h : Host String UInt8) (f : Faults) (agent_id relative_path : String) (data : Bytes) :
    Act Workspace WorkspaceExn WriteResult := fun w =>
  match w.storage.resolve h agent_id relative_path with
  | .error e => (.error (.own e), w)
  | .ok target =>
    if w.storage.probe h agent_id relative_path then
      (.error (.own (.PathOutsideWorkspace (.symlink relative_path))), w)
    else write_locked h f agent_id target data w

/-- The loop at the end of `reconcile_quota`. -/
def emit_drift : List (String × Int) → Act Workspace WorkspaceExn Unit
  | [] => pure ()
  | (agent_id, delta) :: drift => do
      emit (.quota_drift agent_id delta)
      emit_drift drift

/-- `Workspace.reconcile_quota` -/
def reconcile_quota (h : Host String UInt8) (f : Faults) : Act Workspace WorkspaceExn (List (String × Int)) :=
  fun w =>
    let s := w.storage
    let actual (row : WorkspaceRow) : Int := Storage.dir_size h s.tree (s.agent_dir row.agent_id)
    let drift := (s.rows.filter fun row => row.used_bytes ≠ actual row).map
      fun row => (row.agent_id, actual row - row.used_bytes)
    if f.begin_tx || f.record then (.error (.own .database), w)
    else
      (do emit_drift drift
          pure drift
        : Act Workspace WorkspaceExn (List (String × Int))).run
        { w with storage := { s with rows := s.rows.map fun row => { row with used_bytes := actual row } } }

/-! ## The sink changes nothing -/

/-- An operation of the storage, with the event log beside it. -/
def lift {α : Type} (m : Act Storage StorageError α) : Act Workspace WorkspaceExn α := fun w =>
  ((m w.storage).1.mapError .own, { w with storage := (m w.storage).2 })

theorem emit_eq (signal : QuotaSignal) (w : Workspace) :
    emit signal w = (.ok (), { w with storage := w.storage.emit signal }) := by
  unfold emit
  rw [EventStoreEventSink.emit_ignores]
  rfl

theorem emit_then {α : Type} (signal : QuotaSignal) (m : Act Workspace WorkspaceExn α) (w : Workspace) :
    (emit signal >>= fun _ => m).run w = m { w with storage := w.storage.emit signal } :=
  Act.bind_of_ok (emit_eq signal w)

theorem emit_drift_eq (drift : List (String × Int)) (w : Workspace) :
    emit_drift drift w = (.ok (), { w with storage := { w.storage with
      signals := w.storage.signals ++ drift.map fun d => .quota_drift d.1 d.2 } }) := by
  induction drift generalizing w with
  | nil => simp [emit_drift]
  | cons d drift ih =>
      obtain ⟨agent_id, delta⟩ := d
      rw [emit_drift, Act.bind_of_ok (emit_eq _ w), ih]
      simp [Storage.emit]

theorem write_locked_same (h : Host String UInt8) (f : Faults) (agent_id : String) (target : FsPath) (data : Bytes)
    (w : Workspace) : write_locked h f agent_id target data w = lift (Storage.write_locked h f agent_id target data) w := by
  simp only [write_locked, lift, Storage.write_locked]
  cases f.begin_tx with
  | true => rfl
  | false =>
      simp only [Bool.false_eq_true, if_false]
      cases w.storage.row agent_id with
      | none => rfl
      | some row =>
          simp only
          split
          · rw [emit_then]
            rfl
          · split
            · rw [emit_then]
              rfl
            · rcases Storage.store_file h f _ target data with ⟨e | u, tree, touched⟩
              · rfl
              · simp only
                cases f.record with
                | true => rfl
                | false =>
                    simp only [Bool.false_eq_true, if_false]
                    split
                    · rw [emit_then]
                      rfl
                    · rfl

/-- **A write through the sink** returns or raises what it does by itself, and leaves the log alone. -/
theorem write_same (h : Host String UInt8) (f : Faults) (agent_id relative_path : String) (data : Bytes)
    (w : Workspace) : write h f agent_id relative_path data w = lift (Storage.write h f agent_id relative_path data) w := by
  unfold write
  cases hres : w.storage.resolve h agent_id relative_path with
  | error e => simp [lift, Storage.write, hres, Except.mapError]
  | ok target =>
      cases hprobe : w.storage.probe h agent_id relative_path with
      | true => simp [lift, Storage.write, hres, hprobe, Except.mapError]
      | false =>
          simp only [Bool.false_eq_true, if_false, write_locked_same]
          simp [lift, Storage.write, hres, hprobe]

/-- **A reconciliation through the sink** likewise. -/
theorem reconcile_same (h : Host String UInt8) (f : Faults) (w : Workspace) :
    reconcile_quota h f w = lift (Storage.reconcile_quota h f) w := by
  unfold reconcile_quota lift Storage.reconcile_quota
  simp only
  split
  · rfl
  · rw [Act.run, Act.bind_of_ok (emit_drift_eq _ _)]
    rfl

/-! ## Which operations raise a signal -/

section Raises

variable {h : Host String UInt8} {f : Faults} {s : Storage}

/-- The file and its row are written. -/
def Stores (h : Host String UInt8) (f : Faults) (s : Storage) (target : FsPath) (data : Bytes) : Prop :=
  (Storage.store_file h f s.tree target data).1 = .ok () ∧ f.record = false

/-- The data takes the agent from below 90 percent of a positive quota to 90 percent or more. -/
def CrossesWarning (h : Host String UInt8) (s : Storage) (row : WorkspaceRow) (target : FsPath) (data : Bytes) : Prop :=
  0 < row.quota_bytes ∧ 10 * row.used_bytes < 9 * row.quota_bytes ∧
    9 * row.quota_bytes ≤ 10 * (row.used_bytes - Storage.existing_size h s.tree target + data.length)

/-- A write whose path is accepted stays within both quotas and, if it goes through, below the warning level. -/
def QuietWrite (h : Host String UInt8) (f : Faults) (s : Storage) (agent_id relative_path : String) (data : Bytes) :
    Prop :=
  ∀ target row, s.resolve h agent_id relative_path = .ok target → s.probe h agent_id relative_path = false →
    f.begin_tx = false → s.row agent_id = some row →
      Storage.WithinQuota h s row target data ∧
        ¬ (Stores h f s target data ∧ CrossesWarning h s row target data)

/-- A reconciliation whose transaction goes through finds every counter right. -/
def QuietReconcile (h : Host String UInt8) (f : Faults) (s : Storage) : Prop :=
  f.begin_tx = false → f.record = false →
    ∀ row ∈ s.rows, row.used_bytes = Storage.dir_size h s.tree (s.agent_dir row.agent_id)

/-- The transaction of a write raises one signal, unless it is a quiet one. -/
theorem write_locked_raises {agent_id : String} {target : FsPath} {data : Bytes} {row : WorkspaceRow}
    (hbegin : f.begin_tx = false) (hrow : s.row agent_id = some row) :
    ∃ raised, (Storage.write_locked h f agent_id target data s).2.signals = s.signals ++ raised ∧
      (raised = [] ↔ Storage.WithinQuota h s row target data ∧
        ¬ (Stores h f s target data ∧ CrossesWarning h s row target data)) := by
  simp only [Storage.write_locked, hbegin, hrow, Bool.false_eq_true, if_false]
  split
  · -- over the agent's quota
    rename_i hagent
    refine ⟨_, rfl, ?_⟩
    have hover : ¬ Storage.WithinQuota h s row target data := fun hwithin => absurd hwithin.1 (Int.not_le.mpr hagent)
    simp [hover]
  · split
    · -- over the company's
      rename_i hcompany
      refine ⟨_, rfl, ?_⟩
      have hover : ¬ Storage.WithinQuota h s row target data :=
        fun hwithin => absurd hwithin.2 (Int.not_le.mpr hcompany)
      simp [hover]
    · rename_i hagent hcompany
      have hwithin : Storage.WithinQuota h s row target data := ⟨Int.not_lt.mp hagent, Int.not_lt.mp hcompany⟩
      have htree : (s.touch (Storage.stat_touches h s.tree target)).tree = s.tree := rfl
      rw [htree]
      rcases hstore : Storage.store_file h f s.tree target data with ⟨e | u, tree, touched⟩
      · refine ⟨[], by simp [Storage.touch], ?_⟩
        simp [hwithin, Stores, hstore]
      · simp only
        cases hrecord : f.record with
        | true =>
            refine ⟨[], by simp [Storage.touch], ?_⟩
            simp [hwithin, Stores, hrecord]
        | false =>
            have hstores : Stores h f s target data := ⟨by rw [hstore], hrecord⟩
            simp only [Bool.false_eq_true, if_false]
            split
            · -- the one signal of a write that returns
              rename_i hcross
              have hcrosses : CrossesWarning h s row target data := hcross
              refine ⟨_, rfl, ?_⟩
              simp [hstores, hcrosses]
            · rename_i hcross
              have hcrosses : ¬ CrossesWarning h s row target data := hcross
              refine ⟨[], by simp [Storage.touch, Storage.set_used], ?_⟩
              simp [hwithin, hcrosses]

theorem write_raises (agent_id relative_path : String) (data : Bytes) :
    ∃ raised, (Storage.write h f agent_id relative_path data s).2.signals = s.signals ++ raised ∧
      (raised = [] ↔ QuietWrite h f s agent_id relative_path data) := by
  -- a write that stops before the quotas raises nothing
  have hstops (hstop : ∀ target row, s.resolve h agent_id relative_path = .ok target →
      s.probe h agent_id relative_path = false → f.begin_tx = false → s.row agent_id ≠ some row) :
      QuietWrite h f s agent_id relative_path data := by
    intro target row hres hprobe hbegin hrow
    exact absurd hrow (hstop target row hres hprobe hbegin)
  unfold Storage.write
  cases hres : s.resolve h agent_id relative_path with
  | error e =>
      refine ⟨[], by simp, iff_of_true rfl (hstops fun target row hok => ?_)⟩
      rw [hres] at hok
      cases hok
  | ok target =>
      cases hprobe : s.probe h agent_id relative_path with
      | true =>
          refine ⟨[], by simp, iff_of_true rfl (hstops fun _ _ _ hno => ?_)⟩
          rw [hprobe] at hno
          cases hno
      | false =>
          simp only [Bool.false_eq_true, if_false]
          cases hbegin : f.begin_tx with
          | true =>
              refine ⟨[], by simp [Storage.write_locked, hbegin], iff_of_true rfl (hstops fun _ _ _ _ hno => ?_)⟩
              rw [hbegin] at hno
              cases hno
          | false =>
              cases hrow : s.row agent_id with
              | none =>
                  refine ⟨[], by simp [Storage.write_locked, hbegin, hrow], iff_of_true rfl (hstops ?_)⟩
                  simp [hrow]
              | some row =>
                  obtain ⟨raised, hsignals, hquiet⟩ :=
                    @write_locked_raises h f s agent_id target data row hbegin hrow
                  refine ⟨raised, hsignals, hquiet.trans ⟨fun hq => ?_, fun hq => ?_⟩⟩
                  · intro target' row' hres' _ _ hrow'
                    rw [hres] at hres'
                    rw [hrow] at hrow'
                    cases hres'
                    cases hrow'
                    exact hq
                  · exact hq target row hres hprobe hbegin hrow

theorem reconcile_raises :
    ∃ raised, (Storage.reconcile_quota h f s).2.signals = s.signals ++ raised ∧
      (raised = [] ↔ QuietReconcile h f s) := by
  unfold Storage.reconcile_quota
  simp only
  split
  · rename_i hfails
    refine ⟨[], by simp, iff_of_true rfl fun hbegin hrecord => ?_⟩
    simp [hbegin, hrecord] at hfails
  · rename_i hgoes
    refine ⟨_, rfl, ?_⟩
    have hfaults : f.begin_tx = false ∧ f.record = false := by simpa using hgoes
    simp [QuietReconcile, hfaults, List.filter_eq_nil_iff]

/-- The other operations raise none. -/
theorem provision_signals (agent_id : String) (rows : List WorkspaceRow) :
    (Storage.provision h f agent_id rows s).2.signals = s.signals := by
  simp only [Storage.provision, Storage.make_dir]
  split
  · rfl
  · rename_i made hmade
    have hsignals : made.signals = s.signals := by
      split at hmade <;> cases hmade
      rfl
    split
    · exact hsignals
    · exact hsignals

theorem create_signals (agent_id : String) (quota_mb : Int) :
    (Storage.create_for_agent h f agent_id quota_mb s).2.signals = s.signals := by
  unfold Storage.create_for_agent
  split_ifs
  · rfl
  · rfl
  · rfl
  · split
    · rfl
    · exact provision_signals _ _

theorem ensure_signals (agent_id : String) (quota_mb : Int) :
    (Storage.ensure_for_agent h f agent_id quota_mb s).2.signals = s.signals := by
  unfold Storage.ensure_for_agent
  split_ifs
  · rfl
  · rfl
  · rfl
  · split
    · exact provision_signals _ _
    · exact provision_signals _ _

theorem delete_signals (agent_id relative_path : String) :
    (Storage.delete h f agent_id relative_path s).2.signals = s.signals := by
  unfold Storage.delete
  split
  · rfl
  · split
    · rfl
    · split
      · rfl
      · split
        · rfl
        · simp only
          split
          · rfl
          · split <;> rfl

theorem delete_for_agent_signals (agent_id : String) :
    (Storage.delete_for_agent h f agent_id s).2.signals = s.signals := by
  unfold Storage.delete_for_agent
  simp only
  split
  · rfl
  · split
    · split <;> rfl
    · split
      · rfl
      · split_ifs <;> rfl

theorem set_limit_signals (scope : QuotaScope) (mb : Int) :
    (Storage.set_limit f scope mb s).2.signals = s.signals := by
  unfold Storage.set_limit
  split_ifs
  · rfl
  · rfl
  · split
    · rfl
    · split <;> rfl

end Raises

/-! ## Runs -/

/-- What happens in a company: an operation on its workspaces, or an event that another module appends. No other
    module appends an event about quotas. -/
inductive Label where
  | workspace (op : Storage.QuotaOp) (f : Faults)
  | append (post : Post) (other : post.kind.is_quota = false)

/-- The state after it, whether it returned or raised. -/
def step (h : Host String UInt8) (w : Workspace) : Label → Workspace
  | .workspace (.write agent_id relative_path data) f => (write h f agent_id relative_path data w).2
  | .workspace .reconcile_quota f => (reconcile_quota h f w).2
  | .workspace op f => { w with storage := Storage.step h w.storage (op, f) }
  | .append post _ => { w with events := (EventStore.append post w.events).2 }

/-- The events about quotas in the log. -/
def quota_events (events : EventStore) : List EventKind := (events.log.map Event.kind).filter EventKind.is_quota

/-- The log has one event for each signal that was raised. -/
def Delivered (w : Workspace) : Prop :=
  (w.storage.signals.map QuotaSignal.event_kind).Perm (quota_events w.events)

/-- The step raises no signal. -/
def Quiet (h : Host String UInt8) (w : Workspace) : Label → Prop
  | .workspace (.write agent_id relative_path data) f => QuietWrite h f w.storage agent_id relative_path data
  | .workspace .reconcile_quota f => QuietReconcile h f w.storage
  | _ => True

/-- To the storage the sink is not there. -/
theorem step_workspace (h : Host String UInt8) (w : Workspace) (op : Storage.QuotaOp) (f : Faults) :
    step h w (.workspace op f) = { w with storage := Storage.step h w.storage (op, f) } := by
  cases op with
  | write agent_id relative_path data =>
      rw [step, write_same]
      rfl
  | reconcile_quota =>
      rw [step, reconcile_same]
      rfl
  | _ => rfl

/-- **One step** raises some signals, none exactly if it is a quiet one. -/
theorem step_raises (h : Host String UInt8) (w : Workspace) (l : Label) :
    ∃ raised, (step h w l).storage.signals = w.storage.signals ++ raised ∧ (raised = [] ↔ Quiet h w l) := by
  have hnone {w' : Workspace} (hsame : w'.storage.signals = w.storage.signals) :
      ∃ raised, w'.storage.signals = w.storage.signals ++ raised ∧ (raised = [] ↔ True) :=
    ⟨[], by simp [hsame], by simp⟩
  cases l with
  | append post other => exact hnone rfl
  | workspace op f =>
      rw [step_workspace]
      cases op with
      | write agent_id relative_path data => exact write_raises agent_id relative_path data
      | reconcile_quota => exact reconcile_raises
      | create_for_agent agent_id quota_mb => exact hnone (create_signals agent_id quota_mb)
      | ensure_for_agent agent_id quota_mb => exact hnone (ensure_signals agent_id quota_mb)
      | delete agent_id relative_path => exact hnone (delete_signals agent_id relative_path)
      | delete_for_agent agent_id => exact hnone (delete_for_agent_signals agent_id)
      | set_limit scope mb => exact hnone (set_limit_signals scope mb)

/-- **One step** adds no event about quotas. -/
theorem step_quota_events (h : Host String UInt8) (w : Workspace) (l : Label) :
    quota_events (step h w l).events = quota_events w.events := by
  cases l with
  | workspace op f => rw [step_workspace]
  | append post other =>
      unfold quota_events
      obtain ⟨e, -, -, hlog⟩ | ⟨event, -, hlog, hkind⟩ := EventStore.append_cases post w.events
      · rw [step, hlog]
      · rw [step, hlog]
        simp [hkind, other]

/-- Whole runs. -/
theorem exec_raises (h : Host String UInt8) (is : List Label) : ∀ w : Workspace,
    ∃ raised, (exec (step h) w is).storage.signals = w.storage.signals ++ raised ∧
      (raised = [] ↔ Along (step h) (Quiet h) w is) := by
  induction is with
  | nil =>
      intro w
      exact ⟨[], by simp, by simp⟩
  | cons l is ih =>
      intro w
      obtain ⟨first, hfirst, hquiet⟩ := step_raises h w l
      obtain ⟨rest, hrest, halong⟩ := ih (step h w l)
      refine ⟨first ++ rest, ?_, ?_⟩
      · rw [exec_cons, hrest, hfirst, List.append_assoc]
      · rw [List.append_eq_nil_iff, hquiet, halong, along_cons]

theorem exec_quota_events (h : Host String UInt8) (is : List Label) (w : Workspace) :
    quota_events (exec (step h) w is).events = quota_events w.events := by
  have hstep : ∀ w' l, quota_events w'.events = quota_events w.events →
      quota_events (step h w' l).events = quota_events w.events := by
    intro w' l hsame
    exact (step_quota_events h w' l).trans hsame
  exact exec_invariant hstep rfl is

/-- **Every signal is lost.** From a log that agrees with the signals so far, the log agrees with them at the end of a
    run exactly if no step of the run raised one. In every state an operation returns or raises what it does without
    the sink. -/
theorem quota_events_iff (h : Host String UInt8) (w : Workspace) (hstart : w.Delivered) (is : List Label) :
    ((exec (step h) w is).Delivered ↔ Along (step h) (Quiet h) w is) ∧
    (∀ f agent_id relative_path data, (write h f agent_id relative_path data (exec (step h) w is)).1 =
      (Storage.write h f agent_id relative_path data (exec (step h) w is).storage).1.mapError .own) ∧
    ∀ f, (reconcile_quota h f (exec (step h) w is)).1 =
      (Storage.reconcile_quota h f (exec (step h) w is).storage).1.mapError .own := by
  refine ⟨?_, fun f agent_id relative_path data => ?_, fun f => ?_⟩
  · obtain ⟨raised, hsignals, hquiet⟩ := exec_raises h is w
    rw [← hquiet]
    unfold Delivered
    rw [exec_quota_events, hsignals, List.map_append]
    constructor
    · intro hperm
      -- the events were as many as the signals at the start, and still are
      have hlength := hperm.length_eq.trans hstart.length_eq.symm
      rw [List.length_append, List.length_map, List.length_map] at hlength
      exact List.length_eq_zero_iff.mp (by omega)
    · rintro rfl
      rw [List.map_nil, List.append_nil]
      exact hstart
  · rw [write_same]
    rfl
  · rw [reconcile_same]
    rfl

/-- The company `acme` with an empty event log. -/
def opened : Workspace := { storage := Storage.founded, events := .quiet }

/-- Two bytes in a workspace of one megabyte. -/
def small_file : List Label :=
  [.workspace (.create_for_agent "alice" 1) .none, .workspace (.write "alice" "notes.txt" [1, 2]) .none]

theorem quota_events_small_file : (exec (step linux) opened small_file).Delivered := by
  apply (quota_events_iff linux opened (List.Perm.refl []) small_file).1.mpr
  refine ⟨trivial, ?_, trivial⟩
  intro target row _ _ _ hrow
  have halice : (step linux opened (.workspace (.create_for_agent "alice" 1) .none)).storage.row "alice" =
      some ⟨"alice", 1048576, 0⟩ := by decide +kernel
  have hcompany : (step linux opened (.workspace (.create_for_agent "alice" 1) .none)).storage.company_used = 0 := by
    decide +kernel
  have hlimit : (step linux opened (.workspace (.create_for_agent "alice" 1) .none)).storage.company_limit =
      1048576 := by decide +kernel
  rw [halice] at hrow
  cases hrow
  simp only [Storage.WithinQuota, CrossesWarning, hcompany, hlimit, List.length_cons, List.length_nil]
  omega

/-- **A write over the quota**: `alice` has no space at all. The signal is raised, and the log stays empty. -/
theorem exceeded_lost :
    (exec (step linux) opened
      [.workspace (.create_for_agent "alice" 0) .none, .workspace (.write "alice" "notes.txt" [1]) .none]).storage.signals =
        [.quota_exceeded_agent "alice" 0 1] ∧
    (exec (step linux) opened
      [.workspace (.create_for_agent "alice" 0) .none, .workspace (.write "alice" "notes.txt" [1]) .none]).events.log = [] ∧
    ¬ (exec (step linux) opened
      [.workspace (.create_for_agent "alice" 0) .none, .workspace (.write "alice" "notes.txt" [1]) .none]).Delivered := by
  refine ⟨by decide +kernel, by decide +kernel, ?_⟩
  intro hperm
  have hlength := hperm.length_eq
  revert hlength
  decide +kernel

end Workspace

end CompanyFactory
