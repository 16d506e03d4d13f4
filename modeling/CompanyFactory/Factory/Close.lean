import CompanyFactory.Factory.Create

/-!
# `Factory.Close` — a close that is refused

`close_company` marks the company as closing, and waits until it is idle. If the time is over and nobody has asked for
force, `close_handle` raises `ShutdownTimeout` before it touches any service. **The `finally` clause of `close_company`
is run all the same**: it takes the handle away and marks the company as closed, with all its tasks at work.

* `close_handle_refused` — a refused `close_handle` leaves everything as the other tasks have made it meanwhile.
* `refused_close` — a refused `close_company` leaves the services alone, and takes the handle and the status.
* `refused_close_changes` — so no refused close leaves the company as it was.
-/

namespace CompanyFactory

open Act

namespace Close

open BoardApi
open Shutdown (Task)

/-! ## What a close meets -/

/-- Where a close may raise, or lets other tasks run. -/
inductive Point where
  | mark_status (status : CompanyStatus)
  | append_starting
  /-- the `k`-th `asyncio.sleep(0.02)` -/
  | sleep (k : Nat)
  | clock_pause
  | agent_stop (agent : String)
  | orchestrator_stop
  | clock_stop
  | append_complete
  /-- an error of the archive that is not suppressed -/
  | archive_company
  deriving DecidableEq

inductive CloseError where
  | CompanyNotFound (company_id : String)
  | ShutdownTimeout (message : String)
  | raised (e : Exn)
  deriving DecidableEq

/-- Does `except Exception` catch it? -/
def CloseError.isException : CloseError → Bool
  | .raised e => e.isException
  | _ => true

structure Surroundings where
  faults : Point → Option Exn
  /-- what other tasks do while the close waits -/
  others : Point → Factory → Factory
  /-- what `is_company_idle` says before the `k`-th sleep -/
  idle : Nat → Bool
  /-- how often the company is asked before the deadline -/
  polls : Nat
  /-- does `archive_company` move the directory? -/
  archives : Bool

structure Request where
  /-- `f"{timeout_seconds}"` -/
  timeout_seconds : String
  force_after_timeout : Bool
  purge : Bool

section Operations

variable (env : Surroundings)

def point (p : Point) : Act Factory CloseError Unit := call (fun p => (env.faults p).map .raised) p

/-- `await`, with what the others do meanwhile -/
def wait (p : Point) : Act Factory CloseError Unit := do
  write (env.others p)
  point env p

/-- `with contextlib.suppress(Exception)` -/
def suppress (m : Act Factory CloseError Unit) : Act Factory CloseError Unit := do
  let ended ← attempt m
  match ended with
  | .ok () => pure ()
  | .error e => if e.isException then pure () else raise e

/-- `_mark_status` -/
def mark_status (company_id : String) (status : CompanyStatus) : Act Factory CloseError Unit := do
  point env (.mark_status status)
  write (Factory.set_status company_id status)

/-- `_wait_idle` after `k` sleeps, with `left` further ones before the deadline. -/
def wait_idle : Nat → Nat → Act Factory CloseError Bool
  | 0, k => pure (env.idle k)
  | left + 1, k =>
    if env.idle k then pure true
    else do
      write (env.others (.sleep k))
      wait_idle left (k + 1)

/-- The tasks of a build that a `stop` has brought to their end. -/
def stopped (n : Nat) (ended : Task → Bool) : Act Factory CloseError Unit := write fun f =>
  f.set_loop n fun loop => { loop with tasks := loop.tasks.filter fun t => !ended t }

/-- One passage of `for agent in list(handle.agents.values())`. -/
def stop_agent (n : Nat) (agent : String) : Act Factory CloseError Unit := suppress do
  wait env (.agent_stop agent)
  stopped n (decide <| · = .agent agent)

/-- Does `Orchestrator.stop` wait for it? -/
def of_orchestrator : Task → Bool
  | .consumer _ | .watchdog => true
  | _ => false

/-- `handle.db.close()`, then the purge or the archive -/
def dispose (company_id : String) (n : Nat) (purge : Bool) : Act Factory CloseError Unit := do
  write fun f => { f with builds := f.builds.modify n fun b => { b with connected := false } }
  if purge then write fun f => { f with directory := Function.update f.directory company_id false }
  else do
    point env .archive_company
    write fun f => if env.archives then { f with directory := Function.update f.directory company_id false } else f

/-- `close_handle` after the wait for idleness -/
def tear_down (company_id : String) (n : Nat) (purge : Bool) : Act Factory CloseError Unit := do
  suppress (wait env .clock_pause)
  let agents ← read fun f => (f.builds[n]?.map fun b => b.loop.agents).getD []
  each (stop_agent env n) agents
  suppress do
    wait env .orchestrator_stop
    stopped n of_orchestrator
  suppress do
    wait env .clock_stop
    stopped n (decide <| · = .clock)
  point env .append_complete
  dispose env company_id n purge

def close_handle (company_id : String) (n : Nat) (timeout_seconds : String) (force purge : Bool) :
    Act Factory CloseError Unit := do
  point env .append_starting
  if force then tear_down env company_id n purge
  else do
    let idle ← wait_idle env env.polls 0
    if idle then tear_down env company_id n purge
    else raise (.ShutdownTimeout ("company " ++ company_id ++ " did not reach idle within " ++ timeout_seconds ++ "s"))

/-- The `except` clause of `close_company`. -/
def handle_failure (company_id : String) (n : Nat) (request : Request) :
    Except CloseError Unit → Act Factory CloseError Unit
  | .ok () => pure ()
  | .error e =>
    if e.isException && request.force_after_timeout then close_handle env company_id n "0.0" true request.purge
    else raise e

/-- The `finally` clause. -/
def finish (company_id : String) (ended : Except CloseError Unit) : Act Factory CloseError Unit := do
  write fun f => { f with handles := Function.update f.handles company_id none }
  mark_status env company_id .CLOSED
  ofExcept ended

def close_company (company_id : String) (request : Request) : Act Factory CloseError Unit := do
  let f ← read id
  match f.handles company_id with
  | none => raise (.CompanyNotFound company_id)
  | some n => do
    mark_status env company_id .CLOSING
    let closed ← attempt (close_handle env company_id n request.timeout_seconds false request.purge)
    let ended ← attempt (handle_failure env company_id n request closed)
    finish env company_id ended

end Operations

/-! ## What is raised -/

def NotTimeout (e : CloseError) : Prop := ∀ message, e ≠ .ShutdownTimeout message

theorem raised_not_timeout (e : Exn) : NotTimeout (.raised e) := nofun

section Raised

variable {env : Surroundings} {company_id : String} {n : Nat} {E : CloseError → Prop} (hraised : ∀ e, E (.raised e))

include hraised

theorem point_raises (p : Point) : Raises E (point env p) := by
  intro s e h
  rw [point, call] at h
  split at h
  · cases h
  · rename_i e' he
    obtain ⟨e'', -, rfl⟩ := Option.map_eq_some_iff.mp he
    cases h
    exact hraised e''

/-- An error that is no `Exception` comes from outside. -/
theorem of_not_exception {e : CloseError} (h : e.isException = false) : E e := by
  cases e with
  | CompanyNotFound company_id => cases h
  | ShutdownTimeout message => cases h
  | raised e => exact hraised e

/-- What passes by `suppress` is no `Exception`. -/
theorem suppress_raises (m : Act Factory CloseError Unit) : Raises E (suppress m) := by
  intro s e h
  rw [suppress, attempt_bind] at h
  rcases hm : (m s).1 with e' | ⟨⟩
  · simp only [hm] at h
    split at h
    · cases h
    · rename_i hexception
      cases h
      exact of_not_exception hraised (Bool.not_eq_true _ ▸ hexception)
  · simp only [hm] at h
    cases h

theorem each_raises (agents : List String) : Raises E (each (stop_agent env n) agents) := by
  induction agents with
  | nil => exact .pure ()
  | cons agent agents ih => exact .bind (suppress_raises hraised _) fun _ => ih

theorem dispose_raises (purge : Bool) : Raises E (dispose env company_id n purge) := by
  refine .bind (.write _) fun _ => .ite (.write _) ?_
  exact .bind (point_raises hraised _) fun _ => .write _

/-- Once the services are touched there is no `ShutdownTimeout`. -/
theorem tear_down_raises (purge : Bool) : Raises E (tear_down env company_id n purge) := by
  refine .bind (suppress_raises hraised _) fun _ => .bind (fun _ _ h => nomatch h) fun agents => ?_
  refine .bind (each_raises hraised agents) fun _ => .bind (suppress_raises hraised _) fun _ => ?_
  refine .bind (suppress_raises hraised _) fun _ => ?_
  exact .bind (point_raises hraised _) fun _ => dispose_raises hraised purge

theorem forced_raises (timeout_seconds : String) (purge : Bool) :
    Raises E (close_handle env company_id n timeout_seconds true purge) :=
  .bind (point_raises hraised _) fun _ => tear_down_raises hraised purge

theorem mark_status_raises (status : CompanyStatus) : Raises E (mark_status env company_id status) :=
  .bind (point_raises hraised _) fun _ => .write _

end Raised

section Timeout

variable {env : Surroundings} {company_id message : String} {n : Nat} {f f' : Factory}

/-! ## A close that is refused -/

/-- What the other tasks do in the sleeps from the `k`-th on. -/
def Surroundings.meanwhile (env : Surroundings) : Nat → Nat → Factory → Factory
  | 0, _, f => f
  | left + 1, k, f => env.meanwhile left (k + 1) (env.others (.sleep k) f)

/-- If the company is not idle in time, all sleeps are over. -/
theorem wait_idle_false (left : Nat) :
    ∀ k f, wait_idle env left k f = (.ok false, f') → f' = env.meanwhile left k f := by
  induction left with
  | zero =>
      intro k f h
      exact (congrArg Prod.snd h).symm
  | succ left ih =>
      intro k f h
      rw [wait_idle] at h
      split at h
      · cases h
      · exact ih _ _ h

theorem point_ok {p : Point} {s s' : Factory} (h : point env p s = (.ok (), s')) : s' = s := by
  rw [point, call] at h
  split at h
  · exact (congrArg Prod.snd h).symm
  · cases h

/-- A sequence whose first part never times out: if it does, the first part has returned. -/
theorem timeout_of_bind {α β : Type} {m : Act Factory CloseError α} {k : α → Act Factory CloseError β}
    (hm : Raises NotTimeout m) (h : ((m >>= k) f).1 = .error (.ShutdownTimeout message)) :
    ∃ a g, m f = (.ok a, g) ∧ (k a g).1 = .error (.ShutdownTimeout message) := by
  rw [bind_run] at h
  rcases hrun : m f with ⟨e | a, g⟩
  · rw [hrun] at h
    cases h
    exact absurd rfl (hm f _ (congrArg Prod.fst hrun) message)
  · rw [hrun] at h
    exact ⟨a, g, rfl, h⟩

theorem wait_idle_raises (left : Nat) : ∀ k, Raises NotTimeout (wait_idle env left k) := by
  induction left with
  | zero => exact fun k => .pure _
  | succ left ih => exact fun k => .ite (.pure _) (.bind (.write _) fun _ => ih _)

/-- **A refused `close_handle` has touched nothing**: the others have made the company what it is. -/
theorem close_handle_refused {timeout_seconds : String} {purge : Bool}
    (h : (close_handle env company_id n timeout_seconds false purge f).1 = .error (.ShutdownTimeout message)) :
    (close_handle env company_id n timeout_seconds false purge f).2 = env.meanwhile env.polls 0 f := by
  rw [close_handle] at h ⊢
  obtain ⟨⟨⟩, g, hstart, hwaits⟩ := timeout_of_bind (point_raises raised_not_timeout _) h
  rw [bind_of_ok hstart]
  rw [point_ok hstart, if_neg Bool.false_ne_true] at hwaits ⊢
  obtain ⟨idle, g', hidle, hends⟩ := timeout_of_bind (wait_idle_raises _ _) hwaits
  rw [bind_of_ok hidle]
  cases idle with
  | true => exact absurd rfl (tear_down_raises raised_not_timeout purge _ _ hends message)
  | false => exact wait_idle_false _ _ _ hidle

/-! ## What `close_company` makes of it -/

/-- The status, the handle and the services of the company are as before. -/
structure Unchanged (company_id : String) (f f' : Factory) : Prop where
  status : f'.companies company_id = f.companies company_id
  handle : f'.handles company_id = f.handles company_id
  services : f'.builds = f.builds

theorem mark_status_ok {status : CompanyStatus} (h : mark_status env company_id status f = (.ok (), f')) :
    f' = f.set_status company_id status := by
  rw [mark_status] at h
  obtain ⟨⟨⟩, g, hpoint, hwrite⟩ := bind_eq_ok.mp h
  rw [point_ok hpoint] at hwrite
  exact (congrArg Prod.snd hwrite).symm

/-- The `except` clause raises `ShutdownTimeout` only again, and then it has done nothing. -/
theorem handle_failure_refused {request : Request} {closed : Except CloseError Unit}
    (h : (handle_failure env company_id n request closed f).1 = .error (.ShutdownTimeout message)) :
    closed = .error (.ShutdownTimeout message) ∧ (handle_failure env company_id n request closed f).2 = f := by
  cases closed with
  | ok u => cases h
  | error e =>
      rw [handle_failure] at h ⊢
      split at h
      · exact absurd rfl (forced_raises raised_not_timeout _ _ _ _ h message)
      · rename_i hraise
        rw [if_neg hraise]
        cases h
        exact ⟨rfl, rfl⟩

theorem finish_refused {ended : Except CloseError Unit}
    (h : (finish env company_id ended f).1 = .error (.ShutdownTimeout message)) :
    ended = .error (.ShutdownTimeout message) ∧ (finish env company_id ended f).2 =
      Factory.set_status company_id .CLOSED { f with handles := Function.update f.handles company_id none } := by
  rw [finish, write_bind] at h ⊢
  obtain ⟨⟨⟩, g, hmark, hraise⟩ := timeout_of_bind (mark_status_raises raised_not_timeout _) h
  rw [bind_of_ok hmark]
  exact ⟨hraise, mark_status_ok hmark⟩

/-- **What a refused `close_company` leaves**: the company as the others have made it, without a handle and marked as
closed. -/
theorem refused_close {request : Request}
    (h : (close_company env company_id request f).1 = .error (.ShutdownTimeout message)) :
    (f.handles company_id).isSome = true ∧ (close_company env company_id request f).2 =
      let left := env.meanwhile env.polls 0 (f.set_status company_id .CLOSING)
      Factory.set_status company_id .CLOSED { left with handles := Function.update left.handles company_id none } := by
  rw [close_company, read_bind, id] at h ⊢
  cases hhandle : f.handles company_id with
  | none =>
      rw [hhandle] at h
      cases h
  | some n =>
      rw [hhandle] at h
      refine ⟨rfl, ?_⟩
      dsimp only at h ⊢
      obtain ⟨⟨⟩, g, hmark, hcloses⟩ := timeout_of_bind (mark_status_raises raised_not_timeout _) h
      rw [bind_of_ok hmark]
      rw [mark_status_ok hmark, attempt_bind, attempt_bind] at hcloses ⊢
      obtain ⟨hended, hfinish⟩ := finish_refused hcloses
      obtain ⟨hclosed, hsame⟩ := handle_failure_refused hended
      rw [hfinish, hsame, close_handle_refused hclosed]

/-- **No refused close leaves the company as it was**: its handle is gone. -/
theorem refused_close_changes (env : Surroundings) (company_id message : String) (request : Request) (f : Factory)
    (h : (close_company env company_id request f).1 = .error (.ShutdownTimeout message)) :
    ¬ Unchanged company_id f (close_company env company_id request f).2 := by
  intro hunchanged
  obtain ⟨hsome, hafter⟩ := refused_close h
  have hgone := hunchanged.handle
  simp only [hafter, Factory.set_status, Function.update_self] at hgone
  -- the handle was there before
  rw [← hgone] at hsome
  cases hsome

/-- A company at work, and nobody else on the host. -/
def busy_company : Factory :=
  { companies := fun id => if id = "acme" then some .ACTIVE else none
    handles := fun id => if id = "acme" then some 0 else none
    directory := fun id => decide (id = "acme")
    builds := [{ company_id := "acme", loop := (Shutdown.built ⟨["ceo"], true, true⟩).loop, connected := true }] }

/-- Two looks at a company that is never idle. -/
def never_idle : Surroundings :=
  { faults := fun _ => none, others := fun _ f => f, idle := fun _ => false, polls := 2, archives := true }

def ask_politely : Request := { timeout_seconds := "0.05", force_after_timeout := false, purge := false }

theorem refused_close_changes_small :
    ¬ Unchanged "acme" busy_company (close_company never_idle "acme" ask_politely busy_company).2 :=
  refused_close_changes never_idle "acme" "company acme did not reach idle within 0.05s" ask_politely busy_company
    (by decide)

/-- The company is at work as before; it has no handle any more, and counts as closed. -/
theorem refused_close_forgets : ¬ ∀ (env : Surroundings) (company_id message : String) (request : Request)
    (f : Factory), (close_company env company_id request f).1 = .error (.ShutdownTimeout message) →
      Unchanged company_id f (close_company env company_id request f).2 := by
  intro hunchanged
  have h := hunchanged never_idle "acme" "company acme did not reach idle within 0.05s" ask_politely busy_company
    (by decide)
  exact absurd h.status (by decide)

end Timeout

end Close

end CompanyFactory
