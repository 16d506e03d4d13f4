import CompanyFactory.Company.Frame
import CompanyFactory.Connector.Service

/-!
# `Connector.Spec` — what the two parts of a connector call do

As `Tools.Spec`, for the connector: the footprint of each part, and the exact condition under which the
first part reaches the executor. The gate comes before the reservation here, so only the threshold events
of the reservation are appended while it is held.
-/

namespace CompanyFactory

namespace Connector

open Company Act

/-! ## The approval gate -/

/-- The approval that the call needs, if it needs one. -/
def gate_request (service_def : ServiceDef) (action_def : ActionDef) (estimate : Money)
    (r : ConnectorRequest) : Option ApprovalRequest :=
  if auto_approved service_def action_def estimate then none
  else some (approval_request service_def estimate r)

theorem evaluate_approval_eq_gate (service_def : ServiceDef) (action_def : ActionDef)
    (estimate : Money) (r : ConnectorRequest) :
    evaluate_approval service_def action_def estimate r =
      gate (gate_request service_def action_def estimate r) r.uuid r.now := by
  unfold evaluate_approval gate_request
  split <;> rfl

theorem gate_request_id {service_def : ServiceDef} {action_def : ActionDef} {estimate : Money}
    {r : ConnectorRequest} (req : ApprovalRequest)
    (h : gate_request service_def action_def estimate r = some req) :
    or_new_id req.request_id r.uuid = r.cid := by
  unfold gate_request at h
  split at h
  · cases h
  · obtain rfl := Option.some.inj h
    exact or_new_id_or_new_id _ _

/-! ## Footprint -/

section Footprint

variable {R : Company → Company → Prop} (hrefl : ∀ co, R co co)
  (htrans : ∀ a b c, R a b → R b c → R a c) (happend : ∀ post, Moves R (append post))

include hrefl htrans happend

theorem fail_moves {cid : String} (hcache : ∀ r, Moves R (cache cid r)) (service action : String)
    (cls : ConnectorErrorClass) (message actor : String) :
    Moves R (fail cid service action cls message actor) := by
  refine Moves.bind htrans (happend _) fun _ => ?_
  exact Moves.ite (Moves.bind htrans (hcache _) fun _ => Moves.pure hrefl _) (Moves.pure hrefl _)

/-- The part after the await point. -/
theorem call_finish_moves {call : ConnectorCall} (hcache : ∀ r, Moves R (cache call.cid r))
    (hrelease : Moves R (on_budget (Budget.release call.reservation_id)))
    (hcommit : Moves R (on_budget (Budget.commit call.reservation_id call.estimate)))
    (outcome : Except Exn Json) : Moves R (call_finish call outcome) := by
  have hfail := fail_moves hrefl htrans happend hcache
  have hclose : ∀ cls message, Moves R (release_fail call cls message) :=
    fun cls message => Moves.bind htrans hrelease fun _ => hfail _ _ _ _ _
  unfold call_finish
  split
  · exact hclose _ _
  · exact Moves.ite (hclose _ _) (Moves.raise hrefl _)
  · unfold complete_call
    split
    · exact Moves.ite (hclose _ _) (Moves.raise hrefl _)
    · refine Moves.ite (hclose _ _) (Moves.bind htrans hcommit fun charge => ?_)
      refine Moves.ite (hfail _ _ _ _ _) (Moves.bind htrans (happend _) fun _ => ?_)
      exact Moves.bind htrans (hcache _) fun _ => Moves.pure hrefl _

end Footprint

/-! ## The whole first part -/

/-- The status under the call's id. -/
def gate_status (co : Company) (service_def : ServiceDef) (action_def : ActionDef) (estimate : Money)
    (r : ConnectorRequest) : ApprovalStatus :=
  Company.gate_status co (gate_request service_def action_def estimate r) r.cid

/-- What the rate limiter answers. -/
def acquired (co : Company) (r : ConnectorRequest) : Except String Unit × RateLimiter :=
  co.rate.acquire (r.service ++ ":" ++ r.action) r.monotonic

/-- The call comes to the approval gate: it is no replay, and it passes the gates before it and the
    limiter. -/
def Gated (co : Company) (r : ConnectorRequest) (service_def : ServiceDef) (action_def : ActionDef)
    (estimate : Money) : Prop :=
  co.connector_completed r.cid = none ∧ run_gates co r = .admitted service_def action_def estimate ∧
    (acquired co r).1 = .ok ()

/-- The call makes a reservation: it is approved, and the budget has room. -/
def Reserves (co : Company) (r : ConnectorRequest) (service_def : ServiceDef) (action_def : ActionDef)
    (estimate : Money) : Prop :=
  Gated co r service_def action_def estimate ∧
    gate_status co service_def action_def estimate r = .APPROVED ∧ co.budget.grants estimate = true

/-- The events appended while the reservation is held. -/
def held_posts (co : Company) (r : ConnectorRequest) (estimate : Money) : List Post :=
  (co.budget.reserved estimate r.cid).1

/-- The call that waits for its executor. -/
def waiting (service_def : ServiceDef) (action_def : ActionDef) (r : ConnectorRequest)
    (estimate : Money) (rid : Nat) : ConnectorCall :=
  { cid := r.cid, agent_id := r.agent_id, service := r.service, action := r.action, action_def,
    risk := service_def.risk, args := r.args, estimate, reservation_id := rid }

/-- The company that the executor of a call finds. -/
def at_executor (co : Company) (r : ConnectorRequest) (estimate : Money) : Company :=
  { co with
    rate := (acquired co r).2
    budget := (co.budget.reserved estimate r.cid).2
    events := (EventStore.appendAll (held_posts co r estimate) co.events).2 }

variable {co : Company} {r : ConnectorRequest} {service_def : ServiceDef} {action_def : ActionDef}
  {estimate : Money}

/-- The gates find the service under its own name. -/
theorem name_of_admitted (h : run_gates co r = .admitted service_def action_def estimate) :
    service_def.name = r.service := by
  have hfind : get_service co r.service = some service_def := by
    unfold run_gates at h
    cases hs : get_service co r.service with
    | none => rw [hs] at h; cases h
    | some s =>
        rw [hs] at h
        dsimp only at h
        split at h
        · cases h
        · split at h
          · cases h
          · split at h
            · cases h
            · split at h
              · cases h
              · cases h
                rfl
  simpa using List.find?_some hfind

theorem call_start_eq (co : Company) (r : ConnectorRequest) :
    call_start r co = (match co.connector_completed r.cid with
      | some cached => pure (.done cached)
      | none => match run_gates co r with
        | .refused cls message => do
            let result ← fail r.cid r.service r.action cls message r.agent_id
            pure (.done result)
        | .raised e => Act.raise e
        | .admitted service_def action_def estimate => route_call service_def action_def estimate r :
          Act Company Exn Started) co := rfl

theorem route_call_eq (co : Company) (r : ConnectorRequest) (service_def : ServiceDef)
    (action_def : ActionDef) (estimate : Money) :
    route_call service_def action_def estimate r co = (match (acquired co r).1 with
      | .error message => do
          let result ← fail r.cid r.service r.action .RateLimited message r.agent_id
          pure (.done result)
      | .ok () => do
          let status ← evaluate_approval service_def action_def estimate r
          match status with
          | .APPROVED => reserve_call service_def action_def estimate r
          | .PENDING => do
              append (external_post r.service r.action "issued" r.agent_id r.cid)
              pure (.done { ok := false, error_code := some "pending_approval",
                            error_message := some ("pending:" ++ r.cid),
                            approval_request_id := some r.cid })
          | _ => do
              let result ← fail r.cid r.service r.action .ApprovalDeniedError ("denied:" ++ r.cid)
                r.agent_id
              pure (.done result) : Act Company Exn Started)
      { co with rate := (acquired co r).2 } := rfl

/-- **Footprint of the first part.** The gate has to move along `R` only for the service and the action
    that are about to be called. -/
theorem call_start_moves {R : Company → Company → Prop} (hrefl : ∀ co, R co co)
    (htrans : ∀ a b c, R a b → R b c → R a c) (happend : ∀ post, Moves R (append post))
    (hcache : ∀ result, Moves R (cache r.cid result)) (hrate : ∀ co rate, R co { co with rate })
    (hreserve : ∀ estimate, Moves R (on_budget (Budget.reserve estimate r.cid)))
    (hgate : ∀ service_def action_def estimate, Gated co r service_def action_def estimate →
      Moves R (gate (gate_request service_def action_def estimate r) r.uuid r.now)) :
    R co (call_start r co).2 := by
  have hfail : ∀ cls message, Moves R (do
      let result ← fail r.cid r.service r.action cls message r.agent_id
      pure (Started.done result)) :=
    fun _ _ => Moves.bind htrans (fail_moves hrefl htrans happend hcache _ _ _ _ _)
      fun _ => Moves.pure hrefl _
  have hreserve_call : ∀ service_def action_def estimate,
      Moves R (reserve_call service_def action_def estimate r) := by
    intro service_def action_def estimate
    refine Moves.bind htrans (hreserve _).attempt fun reserved => ?_
    split
    · exact hfail _ _
    · exact Moves.raise hrefl _
    · exact Moves.pure hrefl _
  rw [call_start_eq]
  cases hnew : co.connector_completed r.cid with
  | some cached => exact hrefl co
  | none =>
      cases hadm : run_gates co r with
      | refused cls message => exact hfail _ _ co
      | raised e => exact hrefl co
      | admitted service_def action_def estimate =>
          show R co (route_call _ _ _ _ _).2
          rw [route_call_eq]
          refine htrans _ _ _ (hrate co (acquired co r).2) ?_
          cases hacq : (acquired co r).1 with
          | error message => exact hfail _ _ _
          | ok u =>
              have hmoves := hgate service_def action_def estimate ⟨hnew, hadm, hacq⟩
              rw [← evaluate_approval_eq_gate] at hmoves
              refine Moves.bind htrans hmoves (fun status => ?_) _
              cases status with
              | APPROVED => exact hreserve_call _ _ _
              | PENDING => exact Moves.bind htrans (happend _) fun _ => Moves.pure hrefl _
              | DENIED | TIMEOUT | CANCELLED => exact hfail _ _

/-- The status that the gate of a call finds once the limiter has been asked. -/
theorem evaluate_approval_run (co : Company) (r : ConnectorRequest) (service_def : ServiceDef)
    (action_def : ActionDef) (estimate : Money) :
    ∃ res co', evaluate_approval service_def action_def estimate r
        { co with rate := (acquired co r).2 } =
          ((res : Except Exn Unit).map (fun _ => gate_status co service_def action_def estimate r),
            co') ∧
      co'.budget = co.budget ∧
      (gate_status co service_def action_def estimate r = .APPROVED →
        res = .ok () ∧ co' = { co with rate := (acquired co r).2 }) := by
  rw [evaluate_approval_eq_gate]
  obtain ⟨co', hrun, hbudget, hsame⟩ :=
    gate_run r.now { co with rate := (acquired co r).2 } gate_request_id
  refine ⟨_, co', hrun, hbudget, fun h => ⟨?_, hsame h⟩⟩
  have hposts := request_posts_of_approved { co with rate := (acquired co r).2 } r.now h
  rw [hposts]
  rfl

/-- **The executor is reached** exactly when the call reserves and the event store accepts the events of
    the reservation. -/
theorem call_start_reserves (h : Reserves co r service_def action_def estimate) :
    call_start r co =
      ((EventStore.appendAll (held_posts co r estimate) co.events).1.map (fun _ =>
        .awaiting (waiting service_def action_def r estimate co.budget.reservations.length)),
        at_executor co r estimate) := by
  obtain ⟨⟨hnew, hadm, hacq⟩, hgate, hgrants⟩ := h
  obtain ⟨res, co', hrun, -, hsame⟩ := evaluate_approval_run co r service_def action_def estimate
  obtain ⟨rfl, rfl⟩ := hsame hgate
  rw [hgate] at hrun
  have hres := reserve_of_grants { co with rate := (acquired co r).2 } r.cid hgrants
  rw [call_start_eq, hnew]
  dsimp only
  rw [hadm]
  show route_call _ _ _ _ _ = _
  rw [route_call_eq, hacq]
  show (evaluate_approval _ _ _ _ >>= _) _ = _
  rw [bind_of_ok hrun]
  show (Act.attempt _ >>= _) _ = _
  rw [attempt_bind, hres]
  rcases happ : EventStore.appendAll (held_posts co r estimate) co.events with ⟨e | u, ev⟩
  · have hstore := EventStore.appendAll_error (congrArg Prod.fst happ)
    rw [held_posts] at happ
    rw [at_executor, held_posts]
    dsimp only
    rw [happ]
    cases e <;> first | rfl | cases hstore
  · rw [held_posts] at happ
    rw [at_executor, held_posts]
    dsimp only
    rw [happ]
    rfl

theorem fail_same_budget (cid service action : String) (cls : ConnectorErrorClass)
    (message actor : String) : Moves SameBudget (fail cid service action cls message actor) :=
  fail_moves SameBudget.refl SameBudget.trans append_same_budget (fun _ _ => rfl) _ _ _ _ _

theorem done_same_budget (r : ConnectorRequest) (cls : ConnectorErrorClass) (message : String) :
    Moves SameBudget (do
      let result ← fail r.cid r.service r.action cls message r.agent_id
      pure (Started.done result)) :=
  Moves.bind SameBudget.trans (fail_same_budget _ _ _ _ _ _) fun _ => Moves.pure SameBudget.refl _

theorem reserve_call_refused (co : Company) (h : co.budget.grants estimate = false) :
    (reserve_call service_def action_def estimate r co).2.budget = co.budget ∧
      ∀ call, (reserve_call service_def action_def estimate r co).1 ≠ .ok (.awaiting call) := by
  obtain ⟨message, hres⟩ := reserve_of_refused r.cid h
  rw [reserve_call, attempt_bind, hres]
  exact ⟨done_same_budget _ _ _ _, fun call => bind_ne_ok fun _ _ => nofun⟩

theorem route_call_without (h : (acquired co r).1 = .ok () →
      gate_status co service_def action_def estimate r = .APPROVED →
      co.budget.grants estimate = false) :
    (route_call service_def action_def estimate r co).2.budget = co.budget ∧
      ∀ call, (route_call service_def action_def estimate r co).1 ≠ .ok (.awaiting call) := by
  rw [route_call_eq]
  cases hacq : (acquired co r).1 with
  | error message =>
      exact ⟨done_same_budget _ _ _ { co with rate := (acquired co r).2 }, fun call => bind_ne_ok fun _ _ => nofun⟩
  | ok u =>
      obtain ⟨res, co', hrun, hbudget, hsame⟩ :=
        evaluate_approval_run co r service_def action_def estimate
      show ((evaluate_approval _ _ _ _ >>= _) _).2.budget = _ ∧
        ∀ call, ((evaluate_approval _ _ _ _ >>= _) _).1 ≠ _
      cases res with
      | error e =>
          rw [bind_of_error hrun]
          exact ⟨hbudget, nofun⟩
      | ok u =>
          rw [bind_of_ok hrun]
          cases hstatus : gate_status co service_def action_def estimate r with
          | APPROVED =>
              obtain ⟨-, rfl⟩ := hsame hstatus
              exact reserve_call_refused { co with rate := (acquired co r).2 }
                (h hacq hstatus)
          | PENDING =>
              have hissued : ∀ result, Moves SameBudget (do
                  append (external_post r.service r.action "issued" r.agent_id r.cid)
                  pure (Started.done result)) :=
                fun _ => Moves.bind SameBudget.trans (append_same_budget _) fun _ =>
                  Moves.pure SameBudget.refl _
              exact ⟨Eq.trans (hissued _ co') hbudget, fun call => bind_ne_ok fun _ _ => nofun⟩
          | DENIED | TIMEOUT | CANCELLED =>
              exact ⟨Eq.trans (done_same_budget _ _ _ co') hbudget, fun call => bind_ne_ok fun _ _ => nofun⟩

/-- A call that makes no reservation leaves the budget alone and ends before the executor. -/
theorem call_start_without
    (h : ∀ service_def action_def estimate, ¬ Reserves co r service_def action_def estimate) :
    (call_start r co).2.budget = co.budget ∧ ∀ call, (call_start r co).1 ≠ .ok (.awaiting call) := by
  rw [call_start_eq]
  cases hnew : co.connector_completed r.cid with
  | some cached => exact ⟨rfl, nofun⟩
  | none =>
      cases hadm : run_gates co r with
      | refused cls message => exact ⟨done_same_budget _ _ _ co, fun call => bind_ne_ok fun _ _ => nofun⟩
      | raised e => exact ⟨rfl, nofun⟩
      | admitted service_def action_def estimate =>
          exact route_call_without (fun hacq hgate => by
            by_contra hgrants
            exact h service_def action_def estimate
              ⟨⟨hnew, hadm, hacq⟩, hgate, by simpa using hgrants⟩)

/-! ## After the executor -/

/-- Does the part after the executor end by a `BaseException`, of the executor or of the sanitizer? -/
def abandons (call : ConnectorCall) (outcome : Except Exn Json) : Bool :=
  abandoned (outcome.bind call.action_def.sanitizer)

theorem release_fail_ends (call : ConnectorCall) (cls : ConnectorErrorClass) (message : String) :
    Ends (fun co => co.budget.is_open call.reservation_id = false) (release_fail call cls message) :=
  release_ends fun _ => fail_same_budget _ _ _ _ _ _

/-- Every outcome that is handled closes the reservation, whatever is raised on the way. -/
theorem call_finish_ends {call : ConnectorCall} {outcome : Except Exn Json}
    (h : abandons call outcome = false) :
    Ends (fun co => co.budget.is_open call.reservation_id = false) (call_finish call outcome) := by
  unfold call_finish
  split
  · exact release_fail_ends _ _ _
  · rename_i e _
    have he : e.isException = true := by simpa [abandons, abandoned, Except.bind] using h
    rw [if_pos he]
    exact release_fail_ends _ _ _
  · rename_i output
    unfold complete_call
    split
    · rename_i e hsan
      have he : e.isException = true := by simpa [abandons, abandoned, Except.bind, hsan] using h
      rw [if_pos he]
      exact release_fail_ends _ _ _
    · split
      · exact release_fail_ends _ _ _
      · refine commit_ends fun charge => ?_
        refine Moves.ite (fail_same_budget _ _ _ _ _ _)
          (Moves.bind SameBudget.trans (append_same_budget _) fun _ => ?_)
        exact Moves.bind SameBudget.trans (fun _ => rfl) fun _ => Moves.pure SameBudget.refl _

/-- An outcome that is not handled ends the call where it is. -/
theorem call_finish_abandoned {call : ConnectorCall} {outcome : Except Exn Json}
    (h : abandons call outcome = true) (co : Company) : (call_finish call outcome co).2 = co := by
  rcases outcome with e | output
  · have he : e = .cancelled := by
      cases e <;> simp [abandons, abandoned, Exn.isException, Except.bind] at h ⊢
    rw [he]
    rfl
  · rw [call_finish, complete_call]
    cases hsan : call.action_def.sanitizer output with
    | ok sanitized => simp [abandons, abandoned, Except.bind, hsan] at h
    | error e =>
        have he : e.isException = false := by simpa [abandons, abandoned, Except.bind, hsan] using h
        simp [he]

/-- A call that reached its executor, and the state it did so from. -/
theorem awaiting_inv {call : ConnectorCall} {s : Company}
    (h : call_start r co = (.ok (.awaiting call), s)) :
    ∃ service_def action_def estimate, Reserves co r service_def action_def estimate ∧
      call = waiting service_def action_def r estimate co.budget.reservations.length ∧
      s = at_executor co r estimate := by
  by_cases hres : ∃ service_def action_def estimate, Reserves co r service_def action_def estimate
  · obtain ⟨service_def, action_def, estimate, hr⟩ := hres
    rw [call_start_reserves hr] at h
    rcases happ : (EventStore.appendAll (held_posts co r estimate) co.events).1 with e | u
    · rw [happ] at h
      cases h
    · rw [happ] at h
      cases h
      exact ⟨service_def, action_def, estimate, hr, rfl, rfl⟩
  · have hno : ∀ service_def action_def estimate, ¬ Reserves co r service_def action_def estimate :=
      fun service_def action_def estimate hr => hres ⟨service_def, action_def, estimate, hr⟩
    exact absurd (congrArg Prod.fst h) ((call_start_without hno).2 call)

/-! ## What a call leaves behind -/

theorem cache_grows (cid : String) (result : ConnectorResult) :
    Moves CacheGrows (cache cid result) := by
  rintro co ⟨caller, cid'⟩ h
  cases caller with
  | TOOLS => exact h
  | CONNECTOR =>
      show Function.update co.connector_completed cid (some result) cid' ≠ none
      by_cases heq : cid' = cid
      · subst heq
        simp
      · rw [Function.update_of_ne heq]
        exact h

theorem call_start_cache (r : ConnectorRequest) : Moves CacheGrows (call_start r) := fun _ =>
  call_start_moves CacheGrows.refl CacheGrows.trans append_cache (cache_grows _)
    (fun _ _ => .of_eq rfl rfl) (fun _ => on_budget_cache _) (fun _ _ _ _ => gate_cache _ _ _)

theorem call_finish_cache (call : ConnectorCall) (outcome : Except Exn Json) :
    Moves CacheGrows (call_finish call outcome) :=
  call_finish_moves CacheGrows.refl CacheGrows.trans append_cache (cache_grows _)
    (on_budget_cache _) (on_budget_cache _) outcome

/-- The first part leaves every open reservation open. -/
theorem call_start_keeps (r : ConnectorRequest) (co : Company) {rid : Nat} {row : ReservationRow}
    (h : co.budget.require_open rid = .ok row) :
    (call_start r co).2.budget.require_open rid = .ok row := by
  have hkeeps : Keeps (fun _ => False) co (call_start r co).2 :=
    call_start_moves (Keeps.refl _) Keeps.trans (append_keeps _) (fun _ _ _ _ _ h => h)
      (fun _ _ _ _ _ h => h) (fun _ => reserve_keeps _ _ _) (fun _ _ _ _ => gate_keeps _ _ _ _)
  exact hkeeps rid row not_false h

theorem call_finish_keeps (call : ConnectorCall) (outcome : Except Exn Json) :
    Moves (Keeps (· = call.reservation_id)) (call_finish call outcome) :=
  call_finish_moves (R := Keeps (· = call.reservation_id)) (Keeps.refl _) Keeps.trans
    (append_keeps _) (fun _ _ _ _ _ h => h) (release_keeps rfl)
    (commit_keeps (S := (· = call.reservation_id)) rfl _) outcome

theorem release_fail_expenses (call : ConnectorCall) (cls : ConnectorErrorClass) (message : String) :
    Moves SameExpenses (release_fail call cls message) := by
  refine Moves.bind SameExpenses.trans (release_expenses _) fun _ => ?_
  exact fail_moves SameExpenses.refl SameExpenses.trans (fun _ _ => rfl) (fun _ _ => rfl) _ _ _ _ _

/-- An executor that raises costs nothing. -/
theorem call_finish_error_expenses (call : ConnectorCall) (e : Exn) :
    Moves SameExpenses (call_finish call (.error e)) := by
  cases e with
  | connector cls message => cases cls <;> exact release_fail_expenses _ _ _
  | cancelled => exact Moves.raise SameExpenses.refl _
  | _ => exact release_fail_expenses _ _ _

/-- The events that the second part appends after an executor that returned. -/
def finish_posts (co : Company) (call : ConnectorCall) (output : Json) : List Post :=
  let error_post := external_post call.service call.action "error" call.agent_id call.cid
  match call.action_def.sanitizer output with
  | .error _ => [error_post]
  | .ok sanitized =>
    if !call.action_def.conforms sanitized then [error_post]
    else
      match co.budget.commit_tx call.reservation_id call.estimate with
      | .error _ => []
      | .ok (charge, posts, _) => posts ++
        [if charge.ok then external_post call.service call.action "ok" call.agent_id call.cid
         else error_post]

theorem cached_after (cid : String) (result : ConnectorResult) (co : Company) :
    (cache cid result co).2.connector_completed cid ≠ none := by
  simp [cache, Act.write]

/-- An accepted event, then the cache entry. -/
theorem append_cache_ends {post : Post} {co : Company} (cid : String) (result : ConnectorResult)
    (h : co.events.accepts [post] = true) :
    ((do append post; cache cid result; pure result :
      Act Company Exn ConnectorResult) co).2.connector_completed cid ≠ none := by
  have happ : append post co =
      (.ok (), { co with events := (EventStore.appendAll [post] co.events).2 }) := by
    rw [append_run, EventStore.appendAll_of_accepts h]
  rw [bind_of_ok happ]
  exact cached_after cid result _

/-- A failure other than a rate limit is cached once its event is accepted. -/
theorem fail_cached {cid service action actor : String} {cls : ConnectorErrorClass} (message : String)
    {co : Company} (hcls : cls ≠ .RateLimited)
    (h : co.events.accepts [external_post service action "error" actor cid] = true) :
    (fail cid service action cls message actor co).2.connector_completed cid ≠ none := by
  have hfail : fail cid service action cls message actor = (do
      append (external_post service action "error" actor cid)
      cache cid (failure cid cls message)
      pure (failure cid cls message)) := by
    rw [fail, if_pos hcls]
  rw [hfail]
  exact append_cache_ends _ _ h

theorem release_fail_cached {call : ConnectorCall} {cls : ConnectorErrorClass} (message : String)
    {co : Company} (hcls : cls ≠ .RateLimited)
    (hopen : co.budget.is_open call.reservation_id = true)
    (hacc : co.events.accepts
      [external_post call.service call.action "error" call.agent_id call.cid] = true) :
    (release_fail call cls message co).2.connector_completed call.cid ≠ none := by
  obtain ⟨row, hrow⟩ := Budget.is_open_iff.mp hopen
  rw [release_fail, bind_of_ok (release_of_open hrow)]
  exact fail_cached message hcls hacc

/-- **An executor that returned leaves a cache entry**, if the event store accepts the events that
    report it, and the sanitizer is not abandoned. -/
theorem call_finish_cached {call : ConnectorCall} {output : Json} {co : Company}
    (hopen : co.budget.is_open call.reservation_id = true)
    (hsan : abandons call (.ok output) = false)
    (hacc : co.events.accepts (finish_posts co call output) = true) :
    (call_finish call (.ok output) co).2.connector_completed call.cid ≠ none := by
  unfold finish_posts at hacc
  show (complete_call call output co).2.connector_completed call.cid ≠ none
  unfold complete_call
  cases hs : call.action_def.sanitizer output with
  | error e =>
      have he : e.isException = true := by
        simpa [abandons, abandoned, Except.bind, hs] using hsan
      rw [hs] at hacc
      dsimp only
      rw [if_pos he]
      exact release_fail_cached _ (by decide) hopen hacc
  | ok sanitized =>
      rw [hs] at hacc
      dsimp only at hacc ⊢
      by_cases hconf : (!call.action_def.conforms sanitized) = true
      · rw [if_pos hconf] at hacc ⊢
        exact release_fail_cached _ (by decide) hopen hacc
      · obtain ⟨charge, posts, db, htx⟩ := commit_tx_of_open call.estimate hopen
        rw [if_neg hconf, htx] at hacc
        dsimp only at hacc
        rw [EventStore.accepts_append, Bool.and_eq_true] at hacc
        have hrun := commit_of_tx htx
        rw [EventStore.appendAll_of_accepts hacc.1] at hrun
        rw [if_neg hconf, bind_of_ok hrun]
        cases hok : charge.ok with
        | false =>
            have hres : ((EventStore.appendAll posts).after co.events).accepts
                [external_post call.service call.action "error" call.agent_id call.cid] = true := by
              simpa [hok] using hacc.2
            exact fail_cached _ (by decide) hres
        | true =>
            have hres : ((EventStore.appendAll posts).after co.events).accepts
                [external_post call.service call.action "ok" call.agent_id call.cid] = true := by
              simpa [hok] using hacc.2
            exact append_cache_ends _ _ hres

end Connector

end CompanyFactory
