import CompanyFactory.Company.Run

/-!
# `Company.Binding` — what an approved call was approved for

The approval gate looks an approval up by the correlation id alone: it compares neither the requester nor
the payload of the row with the call at hand. An id that is used again for something else is therefore
executed on the approval of its first use. If every id stands for one request (`OneIntent`), then a call
that runs under an approval runs under its own one:

* `RowsMove` — rows keep what they name, and an approved row stays as it is;
* `Bound` — every row, and every waiting call that needed an approval, is what its id stands for;
* `approved_for_this_call` — the result over whole runs.
-/

namespace CompanyFactory

open Act Company Machine

/-- What an approval payload names. -/
structure Subject where
  tool : Option Json
  service : Option Json
  action : Option Json
  args : Option Json
  deriving DecidableEq

def Subject.of (payload : Fields) : Subject :=
  { tool := payload.lookup "tool", service := payload.lookup "service"
    action := payload.lookup "action", args := payload.lookup "args" }

/-- The requester and what is requested. -/
abbrev Intent := String × Subject

def ApprovalRequest.names (req : ApprovalRequest) : Intent := (req.requester_id, .of req.payload)

def Approval.names (row : Approval) : Intent := (row.requester_id, .of row.payload)

namespace InFlight

def cid : InFlight → String
  | .tool call => call.cid
  | .external call => call.cid

/-- The requester, the tool (or service and action) and the arguments of a call that needs an approval;
    `none` if it needs none. -/
def names : InFlight → Option Intent
  | .tool call =>
    if call.tool.requires_approval.kind.isSome then
      some (call.agent_id, { tool := some (.str call.tool.name), service := none, action := none
                             args := some (.obj call.args) })
    else none
  | .external call =>
    if decide (call.risk = .LOW) && call.action_def.auto_approve_threshold.any
        (fun threshold => decide (call.estimate.units ≤ threshold.units)) then none
    else some (call.agent_id, { tool := none, service := some (.str call.service)
                                action := some (.str call.action), args := some (.obj call.args) })

end InFlight

/-! ## What a call of the approvals service does to what rows name -/

namespace Approvals

/-- Rows keep what they name, new rows name what their id stands for, and approved rows stay. -/
def RowsMove (intent : String → Intent) (rows rows' : Rows) : Prop :=
  ∀ rid, (∀ row', find rows' rid = some row' →
      (∃ row, find rows rid = some row ∧ row'.names = row.names) ∨ row'.names = intent rid) ∧
    ∀ row, find rows rid = some row → row.status = .APPROVED → find rows' rid = some row

theorem RowsMove.refl (intent : String → Intent) (rows : Rows) : RowsMove intent rows rows :=
  fun _ => ⟨fun row h => .inl ⟨row, h, rfl⟩, fun _ h _ => h⟩

theorem RowsMove.trans {intent : String → Intent} {a b c : Rows} (hab : RowsMove intent a b)
    (hbc : RowsMove intent b c) : RowsMove intent a c := by
  intro rid
  constructor
  · intro row'' h''
    obtain ⟨row', h', hnames⟩ | hnew := (hbc rid).1 row'' h''
    · obtain ⟨row, h, hnames'⟩ | hnew := (hab rid).1 row' h'
      · exact .inl ⟨row, h, hnames.trans hnames'⟩
      · exact .inr (hnames.trans hnew)
    · exact .inr hnew
  · intro row h happ
    exact (hbc rid).2 row ((hab rid).2 row h happ) happ

theorem SameRequest.names {row row' : Approval} (h : SameRequest row row') :
    row'.names = row.names := by
  rw [Approval.names, Approval.names, h.1, h.2]

theorem decided_row_names (row : Approval) (decider_id : String) (decision : Decision)
    (note : Option String) (now : Time) :
    (decided_row row decider_id decision note now).names = row.names := by
  unfold decided_row
  split
  · cases decision <;> rfl
  · rfl

/-- A request that opens an approval opens it for what its id stands for. -/
def OpensFor (intent : String → Intent) (rows : Rows) : Call → Prop
  | .request req uuid _ => find rows (or_new_id req.request_id uuid) = none →
      req.names = intent (or_new_id req.request_id uuid)
  | _ => True

theorem rows_move {intent : String → Intent} {a : Approvals} {c : Call}
    (h : OpensFor intent a.rows c) : RowsMove intent a.rows (step a c).rows := by
  intro rid
  have hrow := row_step c a rid
  generalize hbefore : find a.rows rid = before at hrow
  generalize find (step a c).rows rid = after at hrow
  cases hrow with
  | same => exact ⟨fun row' h' => .inl ⟨row', h', rfl⟩, fun row h' _ => h'⟩
  | created req uuid now row hc hid hreq hpay hpending hsec =>
      subst hc hid
      refine ⟨fun row' h' => ?_, fun row h' _ => by cases h'⟩
      obtain rfl := Option.some.inj h'
      right
      rw [Approval.names, hreq, hpay]
      exact h hbefore
  | decided row decider_id decision note now hasks hpending =>
      refine ⟨fun row' h' => ?_, fun row' h' happ => ?_⟩
      · obtain rfl := Option.some.inj h'
        exact .inl ⟨row, rfl, decided_row_names _ _ _ _ _⟩
      · obtain rfl := Option.some.inj h'
        simp [hpending] at happ
  | closed row row' hsame hpending _ _ =>
      refine ⟨fun r h' => ?_, fun r h' happ => ?_⟩
      · obtain rfl := Option.some.inj h'
        exact .inl ⟨row, rfl, hsame.names⟩
      · obtain rfl := Option.some.inj h'
        simp [hpending] at happ

end Approvals

/-! ## What a step of the company does to what rows name -/

def Company.RowsMove (intent : String → Intent) (co co' : Company) : Prop :=
  Approvals.RowsMove intent co.approvals co'.approvals

section Moves

variable (intent : String → Intent)

theorem Company.RowsMove.refl (co : Company) : co.RowsMove intent co := Approvals.RowsMove.refl _ _

theorem Company.RowsMove.trans (a b c : Company) (hab : a.RowsMove intent b)
    (hbc : b.RowsMove intent c) : a.RowsMove intent c := Approvals.RowsMove.trans hab hbc

theorem Company.append_rows (post : Post) : Moves (RowsMove intent) (append post) :=
  fun _ => Approvals.RowsMove.refl _ _

theorem Company.on_budget_rows {α : Type} (m : Act Budget Exn α) :
    Moves (RowsMove intent) (on_budget m) := fun _ => Approvals.RowsMove.refl _ _

variable {intent}

theorem Company.gate_rows {req : Option ApprovalRequest} {uuid : String} (now : Time)
    (h : ∀ r, req = some r → r.names = intent (or_new_id r.request_id uuid)) :
    Moves (RowsMove intent) (gate req uuid now) := by
  cases req with
  | none => exact Moves.pure (RowsMove.refl intent) _
  | some req =>
      refine Moves.bind (RowsMove.trans intent) (fun co => ?_)
        fun _ => Moves.pure (RowsMove.refl intent) _
      have hrows : (on_approvals (Approvals.request req uuid now) co).2.approvals =
          (Approvals.step co.approvals_view (.request req uuid now)).rows := by
        rw [Approvals.step, Approvals.handle, bind_pure_state]
        rfl
      rw [RowsMove, hrows]
      exact Approvals.rows_move (a := co.approvals_view) fun _ => h req rfl

end Moves

namespace World

/-- Every id stands for one request: a call that comes to the approval gate, and a request that opens an
    approval, are what their id stands for. -/
def OneIntent (intent : String → Intent) (defs : ToolDefs) (w : World) : Label → Prop
  | .invoke _ i => ∀ tool estimate req, Tools.Reserves defs w.co i tool estimate →
      Tools.gate_request tool i = some req → req.names = intent i.cid
  | .call _ r => ∀ service_def action_def estimate req,
      Connector.Gated w.co r service_def action_def estimate →
      Connector.gate_request service_def action_def estimate r = some req →
      req.names = intent r.cid
  | .service (.approvals c) => Approvals.OpensFor intent w.co.approvals c
  | _ => True

/-- Every row names what its id stands for, and so does every waiting call that needed an approval; its
    approval is there. -/
structure Bound (intent : String → Intent) (w : World) : Prop where
  rows : ∀ cid row, Approvals.find w.co.approvals cid = some row → row.names = intent cid
  flights : ∀ slot c who, w.calls slot = some c → c.names = some who → who = intent c.cid ∧
    ∃ row, Approvals.find w.co.approvals c.cid = some row ∧ row.status = .APPROVED

variable {intent : String → Intent} {defs : ToolDefs} {w : World} {label : Label}

theorem Bound.with_co (h : Bound intent w) {co : Company} (hmove : w.co.RowsMove intent co) :
    Bound intent { w with co } where
  rows cid row hrow := by
    obtain ⟨row', hrow', hnames⟩ | hnew := (hmove cid).1 row hrow
    · exact hnames.trans (h.rows cid row' hrow')
    · exact hnew
  flights slot c who hslot hwho := by
    obtain ⟨hintent, row, hrow, happ⟩ := h.flights slot c who hslot hwho
    exact ⟨hintent, row, (hmove c.cid).2 row hrow happ, happ⟩

theorem Bound.land (h : Bound intent w) (slot : Nat) {co : Company}
    (hmove : w.co.RowsMove intent co) : Bound intent (w.land slot co) where
  rows := (h.with_co hmove).rows
  flights slot' c who hslot' hwho := by
    by_cases heq : slot' = slot
    · rw [heq, land_self] at hslot'
      cases hslot'
    · rw [land_of_ne _ _ heq] at hslot'
      exact (h.with_co hmove).flights slot' c who hslot' hwho

/-- A call that takes off brings its approval with it. -/
theorem Bound.take_off (h : Bound intent w) (slot : Nat) {call : InFlight} {co : Company}
    (hmove : w.co.RowsMove intent co)
    (hcall : ∀ who, call.names = some who → who = intent call.cid ∧
      ∃ row, Approvals.find w.co.approvals call.cid = some row ∧ row.status = .APPROVED) :
    Bound intent (w.take_off slot call co) where
  rows := (h.with_co hmove).rows
  flights slot' c who hslot' hwho := by
    by_cases heq : slot' = slot
    · rw [heq, take_off_self] at hslot'
      cases hslot'
      obtain ⟨hintent, row, hrow, happ⟩ := hcall who hwho
      exact ⟨hintent, row, (hmove _).2 row hrow happ, happ⟩
    · rw [take_off_of_ne _ _ _ heq] at hslot'
      exact (h.with_co hmove).flights slot' c who hslot' hwho

/-! ## The parts of a call -/

theorem invoke_start_rows {i : Invocation} {co : Company}
    (h : ∀ tool estimate req, Tools.Reserves defs co i tool estimate →
      Tools.gate_request tool i = some req → req.names = intent i.cid) :
    co.RowsMove intent (Tools.invoke_start defs i co).2 := by
  have happend := append_rows intent
  refine Tools.invoke_start_moves (RowsMove.refl intent) (RowsMove.trans intent) happend
    (fun _ _ => Approvals.RowsMove.refl _ _) (fun _ => on_budget_rows intent _)
    fun tool estimate rid hres => ?_
  refine Tools.announce_moves (RowsMove.refl intent) (RowsMove.trans intent) happend
    (fun _ _ => Approvals.RowsMove.refl _ _) (on_budget_rows intent _) ?_
  rw [Tools.handle_approval_eq_gate]
  refine gate_rows i.now fun req hreq => ?_
  rw [Tools.gate_request_id req hreq]
  exact h tool estimate req hres hreq

theorem invoke_finish_rows (call : ToolCall) (outcome : ToolOutcome) :
    Moves (RowsMove intent) (Tools.invoke_finish call outcome) :=
  Tools.invoke_finish_moves (RowsMove.refl intent) (RowsMove.trans intent) (append_rows intent)
    (fun _ _ => Approvals.RowsMove.refl _ _) (on_budget_rows intent _) (on_budget_rows intent _) _

theorem call_start_rows {r : ConnectorRequest} {co : Company}
    (h : ∀ service_def action_def estimate req,
      Connector.Gated co r service_def action_def estimate →
      Connector.gate_request service_def action_def estimate r = some req →
      req.names = intent r.cid) :
    co.RowsMove intent (Connector.call_start r co).2 := by
  refine Connector.call_start_moves (RowsMove.refl intent) (RowsMove.trans intent)
    (append_rows intent) (fun _ _ => Approvals.RowsMove.refl _ _)
    (fun _ _ => Approvals.RowsMove.refl _ _) (fun _ => on_budget_rows intent _)
    fun service_def action_def estimate hgated => ?_
  refine gate_rows r.now fun req hreq => ?_
  rw [Connector.gate_request_id req hreq]
  exact h service_def action_def estimate req hgated hreq

theorem call_finish_rows (call : ConnectorCall) (outcome : Except Exn Json) :
    Moves (RowsMove intent) (Connector.call_finish call outcome) :=
  Connector.call_finish_moves (RowsMove.refl intent) (RowsMove.trans intent) (append_rows intent)
    (fun _ _ => Approvals.RowsMove.refl _ _) (on_budget_rows intent _) (on_budget_rows intent _) _

theorem service_rows {op : ServiceOp} (h : OneIntent intent defs w (.service op)) :
    w.co.RowsMove intent (op.run w.co) := by
  cases op with
  | approvals call => exact Approvals.rows_move (a := w.co.approvals_view) h
  | set_total | charge => exact on_budget_rows intent _ w.co
  | append => exact append_rows intent _ w.co
  | register_service =>
      exact ServiceOp.register_service_frame (RowsMove.refl intent) (RowsMove.trans intent)
        (fun _ _ _ => Approvals.RowsMove.refl _ _) _ _ _ w.co
  | set_action_threshold =>
      exact ServiceOp.set_action_threshold_frame (RowsMove.refl intent) (RowsMove.trans intent)
        (fun _ _ => Approvals.RowsMove.refl _ _) _ _ _ w.co
  | set_agent | allow | revoke => exact Approvals.RowsMove.refl _ _

/-- A waiting tool call that needed an approval asked for one, in its own name. -/
theorem request_of_waiting {tool : ToolDef} {i : Invocation} {estimate : Money} {rid : Nat}
    {who : Intent} (h : (InFlight.tool (Tools.waiting tool i estimate rid)).names = some who) :
    ∃ req, Tools.gate_request tool i = some req ∧ req.names = who := by
  cases hkind : tool.requires_approval.kind with
  | none => simp [InFlight.names, Tools.waiting, hkind] at h
  | some kind =>
      refine ⟨Tools.approval_request tool kind i, by rw [Tools.gate_request, hkind]; rfl, ?_⟩
      have hwho : some (Tools.approval_request tool kind i).names = some who := by
        rw [← h, InFlight.names, Tools.waiting, if_pos (by rw [hkind]; rfl)]
        rfl
      exact Option.some.inj hwho

/-- The same for a connector call above its threshold. -/
theorem request_of_calling {service_def : ServiceDef} {action_def : ActionDef} {estimate : Money}
    {r : ConnectorRequest} {rid : Nat} {who : Intent} (hname : service_def.name = r.service)
    (h : (InFlight.external (Connector.waiting service_def action_def r estimate rid)).names =
      some who) :
    ∃ req, Connector.gate_request service_def action_def estimate r = some req ∧
      req.names = who := by
  by_cases hauto : Connector.auto_approved service_def action_def estimate = true
  · rw [InFlight.names, if_pos (by exact hauto)] at h
    cases h
  · rw [InFlight.names, if_neg (by exact hauto)] at h
    refine ⟨Connector.approval_request service_def estimate r,
      by rw [Connector.gate_request, if_neg hauto], ?_⟩
    have hwho : some (Connector.approval_request service_def estimate r).names = some who := by
      rw [← h, ApprovalRequest.names, Connector.approval_request, hname]
      rfl
    exact Option.some.inj hwho

/-- **One step.** -/
theorem Bound.step (h : Bound intent w) (hone : OneIntent intent defs w label) :
    Bound intent (World.step defs w label) := by
  have hs := stepped defs w label
  generalize World.step defs w label = w' at hs ⊢
  cases hs with
  | idle => exact h
  | ran op => exact h.with_co (service_rows hone)
  | turned_away slot i => exact h.with_co (invoke_start_rows hone)
  | refused slot r => exact h.with_co (call_start_rows hone)
  | invoked slot i tool estimate hslot hres hgate hco =>
      refine h.take_off slot (hco ▸ invoke_start_rows hone) fun who hwho => ?_
      obtain ⟨req, hreq, rfl⟩ := request_of_waiting hwho
      rw [Tools.gate_status, hreq] at hgate
      exact ⟨hone tool estimate req hres hreq, row_of_approved hgate⟩
  | called slot r service_def action_def estimate hslot hres hco =>
      refine h.take_off slot (hco ▸ call_start_rows hone) fun who hwho => ?_
      obtain ⟨hgated, hgate, -⟩ := hres
      obtain ⟨req, hreq, rfl⟩ := request_of_calling (Connector.name_of_admitted hgated.2.1) hwho
      rw [Connector.gate_status, hreq] at hgate
      exact ⟨hone service_def action_def estimate req hgated hreq, row_of_approved hgate⟩
  | executed slot outcome call hslot => exact h.land slot (invoke_finish_rows call outcome w.co)
  | answered slot attempt call hslot => exact h.land slot (call_finish_rows call _ w.co)

/-- **An approval is for the call that runs under it.** In every run in which each id stands for one
    request, whenever the executor of a call that needs an approval is running, the row under the call's
    id is approved and names the call's requester, its tool or its service and action, and its
    arguments. -/
theorem approved_for_this_call (intent : String → Intent) (defs : ToolDefs) (co : Company)
    (run : List Label)
    (hrows : ∀ cid row, Approvals.find co.approvals cid = some row → row.names = intent cid)
    (hrun : Along (World.step defs) (OneIntent intent defs) (idle co) run) (slot : Nat)
    (call : InFlight) (who : Intent)
    (hslot : (exec (World.step defs) (idle co) run).calls slot = some call)
    (hwho : call.names = some who) :
    ∃ row, Approvals.find (exec (World.step defs) (idle co) run).co.approvals call.cid = some row ∧
      row.status = .APPROVED ∧ row.names = who := by
  have hidle : Bound intent (idle co) := ⟨hrows, fun slot c who h => by cases h⟩
  have hbound := exec_invariant_along (fun w label h hone => Bound.step h hone) hidle hrun
  obtain ⟨rfl, row, hrow, happ⟩ := hbound.flights slot call who hslot hwho
  exact ⟨row, hrow, happ, hbound.rows _ _ hrow⟩

/-- A call that opens an approval, its two decisions, and a further call under the same id. -/
def approved_run (again : Invocation) : List Label :=
  [.invoke 0 Tools.echo_call, .service (.approvals (.decide "t1" "security" .APPROVE none 1)),
    .service (.approvals (.decide "t1" "user" .APPROVE none 2)), .invoke 0 again]

/-- What the echo call asks for. -/
def echo_intent : Intent :=
  ("eng-1", { tool := some (.str "echo"), service := none, action := none, args := some (.obj []) })

theorem echo_gate {co : Company} {tool : ToolDef} {estimate : Money} {req : ApprovalRequest}
    (hagents : co.agents "eng-1" = some ⟨.MEMBER, true⟩)
    (hres : Tools.Reserves [Tools.echo_tool .EXPENSE] co Tools.echo_call tool estimate)
    (hreq : Tools.gate_request tool Tools.echo_call = some req) : req.names = echo_intent := by
  obtain ⟨-, ⟨parsed, hadm⟩, -⟩ := hres
  have hecho : Tools.run_gates [Tools.echo_tool .EXPENSE] co Tools.echo_call =
      .admitted (Tools.echo_tool .EXPENSE) [] ⟨10⟩ := by
    unfold Tools.run_gates
    rw [show Tools.get [Tools.echo_tool .EXPENSE] Tools.echo_call.tool_name =
      some (Tools.echo_tool .EXPENSE) from rfl]
    dsimp only
    rw [show co.agents Tools.echo_call.agent_id = some ⟨.MEMBER, true⟩ from hagents]
    rfl
  rw [hecho] at hadm
  cases hadm
  cases hreq
  rfl

/-- The call made again runs under its own approval. -/
theorem echo_approved :
    ∃ row, Approvals.find (exec (World.step [Tools.echo_tool .EXPENSE])
        (idle (opened .quiet ⟨10000⟩ "eng-1")) (approved_run Tools.echo_call)).co.approvals "t1" =
          some row ∧
      row.status = .APPROVED ∧ row.names = echo_intent := by
  refine approved_for_this_call (fun _ => echo_intent) _ _ _ ?_ ?_ 0
    (.tool (Tools.waiting (Tools.echo_tool .EXPENSE) Tools.echo_call ⟨10⟩ 1)) echo_intent rfl rfl
  · intro cid row hrow
    cases hrow
  · refine ⟨?_, trivial, trivial, ?_, trivial⟩
    · intro tool estimate req hres hreq
      exact echo_gate rfl hres hreq
    · intro tool estimate req hres hreq
      exact echo_gate rfl hres hreq

/-- The further call has other arguments, and runs on the approval of the first. -/
theorem echo_approved_for_another_call :
    ∃ call row who, (exec (World.step [Tools.echo_tool .EXPENSE])
        (idle (opened .quiet ⟨10000⟩ "eng-1"))
        (approved_run { Tools.echo_call with args := [("to", .str "mallory")] })).calls 0 =
          some call ∧
      call.names = some who ∧
      Approvals.find (exec (World.step [Tools.echo_tool .EXPENSE])
        (idle (opened .quiet ⟨10000⟩ "eng-1"))
        (approved_run { Tools.echo_call with args := [("to", .str "mallory")] })).co.approvals
          call.cid = some row ∧ row.names ≠ who := by
  refine ⟨.tool (Tools.waiting (Tools.echo_tool .EXPENSE)
    { Tools.echo_call with args := [("to", .str "mallory")] } ⟨10⟩ 1), _, _, rfl, rfl, rfl, ?_⟩
  decide

end World

end CompanyFactory
