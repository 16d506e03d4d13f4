import CompanyFactory.BoardApi.Board
import CompanyFactory.Identity.Tree
import CompanyFactory.Orchestrator.Traffic

/-!
# `Factory.Staff` — an organisation at work

The organisation and the orchestrator of one company, over one roster and one event store. The claim on them is
that an agent who is suspended or fired is silent: nothing that it sends is queued, and nothing is dispatched to it.

`_send` asks whether its sender is active, and **not whether it is suspended**; the consumers and `drain` ask
neither of the two about the recipient of what they find in the queue.

* `fired_iff` — an agent is fired in the roster exactly if some `fire` of the run has fired it.
* `silence` — in a run, who is suspended or fired is silent exactly if every step is `discreet`.
-/

namespace CompanyFactory

open Act Machine

namespace Staff

open BoardApi Identity Orchestrator

inductive Label where
  | org (label : Org.Label)
  | orchestrator (label : Orchestrator.Label)

/-- The organisation, over the event store that it shares with the orchestrator. -/
def org (lower : String → String) (c : CompanyHandle) : Org := { agents := c.identity, events := c.events, lower }

def step (lower : String → String) (c : CompanyHandle) : Label → CompanyHandle
  | .org label =>
    let o := Org.step (org lower c) label
    { c.set_events o.events with identity := o.agents }
  | .orchestrator label => { c with orchestrator := Orchestrator.step c.orchestra label }

/-- A company without agents. -/
def opened (events : EventStore) (rate : RateLimitConfig) (loop_config : LoopDetectorConfig)
    (lower : String → String) : CompanyHandle :=
  { identity := [], orchestrator := Orchestrator.fresh [] events rate loop_config lower }

/-! ## Who is fired -/

/-- Does the roster say that the agent is fired? -/
def fired (agents : List Agent) (a : String) : Bool :=
  (Org.find agents a).any fun row => decide (row.status = .FIRED)

/-- The step fires the agent. -/
def fires (lower : String → String) (a : String) (c : CompanyHandle) (label : Label) : Prop :=
  (∃ now f, label = .org (.fire now f) ∧ f.target_id = a) ∧ fired (step lower c label).identity a = true

section Fired

variable {agents : List Agent} {a : String}

theorem fired_map {g : Agent → Agent} (hid : ∀ row, (g row).id = row.id) :
    fired (agents.map g) a = (Org.find agents a).any fun row => decide ((g row).status = .FIRED) := by
  rw [fired, Org.find_map hid, Option.any_map]

/-- Rows that keep their ids and statuses. -/
theorem fired_map_same {g : Agent → Agent} (hid : ∀ row, (g row).id = row.id)
    (hstatus : ∀ row, (g row).status = row.status) : fired (agents.map g) a = fired agents a := by
  rw [fired_map hid]
  simp only [hstatus]
  rfl

theorem fired_insert {row : Agent} (hstatus : row.status = .ACTIVE) :
    fired (agents ++ [row]) a = fired agents a := by
  unfold fired Org.find
  rw [Table.find_insert]
  cases Table.find Agent.id agents a with
  | some old => rfl
  | none =>
      by_cases hid : row.id = a
      · simp [hid, hstatus]
      · simp [hid]

/-- **Fired once, fired for good**, and only by a `fire`. -/
theorem fired_written {label : Org.Label} {rows : List Agent} (h : Org.Written agents label rows) :
    (fired agents a = true → fired rows a = true) ∧
      (fired rows a = true → fired agents a = true ∨ ∃ now f, label = .fire now f ∧ f.target_id = a) := by
  cases h with
  | kept _ => exact ⟨id, .inl⟩
  | added agent_id now hire _ _ =>
      rw [fired_insert rfl]
      exact ⟨id, .inl⟩
  | moved r _ _ =>
      rw [Org.set_manager_eq, fired_map_same (Org.reassigned_id r) (Org.reassigned_status r)]
      exact ⟨id, .inl⟩
  | repaired by_ ids _ _ =>
      have hsame : fired (Bootstrap.hang_under ids.ceo agents) a = fired agents a :=
        fired_map_same (Org.hung_id ids.ceo) (Org.hung_status ids.ceo)
      rw [hsame]
      exact ⟨id, .inl⟩
  | fired now f _ =>
      rw [Org.dismiss_eq, fired_map (Org.dismissed_id f now), fired]
      cases hrow : Org.find agents a with
      | none => exact ⟨nofun, nofun⟩
      | some row =>
          refine ⟨fun hold => ?_, fun hnew => ?_⟩
          · have hstatus : row.status = .FIRED := by simpa using hold
            have hkept : (Org.dismissed f now row).status = .FIRED := by
              unfold Org.dismissed
              split
              · rfl
              · split <;> exact hstatus
            simpa using hkept
          · by_cases htarget : f.target_id = a
            · exact .inr ⟨now, f, rfl, htarget⟩
            · have hid : row.id = a := Org.find_id hrow
              have hother : row.id ≠ f.target_id := fun heq => htarget (heq.symm.trans hid)
              have hstatus : (Org.dismissed f now row).status = row.status := by
                rw [Org.dismissed, if_neg hother]
                split <;> rfl
              rw [Option.any_some, hstatus] at hnew
              exact .inl hnew

end Fired

/-! ## Silence -/

/-- Nothing that the agent sends is queued in the step, and nothing is dispatched to it. -/
def Silent (a : String) (o o' : Orchestrator) : Prop :=
  (∀ env ∈ o'.sent.drop o.sent.length, env.from_agent ≠ some a) ∧ ∀ env, Begun o o' env → env.to_agent ≠ a

/-- Who has to be silent. -/
def Barred (c : CompanyHandle) (a : String) : Prop :=
  is_suspended c.orchestrator a = true ∨ fired c.identity a = true

/-- **A discreet step**: no suspended agent sends what the other gates let pass, and where a consumer or a drain would
    dispatch something to who is suspended or fired, the queue is empty. -/
def discreet (c : CompanyHandle) : Label → Prop
  | .orchestrator (.send req) => ∀ a, req.from_agent = some a → is_suspended c.orchestrator a = true →
      accepts c.orchestra req = false
  | .orchestrator (.poll n) => ∀ task, c.orchestrator.tasks[n]? = some task → task.phase = .idle →
      task.cancelling = false → c.orchestrator.stop_event = false → c.orchestrator.accepting = true →
      Barred c task.handle.id → c.orchestrator.queue.bucket task.handle.id = []
  | .orchestrator (.drain agent) => c.orchestrator.accepting = true → Barred c agent.id →
      c.orchestrator.queue.bucket agent.id = []
  | _ => True

section Step

variable {c : CompanyHandle} {a : String}

/-- The orchestrator asks the roster. -/
theorem is_active_orchestra (c : CompanyHandle) (a : String) :
    is_active c.orchestra a = (Org.find c.identity a).any Agent.active := by
  have hrow : c.orchestra.find_row a = (Org.find c.identity a).map org_row := by
    show List.find? _ (c.identity.map org_row) = _
    rw [List.find?_map]
    rfl
  unfold is_active
  rw [hrow]
  cases Org.find c.identity a with
  | none => rfl
  | some row => rfl

/-- A fired agent is not active. -/
theorem inactive_of_fired (h : fired c.identity a = true) : is_active c.orchestra a = false := by
  rw [is_active_orchestra]
  unfold fired at h
  cases hfind : Org.find c.identity a with
  | none => rfl
  | some row =>
      rw [hfind] at h
      have hstatus : row.status = .FIRED := by simpa using h
      simp [Agent.active, hstatus]

/-- **A fired agent sends nothing**: it is not active. -/
theorem rejects_fired {req : SendRequest} (hfrom : req.from_agent = some a) (h : fired c.identity a = true) :
    accepts c.orchestra req = false := by
  have hsender : req.from_agent.all (is_active c.orchestra) = false := by
    rw [hfrom, Option.all_some]
    exact inactive_of_fired h
  simp [accepts, hsender]

/-- The silence of all who have to be silent. -/
def AllSilent (c : CompanyHandle) (o' : Orchestrator) : Prop := ∀ a, Barred c a → Silent a c.orchestra o'

theorem send_discreet_iff (req : SendRequest) : discreet c (.orchestrator (.send req)) ↔
    AllSilent c (Orchestrator.step c.orchestra (.send req)) := by
  have hqueues := send_queues_exactly c.orchestra req
  have hbegun : ∀ env, ¬ Begun c.orchestra (Orchestrator.step c.orchestra (.send req)) env := by
    intro env
    rw [begun_iff]
    nofun
  have hstep : Orchestrator.step c.orchestra (.send req) = (send req c.orchestra).2 := rfl
  constructor
  · intro hdiscreet a hbarred
    refine ⟨fun env hmem hfrom => ?_, fun env h => absurd h (hbegun env)⟩
    rw [hstep] at hmem
    cases haccepts : accepts c.orchestra req with
    | true =>
        rw [haccepts] at hqueues
        have hsent : (send req c.orchestra).2.sent = c.orchestra.sent ++ [new_envelope c.orchestra req] := hqueues
        rw [hsent, List.drop_left] at hmem
        rw [List.mem_singleton.mp hmem] at hfrom
        rcases hbarred with hsuspended | hfired
        · rw [hdiscreet a hfrom hsuspended] at haccepts
          cases haccepts
        · rw [rejects_fired hfrom hfired] at haccepts
          cases haccepts
    | false =>
        rw [haccepts] at hqueues
        obtain ⟨notices, hsent, hnotices⟩ := hqueues
        rw [hsent, List.drop_left] at hmem
        rw [hnotices env hmem] at hfrom
        cases hfrom
  · intro hsilent a hfrom hsuspended
    by_contra haccepts
    rw [Bool.not_eq_false] at haccepts
    rw [haccepts] at hqueues
    have hsent : (send req c.orchestra).2.sent = c.orchestra.sent ++ [new_envelope c.orchestra req] := hqueues
    refine (hsilent a (.inl hsuspended)).1 (new_envelope c.orchestra req) ?_ hfrom
    rw [hstep, hsent, List.drop_left]
    exact List.mem_cons_self

/-- A step that sends nothing is silent if it dispatches nothing to who is barred. -/
theorem all_silent_iff {label : Orchestrator.Label} (hlabel : ∀ req, label ≠ .send req) :
    AllSilent c (Orchestrator.step c.orchestra label) ↔
      ∀ env, Begins c.orchestra label env → ¬ Barred c env.to_agent := by
  constructor
  · intro hsilent env hbegins hbarred
    exact (hsilent _ hbarred).2 env ((begun_iff _ _ _).mpr hbegins) rfl
  · intro hnone a hbarred
    refine ⟨fun env hmem => ?_, fun env hbegun hto => ?_⟩
    · rw [step_sent hlabel, List.drop_length] at hmem
      exact absurd hmem List.not_mem_nil
    · rw [begun_iff] at hbegun
      exact hnone env hbegun (hto ▸ hbarred)

/-- A queue that is asked for its head. -/
theorem bucket_empty_iff {o : Orchestrator} {agent_id : String} {P : String → Prop} :
    (P agent_id → o.queue.bucket agent_id = []) ↔
      ∀ env, (o.queue.bucket agent_id).head? = some env → ¬ P env.to_agent := by
  constructor
  · intro hempty env hhead hP
    rw [mem_bucket_of_head hhead] at hP
    rw [hempty hP] at hhead
    cases hhead
  · intro hnone hP
    by_contra hne
    have hhead := List.head?_eq_some_head hne
    refine hnone _ hhead ?_
    rwa [mem_bucket_of_head hhead]

theorem poll_discreet_iff (n : Nat) : discreet c (.orchestrator (.poll n)) ↔
    ∀ env, Begins c.orchestra (.poll n) env → ¬ Barred c env.to_agent := by
  constructor
  · intro hdiscreet env hbegins
    cases hbegins with
    | poll _ task _ hn hidle hgoes hstop haccepting hhead =>
        exact bucket_empty_iff.mp (hdiscreet task hn hidle hgoes hstop haccepting) env hhead
  · intro hnone task hn hidle hgoes hstop haccepting
    refine bucket_empty_iff.mpr fun env hhead => ?_
    exact hnone env (.poll n task env hn hidle hgoes hstop haccepting hhead)

theorem drain_discreet_iff (agent : AgentHandle) : discreet c (.orchestrator (.drain agent)) ↔
    ∀ env, Begins c.orchestra (.drain agent) env → ¬ Barred c env.to_agent := by
  constructor
  · intro hdiscreet env hbegins
    cases hbegins with
    | drain _ _ haccepting hhead => exact bucket_empty_iff.mp (hdiscreet haccepting) env hhead
  · intro hnone haccepting
    refine bucket_empty_iff.mpr fun env hhead => ?_
    exact hnone env (.drain agent env haccepting hhead)

/-- **Who is barred is silent in a step, exactly if the step is discreet.** -/
theorem discreet_iff (lower : String → String) (c : CompanyHandle) (label : Label) :
    discreet c label ↔ AllSilent c (step lower c label).orchestrator := by
  cases label with
  | org label =>
      refine iff_of_true trivial fun a _ => ⟨fun env hmem => ?_, fun env hbegun => ?_⟩
      · have hdrop : env ∈ c.orchestrator.sent.drop c.orchestrator.sent.length := hmem
        rw [List.drop_length] at hdrop
        exact absurd hdrop List.not_mem_nil
      · have hnothing : BeginsNothing c.orchestra (step lower c (.org label)).orchestrator := .of_eq rfl
        exact absurd hbegun (hnothing.not_begun env)
  | orchestrator label =>
      show _ ↔ AllSilent c (Orchestrator.step c.orchestra label)
      cases label with
      | send req => exact send_discreet_iff req
      | poll n =>
          refine (poll_discreet_iff n).trans (all_silent_iff ?_).symm
          intro _ h
          cases h
      | drain agent =>
          refine (drain_discreet_iff agent).trans (all_silent_iff ?_).symm
          intro _ h
          cases h
      | _ =>
          refine Iff.trans ?_ (all_silent_iff ?_).symm
          · exact iff_of_true trivial fun _ => nofun
          · intro _ h
            cases h

end Step

/-! ## Runs -/

section Runs

variable {lower : String → String} {a : String}

theorem fired_step (c : CompanyHandle) (label : Label) :
    (fired c.identity a = true → fired (step lower c label).identity a = true) ∧
      (fired (step lower c label).identity a = true → fired c.identity a = true ∨ fires lower a c label) := by
  cases label with
  | orchestrator label => exact ⟨id, .inl⟩
  | org label =>
      obtain ⟨hstays, hnew⟩ := fired_written (a := a) (Org.step_written (org lower c) label)
      refine ⟨hstays, fun hfired => ?_⟩
      obtain hold | ⟨now, f, rfl, htarget⟩ := hnew hfired
      · exact .inl hold
      · exact .inr ⟨⟨now, f, rfl, htarget⟩, hfired⟩

/-- **The roster knows who was fired**: from a roster without fired agents, exactly those that a `fire` has fired. -/
theorem fired_iff {c : CompanyHandle} (hnone : fired c.identity a = false) (run : List Label) :
    fired (exec (step lower) c run).identity a = true ↔ Happens (step lower) (fires lower a) c run := by
  constructor
  · intro hfired
    induction run using List.reverseRecOn with
    | nil =>
        rw [exec_nil, hnone] at hfired
        cases hfired
    | append_singleton run label ih =>
        rw [exec_snoc] at hfired
        rcases (fired_step _ label).2 hfired with hold | hfires
        · exact (ih hold).append _
        · exact .last hfires
  · rintro ⟨pre, label, post, rfl, -, hfired⟩
    rw [exec_append]
    have hstays : ∀ c label, fired (c : CompanyHandle).identity a = true →
        fired (step lower c label).identity a = true := fun c label => (fired_step c label).1
    show (fun c : CompanyHandle => fired c.identity a = true) (exec _ _ _)
    exact exec_invariant hstays hfired post

end Runs

/-- **Suspended and fired agents are silent, exactly in discreet runs.** In a run from a company without agents, whoever
    is suspended, or was fired by a `fire` of the run, sends nothing that is queued and has nothing dispatched to it, in
    whatever step comes next, if and only if every step is discreet. -/
theorem silence (events : EventStore) (rate : RateLimitConfig) (loop_config : LoopDetectorConfig)
    (lower : String → String) (run : List Label) :
    Along (step lower) discreet (opened events rate loop_config lower) run ↔
      ∀ pre label post, run = pre ++ label :: post → ∀ a,
        is_suspended (exec (step lower) (opened events rate loop_config lower) pre).orchestrator a = true ∨
          Happens (step lower) (fires lower a) (opened events rate loop_config lower) pre →
        Silent a (exec (step lower) (opened events rate loop_config lower) pre).orchestrator
          (exec (step lower) (opened events rate loop_config lower) (pre ++ [label])).orchestrator := by
  rw [along_iff_cut]
  refine forall_congr' fun pre => forall_congr' fun label => forall_congr' fun post => forall_congr' fun _ => ?_
  rw [discreet_iff lower, exec_snoc]
  refine forall_congr' fun a => ?_
  have hnone : fired (opened events rate loop_config lower).identity a = false := rfl
  rw [Barred, fired_iff hnone pre]
  exact Iff.rfl

/-- A CEO, and a member below it. -/
def two_hired : List Label :=
  [.org (.add_agent "ceo" 1
      { role := .CEO, persona_ref := "default", reports_to := none, requested_by := "board", via_hr := false
        bootstrap := true }),
    .org (.add_agent "eng" 2
      { role := .MEMBER, persona_ref := "default", reports_to := some "ceo", requested_by := "hr", via_hr := true }),
    .orchestrator (.register ⟨"ceo", 0⟩), .orchestrator (.register ⟨"eng", 1⟩), .orchestrator .start]

def report : SendRequest := { greeting with from_agent := some "eng", to_agent := "ceo" }

/-- The member is suspended. -/
def eng_suspended : List Label := two_hired ++ [.orchestrator (.suspend "eng" "security")]

/-- The member is fired, with a message in its queue. -/
def eng_fired : List Label :=
  two_hired ++ [.orchestrator (.send greeting), .org (.fire 3
    { actor_id := "ceo", target_id := "eng", reason := "closing the product line", via_hr := true })]

/-- **The suspended member sends a message that is queued, and to the fired one a message is dispatched.** -/
theorem silence_broken :
    ¬ (∀ pre label a, is_suspended (exec (step id) (opened .quiet {} {} id) pre).orchestrator a = true →
      Silent a (exec (step id) (opened .quiet {} {} id) pre).orchestrator
        (exec (step id) (opened .quiet {} {} id) (pre ++ [label])).orchestrator) ∧
    ¬ (∀ pre label a, Happens (step id) (fires id a) (opened .quiet {} {} id) pre →
      Silent a (exec (step id) (opened .quiet {} {} id) pre).orchestrator
        (exec (step id) (opened .quiet {} {} id) (pre ++ [label])).orchestrator) := by
  constructor
  · intro hall
    obtain ⟨hsends, -⟩ := hall eng_suspended (.orchestrator (.send report)) "eng" (by decide +kernel)
    have hspeaks : ∃ env ∈ (exec (step id) (opened .quiet {} {} id)
        (eng_suspended ++ [.orchestrator (.send report)])).orchestrator.sent.drop
          (exec (step id) (opened .quiet {} {} id) eng_suspended).orchestrator.sent.length,
        env.from_agent = some "eng" := by decide +kernel
    obtain ⟨env, hmem, hfrom⟩ := hspeaks
    exact hsends env hmem hfrom
  · intro hall
    have hfired : fired (exec (step id) (opened .quiet {} {} id) eng_fired).identity "eng" = true := by
      decide +kernel
    obtain ⟨-, hhears⟩ := hall eng_fired (.orchestrator (.poll 1)) "eng" ((fired_iff rfl _).mp hfired)
    have hwaits : delivering (exec (step id) (opened .quiet {} {} id) eng_fired).orchestrator 1 = none := by
      decide +kernel
    have hbegins : (delivering (exec (step id) (opened .quiet {} {} id)
        (eng_fired ++ [.orchestrator (.poll 1)])).orchestrator 1).map MessageEnvelope.to_agent = some "eng" := by
      decide +kernel
    obtain ⟨env, henv, hto⟩ := Option.map_eq_some_iff.mp hbegins
    exact hhears env ⟨1, henv, by rw [hwaits]; nofun⟩ hto

end Staff

end CompanyFactory
