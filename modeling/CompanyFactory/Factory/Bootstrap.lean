import CompanyFactory.Identity.Org

/-!
# `Factory.Bootstrap` — the core agents and the repair at startup

`bootstrap_core_agents` hires the CEO, HR and Security of a new company. Every later start of the company looks
the three up again, **by the time of their hiring**, and hangs the active members without a manager under the
CEO that it has found.

`Org.step` is the organisation as a system. `step_cases` lists what one step can make of the table, with the
conditions under which it does; the invariants are proved from this list, and no proof about runs looks into a
call again.
-/

namespace CompanyFactory

open Act

namespace Bootstrap

open Identity Org

structure CoreIds where
  ceo : String
  hr : String
  security : String
  deriving DecidableEq

/-- `_bootstrap_core_agents` -/
def bootstrap_core_agents (ids : CoreIds) (now : Role → Time) (requested_by : String) :
    Act Org Halt (Agent × Agent × Agent) := do
  let ceo ← add_agent ids.ceo (now .CEO)
    { role := .CEO, persona_ref := "default", reports_to := none, requested_by, via_hr := false,
      bootstrap := true, first_name := "Alex", last_name := "Morgan" }
  let hr ← add_agent ids.hr (now .HR)
    { role := .HR, persona_ref := "default", reports_to := some ceo.id, requested_by, via_hr := false,
      bootstrap := true, first_name := "Jordan", last_name := "Lee" }
  let sec ← add_agent ids.security (now .SECURITY)
    { role := .SECURITY, persona_ref := "default", reports_to := some ceo.id, requested_by,
      via_hr := false, bootstrap := true, first_name := "Casey", last_name := "Chen" }
  pure (ceo, hr, sec)

/-- The first active agent with the role. -/
def first_with (agents : List Agent) (role : Role) : Option Agent :=
  (all_active agents).find? (fun a => a.role = role)

def missing_roles (agents : List Agent) : Exn :=
  let found := [Role.CEO, .HR, .SECURITY].filter (fun role => (first_with agents role).isSome)
  .other "RuntimeError" ("company missing bootstrap roles; have [" ++
    ", ".intercalate (found.map fun role => "'" ++ role.value ++ "'") ++ "]")

/-- `_existing_core_ids` -/
def existing_core_ids (agents : List Agent) : Except Halt CoreIds :=
  match first_with agents .CEO, first_with agents .HR, first_with agents .SECURITY with
  | some ceo, some hr, some sec => .ok { ceo := ceo.id, hr := hr.id, security := sec.id }
  | _, _, _ => .error (.raises (missing_roles agents))

/-- `role = 'member' AND status = 'active' AND reports_to IS NULL` -/
def unmanaged (a : Agent) : Bool :=
  decide (a.role = .MEMBER) && a.active && decide (a.reports_to = none)

def repaired_post (ceo_id by_ : String) (a : Agent) : Post :=
  let display := " ".intercalate ([a.first_name, a.last_name].filter (fun part => decide (part ≠ "")))
  let display := if display = "" then a.id else display
  let title := match a.role_title with
    | some title => if title = "" then "" else " (" ++ title ++ ")"
    | none => ""
  { kind := .MESSAGE_SENT
    payload := [("from_agent", .str "system"), ("to_agent", .str ceo_id),
      ("content", .str ("Repaired unmanaged agent " ++ display ++ title ++ ". Agent ID " ++ a.id ++
        " now reports to the CEO."))]
    actor := some by_ }

/-- The `UPDATE`s of the repair. -/
def hang_under (ceo_id : String) (agents : List Agent) : List Agent :=
  agents.map (fun a => if unmanaged a then { a with reports_to := some ceo_id } else a)

/-- `_repair_unmanaged_members_to_ceo` -/
def repair_unmanaged_members_to_ceo (ids : CoreIds) (by_ : String) : Act Org Halt Unit := do
  let agents ← Act.read Org.agents
  if ids.ceo = "" ∨ agents.filter unmanaged = [] then pure ()
  else do
    set_agents (hang_under ids.ceo)
    appendAll ((agents.filter unmanaged).map (repaired_post ids.ceo by_))

/-- What `build_company` does to the organisation of a company that exists. -/
def restart (by_ : String) : Act Org Halt Unit := do
  let agents ← Act.read Org.agents
  let ids ← Act.ofExcept (existing_core_ids agents)
  repair_unmanaged_members_to_ceo ids by_

end Bootstrap

/-! ## Steps -/

namespace Org

open Identity Bootstrap

inductive Label where
  | add_agent (agent_id : String) (now : Time) (hire : Hire)
  | reassign (r : Reassignment)
  | fire (now : Time) (f : Firing)
  | restart (by_ : String)
  deriving DecidableEq

def step (o : Org) : Label → Org
  | .add_agent agent_id now hire => (add_agent agent_id now hire).after o
  | .reassign r => (reassign r).after o
  | .fire now f => (fire now f).after o
  | .restart by_ => (restart by_).after o

@[simp] theorem step_add_agent (o : Org) (agent_id : String) (now : Time) (hire : Hire) :
    step o (.add_agent agent_id now hire) = (add_agent agent_id now hire o).2 := rfl

@[simp] theorem step_reassign (o : Org) (r : Reassignment) : step o (.reassign r) = (reassign r o).2 := rfl

@[simp] theorem step_fire (o : Org) (now : Time) (f : Firing) : step o (.fire now f) = (fire now f o).2 := rfl

/-- The organisation of a company that has just been bootstrapped. -/
def founded (events : EventStore) (lower : String → String) (ids : CoreIds) (now : Role → Time)
    (requested_by : String) : Org :=
  (bootstrap_core_agents ids now requested_by).after { agents := [], events, lower }

/-- What a label can make of the table. -/
inductive Written (agents : List Agent) : Label → List Agent → Prop where
  | kept (label : Label) : Written agents label agents
  | added (agent_id : String) (now : Time) (hire : Hire) (hcheck : check_hire agents agent_id hire = .ok ())
      (hnew : find agents agent_id = none) :
      Written agents (.add_agent agent_id now hire) (agents ++ [hired agent_id now hire])
  | moved (r : Reassignment) (target : Agent) (hcheck : check_reassign agents r = .ok (target, true)) :
      Written agents (.reassign r) (set_manager r.target_id r.new_reports_to agents)
  | fired (now : Time) (f : Firing) (hguard : fire_guard agents f = none) :
      Written agents (.fire now f) (dismiss f.target_id f.actor_id f.reason now agents)
  | repaired (by_ : String) (ids : CoreIds) (hids : existing_core_ids agents = .ok ids)
      (hne : ids.ceo ≠ "") :
      Written agents (.restart by_) (hang_under ids.ceo agents)

variable {o : Org}

/-- After the rows are written, only events follow. -/
theorem written_then {α : Type} {label : Label} {f : List Agent → List Agent} {rest : Act Org Halt α}
    (hrest : Moves SameAgents rest) (h : Written o.agents label (f o.agents)) :
    Written o.agents label ((set_agents f >>= fun _ => rest) o).2.agents := by
  have hsame : SameAgents { o with agents := f o.agents } (rest { o with agents := f o.agents }).2 :=
    hrest _
  show Written o.agents label (rest { o with agents := f o.agents }).2.agents
  rw [hsame]
  exact h

theorem append_pure_same {α : Type} (post : Post) (a : α) :
    Moves SameAgents (append post >>= fun _ => (pure a : Act Org Halt α)) :=
  .bind SameAgents.trans (append_same post) fun _ => .pure SameAgents.refl a

section AddAgent

variable {agent_id : String} {hire : Hire}

/-- Who is found once the new agent is in the table. -/
theorem find_added {agents : List Agent} {now : Time} (hnew : find agents agent_id = none) (x : String) :
    find (agents ++ [hired agent_id now hire]) x =
      if x = agent_id then some (hired agent_id now hire) else find agents x := by
  have hid : (hired agent_id now hire).id = agent_id := rfl
  by_cases hx : x = agent_id
  · rw [if_pos hx, hx]
    unfold find at hnew ⊢
    rw [Table.find_insert, hnew, if_pos hid]
    rfl
  · rw [if_neg hx]
    exact Table.find_insert_ne fun heq => hx (heq.symm.trans hid)

/-- A hire that does not pass its checks, or whose id is taken, raises and writes nothing. -/
theorem add_agent_refused (now : Time)
    (h : ¬ (check_hire o.agents agent_id hire = .ok () ∧ find o.agents agent_id = none)) :
    ∃ e, add_agent agent_id now hire o = (.error e, o) := by
  rw [add_agent, read_bind]
  cases hcheck : check_hire o.agents agent_id hire with
  | error e => exact ⟨e, rfl⟩
  | ok u =>
      have htaken : (find o.agents (hired agent_id now hire).id).isSome = true := by
        rw [Option.isSome_iff_ne_none]
        exact fun hnew => h ⟨hcheck, hnew⟩
      rw [ofExcept_ok_bind, insert, if_pos htaken]
      exact ⟨_, rfl⟩

/-- **A hire that passes its checks adds its row**, whether or not the store takes the event behind it. -/
theorem add_agent_passed (now : Time) (hcheck : check_hire o.agents agent_id hire = .ok ())
    (hnew : find o.agents agent_id = none) : add_agent agent_id now hire o =
      (((EventStore.append (hired_post agent_id hire) o.events).1.mapError Halt.raises).map fun _ =>
          hired agent_id now hire,
        { o with
          agents := o.agents ++ [hired agent_id now hire]
          events := (EventStore.append (hired_post agent_id hire) o.events).2 }) := by
  have hfree : ¬ (find o.agents (hired agent_id now hire).id).isSome = true := by
    rw [show (hired agent_id now hire).id = agent_id from rfl, hnew]
    exact Bool.false_ne_true
  rw [add_agent, read_bind, hcheck, ofExcept_ok_bind, insert, if_neg hfree, ofExcept_ok_bind, set_agents, write_bind,
    bind_run, append]
  rcases EventStore.append (hired_post agent_id hire) o.events with ⟨_ | _, _⟩ <;> rfl

theorem add_agent_written (agent_id : String) (now : Time) (hire : Hire) :
    Written o.agents (.add_agent agent_id now hire) (add_agent agent_id now hire o).2.agents := by
  by_cases h : check_hire o.agents agent_id hire = .ok () ∧ find o.agents agent_id = none
  · rw [add_agent_passed now h.1 h.2]
    exact .added agent_id now hire h.1 h.2
  · obtain ⟨e, he⟩ := add_agent_refused now h
    rw [he]
    exact .kept _

/-- A hire that returns has passed its checks. -/
theorem add_agent_ok {a : Agent} {o' : Org} {now : Time} (h : add_agent agent_id now hire o = (.ok a, o')) :
    a = hired agent_id now hire ∧ o'.agents = o.agents ++ [hired agent_id now hire] := by
  by_cases hpass : check_hire o.agents agent_id hire = .ok () ∧ find o.agents agent_id = none
  · rw [add_agent_passed now hpass.1 hpass.2] at h
    obtain ⟨hresult, rfl⟩ := Prod.mk.inj h
    refine ⟨?_, rfl⟩
    rcases happend : (EventStore.append (hired_post agent_id hire) o.events).1 with _ | _
    · rw [happend] at hresult; cases hresult
    · rw [happend] at hresult; exact (Except.ok.inj hresult).symm
  · obtain ⟨e, he⟩ := add_agent_refused now hpass
    rw [he] at h
    cases h

end AddAgent

theorem reassign_written (r : Reassignment) :
    Written o.agents (.reassign r) (reassign r o).2.agents := by
  rw [reassign, read_bind]
  cases hcheck : check_reassign o.agents r with
  | error e => exact .kept _
  | ok checked =>
      obtain ⟨target, moves⟩ := checked
      cases moves with
      | false => exact .kept _
      | true =>
          rw [ofExcept_ok_bind]
          exact written_then (append_pure_same _ _) (.moved r target hcheck)

theorem do_fire_written (now : Time) (f : Firing) (hguard : fire_guard o.agents f = none) :
    Written o.agents (.fire now f) (do_fire now f o).2.agents := by
  rw [do_fire, read_bind]
  cases get o.agents f.target_id with
  | error e => exact .kept _
  | ok target =>
      have hended : ended (some (Except.ok target)) = .ok target := rfl
      rw [hended, ofExcept_ok_bind]
      split
      · exact .kept _
      · exact written_then (appendAll_same _) (.fired now f hguard)

/-- A firing that is not denied has passed the guards. -/
theorem guard_of_not_denied {lower : String → String} {agents : List Agent} {f : Firing}
    (h : fire_denied lower agents f = .ok none) : fire_guard agents f = none := by
  unfold fire_denied at h
  split at h
  · cases h
  · assumption

theorem fire_written (now : Time) (f : Firing) :
    Written o.agents (.fire now f) (fire now f o).2.agents := by
  rw [fire, read_bind, id]
  cases hdenied : fire_denied o.lower o.agents f with
  | error e => exact .kept _
  | ok refusal =>
      rw [ofExcept_ok_bind]
      cases refusal with
      | some reason => exact .kept _
      | none =>
          have hfired := do_fire_written now f (guard_of_not_denied hdenied)
          rw [← bind_pure_state (do_fire now f) fun _ => ({ result := .DIRECT_FIRED } : FireOutcome)]
            at hfired
          exact hfired

theorem restart_written (by_ : String) :
    Written o.agents (.restart by_) (restart by_ o).2.agents := by
  rw [restart, read_bind]
  cases hids : existing_core_ids o.agents with
  | error e => exact .kept _
  | ok ids =>
      rw [ofExcept_ok_bind, repair_unmanaged_members_to_ceo, read_bind]
      split
      · exact .kept _
      · rename_i hno
        exact written_then (appendAll_same _) (.repaired by_ ids hids fun heq => hno (.inl heq))

/-- A start that finds its core agents repairs the table. -/
theorem restart_agents {by_ : String} {ids : CoreIds} (hids : existing_core_ids o.agents = .ok ids)
    (hne : ids.ceo ≠ "") (hun : o.agents.filter unmanaged ≠ []) :
    (restart by_ o).2.agents = hang_under ids.ceo o.agents := by
  have hno : ¬ (ids.ceo = "" ∨ o.agents.filter unmanaged = []) := by
    rintro (h | h)
    · exact hne h
    · exact hun h
  rw [restart, read_bind, hids, ofExcept_ok_bind, repair_unmanaged_members_to_ceo, read_bind, if_neg hno]
  exact appendAll_same _ { o with agents := hang_under ids.ceo o.agents }

/-- **What one step can do to the table.** -/
theorem step_written (o : Org) (label : Label) : Written o.agents label (step o label).agents := by
  cases label with
  | add_agent agent_id now hire => exact add_agent_written agent_id now hire
  | reassign r =>
      have hstep : step o (.reassign r) = (reassign r o).2 := rfl
      rw [hstep]
      exact reassign_written r
  | fire now f => exact fire_written now f
  | restart by_ => exact restart_written by_

end Org

end CompanyFactory
