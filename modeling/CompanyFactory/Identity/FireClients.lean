import CompanyFactory.Identity.Capacity
import CompanyFactory.Lib.Clients

/-!
# `Identity.FireClients` — firings from several threads

`fire` reads the organisation twice before it writes: for its guards, and for the last-chance check of `_do_fire`.
Both reads are over when the transaction with the two `UPDATE`s begins, whatever the comment above the check says.
The three sections are `guards`, `last_chance` and `update`; one after the other they are the call (`solo_fire`).
A queued firing that is approved starts at the second one.
-/

namespace CompanyFactory

open Act Machine

namespace Org

open Identity

/-- The company has an active HR agent. -/
def has_active_hr (agents : List Agent) : Bool :=
  agents.any (fun a => decide (a.role = .HR) && a.active)

/-- What is left of a call of `fire`. -/
inductive Section where
  | guards (now : Time) (f : Firing)
  | last_chance (now : Time) (f : Firing)
  | update (now : Time) (f : Firing) (former_manager : Option String) (orphans : List String)
  deriving DecidableEq

/-- The transaction of `_do_fire`, with the events behind it. -/
def dismissal (now : Time) (f : Firing) (former_manager : Option String) (orphans : List String) :
    Act Org Halt Unit := do
  set_agents (dismiss f.target_id f.actor_id f.reason now)
  appendAll (fired_posts f former_manager orphans)

def advance (o : Org) : Section → Org × Option Section
  | .guards now f =>
    match fire_denied o.lower o.agents f with
    | .ok none => (o, some (.last_chance now f))
    -- denied, or a walk up the chart that raises or does not end
    | .ok (some _) | .error _ => (o, none)
  | .last_chance now f =>
    match get o.agents f.target_id with
    | .error _ => (o, none)
    | .ok target =>
      -- the count of the HR agents, before the transaction
      if target.role = .HR ∧ has_other_active_hr o.agents f.target_id = false then (o, none)
      else (o, some (.update now f target.reports_to (direct_reports o.agents f.target_id)))
  | .update now f former_manager orphans => ((dismissal now f former_manager orphans).after o, none)

/-- Everything else that happens to the organisation. -/
inductive Other where
  | add_agent (agent_id : String) (now : Time) (hire : Hire)
  | reassign (r : Reassignment)
  | restart (by_ : String)
  deriving DecidableEq

def Other.label : Other → Label
  | .add_agent agent_id now hire => .add_agent agent_id now hire
  | .reassign r => .reassign r
  | .restart by_ => .restart by_

def meanwhile (o : Org) (e : Other) : Org := step o e.label

/-- **Spared.** The section is no update that fires the last active HR agent: the check that was made before still
    holds when the update runs. -/
def Spares (o : Org) : Section → Prop
  | .guards _ _ | .last_chance _ _ => True
  | .update _ f _ _ => has_other_active_hr o.agents f.target_id = true

instance (o : Org) (s : Section) : Decidable (Spares o s) :=
  match s with
  | .guards _ _ | .last_chance _ _ => isTrue trivial
  | .update _ f _ _ => inferInstanceAs (Decidable (has_other_active_hr o.agents f.target_id = true))

/-! ## What each section does to the HR agents -/

variable {agents : List Agent}

theorem has_hr_map {g : Agent → Agent} (hrole : ∀ a, (g a).role = a.role) (hstatus : ∀ a, (g a).status = a.status) :
    has_active_hr (agents.map g) = has_active_hr agents := by
  unfold has_active_hr
  rw [List.any_map]
  congr 1
  funext a
  simp [Function.comp, Agent.active, hrole, hstatus]

/-- After a firing the other active HR agents are left. -/
theorem has_hr_dismiss (f : Firing) (now : Time) (agents : List Agent) :
    has_active_hr (dismiss f.target_id f.actor_id f.reason now agents) =
      has_other_active_hr agents f.target_id := by
  rw [dismiss_eq, has_active_hr, List.any_map, has_other_active_hr]
  congr 1
  funext a
  have hrole := dismissed_role f now a
  by_cases htarget : a.id = f.target_id
  · simp [Function.comp, Agent.active, dismissed, htarget]
  · have hstatus : (dismissed f now a).status = a.status := by
      unfold dismissed
      rw [if_neg htarget]
      split <;> rfl
    simp [Function.comp, Agent.active, hrole, hstatus, htarget]

theorem dismissal_agents (o : Org) (now : Time) (f : Firing) (former_manager : Option String)
    (orphans : List String) : ((dismissal now f former_manager orphans).after o).agents =
      dismiss f.target_id f.actor_id f.reason now o.agents :=
  appendAll_same _ { o with agents := dismiss f.target_id f.actor_id f.reason now o.agents }

/-- A section that is no update changes nothing. -/
theorem advance_same (o : Org) {s : Section} (hs : ∀ now f m orphans, s ≠ .update now f m orphans) :
    (advance o s).1 = o := by
  cases s with
  | guards now f =>
      rcases hdenied : fire_denied o.lower o.agents f with e | _ | reason <;> simp only [advance, hdenied]
  | last_chance now f =>
      simp only [advance]
      cases get o.agents f.target_id with
      | error e => rfl
      | ok target =>
          dsimp only
          split <;> rfl
  | update now f m orphans => exact absurd rfl (hs now f m orphans)

theorem spares_iff (o : Org) (s : Section) (h : has_active_hr o.agents = true) :
    Spares o s ↔ has_active_hr (advance o s).1.agents = true := by
  cases s with
  | guards now f =>
      rw [advance_same o (by simp)]
      exact iff_of_true trivial h
  | last_chance now f =>
      rw [advance_same o (by simp)]
      exact iff_of_true trivial h
  | update now f former_manager orphans =>
      have hagents : (advance o (.update now f former_manager orphans)).1.agents = _ :=
        dismissal_agents o now f former_manager orphans
      rw [hagents, has_hr_dismiss]
      exact Iff.rfl

theorem hr_meanwhile (o : Org) (e : Other) (h : has_active_hr o.agents = true) :
    has_active_hr (meanwhile o e).agents = true := by
  have hwritten := step_written o e.label
  generalize hlabel : e.label = label at hwritten
  show has_active_hr (step o e.label).agents = true
  rw [hlabel]
  generalize (step o label).agents = rows at hwritten
  cases hwritten with
  | kept => exact h
  | added agent_id now hire =>
      unfold has_active_hr at h ⊢
      rw [List.any_append, h, Bool.true_or]
  | moved r target =>
      rw [set_manager_eq, has_hr_map (reassigned_role r) (reassigned_status r)]
      exact h
  | fired => cases e <;> cases hlabel
  | repaired by_ ids =>
      exact (has_hr_map (hung_role ids.ceo) (hung_status ids.ceo)).trans h

/-- **At least one HR agent.** In every interleaving of firings by any number of threads, with hires, reassignments
    and restarts between their sections: the company has an active HR agent in every state, exactly if no update
    fires the one that is the last by then. -/
theorem hr_remains_iff (o : Org) (h : has_active_hr o.agents = true)
    (run : List (Clients.Label Section Other)) :
    Along (Clients.step advance meanwhile) (Clients.Runs Spares) (Clients.idle o) run ↔
      ∀ pre, pre <+: run →
        has_active_hr (exec (Clients.step advance meanwhile) (Clients.idle o) pre).shared.agents = true :=
  Clients.everywhere_iff (I := fun o : Org => has_active_hr o.agents = true) spares_iff hr_meanwhile h run

/-! ## A firing alone -/

/-- A firing whose sections follow each other is the firing. -/
theorem solo_fire (o : Org) (client : Nat) (now : Time) (f : Firing) :
    ∃ n, exec (Clients.step advance meanwhile) (Clients.idle o)
        (.start client (.guards now f) :: List.replicate n (.go client)) =
      Clients.idle (fire now f o).2 := by
  rw [fire, read_bind, id]
  cases hdenied : fire_denied o.lower o.agents f with
  | error e =>
      have hfirst : advance o (.guards now f) = (o, none) := by simp only [advance, hdenied]
      exact ⟨1, Clients.solo (.last hfirst) rfl rfl⟩
  | ok refusal =>
      cases refusal with
      | some reason =>
          have hfirst : advance o (.guards now f) = (o, none) := by simp only [advance, hdenied]
          exact ⟨1, Clients.solo (.last hfirst) rfl rfl⟩
      | none =>
          have hfirst : advance o (.guards now f) = (o, some (.last_chance now f)) := by
            simp only [advance, hdenied]
          have hfire := bind_pure_state (do_fire now f) (fun _ => ({ result := .DIRECT_FIRED } : FireOutcome)) o
          rw [ofExcept_ok_bind]
          dsimp only
          rw [hfire, do_fire, read_bind]
          cases hget : get o.agents f.target_id with
          | error e =>
              have hsecond : advance o (.last_chance now f) = (o, none) := by simp only [advance, hget]
              exact ⟨2, Clients.solo (.more hfirst (.last hsecond)) rfl rfl⟩
          | ok target =>
              have hended : ended (some (Except.ok target)) = .ok target := rfl
              rw [hended, ofExcept_ok_bind]
              by_cases hlast : target.role = .HR ∧ has_other_active_hr o.agents f.target_id = false
              · have hsecond : advance o (.last_chance now f) = (o, none) := by
                  simp only [advance, hget, if_pos hlast]
                rw [if_pos hlast]
                exact ⟨2, Clients.solo (.more hfirst (.last hsecond)) rfl rfl⟩
              · have hsecond : advance o (.last_chance now f) = (o, some (.update now f target.reports_to
                    (direct_reports o.agents f.target_id))) := by
                  simp only [advance, hget, if_neg hlast]
                rw [if_neg hlast]
                exact ⟨3, Clients.solo (.more hfirst (.more hsecond (.last rfl))) rfl rfl⟩

/-! ## Two HR agents -/

def staff (agent_id : String) (role : Role) (reports_to : Option String) : Agent :=
  { id := agent_id, role, persona_ref := "p", reports_to, status := .ACTIVE, hired_at := 0 }

/-- A CEO with two HR agents. -/
def two_hr : Org :=
  { agents := [staff "ceo" .CEO none, staff "hr1" .HR (some "ceo"), staff "hr2" .HR (some "ceo")]
    events := .quiet, lower := id }

def fire_hr (target_id : String) : Firing :=
  { actor_id := "ceo", target_id, reason := "repeated policy violations", via_hr := true }

/-- One of two HR agents is fired. -/
theorem hr_remains_one_of_two :
    has_active_hr (exec (Clients.step advance meanwhile) (Clients.idle two_hr)
      [.start 1 (.guards 1 (fire_hr "hr1")), .go 1, .go 1, .go 1]).shared.agents = true :=
  (hr_remains_iff two_hr (by decide +kernel) [.start 1 (.guards 1 (fire_hr "hr1")), .go 1, .go 1, .go 1]).mp
    (by decide +kernel) _ List.prefix_rfl

/-- Both HR agents are fired at the same time: each firing still sees the other one. -/
theorem both_hr_fired :
    has_active_hr two_hr.agents = true ∧
    has_active_hr (exec (Clients.step advance meanwhile) (Clients.idle two_hr)
      [.start 1 (.guards 1 (fire_hr "hr1")), .go 1, .go 1, .start 2 (.guards 2 (fire_hr "hr2")), .go 2, .go 2,
        .go 1, .go 2]).shared.agents = false := by decide +kernel

end Org

end CompanyFactory
