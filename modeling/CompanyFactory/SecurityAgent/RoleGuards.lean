import CompanyFactory.Factory.CoreRoles
import CompanyFactory.Identity.Fire
import CompanyFactory.Identity.Reassign

/-!
# `SecurityAgent.RoleGuards` — whom Security can fire

`fire` looks at the role of the target and at the position of the actor, not at the role of the actor. Security is
kept from firing only by having nobody below it, and **neither a hire nor a reassignment sees to that**: HR takes
nobody but HR, Security takes everybody.

* `Aloof` — nobody but a CEO has a Security agent above it.
* `security_disarmed_iff` — Security fires nobody exactly in the runs that put nobody below it.
-/

namespace CompanyFactory

open Act Machine Forest Identity Bootstrap

namespace Org

/-- Every firing by a Security agent is denied, and changes nothing. -/
def Disarmed (o : Org) : Prop :=
  ∀ now f a, find o.agents f.actor_id = some a → a.role = .SECURITY →
    (∃ reason, (fire now f o).1 = .ok { result := .DENIED, reason }) ∧ (fire now f o).2 = o

/-- The agent is a Security agent, or has one above it. -/
def UnderSecurity (agents : List Agent) (x : String) : Prop :=
  ∃ s a, Relation.ReflTransGen (fun x y => manager agents x = some y) x s ∧ find agents s = some a ∧
    a.role = .SECURITY

/-- A hire of somebody but a CEO, or a move, that goes through and is under Security. -/
def ArmsSecurity (o : Org) : Label → Prop
  | .add_agent agent_id _ hire => check_hire o.agents agent_id hire = .ok () ∧ find o.agents agent_id = none ∧
      hire.role ≠ .CEO ∧ ∃ m, hire.reports_to = some m ∧ UnderSecurity o.agents m
  | .reassign r => (∃ target, check_reassign o.agents r = .ok (target, true)) ∧
      UnderSecurity o.agents r.new_reports_to
  | _ => False

/-- No active agent but a CEO has a Security agent above it. -/
structure Aloof (agents : List Agent) : Prop extends Charted agents where
  apart : ∀ x a, find agents x = some a → a.status = .ACTIVE → a.role ≠ .CEO → ∀ s b, find agents s = some b →
    b.role = .SECURITY → ¬ Relation.TransGen (fun x y => manager agents x = some y) x s

variable {agents : List Agent} {a target new_mgr : Agent} {o : Org} {f : Firing} {r : Reassignment} {x y : String}

/-! ## Calls that are denied -/

/-- No walk meets an agent that is no row. -/
theorem Rostered.levels_ok (h : Rostered agents) (n : Nat) {k : Nat} {result : Except Exn (Option Nat)}
    (hwalk : levels agents x n (manager agents y) k = some result) : ∃ d, result = .ok d := by
  induction n generalizing y k with
  | zero =>
      cases hstep : manager agents y with
      | none => rw [hstep] at hwalk; cases hwalk; exact ⟨none, rfl⟩
      | some z => rw [hstep] at hwalk; cases hwalk
  | succ n ih =>
      cases hstep : manager agents y with
      | none => rw [hstep] at hwalk; cases hwalk; exact ⟨none, rfl⟩
      | some z =>
          rw [hstep, levels] at hwalk
          split at hwalk
          · cases hwalk
            exact ⟨_, rfl⟩
          · obtain ⟨b, hb⟩ := h.manager_found hstep
            rw [manager_of_eq hb] at hwalk
            exact ih hwalk

/-- On a chart, every call is answered: denied, or not. -/
theorem Charted.fire_answered (h : Charted o.agents) (f : Firing) :
    ∃ refusal, fire_denied o.lower o.agents f = .ok refusal := by
  unfold fire_denied
  cases hguard : fire_guard o.agents f with
  | some reason => exact ⟨_, rfl⟩
  | none =>
      obtain ⟨target, hg⟩ := fire_guard_none_iff.mp hguard
      have hends : (depth o.agents (rounds o.agents) f.actor_id f.target_id).isSome = true :=
        h.depth_ends (Nat.le_succ _) f.actor_id f.target_id
      obtain ⟨result, hdepth⟩ := Option.isSome_iff_exists.mp hends
      obtain ⟨d, rfl⟩ : ∃ d, result = .ok d := by
        have hwalk := hdepth
        rw [depth, if_neg hg.other, manager_of_eq hg.row] at hwalk
        exact h.levels_ok _ hwalk
      dsimp only
      rw [hdepth]
      show ∃ refusal, (if d = none ∨ d = some 0 then _ else _) = _
      split
      · exact ⟨_, rfl⟩
      · exact ⟨_, rfl⟩

/-- A call without the conditions is denied. -/
theorem Charted.denied_of_not_may (h : Charted o.agents) (hno : ¬ MayFire o f) (now : Time) :
    ∃ reason, fire now f o = (.ok { result := .DENIED, reason }, o) := by
  obtain ⟨refusal, hrefusal⟩ := h.fire_answered f
  rw [fire, read_bind, id, hrefusal, ofExcept_ok_bind]
  cases refusal with
  | none => exact absurd ((fire_denied_none_iff h.toRostered).mp hrefusal) hno
  | some reason => exact ⟨some reason, rfl⟩

theorem MayFire.not_denied (h : MayFire o f) (hroster : Rostered o.agents) (now : Time) (reason : Option String) :
    (fire now f o).1 ≠ .ok { result := .DENIED, reason } := by
  rw [fire_of_may h hroster]
  rcases EventStore.appendAll (suite o f) o.events with ⟨_ | _, events⟩
  · nofun
  · nofun

/-- **Security is disarmed** while nobody but a CEO is below it: the guards keep the CEO. -/
theorem Aloof.disarmed (h : Aloof o.agents) : Disarmed o := by
  intro now f a hactor hrole
  have hno : ¬ MayFire o f := by
    intro hmay
    obtain ⟨t, hrow, hactive⟩ := is_active_iff.mp hmay.target
    exact h.apart _ t hrow hactive (hmay.not_ceo t hrow) _ a hactor hrole hmay.above
  obtain ⟨reason, hdenied⟩ := h.denied_of_not_may hno now
  rw [hdenied]
  exact ⟨⟨reason, rfl⟩, rfl⟩

/-! ## Steps that keep Security alone -/

theorem not_above_absent (h : Rostered agents) (hnew : find agents y = none) :
    ¬ Relation.TransGen (fun x y => manager agents x = some y) x y := by
  intro habove
  obtain ⟨z, -, hstep⟩ := Relation.TransGen.tail'_iff.mp habove
  obtain ⟨b, hb⟩ := h.manager_found hstep
  rw [hnew] at hb
  cases hb

section Added

variable {agent_id : String} {now : Time} {hire : Hire}

/-- Whoever is found in the longer table is the new agent, or was found before. -/
theorem found_added (hnew : find agents agent_id = none)
    (h : find (agents ++ [hired agent_id now hire]) x = some a) :
    (x = agent_id ∧ a = hired agent_id now hire) ∨ find agents x = some a := by
  rw [find_added hnew] at h
  split at h
  · rename_i hx
    exact .inl ⟨hx, (Option.some.inj h).symm⟩
  · exact .inr h

theorem Aloof.added (h : Aloof agents) (hcheck : check_hire agents agent_id hire = .ok ())
    (hnew : find agents agent_id = none)
    (hclear : hire.role ≠ .CEO → ∀ m, hire.reports_to = some m → ¬ UnderSecurity agents m) :
    Aloof (agents ++ [hired agent_id now hire]) := by
  refine ⟨h.toCharted.added hcheck hnew, ?_⟩
  intro x a hx hactive hrole s b hs hsec habove
  -- a Security agent above somebody is an old row, as managers are
  have hsold : find agents s = some b := by
    rcases found_added hnew hs with ⟨rfl, -⟩ | hold
    · obtain ⟨z, -, hstep⟩ := Relation.TransGen.tail'_iff.mp habove
      rw [manager_added hnew] at hstep
      split at hstep
      · obtain ⟨c, hc, -⟩ := manager_of_hire hcheck hstep
        rw [hnew] at hc
        cases hc
      · exact absurd (.single hstep) (not_above_absent h.toRostered hnew)
    · exact hold
  cases hto : hire.reports_to with
  | none =>
      have hold : Relation.TransGen (fun x y => manager agents x = some y) x s := by
        refine Relation.TransGen.mono (fun y z hstep => ?_) x s habove
        rw [manager_added hnew, hto] at hstep
        split at hstep
        · cases hstep
        · exact hstep
      rcases found_added hnew hx with ⟨rfl, -⟩ | hxold
      · obtain ⟨z, hstep, -⟩ := Relation.TransGen.head'_iff.mp hold
        rw [manager, hnew] at hstep
        cases hstep
      · exact h.apart x a hxold hactive hrole s b hsold hsec hold
  | some m =>
      have hin : ∀ y, y = agent_id → ∀ z, manager (agents ++ [hired agent_id now hire]) y = some z → z = m := by
        rintro y rfl z hz
        rw [manager_added hnew, if_pos rfl, hto] at hz
        exact (Option.some.inj hz).symm
      have hout : ∀ y, ¬ y = agent_id → manager (agents ++ [hired agent_id now hire]) y = manager agents y :=
        fun y hy => by rw [manager_added hnew, if_neg hy]
      have hcases := above_of_rewired hin hout habove
      rcases found_added hnew hx with ⟨rfl, rfl⟩ | hxold
      · rcases hcases with hold | ⟨-, hunder⟩
        · obtain ⟨z, hstep, -⟩ := Relation.TransGen.head'_iff.mp hold
          rw [manager, hnew] at hstep
          cases hstep
        · exact hclear hrole m hto ⟨s, b, hunder, hsold, hsec⟩
      · rcases hcases with hold | ⟨⟨c, rfl, hreach⟩, -⟩
        · exact h.apart x a hxold hactive hrole s b hsold hsec hold
        · -- the new agent is above nobody
          rcases Relation.reflTransGen_iff_eq_or_transGen.mp hreach with heq | hreach
          · rw [← heq, hnew] at hxold
            cases hxold
          · exact not_above_absent h.toRostered hnew hreach

end Added

/-- Rows that are changed and keep their ids, roles and statuses. -/
theorem found_map {g : Agent → Agent} (hid : ∀ a, (g a).id = a.id) (h : find (agents.map g) x = some a) :
    ∃ b, find agents x = some b ∧ g b = a := by
  rw [find_map hid] at h
  exact Option.map_eq_some_iff.mp h

theorem Aloof.moved (h : Aloof agents) (hmoves : Reassigns agents r target new_mgr)
    (hclear : ¬ UnderSecurity agents r.new_reports_to) :
    Aloof (set_manager r.target_id r.new_reports_to agents) := by
  refine ⟨h.toCharted.moved hmoves, ?_⟩
  rw [set_manager_eq]
  intro x a' hx hactive hrole s b' hs hsec habove
  obtain ⟨a, ha, rfl⟩ := found_map (reassigned_id r) hx
  obtain ⟨b, hb, rfl⟩ := found_map (reassigned_id r) hs
  rw [reassigned_status] at hactive
  rw [reassigned_role] at hrole hsec
  have hin : ∀ y, y = r.target_id → ∀ z, manager (agents.map (reassigned r)) y = some z → z = r.new_reports_to := by
    rintro y rfl z hz
    rw [manager_moved hmoves, if_pos rfl] at hz
    exact (Option.some.inj hz).symm
  have hout : ∀ y, ¬ y = r.target_id → manager (agents.map (reassigned r)) y = manager agents y :=
    fun y hy => by rw [manager_moved hmoves, if_neg hy]
  rcases above_of_rewired hin hout habove with hold | ⟨-, hunder⟩
  · exact h.apart x a ha hactive hrole s b hb hsec hold
  · exact hclear ⟨s, b, hunder, hb, hsec⟩

theorem Aloof.fired (h : Aloof agents) (f : Firing) (now : Time) :
    Aloof (dismiss f.target_id f.actor_id f.reason now agents) := by
  refine ⟨h.toCharted.fired f now, ?_⟩
  rw [dismiss_eq]
  intro x a' hx hactive hrole s b' hs hsec habove
  obtain ⟨a, ha, rfl⟩ := found_map (dismissed_id f now) hx
  obtain ⟨b, hb, rfl⟩ := found_map (dismissed_id f now) hs
  rw [dismissed_role] at hrole hsec
  refine h.apart x a ha (dismissed_active hactive) hrole s b hb hsec ?_
  -- a firing only takes managers away
  refine Relation.TransGen.mono (fun y z hstep => ?_) x s habove
  rw [manager_map (dismissed_id f now)] at hstep
  obtain ⟨c, hc, hreports⟩ := Option.bind_eq_some_iff.mp hstep
  rw [manager_of_find hc]
  exact (dismissed_reports hreports).1

/-! ## Steps that arm Security -/

/-- Whoever is above an active agent is active. -/
theorem Rostered.reach_active (h : Rostered agents) (hactive : is_active agents x = true)
    (hreach : Relation.ReflTransGen (fun x y => manager agents x = some y) x y) : is_active agents y = true := by
  induction hreach with
  | refl => exact hactive
  | tail _ hstep ih => exact h.manager_active ih hstep

/-- An active agent that is under a Security agent can be fired by it, for any reason that is valid. -/
theorem Charted.armed (h : Charted o.agents) {reason : String} (hreason : invalid_reason o.lower reason = none) {t s : String} {b : Agent}
    (ht : find o.agents t = some target) (hactive : target.status = .ACTIVE) (hrole : target.role ≠ .CEO)
    (hlast : target.role = .HR → ∃ b ∈ o.agents, b.role = .HR ∧ b.status = .ACTIVE ∧ b.id ≠ t)
    (hs : find o.agents s = some b) (hsec : b.role = .SECURITY)
    (habove : Relation.TransGen (fun x y => manager o.agents x = some y) t s) : ¬ Disarmed o := by
  intro hdisarmed
  have htactive : is_active o.agents t = true := is_active_iff.mpr ⟨target, ht, hactive⟩
  have hmay : MayFire o { actor_id := s, target_id := t, reason, via_hr := true } := by
    refine ⟨rfl, h.reach_active htactive habove.to_reflTransGen, htactive, ?_, ?_, ?_, habove, hreason⟩
    · intro heq
      obtain rfl : s = t := heq
      exact h.rooted.acyclic s habove
    · intro row hrow
      rwa [← Option.some.inj (ht.symm.trans hrow)]
    · intro row hrow hhr
      rw [← Option.some.inj (ht.symm.trans hrow)] at hhr
      exact hlast hhr
  obtain ⟨⟨why, hdenied⟩, -⟩ := hdisarmed 0 { actor_id := s, target_id := t, reason, via_hr := true } b hs hsec
  exact hmay.not_denied h.toRostered 0 why hdenied

theorem Aloof.added_armed {agent_id : String} {now : Time} {hire : Hire} (h : Aloof o.agents)
    (hhr : Filled o.agents .HR) {reason : String} (hreason : invalid_reason o.lower reason = none)
    (hcheck : check_hire o.agents agent_id hire = .ok ()) (hnew : find o.agents agent_id = none)
    (hrole : hire.role ≠ .CEO) {m : String} (hto : hire.reports_to = some m) (hunder : UnderSecurity o.agents m)
    {o' : Org} (hrows : o'.agents = o.agents ++ [hired agent_id now hire]) (hlower : o'.lower = o.lower) :
    ¬ Disarmed o' := by
  obtain ⟨s, b, hreach, hs, hsec⟩ := hunder
  have hchart : Charted o'.agents := hrows ▸ h.toCharted.added hcheck hnew
  have hvalid : invalid_reason o'.lower reason = none := by rw [hlower]; exact hreason
  have htarget : find o'.agents agent_id = some (hired agent_id now hire) := by
    rw [hrows, find_added hnew, if_pos rfl]
  have hsrow : find o'.agents s = some b := hrows ▸ Table.find_insert_of_some hs
  refine hchart.armed hvalid htarget rfl hrole ?_ hsrow hsec ?_
  · -- the HR of before is another one
    rintro -
    obtain ⟨c, hc, hcactive, hcrole⟩ := hhr
    refine ⟨c, hrows ▸ List.mem_append_left _ hc, hcrole, hcactive, fun hid => ?_⟩
    have hfound := h.find_of_mem hc
    rw [hid, hnew] at hfound
    cases hfound
  · -- the chain from the manager up to Security is the one of before
    have hstep : manager o'.agents agent_id = some m := by rw [hrows, manager_added hnew, if_pos rfl, hto]
    refine Relation.TransGen.head' hstep (Relation.ReflTransGen.mono (fun y z hyz => ?_) m s hreach)
    rw [hrows, manager_added hnew, if_neg]
    · exact hyz
    · rintro rfl
      rw [manager, hnew] at hyz
      cases hyz

/-- A move is one of an active agent. -/
theorem active_of_check (hcheck : check_reassign agents r = .ok (target, true)) : target.status = .ACTIVE := by
  rcases check_reassign_cases agents r with ⟨e, he⟩ | ⟨t, hthere, -⟩ | ⟨t, m, hpasses⟩
  · rw [he] at hcheck; cases hcheck
  · rw [hthere] at hcheck; cases hcheck
  · have hrow := hpasses.target_row
    rcases hpasses.checked with hnever | hchecked
    · rw [hnever] at hcheck; cases hcheck
    · rw [hchecked] at hcheck
      cases hcheck
      unfold movable at hrow
      split at hrow
      · cases hrow
      · split at hrow
        · cases hrow
        · rename_i hactive
          split at hrow
          · cases hrow
          · cases hrow
            exact Decidable.not_not.mp hactive

theorem Aloof.moved_armed (h : Aloof o.agents) {reason : String} (hreason : invalid_reason o.lower reason = none)
    (hcheck : check_reassign o.agents r = .ok (target, true)) (hunder : UnderSecurity o.agents r.new_reports_to)
    {o' : Org} (hrows : o'.agents = set_manager r.target_id r.new_reports_to o.agents)
    (hlower : o'.lower = o.lower) : ¬ Disarmed o' := by
  obtain ⟨new_mgr, hmoves⟩ := reassigns_of_check hcheck
  obtain ⟨s, b, hreach, hs, hsec⟩ := hunder
  have hchart : Charted o'.agents := hrows ▸ h.toCharted.moved hmoves
  rw [set_manager_eq] at hrows
  -- only members are moved, so that the target is neither the CEO nor the last HR
  have hrole : target.role = .MEMBER := by
    have hmember := hmoves.member
    revert hmember
    cases target.role <;> simp [special]
  have hvalid : invalid_reason o'.lower reason = none := by rw [hlower]; exact hreason
  have htarget : find o'.agents r.target_id = some (reassigned r target) := by
    rw [hrows, find_map (reassigned_id r), hmoves.target_row]
    rfl
  have hsrow : find o'.agents s = some (reassigned r b) := by
    rw [hrows, find_map (reassigned_id r), hs]
    rfl
  refine hchart.armed hvalid htarget ?_ ?_ ?_ hsrow ?_ ?_
  · rw [reassigned_status]
    exact active_of_check hcheck
  · rw [reassigned_role, hrole]
    exact nofun
  · rw [reassigned_role, hrole]
    exact nofun
  · rw [reassigned_role]
    exact hsec
  · have hstep : manager o'.agents r.target_id = some r.new_reports_to := by
      rw [hrows, manager_moved hmoves, if_pos rfl]
    refine Relation.TransGen.head' hstep ?_
    refine reach_congr (S := fun x => x = r.target_id) (fun x hx => ?_) ?_ hreach
    · rw [hrows, manager_moved hmoves, if_neg hx]
    · -- the target is not above its new manager
      rintro c hc rfl
      rcases Relation.reflTransGen_iff_eq_or_transGen.mp hc with heq | habove
      · exact hmoves.other heq
      · obtain ⟨l, hl⟩ := h.rooted r.new_reports_to
        exact h.not_on_chain hmoves hl (hl.mem_of_above habove)

/-! ## Runs -/

/-- `str.lower` is the same. -/
def SameLower (o o' : Org) : Prop := o'.lower = o.lower

theorem SameLower.refl (o : Org) : SameLower o o := rfl

theorem SameLower.trans (o o' o'' : Org) (h : SameLower o o') (h' : SameLower o' o'') : SameLower o o'' := Eq.trans h' h

theorem append_lower (post : Post) : Moves SameLower (append post) := by
  intro o
  unfold append SameLower
  split <;> rfl

theorem add_agent_lower (agent_id : String) (now : Time) (hire : Hire) : Moves SameLower (add_agent agent_id now hire) := by
  refine .bind SameLower.trans (.read SameLower.refl _) fun agents => ?_
  refine .bind SameLower.trans (.ofExcept SameLower.refl _) fun _ => ?_
  refine .bind SameLower.trans (.ofExcept SameLower.refl _) fun rows => ?_
  refine .bind SameLower.trans (.write fun o => .refl o) fun _ => ?_
  exact .bind SameLower.trans (append_lower _) fun _ => .pure SameLower.refl _

theorem reassign_lower (r : Reassignment) : Moves SameLower (reassign r) := by
  refine .bind SameLower.trans (.read SameLower.refl _) fun agents => ?_
  refine .bind SameLower.trans (.ofExcept SameLower.refl _) fun checked => ?_
  refine .ite (.pure SameLower.refl _) ?_
  refine .bind SameLower.trans (.write fun o => .refl o) fun _ => ?_
  exact .bind SameLower.trans (append_lower _) fun _ => .pure SameLower.refl _

theorem fire_lower (h : Rostered o.agents) (now : Time) : SameLower o (fire now f o).2 := by
  by_cases hmay : MayFire o f
  · rw [fire_of_may hmay h]
    rcases EventStore.appendAll (suite o f) o.events with ⟨_ | _, events⟩ <;> rfl
  · rw [fire_refused now fun hnone => hmay ((fire_denied_none_iff h).mp hnone)]
    rfl

theorem bootstrap_lower (ids : CoreIds) (now : Role → Time) (requested_by : String) :
    Moves SameLower (bootstrap_core_agents ids now requested_by) := by
  refine .bind SameLower.trans (add_agent_lower _ _ _) fun ceo => ?_
  refine .bind SameLower.trans (add_agent_lower _ _ _) fun hr => ?_
  exact .bind SameLower.trans (add_agent_lower _ _ _) fun sec => .pure SameLower.refl _

/-- The organisation, with a reason to fire that it takes. -/
structure Wary (reason : String) (o : Org) : Prop where
  aloof : Aloof o.agents
  hr : Filled o.agents .HR
  valid : invalid_reason o.lower reason = none

variable {reason : String} {label : Label}

theorem Wary.step (h : Wary reason o) (hord : ∀ by_, label ≠ .restart by_) (hno : ¬ ArmsSecurity o label) :
    Wary reason (step o label) := by
  have hrows := step_written o label
  refine ⟨?_, h.hr.written h.aloof.toRostered hrows nofun nofun, ?_⟩
  · -- one case for each way in which the table can be written
    generalize (Org.step o label).agents = rows at hrows
    cases hrows with
    | kept => exact h.aloof
    | added agent_id now hire hcheck hnew =>
        exact h.aloof.added hcheck hnew fun hrole m hto hunder => hno ⟨hcheck, hnew, hrole, m, hto, hunder⟩
    | moved r target hcheck =>
        obtain ⟨new_mgr, hmoves⟩ := reassigns_of_check hcheck
        exact h.aloof.moved hmoves fun hunder => hno ⟨⟨target, hcheck⟩, hunder⟩
    | fired now f _ => exact h.aloof.fired f now
    | repaired by_ _ _ _ => exact absurd rfl (hord by_)
  · have hlower : (Org.step o label).lower = o.lower := by
      cases label with
      | add_agent agent_id now hire =>
          rw [step_add_agent]
          exact add_agent_lower agent_id now hire o
      | reassign r =>
          rw [step_reassign]
          exact reassign_lower r o
      | fire now f =>
          rw [step_fire]
          exact fire_lower h.aloof.toRostered now
      | restart by_ => exact absurd rfl (hord by_)
    rw [hlower]
    exact h.valid

/-- **A step that puts somebody below Security arms it.** -/
theorem Wary.armed (h : Wary reason o) (harms : ArmsSecurity o label) : ¬ Disarmed (Org.step o label) := by
  cases label with
  | add_agent agent_id now hire =>
      obtain ⟨hcheck, hnew, hrole, m, hto, hunder⟩ := harms
      have hrows : (add_agent agent_id now hire o).2.agents = o.agents ++ [hired agent_id now hire] := by
        rw [add_agent_passed now hcheck hnew]
      rw [step_add_agent]
      exact h.aloof.added_armed h.hr h.valid hcheck hnew hrole hto hunder hrows (add_agent_lower agent_id now hire o)
  | reassign r =>
      obtain ⟨⟨target, hcheck⟩, hunder⟩ := harms
      rw [step_reassign]
      refine h.aloof.moved_armed h.valid hcheck hunder ?_ (reassign_lower r o)
      rw [reassign_of_checked hcheck]
  | fire now f => exact harms.elim
  | restart by_ => exact harms.elim

/-- A bootstrap that returns leaves HR and Security under the CEO, and nobody else. -/
theorem bootstrap_aloof {ids : CoreIds} {now : Role → Time} {requested_by : String} {events : EventStore}
    {lower : String → String} {core : Agent × Agent × Agent}
    (hboot : bootstrap_core_agents ids now requested_by { agents := [], events, lower } = (.ok core, o)) :
    Aloof o.agents := by
  have hfounded : o = founded events lower ids now requested_by := (congrArg Prod.snd hboot).symm
  refine ⟨hfounded ▸ founded_charted events lower ids now requested_by, ?_⟩
  clear hfounded
  rw [bootstrap_core_agents] at hboot
  obtain ⟨ceo, o₁, hceo, hboot⟩ := bind_eq_ok.mp hboot
  obtain ⟨hr, o₂, hhr, hboot⟩ := bind_eq_ok.mp hboot
  obtain ⟨sec, o₃, hsec, hboot⟩ := bind_eq_ok.mp hboot
  obtain ⟨-, rfl⟩ := Prod.mk.inj hboot
  obtain ⟨rfl, hrows₁⟩ := add_agent_ok hceo
  obtain ⟨rfl, hrows₂⟩ := add_agent_ok hhr
  obtain ⟨rfl, hrows₃⟩ := add_agent_ok hsec
  rw [hrows₃, hrows₂, hrows₁]
  intro x a _ _ _ s b hs hrole habove
  obtain ⟨z, -, hstep⟩ := Relation.TransGen.tail'_iff.mp habove
  obtain ⟨c, hc, hreports⟩ := manager_some.mp hstep
  -- whoever has a manager has the CEO, the first row
  have hmanager : s = ids.ceo := by
    have hmem := find_mem hc
    simp only [List.nil_append, List.cons_append, List.mem_cons, List.not_mem_nil, or_false] at hmem
    rcases hmem with rfl | rfl | rfl
    · cases hreports
    · exact (Option.some.inj hreports).symm
    · exact (Option.some.inj hreports).symm
  rw [hmanager, find, List.nil_append, List.singleton_append, List.cons_append, Table.find_cons] at hs
  obtain rfl := Option.some.inj ((if_pos rfl).symm.trans hs)
  cases hrole

/-- **Security fires nobody exactly in the runs that put nobody below it.** After a bootstrap that returns, in a run of
hires, reassignments and firings, every firing by a Security agent is denied in every state if and only if no step
puts anybody but a CEO under a Security agent, or under somebody who has one above. -/
theorem security_disarmed_iff (events : EventStore) (lower : String → String) (ids : CoreIds) (now : Role → Time)
    (requested_by : String) (core : Agent × Agent × Agent) (o : Org)
    (hboot : bootstrap_core_agents ids now requested_by { agents := [], events, lower } = (.ok core, o))
    (reason : String) (hreason : invalid_reason lower reason = none) (run : List Label)
    (hord : ∀ label ∈ run, ∀ by_, label ≠ .restart by_) :
    (∀ pre, pre <+: run → Disarmed (exec step o pre)) ↔ Along step (fun o label => ¬ ArmsSecurity o label) o run := by
  have hlower : o.lower = lower := by
    have hsame := bootstrap_lower ids now requested_by { agents := [], events, lower }
    rw [hboot] at hsame
    exact hsame
  have hclear : invalid_reason o.lower reason = none := by
    rw [hlower]
    exact hreason
  have hwary : Wary reason o := ⟨bootstrap_aloof hboot, (bootstrap_agents hboot).2.1, hclear⟩
  refine (along_iff_everywhere (D := fun label => ∀ by_, label ≠ .restart by_) (I := Wary reason) (P := Disarmed)
    ?_ ?_ ?_ hwary hord).symm
  · exact fun o h => h.aloof.disarmed
  · exact fun o label hord h hno => h.step hord hno
  · exact fun o label _ h harms => h.armed (not_not.mp harms)

def under_security : List Label := [.add_agent "m1" 20 (member_under "sec")]

theorem security_disarmed_small :
    (∀ pre, pre <+: [.add_agent "m1" 20 (member_under "c1")] → Disarmed (exec step small_company pre)) ↔
      Along step (fun o label => ¬ ArmsSecurity o label) small_company [.add_agent "m1" 20 (member_under "c1")] := by
  refine security_disarmed_iff .quiet id { ceo := "c1", hr := "hr", security := "sec" } (fun _ => 10) "board" _
    small_company (Prod.ext ?_ rfl) "closing the product line" (by decide +kernel) _ ?_
  · rfl
  · simp

/-- A member is hired under Security, and Security fires it. -/
theorem security_fires_report : ¬ ∀ run, (∀ label ∈ run, ∀ by_, label ≠ Label.restart by_) →
    Disarmed (exec step small_company run) := by
  intro hall
  have hdisarmed := hall under_security (by simp [under_security])
  obtain ⟨sec, hsec, hrole⟩ : ∃ a, find (exec step small_company under_security).agents "sec" = some a ∧
      a.role = .SECURITY := ⟨_, rfl, rfl⟩
  obtain ⟨⟨reason, hdenied⟩, -⟩ := hdisarmed 30
    { actor_id := "sec", target_id := "m1", reason := "closing the product line", via_hr := true } sec hsec hrole
  have hfired : (fire 30 { actor_id := "sec", target_id := "m1", reason := "closing the product line", via_hr := true }
      (exec step small_company under_security)).1 = .ok { result := .DIRECT_FIRED } := by decide +kernel
  rw [hfired] at hdenied
  cases hdenied

end Org

end CompanyFactory
