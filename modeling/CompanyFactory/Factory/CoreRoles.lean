import CompanyFactory.Identity.Capacity

/-!
# `Factory.CoreRoles` — who a restart looks for

A restart of a company looks up an active CEO, an active HR and an active Security agent, and fails without one of
them. The bootstrap hires all three. After it, only a firing takes an agent away, and its guards **protect the CEO
and the last HR, but not the last Security agent**.

* `Filled.written` — what one step does to a role that is filled.
* `core_roles_survive` — the restart finds its agents in every state of a run exactly if no firing in the run takes
  the last Security agent.
-/

namespace CompanyFactory

open Act Machine Identity Bootstrap

namespace Org

/-- An active agent has the role. -/
def Filled (agents : List Agent) (role : Role) : Prop := ∃ a ∈ agents, a.status = .ACTIVE ∧ a.role = role

/-- `_has_other_active_hr`, for any role. -/
def has_other_active (agents : List Agent) (role : Role) (exclude_id : String) : Bool :=
  agents.any (fun a => decide (a.role = role) && a.active && decide (a.id ≠ exclude_id))

/-- An accepted firing of the last active Security agent. -/
def takes_last_security (o : Org) : Label → Bool
  | .fire _ f =>
    match fire_denied o.lower o.agents f, get_active o.agents f.target_id with
    | .ok none, some target => decide (target.role = .SECURITY) && !has_other_active o.agents .SECURITY f.target_id
    | _, _ => false
  | _ => false

variable {agents rows : List Agent} {role : Role} {label : Label}

/-! ## What the restart looks for -/

theorem first_with_isSome : (first_with agents role).isSome = true ↔ Filled agents role := by
  rw [first_with, List.find?_isSome]
  constructor
  · rintro ⟨a, ha, hrole⟩
    unfold all_active by_hire at ha
    rw [(List.perm_insertionSort _ _).mem_iff, List.mem_filter] at ha
    exact ⟨a, ha.1, of_decide_eq_true ha.2, of_decide_eq_true hrole⟩
  · rintro ⟨a, ha, hactive, hrole⟩
    refine ⟨a, ?_, decide_eq_true hrole⟩
    unfold all_active by_hire
    rw [(List.perm_insertionSort _ _).mem_iff, List.mem_filter]
    exact ⟨ha, decide_eq_true hactive⟩

/-- **The restart finds its agents exactly if the three roles are filled.** -/
theorem existing_core_ids_iff : (∃ ids, existing_core_ids agents = .ok ids) ↔
    Filled agents .CEO ∧ Filled agents .HR ∧ Filled agents .SECURITY := by
  rw [← first_with_isSome, ← first_with_isSome, ← first_with_isSome, existing_core_ids]
  cases first_with agents .CEO with
  | none => simp
  | some ceo =>
      cases first_with agents .HR with
      | none => simp
      | some hr =>
          cases first_with agents .SECURITY with
          | none => simp
          | some sec => simp

/-! ## One step -/

/-- Rows that are changed one by one, and keep role and status. -/
theorem Filled.map (h : Filled agents role) {g : Agent → Agent} (hstatus : ∀ a, (g a).status = a.status)
    (hrole : ∀ a, (g a).role = a.role) : Filled (agents.map g) role := by
  obtain ⟨a, ha, hactive, hr⟩ := h
  exact ⟨g a, List.mem_map_of_mem ha, (hstatus a).trans hactive, (hrole a).trans hr⟩

theorem Filled.append (h : Filled agents role) (more : List Agent) : Filled (agents ++ more) role := by
  obtain ⟨a, ha, hactive⟩ := h
  exact ⟨a, List.mem_append_left _ ha, hactive⟩

theorem filled_hired (agents : List Agent) (agent_id : String) (now : Time) (hire : Hire) :
    Filled (agents ++ [hired agent_id now hire]) hire.role :=
  ⟨hired agent_id now hire, List.mem_append_right _ List.mem_cons_self, rfl, rfl⟩

theorem has_other_active_iff {exclude_id : String} : has_other_active agents role exclude_id = true ↔
    ∃ a ∈ agents, a.role = role ∧ a.status = .ACTIVE ∧ a.id ≠ exclude_id := by
  simp [has_other_active, Agent.active, and_assoc]

/-- Who is active after a firing was so before it, and is not the target. -/
theorem dismissed_stays {f : Firing} {now : Time} {a : Agent} :
    (dismissed f now a).status = .ACTIVE ↔ a.status = .ACTIVE ∧ a.id ≠ f.target_id := by
  unfold dismissed
  by_cases htarget : a.id = f.target_id
  · rw [if_pos htarget]
    exact ⟨nofun, fun h => absurd htarget h.2⟩
  · rw [if_neg htarget]
    have hstatus : (if reports f.target_id a then { a with reports_to := none } else a).status = a.status := by
      split <;> rfl
    rw [hstatus]
    exact ⟨fun hactive => ⟨hactive, htarget⟩, And.left⟩

/-- **What a firing leaves of a role**: the other agents that have it. -/
theorem filled_dismiss_iff (f : Firing) (now : Time) :
    Filled (dismiss f.target_id f.actor_id f.reason now agents) role ↔
      has_other_active agents role f.target_id = true := by
  rw [dismiss_eq, has_other_active_iff]
  constructor
  · rintro ⟨b, hb, hactive, hrole⟩
    obtain ⟨a, ha, rfl⟩ := List.mem_map.mp hb
    obtain ⟨hwas, hne⟩ := dismissed_stays.mp hactive
    exact ⟨a, ha, (dismissed_role f now a).symm.trans hrole, hwas, hne⟩
  · rintro ⟨a, ha, hrole, hactive, hne⟩
    exact ⟨dismissed f now a, List.mem_map_of_mem ha, dismissed_stays.mpr ⟨hactive, hne⟩,
      (dismissed_role f now a).trans hrole⟩

theorem get_active_some {x : String} {a : Agent} (h : get_active agents x = some a) :
    a ∈ agents ∧ a.id = x ∧ a.status = .ACTIVE := by
  obtain ⟨hfind, hactive⟩ := Option.filter_eq_some_iff.mp h
  exact ⟨find_mem hfind, find_id hfind, of_decide_eq_true hactive⟩

/-- The guards of a firing: the target is active, no CEO, and not the last HR. -/
theorem target_of_guard {f : Firing} (hguard : fire_guard agents f = none) :
    ∃ target, get_active agents f.target_id = some target ∧ target.role ≠ .CEO ∧
      (target.role = .HR → has_other_active agents .HR f.target_id = true) := by
  unfold fire_guard at hguard
  split at hguard
  · cases hguard
  · split at hguard
    · cases hguard
    · cases hguard
    · rename_i actor target _ htarget
      rw [(get_active_some htarget).2.1] at hguard
      split at hguard
      · cases hguard
      · split at hguard
        · cases hguard
        · rename_i hceo
          refine ⟨target, htarget, hceo, fun hhr => ?_⟩
          by_contra hlast
          rw [if_pos ⟨hhr, by simpa [has_other_active, has_other_active_hr] using hlast⟩] at hguard
          cases hguard

/-- A firing leaves every role filled that its target does not have, or that somebody else has. -/
theorem Rostered.filled_dismiss (hids : Rostered agents) (h : Filled agents role) {f : Firing} {target : Agent}
    (now : Time) (htarget : get_active agents f.target_id = some target)
    (hother : target.role = role → has_other_active agents role f.target_id = true) :
    Filled (dismiss f.target_id f.actor_id f.reason now agents) role := by
  rw [filled_dismiss_iff]
  obtain ⟨hmem, hid, -⟩ := get_active_some htarget
  obtain ⟨a, ha, hactive, hrole⟩ := h
  by_cases heq : a.id = f.target_id
  · have hsame : target = a := List.inj_on_of_nodup_map hids.ids hmem ha (hid.trans heq.symm)
    exact hother (hsame ▸ hrole)
  · exact has_other_active_iff.mpr ⟨a, ha, hrole, hactive, heq⟩

/-- **What one step does to the roles.** The CEO and HR stay filled, and so does every role that the target of a
    firing does not have, or not alone. -/
theorem Filled.written (h : Filled agents role) (hids : Rostered agents) (hrows : Written agents label rows)
    (hfire : role = .SECURITY → ∀ now f target, label = .fire now f → get_active agents f.target_id = some target →
      target.role = .SECURITY → has_other_active agents .SECURITY f.target_id = true)
    (hcore : role ≠ .MEMBER) : Filled rows role := by
  cases hrows with
  | kept => exact h
  | added agent_id now hire _ _ => exact h.append _
  | moved r target _ =>
      rw [set_manager_eq]
      exact h.map (reassigned_status r) (reassigned_role r)
  | repaired by_ ids _ _ => exact h.map (hung_status ids.ceo) (hung_role ids.ceo)
  | fired now f hguard =>
      obtain ⟨target, htarget, hceo, hhr⟩ := target_of_guard hguard
      refine hids.filled_dismiss h now htarget fun hrole => ?_
      -- the guards of `fire` speak of the CEO and of HR, and not of Security
      cases role with
      | CEO => exact absurd hrole hceo
      | HR => exact hhr hrole
      | SECURITY => exact hfire rfl now f target rfl htarget hrole
      | MEMBER => exact absurd rfl hcore

/-! ### Firings that are refused, and firings that go through -/

variable {o : Org} {f : Firing}

theorem fire_refused (now : Time) (h : fire_denied o.lower o.agents f ≠ .ok none) : (fire now f o).2 = o := by
  rw [fire, read_bind, id]
  cases hdenied : fire_denied o.lower o.agents f with
  | error e => rfl
  | ok refusal =>
      rw [ofExcept_ok_bind]
      cases refusal with
      | some reason => rfl
      | none => exact absurd hdenied h

/-- An accepted firing that does not end in `no_hr_replacement` dismisses its target. -/
theorem fire_accepted {target : Agent} (now : Time) (h : fire_denied o.lower o.agents f = .ok none)
    (htarget : get_active o.agents f.target_id = some target) (hhr : target.role ≠ .HR) :
    (fire now f o).2.agents = dismiss f.target_id f.actor_id f.reason now o.agents := by
  have hget : get o.agents f.target_id = .ok target := by
    rw [get, (Option.filter_eq_some_iff.mp htarget).1]
  have hended : ended (some (Except.ok target)) = .ok target := rfl
  rw [fire, read_bind, id, h, ofExcept_ok_bind]
  show ((do_fire now f >>= fun _ => (pure _ : Act Org Halt FireOutcome)) o).2.agents = _
  rw [bind_pure_state (do_fire now f) fun _ => ({ result := .DIRECT_FIRED } : FireOutcome), do_fire, read_bind,
    hget, hended, ofExcept_ok_bind, if_neg fun hboth => hhr hboth.1]
  exact appendAll_same _ { o with agents := dismiss f.target_id f.actor_id f.reason now o.agents }

/-! ## Runs -/

/-- A roster with the three core roles. -/
structure Manned (agents : List Agent) : Prop where
  rostered : Rostered agents
  ceo : Filled agents .CEO
  hr : Filled agents .HR
  security : Filled agents .SECURITY

theorem Manned.found (h : Manned agents) : ∃ ids, existing_core_ids agents = .ok ids :=
  existing_core_ids_iff.mpr ⟨h.ceo, h.hr, h.security⟩

theorem Manned.step (h : Manned o.agents) (hkeeps : takes_last_security o label = false) :
    Manned (step o label).agents := by
  by_cases hrefused : ∃ now f, label = .fire now f ∧ fire_denied o.lower o.agents f ≠ .ok none
  · obtain ⟨now, f, rfl, hdenied⟩ := hrefused
    show Manned (fire now f o).2.agents
    rw [fire_refused now hdenied]
    exact h
  · have hrows := step_written o label
    have hfire : ∀ now f target, label = .fire now f → get_active o.agents f.target_id = some target →
        target.role = .SECURITY → has_other_active o.agents .SECURITY f.target_id = true := by
      rintro now f target rfl htarget hrole
      have haccepted : fire_denied o.lower o.agents f = .ok none := by
        by_contra hdenied
        exact hrefused ⟨now, f, rfl, hdenied⟩
      simpa [takes_last_security, haccepted, htarget, hrole] using hkeeps
    exact ⟨h.rostered.written hrows, h.ceo.written h.rostered hrows nofun nofun,
      h.hr.written h.rostered hrows nofun nofun, h.security.written h.rostered hrows (fun _ => hfire) nofun⟩

/-- **A restart fails after the firing of the last Security agent.** -/
theorem unmanned_of_takes (htakes : takes_last_security o label = true) :
    ¬ ∃ ids, existing_core_ids (step o label).agents = .ok ids := by
  unfold takes_last_security at htakes
  split at htakes
  · rename_i now f
    split at htakes
    · rename_i target haccepted htarget
      rw [Bool.and_eq_true, Bool.not_eq_true', decide_eq_true_eq] at htakes
      obtain ⟨hrole, hlast⟩ := htakes
      have hgone : (Org.step o (.fire now f)).agents = _ := fire_accepted now haccepted htarget (by rw [hrole]; decide)
      rw [existing_core_ids_iff, hgone]
      rintro ⟨-, -, hsecurity⟩
      rw [filled_dismiss_iff, hlast] at hsecurity
      cases hsecurity
    · cases htakes
  · cases htakes

/-! ### The bootstrap -/

/-- A bootstrap that returns has hired the three. -/
theorem bootstrap_agents {ids : CoreIds} {now : Role → Time} {requested_by : String} {o o' : Org}
    {core : Agent × Agent × Agent} (h : bootstrap_core_agents ids now requested_by o = (.ok core, o')) :
    Filled o'.agents .CEO ∧ Filled o'.agents .HR ∧ Filled o'.agents .SECURITY := by
  rw [bootstrap_core_agents] at h
  obtain ⟨ceo, o₁, hceo, h⟩ := bind_eq_ok.mp h
  obtain ⟨hr, o₂, hhr, h⟩ := bind_eq_ok.mp h
  obtain ⟨sec, o₃, hsec, h⟩ := bind_eq_ok.mp h
  obtain ⟨-, rfl⟩ := Prod.mk.inj h
  rw [(add_agent_ok hsec).2, (add_agent_ok hhr).2, (add_agent_ok hceo).2]
  exact ⟨((filled_hired _ _ _ _).append _).append _, (filled_hired _ _ _ _).append _, filled_hired _ _ _ _⟩

/-- **Core roles survive restarts exactly so.** After a bootstrap that returns, in a run of hires, reassignments,
    firings and restarts, a restart finds a CEO, an HR and a Security agent in every state if and only if no firing
    that is accepted takes the last Security agent. -/
theorem core_roles_survive (events : EventStore) (lower : String → String) (ids : CoreIds) (now : Role → Time)
    (requested_by : String) (core : Agent × Agent × Agent) (o : Org)
    (hboot : bootstrap_core_agents ids now requested_by { agents := [], events, lower } = (.ok core, o))
    (run : List Label) :
    (∀ pre, pre <+: run → ∃ found, existing_core_ids (exec step o pre).agents = .ok found) ↔
      Along step (fun o label => takes_last_security o label = false) o run := by
  have hfounded : o = founded events lower ids now requested_by := (congrArg Prod.snd hboot).symm
  obtain ⟨hceo, hhr, hsec⟩ := bootstrap_agents hboot
  have hmanned : Manned o.agents := by
    refine ⟨?_, hceo, hhr, hsec⟩
    rw [hfounded]
    exact (founded_charted events lower ids now requested_by).toRostered
  refine (along_iff_everywhere (D := fun _ => True) (I := fun o : Org => Manned o.agents)
    (P := fun o : Org => ∃ found, existing_core_ids o.agents = .ok found) ?_ ?_ ?_ hmanned fun _ _ => trivial).symm
  · exact fun o h => h.found
  · exact fun o label _ h hkeeps => h.step hkeeps
  · exact fun o label _ _ htakes => unmanned_of_takes (by simpa using htakes)

/-- The CEO fires Security for a reason that is long enough. -/
def fire_security : Firing :=
  { actor_id := "c1", target_id := "sec", reason := "performance below bar", via_hr := true }

theorem core_roles_survive_small :
    (∀ pre, pre <+: [.add_agent "m1" 20 (member_under "c1"), .fire 30 fire_security] →
      ∃ found, existing_core_ids (exec step small_company pre).agents = .ok found) ↔
    Along step (fun o label => takes_last_security o label = false) small_company
      [.add_agent "m1" 20 (member_under "c1"), .fire 30 fire_security] := by
  refine core_roles_survive .quiet id { ceo := "c1", hr := "hr", security := "sec" } (fun _ => 10) "board" _
    small_company (Prod.ext ?_ rfl) _
  rfl

/-- The firing is accepted, and the restart fails. -/
theorem restart_without_security :
    ¬ ∀ run, ∃ found, existing_core_ids (exec step small_company run).agents = .ok found := by
  intro hall
  obtain ⟨found, hfound⟩ := hall [.fire 30 fire_security]
  have hmissing : existing_core_ids (exec step small_company [.fire 30 fire_security]).agents =
      .error (.raises (.other "RuntimeError" "company missing bootstrap roles; have ['ceo', 'hr']")) := by
    decide +kernel
  rw [hmissing] at hfound
  cases hfound

end Org

end CompanyFactory
