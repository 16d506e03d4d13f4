import CompanyFactory.Identity.Tree

/-!
# `Identity.Capacity` — headcount, span of control, and who HR manages

`WithinLimits` has the three limits of the organisation. `add_agent` and `reassign` check them before they add
an edge, and a firing only takes edges away. **The repair at startup hangs every unmanaged member under the CEO
and counts nothing**, so a firing that orphans a team and a start break the limit of the CEO.

* `countP_map_le` — what a rewriting of rows can add to a count.
* `org_capacity` — a run keeps the limits in every state exactly if each start finds room under the CEO.
-/

namespace CompanyFactory

open Act Machine Identity Bootstrap

namespace Org

/-- **The limits of the organisation.** -/
structure WithinLimits (agents : List Agent) : Prop where
  headcount : active_count agents ≤ MAX_ACTIVE_AGENTS
  span : ∀ m ∈ agents, direct_report_count agents m.id ≤ _direct_report_limit m.role
  hr : ∀ a ∈ agents, a.status = .ACTIVE → ∀ m ∈ agents, a.reports_to = some m.id →
    m.role = .HR → a.role = .HR

/-- A roster within the limits. -/
structure Staffed (agents : List Agent) : Prop extends Rostered agents, WithinLimits agents

variable {agents : List Agent} {a b m : Agent} {x : String}

/-! ## Counting -/

/-- Rewriting rows adds to a count at most the rows that did not count before. -/
theorem countP_map_le (g : Agent → Agent) (p q : Agent → Bool) (agents : List Agent)
    (h : ∀ a ∈ agents, p (g a) = true → p a = true ∨ q a = true) :
    (agents.map g).countP p ≤ agents.countP p + agents.countP q := by
  induction agents with
  | nil => simp
  | cons a rest ih =>
      have hrest := ih fun b hb => h b (List.mem_cons_of_mem _ hb)
      have hhead := h a List.mem_cons_self
      simp only [List.map_cons, List.countP_cons]
      by_cases hp : p (g a) = true
      · rcases hhead hp with ha | ha <;> simp only [hp, ha, if_true] <;> omega
      · simp only [hp]
        simp only [Bool.false_eq_true, if_false]
        omega

theorem countP_map_le_self (g : Agent → Agent) (p : Agent → Bool) (agents : List Agent)
    (h : ∀ a ∈ agents, p (g a) = true → p a = true) :
    (agents.map g).countP p ≤ agents.countP p := by
  have hle := countP_map_le g p (fun _ => false) agents fun a ha hp => .inl (h a ha hp)
  simpa using hle

/-- One row has the id. -/
theorem Rostered.count_id (h : Rostered agents) (x : String) :
    agents.countP (fun a => decide (a.id = x)) ≤ 1 := by
  have hcount := Table.countP_key h.ids (fun _ => true) x
  simp only [Bool.true_and] at hcount
  rw [hcount]
  exact Bool.toNat_le _

theorem reports_iff : reports x a = true ↔ a.reports_to = some x ∧ a.status = .ACTIVE := by
  simp [reports, Agent.active]

/-! ## Hiring -/

theorem headcount_of_check {agent_id : String} {hire : Hire}
    (hcheck : check_hire agents agent_id hire = .ok ()) : active_count agents < MAX_ACTIVE_AGENTS :=
  (check_hire_ok hcheck).1

/-- The manager of a hire has a place left, and if the hire is no bootstrap, is HR only for HR. -/
theorem room_of_place {agent_id : String} {hire : Hire}
    (hplace : place_under agents agent_id hire x = .ok ()) (hm : find agents x = some m) :
    direct_report_count agents x < _direct_report_limit m.role ∧
      (hire.bootstrap = false → m.role = .HR → hire.role = .HR) := by
  rw [place_under, hm] at hplace
  dsimp only at hplace
  split at hplace
  · cases hplace
  · split at hplace
    · cases hplace
    · split at hplace
      · cases hplace
      · rename_i hhr
        split at hplace
        · cases hplace
        · rename_i hroom
          refine ⟨Nat.lt_of_not_le hroom, fun hord hrole => ?_⟩
          simpa [hord, hrole] using hhr

section Added

variable {agent_id : String} {now : Time} {hire : Hire}

/-- Nobody reports to an id that is not in the table. -/
theorem Rostered.no_reports (h : Rostered agents) (hnew : find agents agent_id = none) :
    direct_report_count agents agent_id = 0 := by
  rw [direct_report_count, List.countP_eq_zero]
  intro a ha hreports
  obtain ⟨b, hb, -⟩ := h.managed a ha agent_id (reports_iff.mp hreports).1
  rw [hnew] at hb
  cases hb

/-- A hire that brings only HR under HR keeps the limits. -/
theorem Staffed.added (h : Staffed agents)
    (hhr : ∀ x m, hire.reports_to = some x → find agents x = some m → m.role = .HR → hire.role = .HR)
    (hcheck : check_hire agents agent_id hire = .ok ()) (hnew : find agents agent_id = none) :
    Staffed (agents ++ [hired agent_id now hire]) := by
  have hmgr : ∀ x, hire.reports_to = some x → ∃ b, find agents x = some b ∧ b.status = .ACTIVE :=
    fun x hx => manager_of_hire hcheck hx
  have hcount : ∀ x, direct_report_count (agents ++ [hired agent_id now hire]) x =
      direct_report_count agents x + if hire.reports_to = some x then 1 else 0 := by
    intro x
    rw [direct_report_count, List.countP_append, List.countP_singleton]
    by_cases hto : hire.reports_to = some x <;>
      simp [direct_report_count, reports, hired, Agent.active, hto]
  -- a manager that is in the old table is a row of it, and not the new one
  have hold : ∀ m ∈ agents ++ [hired agent_id now hire], ∀ b, find agents m.id = some b → m ∈ agents := by
    intro m hm b hb
    rcases List.mem_append.mp hm with hmem | hlast
    · exact hmem
    · obtain rfl := List.mem_singleton.mp hlast
      have hid : find agents (hired agent_id now hire).id = none := hnew
      rw [hid] at hb
      cases hb
  refine ⟨h.toRostered.added hcheck hnew, ?_, ?_, ?_⟩
  · have hless := headcount_of_check hcheck
    rw [active_count, List.countP_append, List.countP_singleton]
    unfold active_count at hless
    split <;> omega
  · intro m hm
    rw [hcount]
    rcases List.mem_append.mp hm with hmem | hlast
    · split
      · rename_i hto
        exact (room_of_place (place_of_check hcheck hto) (h.find_of_mem hmem)).1
      · exact h.span m hmem
    · obtain rfl := List.mem_singleton.mp hlast
      have hid : (hired agent_id now hire).id = agent_id := rfl
      have hself : hire.reports_to ≠ some agent_id := by
        intro hto
        obtain ⟨b, hb, -⟩ := hmgr agent_id hto
        rw [hnew] at hb
        cases hb
      rw [hid, if_neg hself, h.no_reports hnew]
      exact Nat.zero_le _
  · intro a ha hactive m hm hto hrole
    rcases List.mem_append.mp ha with hmem | hlast
    · obtain ⟨b, hb, -⟩ := h.managed a hmem m.id hto
      exact h.hr a hmem hactive m (hold m hm b hb) hto hrole
    · obtain rfl := List.mem_singleton.mp hlast
      obtain ⟨b, hb, -⟩ := hmgr m.id hto
      exact hhr m.id m hto (h.find_of_mem (hold m hm b hb)) hrole

end Added

/-! ## Reassigning -/

theorem room_of_has_place {target new_mgr : Agent} (h : has_place agents new_mgr target = .ok ()) :
    direct_report_count agents new_mgr.id < _direct_report_limit new_mgr.role ∧
      (new_mgr.role = .HR → target.role = .HR) := by
  unfold has_place at h
  split at h
  · cases h
  · rename_i hhr
    split at h
    · cases h
    · rename_i hroom
      refine ⟨Nat.lt_of_not_le hroom, fun hrole => ?_⟩
      by_contra hne
      exact hhr ⟨hrole, hne⟩

theorem reassigned_role (r : Reassignment) (a : Agent) : (reassigned r a).role = a.role := by
  unfold reassigned
  split <;> rfl

/-- Who reports to a manager after a reassignment: who did before, and the target to its new manager. -/
theorem reassigned_reports {r : Reassignment} (h : reports x (reassigned r a) = true) :
    reports x a = true ∨ (a.id = r.target_id ∧ x = r.new_reports_to) := by
  rw [reports_iff, reassigned_status] at h
  obtain ⟨hto, hactive⟩ := h
  unfold reassigned at hto
  split at hto
  · rename_i htarget
    cases hto
    exact .inr ⟨htarget, rfl⟩
  · exact .inl (reports_iff.mpr ⟨hto, hactive⟩)

theorem Staffed.moved (h : Staffed agents) {r : Reassignment} {target new_mgr : Agent}
    (hmoves : Reassigns agents r target new_mgr) :
    Staffed (set_manager r.target_id r.new_reports_to agents) := by
  obtain ⟨hroom, hhr⟩ := room_of_has_place hmoves.place
  have hnew : new_mgr.id = r.new_reports_to := find_id hmoves.manager_row
  refine ⟨h.toRostered.moved hmoves, ?_, ?_, ?_⟩ <;> rw [set_manager_eq]
  · refine (countP_map_le_self _ _ _ fun a _ hactive => ?_).trans h.headcount
    unfold Agent.active at hactive ⊢
    rwa [reassigned_status] at hactive
  · intro m' hm'
    obtain ⟨m, hm, rfl⟩ := List.mem_map.mp hm'
    rw [reassigned_id, reassigned_role]
    by_cases hx : m.id = r.new_reports_to
    · have hle := countP_map_le (reassigned r) (reports m.id) (fun a => decide (a.id = r.target_id))
        agents fun a _ hp => (reassigned_reports hp).imp_right fun hq => decide_eq_true hq.1
      have hone := h.count_id r.target_id
      have heq : m = new_mgr := by
        have hfind := h.find_of_mem hm
        rw [hx, hmoves.manager_row] at hfind
        exact (Option.some.inj hfind).symm
      subst heq
      unfold direct_report_count at hroom ⊢
      omega
    · refine (countP_map_le_self _ _ _ fun a _ hp => ?_).trans (h.span m hm)
      exact (reassigned_reports hp).resolve_right fun hq => hx hq.2
  · intro a' ha' hactive m' hm' hto hrole
    obtain ⟨a, ha, rfl⟩ := List.mem_map.mp ha'
    obtain ⟨m, hm, rfl⟩ := List.mem_map.mp hm'
    rw [reassigned_role] at hrole ⊢
    rw [reassigned_id] at hto
    rcases reassigned_reports (reports_iff.mpr ⟨hto, hactive⟩) with hwas | ⟨hid, hx⟩
    · obtain ⟨hto, hactive⟩ := reports_iff.mp hwas
      exact h.hr a ha hactive m hm hto hrole
    · have hm_eq : new_mgr = m := by
        have hfind := h.find_of_mem hm
        rw [hx, hmoves.manager_row] at hfind
        exact Option.some.inj hfind
      have ha_eq : target = a := by
        have hfind := h.find_of_mem ha
        rw [hid, hmoves.target_row] at hfind
        exact Option.some.inj hfind
      subst hm_eq ha_eq
      exact hhr hrole

/-! ## Firing -/

theorem dismissed_role (f : Firing) (now : Time) (a : Agent) : (dismissed f now a).role = a.role := by
  unfold dismissed
  split
  · rfl
  · split <;> rfl

theorem dismissed_active {f : Firing} {now : Time} (h : (dismissed f now a).status = .ACTIVE) :
    a.status = .ACTIVE := by
  unfold dismissed at h
  split at h
  · cases h
  · split at h <;> exact h

theorem Staffed.fired (h : Staffed agents) (f : Firing) (now : Time) :
    Staffed (dismiss f.target_id f.actor_id f.reason now agents) := by
  have hreports : ∀ {x a}, reports x (dismissed f now a) = true → reports x a = true := by
    intro x a hp
    obtain ⟨hto, hactive⟩ := reports_iff.mp hp
    exact reports_iff.mpr ⟨(dismissed_reports hto).1, dismissed_active hactive⟩
  refine ⟨h.toRostered.fired f now, ?_, ?_, ?_⟩ <;> rw [dismiss_eq]
  · refine (countP_map_le_self _ _ _ fun a _ hactive => ?_).trans h.headcount
    exact decide_eq_true (dismissed_active (of_decide_eq_true hactive))
  · intro m' hm'
    obtain ⟨m, hm, rfl⟩ := List.mem_map.mp hm'
    rw [dismissed_id, dismissed_role]
    have hle := countP_map_le_self (dismissed f now) (reports m.id) agents fun a _ hp => hreports hp
    exact hle.trans (h.span m hm)
  · intro a' ha' hactive m' hm' hto hrole
    obtain ⟨a, ha, rfl⟩ := List.mem_map.mp ha'
    obtain ⟨m, hm, rfl⟩ := List.mem_map.mp hm'
    rw [dismissed_role] at hrole ⊢
    rw [dismissed_id] at hto
    obtain ⟨hto, hactive⟩ := reports_iff.mp (hreports (reports_iff.mpr ⟨hto, hactive⟩))
    exact h.hr a ha hactive m hm hto hrole

/-! ## The repair at startup -/

theorem hung_role (ceo_id : String) (a : Agent) : (hung ceo_id a).role = a.role := by
  unfold hung
  split <;> rfl

/-- Who reports to a manager after the repair: who did before, and the unmanaged members to the CEO. -/
theorem hung_reports {ceo_id : String} :
    reports x (hung ceo_id a) = (reports x a || (unmanaged a && decide (ceo_id = x))) := by
  unfold hung
  by_cases hun : unmanaged a = true
  · have hroot := unmanaged_root hun
    have hactive : a.active = true := by
      unfold unmanaged at hun
      simp only [Bool.and_eq_true] at hun
      exact hun.1.2
    rw [if_pos hun]
    simp [reports, hun, hroot, Agent.active] at hactive ⊢
    simp [hactive]
  · rw [if_neg hun]
    simp [hun]

/-- The CEO gets every unmanaged member. -/
theorem count_hung (ceo_id : String) (agents : List Agent) :
    direct_report_count (hang_under ceo_id agents) ceo_id =
      direct_report_count agents ceo_id + agents.countP unmanaged := by
  show (agents.map (hung ceo_id)).countP _ = agents.countP _ + _
  induction agents with
  | nil => rfl
  | cons a rest ih =>
      rw [List.map_cons, List.countP_cons, List.countP_cons, List.countP_cons, ih, hung_reports]
      by_cases hun : unmanaged a = true
      · have hno : reports ceo_id a = false := by simp [reports, unmanaged_root hun]
        simp [hun, hno]
        omega
      · simp [hun]
        omega

theorem Staffed.repaired (h : Staffed agents) {ids : CoreIds}
    (hids : existing_core_ids agents = .ok ids)
    (hroom : direct_report_count agents ids.ceo + agents.countP unmanaged ≤ MAX_CEO_DIRECT_REPORTS) :
    Staffed (hang_under ids.ceo agents) := by
  obtain ⟨ceo, hfind, -, hrole⟩ := h.ceo_row hids
  have hceo : ∀ m ∈ agents, m.id = ids.ceo → m = ceo := by
    intro m hm hx
    have hrow := h.find_of_mem hm
    rw [hx, hfind] at hrow
    exact (Option.some.inj hrow).symm
  refine ⟨h.toRostered.repaired hids, ?_, ?_, ?_⟩
  · refine (countP_map_le_self (hung ids.ceo) Agent.active agents fun a _ hactive => ?_).trans h.headcount
    unfold Agent.active at hactive ⊢
    rwa [hung_status] at hactive
  · intro m' hm'
    obtain ⟨m, hm, rfl⟩ := List.mem_map.mp hm'
    show direct_report_count _ (hung ids.ceo m).id ≤ _direct_report_limit (hung ids.ceo m).role
    rw [hung_id, hung_role]
    by_cases hx : m.id = ids.ceo
    · rw [hx, count_hung, hceo m hm hx, hrole]
      exact hroom
    · refine (countP_map_le_self (hung ids.ceo) (reports m.id) agents fun a _ hp => ?_).trans (h.span m hm)
      rw [hung_reports] at hp
      rcases Bool.or_eq_true_iff.mp hp with hwas | hnew
      · exact hwas
      · exact absurd (of_decide_eq_true (Bool.and_eq_true_iff.mp hnew).2).symm hx
  · intro a' ha' hactive m' hm' hto hmrole
    obtain ⟨a, ha, rfl⟩ := List.mem_map.mp ha'
    obtain ⟨m, hm, rfl⟩ := List.mem_map.mp hm'
    have hrep : reports (hung ids.ceo m).id (hung ids.ceo a) = true := reports_iff.mpr ⟨hto, hactive⟩
    have hmrole' : m.role = .HR := (hung_role _ m).symm.trans hmrole
    rw [hung_id, hung_reports] at hrep
    have harole : (hung ids.ceo a).role = a.role := hung_role _ a
    rcases Bool.or_eq_true_iff.mp hrep with hwas | hnew
    · obtain ⟨hto, hactive⟩ := reports_iff.mp hwas
      exact harole.trans (h.hr a ha hactive m hm hto hmrole')
    · obtain ⟨-, hx⟩ := Bool.and_eq_true_iff.mp hnew
      rw [hceo m hm (of_decide_eq_true hx).symm, hrole] at hmrole'
      cases hmrole'

/-! ## Runs -/

/-- No hire as bootstrap. -/
def Label.ordinary : Label → Bool
  | .add_agent _ _ hire => !hire.bootstrap
  | _ => true

/-- Does a start find room under the CEO for all unmanaged members? -/
def repairs_with_room (o : Org) : Label → Bool
  | .restart _ =>
    match existing_core_ids o.agents with
    | .error _ => true
    | .ok ids => decide (ids.ceo = "") ||
        decide (direct_report_count o.agents ids.ceo + o.agents.countP unmanaged ≤ MAX_CEO_DIRECT_REPORTS)
  | _ => true

theorem Staffed.step {o : Org} (h : Staffed o.agents) {label : Label} (hord : label.ordinary = true)
    (hroom : repairs_with_room o label = true) : Staffed (step o label).agents := by
  have hwritten := step_written o label
  generalize (Org.step o label).agents = rows at hwritten ⊢
  cases hwritten with
  | kept => exact h
  | added agent_id now hire hcheck hnew =>
      have hbootstrap : hire.bootstrap = false := by simpa [Label.ordinary] using hord
      refine h.added (fun x m hx hm => ?_) hcheck hnew
      exact (room_of_place (place_of_check hcheck hx) hm).2 hbootstrap
  | moved r target hcheck =>
      obtain ⟨new_mgr, hmoves⟩ := reassigns_of_check hcheck
      exact h.moved hmoves
  | fired now f _ => exact h.fired f now
  | repaired by_ ids hids hne =>
      rw [repairs_with_room, hids] at hroom
      refine h.repaired hids ?_
      simpa [hne] using hroom

/-- **A repair without room breaks the limit of the CEO.** -/
theorem Staffed.exceeds {o : Org} (h : Staffed o.agents) {label : Label}
    (hfull : ¬ repairs_with_room o label = true) : ¬ WithinLimits (Org.step o label).agents := by
  cases label with
  | add_agent agent_id now hire => exact absurd rfl hfull
  | reassign r => exact absurd rfl hfull
  | fire now f => exact absurd rfl hfull
  | restart by_ =>
      cases hids : existing_core_ids o.agents with
      | error e => rw [repairs_with_room, hids] at hfull; exact absurd rfl hfull
      | ok ids =>
          rw [repairs_with_room, hids] at hfull
          obtain ⟨hne, hmore⟩ : ids.ceo ≠ "" ∧ MAX_CEO_DIRECT_REPORTS <
              direct_report_count o.agents ids.ceo + o.agents.countP unmanaged := by
            simpa using hfull
          obtain ⟨ceo, hfind, -, hrole⟩ := h.ceo_row hids
          have hspan := h.span ceo (find_mem hfind)
          rw [find_id hfind, hrole] at hspan
          have hun : o.agents.filter unmanaged ≠ [] := by
            intro hnil
            rw [List.countP_eq_length_filter (p := unmanaged), hnil] at hmore
            exact absurd hspan (Nat.not_le_of_lt hmore)
          intro hlimits
          have hrows : (Org.step o (.restart by_)).agents = o.agents.map (hung ids.ceo) :=
            restart_agents hids hne hun
          rw [hrows] at hlimits
          have hceo := hlimits.span _ (List.mem_map_of_mem (find_mem hfind))
          rw [hung_id, hung_role, hrole, find_id hfind] at hceo
          have hcount : direct_report_count (o.agents.map (hung ids.ceo)) ids.ceo = _ :=
            count_hung ids.ceo o.agents
          rw [hcount] at hceo
          exact absurd hceo (Nat.not_le_of_lt hmore)

/-! ### The bootstrap -/

theorem staffed_nil : Staffed [] where
  ids := List.nodup_nil
  managed _ h := absurd h List.not_mem_nil
  headcount := Nat.zero_le _
  span _ h := absurd h List.not_mem_nil
  hr _ h := absurd h List.not_mem_nil

/-- A hire keeps the limits if it brings only HR under HR. -/
theorem Staffed.hire {o : Org} (h : Staffed o.agents) (agent_id : String) (now : Time) {hire : Hire}
    (hhr : ∀ x m, hire.reports_to = some x → find o.agents x = some m → m.role = .HR → hire.role = .HR) :
    Staffed (add_agent agent_id now hire o).2.agents := by
  have hwritten := add_agent_written (o := o) agent_id now hire
  generalize (add_agent agent_id now hire o).2.agents = rows at hwritten ⊢
  cases hwritten with
  | kept => exact h
  | added _ _ _ hcheck hnew => exact h.added hhr hcheck hnew

/-- A hire, and what follows if it returns. -/
theorem Staffed.hire_then {α : Type} {o : Org} (h : Staffed o.agents) {agent_id : String} {now : Time}
    {hire : Hire} {rest : Agent → Act Org Halt α}
    (hhr : ∀ x m, hire.reports_to = some x → find o.agents x = some m → m.role = .HR → hire.role = .HR)
    (hrest : ∀ o', o'.agents = o.agents ++ [hired agent_id now hire] → Staffed o'.agents →
      Staffed (rest (hired agent_id now hire) o').2.agents) :
    Staffed ((add_agent agent_id now hire >>= rest) o).2.agents := by
  have hhired := h.hire agent_id now hhr
  refine bind_after (P := fun o : Org => Staffed o.agents) hhired fun a o' hrun => ?_
  rw [hrun] at hhired
  obtain ⟨rfl, hrows⟩ := add_agent_ok hrun
  exact hrest o' hrows hhired

theorem founded_staffed (events : EventStore) (lower : String → String) (ids : CoreIds)
    (now : Role → Time) (requested_by : String) :
    Staffed (founded events lower ids now requested_by).agents := by
  rw [founded, Act.after, bootstrap_core_agents]
  refine staffed_nil.hire_then (o := { agents := [], events, lower }) ?_ fun o₁ hrows₁ h₁ => ?_
  · intro x m hx
    cases hx
  refine h₁.hire_then ?_ fun o₂ hrows₂ h₂ => ?_
  · exact fun _ _ _ _ _ => rfl
  refine h₂.hire_then ?_ fun o₃ _ h₃ => h₃
  -- Security reports to the first row of the table
  intro x m hx hm hrole
  obtain rfl := Option.some.inj hx
  rw [hrows₂, hrows₁, find, List.nil_append, List.singleton_append, Table.find_cons, if_pos rfl] at hm
  obtain rfl := Option.some.inj hm
  cases hrole

/-! ### The limits over runs -/

/-- **The limits hold exactly while the starts find room.** After the bootstrap, in a run of hires that are no
    bootstrap, reassignments, firings and starts, every state is within the limits if and only if every start
    finds room under the CEO for all unmanaged members. -/
theorem org_capacity (events : EventStore) (lower : String → String) (ids : CoreIds) (now : Role → Time)
    (requested_by : String) (run : List Label) (hord : ∀ label ∈ run, label.ordinary = true) :
    (∀ pre, pre <+: run →
      WithinLimits (exec step (founded events lower ids now requested_by) pre).agents) ↔
    Along step (fun o label => repairs_with_room o label = true)
      (founded events lower ids now requested_by) run := by
  refine (along_iff_everywhere (D := fun label => label.ordinary = true)
    (I := fun o : Org => Staffed o.agents) (P := fun o : Org => WithinLimits o.agents) ?_ ?_ ?_
    (founded_staffed events lower ids now requested_by) hord).symm
  · exact fun o h => h.toWithinLimits
  · exact fun o label hord h hroom => h.step hord hroom
  · exact fun o label _ h hfull => h.exceeds hfull

/-- Two more reports of the CEO of the small company, and four below one of these. -/
def full_team : List Label :=
  [.add_agent "m1" 20 (member_under "c1"), .add_agent "m2" 21 (member_under "c1"),
    .add_agent "m3" 22 (member_under "m1"), .add_agent "m4" 23 (member_under "m1"),
    .add_agent "m5" 24 (member_under "m1"), .add_agent "m6" 25 (member_under "m1")]

theorem org_capacity_full_team :
    (∀ pre, pre <+: full_team → WithinLimits (exec step small_company pre).agents) ↔
      Along step (fun o label => repairs_with_room o label = true) small_company full_team :=
  org_capacity .quiet id { ceo := "c1", hr := "hr", security := "sec" } (fun _ => 10) "board" full_team
    (by decide)

/-- The manager of a full team is fired, and the company starts again: the CEO gets the team to its three
    other reports. -/
theorem repair_overloads_ceo :
    ¬ ∀ run, (∀ label ∈ run, label.ordinary = true) → WithinLimits (exec step small_company run).agents := by
  intro hlimits
  let run := full_team ++
    [.fire 40 { actor_id := "c1", target_id := "m1", reason := "closing the product line", via_hr := true },
      .restart "c1"]
  have hlast := hlimits run (by decide)
  have hceo : ∃ m ∈ (exec step small_company run).agents,
      ¬ direct_report_count (exec step small_company run).agents m.id ≤ _direct_report_limit m.role := by
    decide +kernel
  obtain ⟨m, hm, hmore⟩ := hceo
  exact hmore (hlast.span m hm)

end Org

end CompanyFactory
