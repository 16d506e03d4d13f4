import CompanyFactory.Factory.Bootstrap
import CompanyFactory.Lib.Forest

/-!
# `Identity.Tree` — the chart is a forest

`Rostered` says that the ids are unique and every manager is a row of the table, active if the report is;
`Charted` adds that every walk up the chart ends. A hire, a reassignment and a firing keep it, whatever the chart looks like.
**The repair at startup keeps it only if no member that it hangs under the CEO is above that CEO**: with a
second CEO below a member, hired by a clock that ran behind, the repair closes a cycle.

* `Charted.sound` — what the invariant gives: no cycles, and walks that end.
* `org_tree_sound` — a run keeps the chart sound in every state exactly if its repairs start from the top.
-/

namespace CompanyFactory

open Act Machine Forest Identity Bootstrap

namespace Org

/-- Every manager is a row of the table, active if the report is. -/
structure Rostered (agents : List Agent) : Prop where
  ids : (agents.map Agent.id).Nodup
  managed : ∀ a ∈ agents, ∀ m, a.reports_to = some m →
    ∃ b, find agents m = some b ∧ (a.status = .ACTIVE → b.status = .ACTIVE)

/-- The chart of the table: nobody is above itself. -/
structure Charted (agents : List Agent) : Prop extends Rostered agents where
  rooted : Rooted (manager agents)

variable {agents : List Agent} {a b row : Agent} {l : List String} {x y : String}

theorem manager_of_find (h : find agents x = some a) : manager agents x = a.reports_to := by
  rw [manager, h]
  rfl

theorem find_id (h : find agents x = some a) : a.id = x := Table.key_of_find h

theorem find_mem (h : find agents x = some a) : a ∈ agents := Table.mem_of_find h

theorem Rostered.find_of_mem (h : Rostered agents) (ha : a ∈ agents) : find agents a.id = some a :=
  Table.find_of_mem h.ids ha

/-! ## Walks -/

/-- The managers on a chain are rows of the table. -/
theorem Rostered.chain_found (h : Rostered agents) (hl : Chain (manager agents) x l) :
    ∀ y ∈ l, ∃ b, find agents y = some b := by
  induction hl with
  | root _ => exact nofun
  | @step x y l hstep _ ih =>
      intro z hz
      rcases List.mem_cons.mp hz with rfl | hmem
      · unfold manager at hstep
        obtain ⟨a, hfind, hreports⟩ := Option.bind_eq_some_iff.mp hstep
        obtain ⟨b, hb, -⟩ := h.managed a (find_mem hfind) z hreports
        exact ⟨b, hb⟩
      · exact ih z hmem

theorem Rostered.chain_length (h : Rostered agents) (hl : Chain (manager agents) x l) :
    l.length ≤ agents.length := by
  have hlen : l.length ≤ (agents.map Agent.id).length := hl.length_le fun y hy => ?_
  · simpa using hlen
  obtain ⟨b, hb⟩ := h.chain_found hl y hy
  exact find_id hb ▸ List.mem_map_of_mem (find_mem hb)

/-- The loop of `reassign` looks for the target on the chain. -/
theorem meets_eq (hl : Chain (manager agents) x l) (target_id : String) :
    ∀ n, l.length ≤ n → meets agents target_id n (manager agents x) = some (decide (target_id ∈ l)) := by
  induction hl with
  | root hroot =>
      intro n _
      rw [hroot]
      cases n <;> simp [meets]
  | @step x y l hstep rest ih =>
      intro n hn
      obtain ⟨n, rfl⟩ : ∃ k, n = k + 1 := ⟨n - 1, by rw [List.length_cons] at hn; omega⟩
      rw [hstep, meets]
      by_cases htarget : y = target_id
      · simp [htarget]
      · have hrest := ih n (by simpa using hn)
        have hmem : target_id ∈ y :: l ↔ target_id ∈ l :=
          ⟨fun h => (List.mem_cons.mp h).resolve_left fun heq => htarget heq.symm,
            List.mem_cons_of_mem _⟩
        rw [if_neg htarget, decide_eq_decide.mpr hmem, ← hrest]
        cases hfind : find agents y with
        | some row => rw [manager_of_find hfind]
        | none =>
            have hnone : manager agents y = none := by rw [manager, hfind]; rfl
            rw [hnone]
            cases n <;> rfl

theorem manager_of_eq (h : find agents x = some a) :
    manager_of agents x = .ok (manager agents x) := by
  rw [manager_of, h, manager_of_find h]

/-- The loop of `chain_up` collects the chain. -/
theorem climb_eq (h : Rostered agents) (hl : Chain (manager agents) x l) :
    ∀ n seen chain, l.length ≤ n → (∀ y ∈ l, y ∉ seen) →
      climb agents n (manager agents x) seen chain = some (.ok (chain ++ l)) := by
  have hfound := h.chain_found hl
  induction hl with
  | root hroot =>
      intro n seen chain _ _
      rw [hroot]
      cases n <;> simp [climb]
  | @step x y l hstep rest ih =>
      intro n seen chain hn hseen
      obtain ⟨n, rfl⟩ : ∃ k, n = k + 1 := ⟨n - 1, by rw [List.length_cons] at hn; omega⟩
      obtain ⟨row, hrow⟩ := hfound y List.mem_cons_self
      rw [hstep, climb, if_neg (hseen y List.mem_cons_self), manager_of_eq hrow]
      dsimp only
      rw [ih (fun z hz => hfound z (List.mem_cons_of_mem _ hz)) n _ _ (by simpa using hn)]
      · simp
      · intro z hz hmem
        rcases List.mem_cons.mp hmem with rfl | hmem
        · exact rest.not_mem hz
        · exact hseen z (List.mem_cons_of_mem _ hz) hmem

theorem chain_up_eq (h : Rostered agents) (hrow : find agents x = some row)
    (hl : Chain (manager agents) x l) {n : Nat} (hn : l.length ≤ n) :
    chain_up agents n x = some (.ok l) := by
  rw [chain_up, manager_of_eq hrow]
  have hclimb := climb_eq h hl n [x] [] hn fun y hy hmem =>
    hl.not_mem (List.mem_singleton.mp hmem ▸ hy)
  simpa using hclimb

/-- The loop of `depth` ends. -/
theorem levels_ends (h : Rostered agents) (hl : Chain (manager agents) x l) (ancestor_id : String) :
    ∀ n d, l.length ≤ n → (levels agents ancestor_id n (manager agents x) d).isSome = true := by
  have hfound := h.chain_found hl
  induction hl with
  | root hroot =>
      intro n d _
      rw [hroot]
      cases n <;> rfl
  | @step x y l hstep _ ih =>
      intro n d hn
      obtain ⟨n, rfl⟩ : ∃ k, n = k + 1 := ⟨n - 1, by rw [List.length_cons] at hn; omega⟩
      obtain ⟨row, hrow⟩ := hfound y List.mem_cons_self
      rw [hstep, levels]
      split
      · rfl
      · rw [manager_of_eq hrow]
        exact ih (fun z hz => hfound z (List.mem_cons_of_mem _ hz)) n _ (by simpa using hn)

/-- **A sound chart**: no cycle, active managers, and walks that end on every pair of agents. -/
structure Sound (agents : List Agent) : Prop where
  acyclic : ∀ x, ¬ Relation.TransGen (fun x y => manager agents x = some y) x x
  managed : ∀ a ∈ agents, a.status = .ACTIVE → ∀ m, a.reports_to = some m →
    ∃ b ∈ agents, b.id = m ∧ b.status = .ACTIVE
  walks : ∀ n, agents.length ≤ n → ∀ x y, (meets agents x n (manager agents y)).isSome = true ∧
    (chain_up agents n y).isSome = true ∧ (depth agents n x y).isSome = true
  detects_none : ∀ n, agents.length ≤ n → ∀ x message,
    chain_up agents n x ≠ some (.error (.other "CycleDetected" message))

/-- What `chain_up` gives: the chain, or that there is no such agent. -/
theorem Charted.chain_up_cases (h : Charted agents) {n : Nat} (hn : agents.length ≤ n) (x : String) :
    chain_up agents n x = some (.error (.keyError x)) ∨
      ∃ l, Chain (manager agents) x l ∧ chain_up agents n x = some (.ok l) := by
  cases hrow : find agents x with
  | none =>
      left
      rw [chain_up, manager_of, hrow]
  | some row =>
      obtain ⟨l, hl⟩ := h.rooted x
      exact .inr ⟨l, hl, chain_up_eq h.toRostered hrow hl ((h.chain_length hl).trans hn)⟩

theorem Charted.depth_ends (h : Charted agents) {n : Nat} (hn : agents.length ≤ n) (x y : String) :
    (depth agents n x y).isSome = true := by
  obtain ⟨l, hl⟩ := h.rooted y
  rw [depth]
  split
  · rfl
  · cases hrow : find agents y with
    | none => rw [manager_of, hrow]; rfl
    | some row =>
        rw [manager_of_eq hrow]
        exact levels_ends h.toRostered hl x n 0 ((h.chain_length hl).trans hn)

theorem Charted.sound (h : Charted agents) : Sound agents where
  acyclic := h.rooted.acyclic
  managed a ha hactive m hm := by
    obtain ⟨b, hb, himp⟩ := h.managed a ha m hm
    exact ⟨b, find_mem hb, find_id hb, himp hactive⟩
  walks n hn x y := by
    obtain ⟨l, hl⟩ := h.rooted y
    refine ⟨?_, ?_, h.depth_ends hn x y⟩
    · rw [meets_eq hl x n ((h.chain_length hl).trans hn)]
      rfl
    · obtain herr | ⟨l, -, hok⟩ := h.chain_up_cases hn y
      · rw [herr]; rfl
      · rw [hok]; rfl
  detects_none n hn x message := by
    obtain herr | ⟨l, -, hok⟩ := h.chain_up_cases hn x
    · rw [herr]; nofun
    · rw [hok]; nofun

/-! ## Rewriting rows -/

theorem find_map {g : Agent → Agent} (hid : ∀ a, (g a).id = a.id) (agents : List Agent) (x : String) :
    find (agents.map g) x = (find agents x).map g := Table.find_update hid agents x

/-- An update of the rows, seen through the managers. -/
theorem manager_map {g : Agent → Agent} (hid : ∀ a, (g a).id = a.id) (agents : List Agent) (x : String) :
    manager (agents.map g) x = (find agents x).bind fun a => (g a).reports_to := by
  rw [manager, find_map hid]
  cases find agents x <;> rfl

/-- **Rows that keep their ids** keep the roster if the new managers are rows, active under active reports. -/
theorem Rostered.map (h : Rostered agents) {g : Agent → Agent} (hid : ∀ a, (g a).id = a.id)
    (hmanaged : ∀ a ∈ agents, ∀ m, (g a).reports_to = some m →
      ∃ b, find agents m = some b ∧ ((g a).status = .ACTIVE → (g b).status = .ACTIVE)) :
    Rostered (agents.map g) where
  ids := by rw [Table.keys_update hid]; exact h.ids
  managed := by
    intro a' ha' m hm
    obtain ⟨a, ha, rfl⟩ := List.mem_map.mp ha'
    obtain ⟨b, hb, himp⟩ := hmanaged a ha m hm
    exact ⟨g b, by rw [find_map hid, hb]; rfl, himp⟩

/-! ## Hiring -/

/-- A hire that passes the check: there is room, and the manager, if there is one, allows it. -/
theorem check_hire_ok {agent_id : String} {hire : Hire} (hcheck : check_hire agents agent_id hire = .ok ()) :
    active_count agents < MAX_ACTIVE_AGENTS ∧
      ∀ m, hire.reports_to = some m → place_under agents agent_id hire m = .ok () := by
  unfold check_hire at hcheck
  split at hcheck
  · cases hcheck
  · split at hcheck
    · cases hcheck
    · split at hcheck
      · cases hcheck
      · rename_i hroom
        refine ⟨Nat.lt_of_not_le hroom, fun m hm => ?_⟩
        rw [hm] at hcheck
        exact hcheck

/-- A hire under a manager: the manager is active, and allows it. -/
theorem place_of_check {agent_id : String} {hire : Hire} (hcheck : check_hire agents agent_id hire = .ok ())
    {m : String} (hm : hire.reports_to = some m) : place_under agents agent_id hire m = .ok () :=
  (check_hire_ok hcheck).2 m hm

theorem active_of_place {agent_id m : String} {hire : Hire}
    (hplace : place_under agents agent_id hire m = .ok ()) :
    ∃ b, find agents m = some b ∧ b.status = .ACTIVE := by
  unfold place_under at hplace
  cases hfind : find agents m with
  | none => rw [hfind] at hplace; cases hplace
  | some b =>
      rw [hfind] at hplace
      dsimp only at hplace
      split at hplace
      · cases hplace
      · rename_i hactive
        exact ⟨b, rfl, Decidable.not_not.mp hactive⟩

section Added

variable {agent_id : String} {now : Time} {hire : Hire}

theorem manager_added (hnew : find agents agent_id = none) (x : String) :
    manager (agents ++ [hired agent_id now hire]) x =
      if x = agent_id then hire.reports_to else manager agents x := by
  rw [manager, find_added hnew]
  split
  · rfl
  · rfl

theorem manager_of_hire (hcheck : check_hire agents agent_id hire = .ok ()) {m : String}
    (hm : hire.reports_to = some m) : ∃ b, find agents m = some b ∧ b.status = .ACTIVE :=
  active_of_place (place_of_check hcheck hm)

theorem Rostered.added (h : Rostered agents) (hcheck : check_hire agents agent_id hire = .ok ())
    (hnew : find agents agent_id = none) : Rostered (agents ++ [hired agent_id now hire]) := by
  have hold : ∀ {x b}, find agents x = some b →
      find (agents ++ [hired agent_id now hire]) x = some b := Table.find_insert_of_some
  refine ⟨Table.keys_insert h.ids hnew, fun a ha m hm => ?_⟩
  rcases List.mem_append.mp ha with hmem | hlast
  · obtain ⟨b, hb, himp⟩ := h.managed a hmem m hm
    exact ⟨b, hold hb, himp⟩
  · obtain rfl := List.mem_singleton.mp hlast
    obtain ⟨b, hb, hactive⟩ := manager_of_hire hcheck hm
    exact ⟨b, hold hb, fun _ => hactive⟩

theorem Charted.added (h : Charted agents) (hcheck : check_hire agents agent_id hire = .ok ())
    (hnew : find agents agent_id = none) : Charted (agents ++ [hired agent_id now hire]) := by
  refine ⟨h.toRostered.added hcheck hnew, ?_⟩
  have hmanager : ∀ x, x ≠ agent_id →
      manager (agents ++ [hired agent_id now hire]) x = manager agents x := by
    intro x hx
    rw [manager_added hnew, if_neg hx]
  have hself : manager (agents ++ [hired agent_id now hire]) agent_id = hire.reports_to := by
    rw [manager_added hnew, if_pos rfl]
  cases hto : hire.reports_to with
  | none =>
      refine h.rooted.cut fun x => ?_
      by_cases hx : x = agent_id
      · exact .inr (hx ▸ hself.trans hto)
      · exact .inl (hmanager x hx)
  | some m =>
      obtain ⟨l, hl⟩ := h.rooted m
      obtain ⟨b, hb, -⟩ := manager_of_hire hcheck hto
      -- nobody in the table has the new id, so it is not on the chain of the manager
      refine h.rooted.graft (S := fun x => x = agent_id) hl ?_ ?_ ?_ hmanager
      · rintro rfl
        rw [hnew] at hb
        cases hb
      · rintro y hy rfl
        obtain ⟨c, hc⟩ := h.chain_found hl y hy
        rw [hnew] at hc
        cases hc
      · rintro x rfl
        exact hself.trans hto

end Added

/-! ## Reassigning -/

/-- **What lets a reassignment through**: the target is active and has no special role, the new manager is
    another active agent with a place left, and is not below the target. -/
structure Reassigns (agents : List Agent) (r : Reassignment) (target new_mgr : Agent) : Prop where
  other : r.target_id ≠ r.new_reports_to
  target_row : find agents r.target_id = some target
  member : special target.role = false
  manager_row : find agents r.new_reports_to = some new_mgr
  active : new_mgr.status = .ACTIVE
  place : has_place agents new_mgr target = .ok ()
  above : not_below agents target new_mgr = .ok ()

theorem movable_ok {target : Agent} (h : movable agents x = .ok target) :
    find agents x = some target ∧ special target.role = false := by
  unfold movable at h
  split at h
  · cases h
  · rename_i row hrow
    split at h
    · cases h
    · split at h
      · cases h
      · rename_i hspecial
        cases h
        exact ⟨hrow, by simpa using hspecial⟩

theorem active_manager_ok {new_mgr : Agent} (h : active_manager agents x = .ok new_mgr) :
    find agents x = some new_mgr ∧ new_mgr.status = .ACTIVE := by
  unfold active_manager at h
  split at h
  · cases h
  · rename_i row hrow
    split at h
    · cases h
    · rename_i hactive
      cases h
      exact ⟨hrow, Decidable.not_not.mp hactive⟩

theorem reassigns_of_check {r : Reassignment} {target : Agent}
    (hcheck : check_reassign agents r = .ok (target, true)) :
    ∃ new_mgr, Reassigns agents r target new_mgr := by
  unfold check_reassign at hcheck
  split at hcheck
  · cases hcheck
  · split at hcheck
    · cases hcheck
    · rename_i hself
      obtain ⟨row, hrow, hcheck⟩ := except_bind_eq_ok.mp hcheck
      obtain ⟨new_mgr, hmgr, hcheck⟩ := except_bind_eq_ok.mp hcheck
      split at hcheck
      · cases hcheck
      · obtain ⟨_, -, hcheck⟩ := except_bind_eq_ok.mp hcheck
        obtain ⟨_, hplace, hcheck⟩ := except_bind_eq_ok.mp hcheck
        obtain ⟨_, habove, hcheck⟩ := except_bind_eq_ok.mp hcheck
        cases hcheck
        obtain ⟨htarget, hmember⟩ := movable_ok hrow
        obtain ⟨hnew, hactive⟩ := active_manager_ok hmgr
        exact ⟨new_mgr, hself, htarget, hmember, hnew, hactive, hplace, habove⟩

/-- What the `UPDATE` of `reassign` makes of one row. -/
def reassigned (r : Reassignment) (a : Agent) : Agent :=
  if a.id = r.target_id then { a with reports_to := some r.new_reports_to } else a

theorem reassigned_id (r : Reassignment) (a : Agent) : (reassigned r a).id = a.id := by
  unfold reassigned
  split <;> rfl

theorem reassigned_status (r : Reassignment) (a : Agent) : (reassigned r a).status = a.status := by
  unfold reassigned
  split <;> rfl

theorem set_manager_eq (r : Reassignment) (agents : List Agent) :
    set_manager r.target_id r.new_reports_to agents = agents.map (reassigned r) := rfl

/-- The table after a move, seen through the managers. -/
theorem manager_moved {r : Reassignment} {target new_mgr : Agent} (hmoves : Reassigns agents r target new_mgr)
    (x : String) :
    manager (agents.map (reassigned r)) x =
      if x = r.target_id then some r.new_reports_to else manager agents x := by
  rw [manager_map (reassigned_id r)]
  by_cases hx : x = r.target_id
  · rw [if_pos hx, hx, hmoves.target_row]
    exact congrArg Agent.reports_to (if_pos (find_id hmoves.target_row))
  · rw [if_neg hx]
    cases hfind : find agents x with
    | none => rw [manager, hfind]; rfl
    | some a =>
        rw [manager_of_find hfind]
        exact congrArg Agent.reports_to (if_neg fun heq => hx ((find_id hfind).symm.trans heq))

/-- The loop of `reassign` has not met the target on the chain of the new manager. -/
theorem Charted.not_on_chain (h : Charted agents) {r : Reassignment} {target new_mgr : Agent}
    (hmoves : Reassigns agents r target new_mgr) (hl : Chain (manager agents) r.new_reports_to l) :
    r.target_id ∉ l := by
  have hlen : l.length ≤ rounds agents := (h.chain_length hl).trans (Nat.le_succ _)
  have habove := hmoves.above
  rw [not_below, ← manager_of_find hmoves.manager_row, meets_eq hl target.id _ hlen,
    find_id hmoves.target_row] at habove
  intro hmem
  rw [decide_eq_true hmem] at habove
  cases habove

theorem Rostered.moved (h : Rostered agents) {r : Reassignment} {target new_mgr : Agent}
    (hmoves : Reassigns agents r target new_mgr) :
    Rostered (set_manager r.target_id r.new_reports_to agents) := by
  refine h.map (g := reassigned r) (reassigned_id r) fun a ha m hm => ?_
  rw [reassigned_status]
  unfold reassigned at hm
  split at hm
  · cases hm
    exact ⟨new_mgr, hmoves.manager_row, fun _ => (reassigned_status r new_mgr).trans hmoves.active⟩
  · obtain ⟨b, hb, himp⟩ := h.managed a ha m hm
    exact ⟨b, hb, fun hactive => (reassigned_status r b).trans (himp hactive)⟩

theorem Charted.moved (h : Charted agents) {r : Reassignment} {target new_mgr : Agent}
    (hmoves : Reassigns agents r target new_mgr) :
    Charted (set_manager r.target_id r.new_reports_to agents) := by
  refine ⟨h.toRostered.moved hmoves, ?_⟩
  obtain ⟨l, hl⟩ := h.rooted r.new_reports_to
  rw [set_manager_eq]
  refine h.rooted.graft (S := fun x => x = r.target_id) hl (fun heq => hmoves.other heq.symm) ?_ ?_ ?_
  · rintro y hy rfl
    exact h.not_on_chain hmoves hl hy
  · rintro x rfl
    rw [manager_moved hmoves, if_pos rfl]
  · intro x hx
    rw [manager_moved hmoves, if_neg hx]

/-! ## Firing -/

/-- What `_do_fire` makes of one row. -/
def dismissed (f : Firing) (now : Time) (a : Agent) : Agent :=
  if a.id = f.target_id then
    { a with status := .FIRED, fired_at := some now, fired_by := some f.actor_id, fire_reason := some f.reason }
  else if reports f.target_id a then { a with reports_to := none }
  else a

theorem dismiss_eq (f : Firing) (now : Time) (agents : List Agent) :
    dismiss f.target_id f.actor_id f.reason now agents = agents.map (dismissed f now) := by
  rw [dismiss, Table.update, List.map_map]
  apply List.map_congr_left
  intro a _
  by_cases htarget : a.id = f.target_id
  · simp [dismissed, reports, Agent.active, htarget]
  · simp [dismissed, htarget]

theorem dismissed_id (f : Firing) (now : Time) (a : Agent) : (dismissed f now a).id = a.id := by
  unfold dismissed
  split
  · rfl
  · split <;> rfl

/-- Who still reports to a manager after a firing reported to it before, and if active, not to the target. -/
theorem dismissed_reports {f : Firing} {now : Time} {m : String}
    (hm : (dismissed f now a).reports_to = some m) : a.reports_to = some m ∧
      ((dismissed f now a).status = .ACTIVE → a.status = .ACTIVE ∧ m ≠ f.target_id) := by
  unfold dismissed at hm ⊢
  split at hm
  · rename_i htarget
    rw [if_pos htarget]
    exact ⟨hm, nofun⟩
  · rename_i htarget
    rw [if_neg htarget]
    split at hm
    · cases hm
    · rename_i hno
      rw [if_neg hno]
      refine ⟨hm, fun hactive => ⟨hactive, ?_⟩⟩
      rintro rfl
      exact hno (by simp [reports, Agent.active, hm, hactive])

theorem Rostered.fired (h : Rostered agents) (f : Firing) (now : Time) :
    Rostered (dismiss f.target_id f.actor_id f.reason now agents) := by
  rw [dismiss_eq]
  refine h.map (dismissed_id f now) fun a ha m hm => ?_
  obtain ⟨hreports, hstays⟩ := dismissed_reports hm
  obtain ⟨b, hb, himp⟩ := h.managed a ha m hreports
  refine ⟨b, hb, fun hactive => ?_⟩
  obtain ⟨hwas, hne⟩ := hstays hactive
  have hb' : b.id ≠ f.target_id := fun heq => hne ((find_id hb).symm.trans heq)
  unfold dismissed
  rw [if_neg hb']
  split <;> exact himp hwas

theorem Charted.fired (h : Charted agents) (f : Firing) (now : Time) :
    Charted (dismiss f.target_id f.actor_id f.reason now agents) := by
  refine ⟨h.toRostered.fired f now, ?_⟩
  rw [dismiss_eq]
  refine h.rooted.cut fun x => ?_
  rw [manager_map (dismissed_id f now)]
  cases hfind : find agents x with
  | none => exact .inr rfl
  | some a =>
      rw [manager_of_find hfind]
      show (dismissed f now a).reports_to = _ ∨ (dismissed f now a).reports_to = _
      unfold dismissed
      split
      · exact .inl rfl
      · split
        · exact .inr rfl
        · exact .inl rfl

/-! ## The repair at startup -/

/-- A member without a manager is hung under the CEO. -/
def hung (ceo_id : String) (a : Agent) : Agent :=
  if unmanaged a then { a with reports_to := some ceo_id } else a

theorem hung_id (ceo_id : String) (a : Agent) : (hung ceo_id a).id = a.id := by
  unfold hung
  split <;> rfl

theorem hung_status (ceo_id : String) (a : Agent) : (hung ceo_id a).status = a.status := by
  unfold hung
  split <;> rfl

theorem unmanaged_root (h : unmanaged a = true) : a.reports_to = none := by
  unfold unmanaged at h
  simp only [Bool.and_eq_true, decide_eq_true_eq] at h
  exact h.2

theorem first_with_spec {role : Role} (h : first_with agents role = some a) :
    a ∈ agents ∧ a.status = .ACTIVE ∧ a.role = role := by
  have hmem := List.mem_of_find?_eq_some h
  have hrole := List.find?_some h
  unfold all_active by_hire at hmem
  rw [(List.perm_insertionSort _ _).mem_iff, List.mem_filter] at hmem
  exact ⟨hmem.1, of_decide_eq_true hmem.2, of_decide_eq_true hrole⟩

/-- The CEO that a start finds is an active agent with that role. -/
theorem ceo_of_existing {ids : CoreIds} (h : existing_core_ids agents = .ok ids) :
    ∃ ceo ∈ agents, ceo.id = ids.ceo ∧ ceo.status = .ACTIVE ∧ ceo.role = .CEO := by
  unfold existing_core_ids at h
  split at h
  · rename_i ceo _ _ hceo _ _
    cases h
    obtain ⟨hmem, hactive, hrole⟩ := first_with_spec hceo
    exact ⟨ceo, hmem, rfl, hactive, hrole⟩
  · cases h

theorem Rostered.ceo_row (h : Rostered agents) {ids : CoreIds}
    (hids : existing_core_ids agents = .ok ids) :
    ∃ ceo, find agents ids.ceo = some ceo ∧ ceo.status = .ACTIVE ∧ ceo.role = .CEO := by
  obtain ⟨ceo, hmem, hceo, hactive, hrole⟩ := ceo_of_existing hids
  exact ⟨ceo, hceo ▸ h.find_of_mem hmem, hactive, hrole⟩

theorem Rostered.repaired (h : Rostered agents) {ids : CoreIds}
    (hids : existing_core_ids agents = .ok ids) : Rostered (hang_under ids.ceo agents) := by
  obtain ⟨ceo, hfind, hactive, -⟩ := h.ceo_row hids
  refine h.map (g := hung ids.ceo) (hung_id _) fun a ha m hm => ?_
  rw [hung_status]
  unfold hung at hm
  split at hm
  · cases hm
    exact ⟨ceo, hfind, fun _ => (hung_status _ _).trans hactive⟩
  · obtain ⟨b, hb, himp⟩ := h.managed a ha m hm
    exact ⟨b, hb, fun hact => (hung_status _ _).trans (himp hact)⟩

theorem Charted.repaired (h : Charted agents) {ids : CoreIds}
    (hids : existing_core_ids agents = .ok ids) (hl : Chain (manager agents) ids.ceo l)
    (htop : ∀ a ∈ agents, unmanaged a = true → a.id ∉ l) : Charted (hang_under ids.ceo agents) := by
  obtain ⟨ceo, hfind, -, hrole⟩ := h.ceo_row hids
  refine ⟨h.toRostered.repaired hids, ?_⟩
  refine h.rooted.graft (S := fun x => ∃ a, find agents x = some a ∧ unmanaged a = true) hl ?_ ?_ ?_ ?_
  · rintro ⟨a, ha, hun⟩
    rw [hfind] at ha
    cases ha
    simp [unmanaged, hrole] at hun
  · rintro y hy ⟨a, ha, hun⟩
    exact htop a (find_mem ha) hun (find_id ha ▸ hy)
  · rintro x ⟨a, ha, hun⟩
    show manager (agents.map (hung ids.ceo)) x = _
    rw [manager_map (hung_id _), ha]
    exact congrArg Agent.reports_to (if_pos hun)
  · intro x hx
    show manager (agents.map (hung ids.ceo)) x = _
    rw [manager_map (hung_id _)]
    cases hrow : find agents x with
    | none => rw [manager, hrow]; rfl
    | some a =>
        rw [manager_of_find hrow]
        exact congrArg Agent.reports_to (if_neg fun hun => hx ⟨a, hrow, hun⟩)

/-! ## Runs -/

/-- Does a start hang no member under a CEO that is below this member? -/
def repairs_from_top (o : Org) : Label → Bool
  | .restart _ =>
    match existing_core_ids o.agents with
    | .error _ => true
    | .ok ids =>
      match chain_up o.agents (rounds o.agents) ids.ceo with
      | some (.ok above) =>
        decide (ids.ceo = "") || o.agents.all (fun a => !(unmanaged a && above.contains a.id))
      | _ => true
  | _ => true

theorem Rostered.written (h : Rostered agents) {label : Label} {rows : List Agent}
    (hrows : Written agents label rows) : Rostered rows := by
  cases hrows with
  | kept => exact h
  | added agent_id now hire hcheck hnew => exact h.added hcheck hnew
  | moved r target hcheck =>
      obtain ⟨new_mgr, hmoves⟩ := reassigns_of_check hcheck
      exact h.moved hmoves
  | fired now f _ => exact h.fired f now
  | repaired _ ids hids _ => exact h.repaired hids

theorem Charted.written (h : Charted agents) {label : Label} {rows : List Agent}
    (hrows : Written agents label rows) (hfound : ∀ by_, label ≠ .restart by_) : Charted rows := by
  cases hrows with
  | kept => exact h
  | added agent_id now hire hcheck hnew => exact h.added hcheck hnew
  | moved r target hcheck =>
      obtain ⟨new_mgr, hmoves⟩ := reassigns_of_check hcheck
      exact h.moved hmoves
  | fired now f _ => exact h.fired f now
  | repaired by_ _ _ _ => exact absurd rfl (hfound by_)

/-- The chain above the CEO that a start finds. -/
theorem Charted.above_ceo (h : Charted agents) {ids : CoreIds}
    (hids : existing_core_ids agents = .ok ids) :
    ∃ l, Chain (manager agents) ids.ceo l ∧ chain_up agents (rounds agents) ids.ceo = some (.ok l) := by
  obtain ⟨ceo, hfind, -, -⟩ := h.ceo_row hids
  obtain ⟨l, hl⟩ := h.rooted ids.ceo
  exact ⟨l, hl, chain_up_eq h.toRostered hfind hl ((h.chain_length hl).trans (Nat.le_succ _))⟩

theorem Charted.step {o : Org} (h : Charted o.agents) {label : Label}
    (htop : repairs_from_top o label = true) : Charted (step o label).agents := by
  have hwritten := step_written o label
  cases label with
  | add_agent agent_id now hire => exact h.written hwritten nofun
  | reassign r => exact h.written hwritten nofun
  | fire now f => exact h.written hwritten nofun
  | restart by_ =>
      generalize (Org.step o (.restart by_)).agents = rows at hwritten ⊢
      cases hwritten with
      | kept => exact h
      | repaired _ ids hids hne =>
          obtain ⟨l, hl, hup⟩ := h.above_ceo hids
          refine h.repaired hids hl fun a ha hun hmem => ?_
          rw [repairs_from_top, hids] at htop
          dsimp only at htop
          rw [hup] at htop
          simp only [Bool.or_eq_true, decide_eq_true_eq, hne, false_or, List.all_eq_true] at htop
          have hno := htop a ha
          simp [hun, hmem] at hno

/-- **A repair from below closes a cycle.** -/
theorem Charted.unsound {o : Org} (h : Charted o.agents) {label : Label}
    (hbelow : ¬ repairs_from_top o label = true) : ¬ Sound (Org.step o label).agents := by
  cases label with
  | add_agent agent_id now hire => exact absurd rfl hbelow
  | reassign r => exact absurd rfl hbelow
  | fire now f => exact absurd rfl hbelow
  | restart by_ =>
      cases hids : existing_core_ids o.agents with
      | error e => rw [repairs_from_top, hids] at hbelow; exact absurd rfl hbelow
      | ok ids =>
          obtain ⟨l, hl, hup⟩ := h.above_ceo hids
          rw [repairs_from_top, hids] at hbelow
          dsimp only at hbelow
          rw [hup] at hbelow
          simp only [Bool.or_eq_true, decide_eq_true_eq, not_or, List.all_eq_true] at hbelow
          obtain ⟨hne, hsome⟩ := hbelow
          push Not at hsome
          obtain ⟨a, ha, hboth⟩ := hsome
          obtain ⟨hun, hmem⟩ : unmanaged a = true ∧ a.id ∈ l := by simpa using hboth
          intro hsound
          have hrows : (Org.step o (.restart by_)).agents = hang_under ids.ceo o.agents :=
            restart_agents hids hne (List.ne_nil_of_mem (List.mem_filter.mpr ⟨ha, hun⟩))
          have hfind := h.find_of_mem ha
          rw [hrows] at hsound
          refine hsound.acyclic ids.ceo (cycle_of_graft hl hmem ?_ ?_)
          · show manager (o.agents.map (hung ids.ceo)) a.id = _
            rw [manager_map (hung_id _), hfind]
            exact congrArg Agent.reports_to (if_pos hun)
          · intro x hx
            show manager (o.agents.map (hung ids.ceo)) x = _
            rw [manager_map (hung_id _)]
            cases hrow : find o.agents x with
            | none => rw [manager, hrow]; rfl
            | some b =>
                rw [manager_of_find hrow] at hx ⊢
                exact congrArg Agent.reports_to (if_neg fun hun => hx (unmanaged_root hun))

theorem charted_nil : Charted [] where
  ids := List.nodup_nil
  managed _ h := absurd h List.not_mem_nil
  rooted _ := ⟨[], .root rfl⟩

theorem founded_charted (events : EventStore) (lower : String → String) (ids : CoreIds)
    (now : Role → Time) (requested_by : String) :
    Charted (founded events lower ids now requested_by).agents := by
  have hadd : ∀ agent_id now hire, Act.Moves (fun o o' : Org => Charted o.agents → Charted o'.agents)
      (add_agent agent_id now hire) := by
    intro agent_id now hire o h
    exact h.written (add_agent_written agent_id now hire) nofun
  have htrans : ∀ o o' o'' : Org, (Charted o.agents → Charted o'.agents) →
      (Charted o'.agents → Charted o''.agents) → Charted o.agents → Charted o''.agents :=
    fun _ _ _ h h' => h' ∘ h
  have hboot : Act.Moves (fun o o' : Org => Charted o.agents → Charted o'.agents)
      (bootstrap_core_agents ids now requested_by) := by
    refine .bind htrans (hadd _ _ _) fun ceo => ?_
    refine .bind htrans (hadd _ _ _) fun hr => ?_
    exact .bind htrans (hadd _ _ _) fun sec => .pure (fun _ h => h) _
  exact hboot _ charted_nil

/-- **The chart stays sound exactly under repairs from the top.** After the bootstrap, in a run of hires,
    reassignments, firings and starts, every state has a sound chart if and only if no start hangs a member
    under a CEO that is below it. -/
theorem org_tree_sound (events : EventStore) (lower : String → String) (ids : CoreIds)
    (now : Role → Time) (requested_by : String) (run : List Label) :
    (∀ pre, pre <+: run →
      Sound (exec step (founded events lower ids now requested_by) pre).agents) ↔
    Along step (fun o label => repairs_from_top o label = true)
      (founded events lower ids now requested_by) run := by
  refine (along_iff_everywhere (D := fun _ => True) (I := fun o : Org => Charted o.agents)
    (P := fun o : Org => Sound o.agents) ?_ ?_ ?_
    (founded_charted events lower ids now requested_by) fun _ _ => trivial).symm
  · exact fun o h => h.sound
  · exact fun o label _ h htop => h.step htop
  · exact fun o label _ h hbelow => h.unsound hbelow

/-- A company with the core agents `c1`, `hr` and `sec`, hired at time 10. -/
def small_company : Org :=
  founded .quiet id { ceo := "c1", hr := "hr", security := "sec" } (fun _ => 10) "board"

def member_under (manager_id : String) : Hire :=
  { role := .MEMBER, persona_ref := "default", reports_to := some manager_id, requested_by := "hr",
    via_hr := true }

/-- Two members below `c1`, a second CEO below these whose hire is dated before the bootstrap, and the
    firing of the upper member. -/
def second_ceo : List Label :=
  [.add_agent "m1" 20 (member_under "c1"), .add_agent "m2" 30 (member_under "m1"),
    .add_agent "c2" 5 { member_under "m2" with role := .CEO },
    .fire 40 { actor_id := "c1", target_id := "m1", reason := "closing the product line", via_hr := true },
    .restart "c1"]

/-- The start takes `c2` for the CEO, and hangs `m2` under it. -/
theorem second_ceo_closes_cycle :
    ¬ ∀ run, Sound (exec step small_company run).agents := by
  intro hsound
  have hlast := hsound second_ceo
  have hcycle : manager (exec step small_company second_ceo).agents "m2" = some "c2" ∧
      manager (exec step small_company second_ceo).agents "c2" = some "m2" := by decide +kernel
  generalize (exec step small_company second_ceo).agents = rows at hlast hcycle
  exact hlast.acyclic "m2" (.tail (.single hcycle.1) hcycle.2)

end Org

end CompanyFactory
