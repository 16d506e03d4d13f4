import CompanyFactory.Identity.Tree

/-!
# `Identity.Traversals` — walking the chart up and down

`chain_up` and `depth` follow the managers; `all_descendants` keeps a stack of agents whose reports it has still to
look at, and looks at active reports only. `depth` is read step by step (`depth_eq_iff`), which holds in a table with
cycles too; the descent needs a chart without.

* `depth_eq_iff` — `depth` is the first time that the walk comes to the ancestor.
* `Charted.all_descendants_spec` — the descent ends, and lists every active agent below once.
* `traversals_agree` — the three agree on every pair.
-/

namespace CompanyFactory

open Act Machine Forest Identity Bootstrap

namespace Org

/-- The loop of `all_descendants`: the top of the stack is at its end. -/
def descend (agents : List Agent) : Nat → List String → List String → Option (List String)
  | 0, frontier, out => if frontier = [] then some out else none
  | n + 1, frontier, out =>
    match frontier.getLast? with
    | none => some out
    | some current => descend agents n (frontier.dropLast ++ direct_reports agents current) (out ++ [current])

def all_descendants (agents : List Agent) (n : Nat) (agent_id : String) : Option (List String) :=
  descend agents n (direct_reports agents agent_id) []

/-- An agent with this id is active. -/
def is_active (agents : List Agent) (x : String) : Bool := (get_active agents x).isSome

variable {agents : List Agent} {a : Agent} {l : List String} {x y : String}

theorem is_active_iff : is_active agents x = true ↔ ∃ a, find agents x = some a ∧ a.status = .ACTIVE := by
  unfold is_active get_active
  cases hfind : find agents x with
  | none => simp
  | some a => simp [Option.filter, Agent.active]

theorem manager_some {m : String} : manager agents x = some m ↔ ∃ a, find agents x = some a ∧ a.reports_to = some m :=
  Option.bind_eq_some_iff

/-! ## Depth -/

/-- Every manager is a row of the table. -/
theorem Rostered.manager_found (h : Rostered agents) (hm : manager agents x = some y) :
    ∃ b, find agents y = some b := by
  obtain ⟨a, ha, hreports⟩ := manager_some.mp hm
  obtain ⟨b, hb, -⟩ := h.managed a (find_mem ha) y hreports
  exact ⟨b, hb⟩

theorem Rostered.manager_mem (h : Rostered agents) (hm : manager agents x = some y) :
    y ∈ agents.map Agent.id := by
  obtain ⟨b, hb⟩ := h.manager_found hm
  exact find_id hb ▸ List.mem_map_of_mem (find_mem hb)

/-- The walk comes to `x` from `y` after `d` steps, and not before. -/
structure Arrives (agents : List Agent) (x y : String) (d : Nat) : Prop where
  pos : 0 < d
  comes : up (manager agents) d y = some x
  first : ∀ j, 0 < j → j < d → up (manager agents) j y ≠ some x

/-- Whoever is above is arrived at. -/
theorem arrives_of_above (h : Relation.TransGen (fun x y => manager agents x = some y) y x) :
    ∃ d, Arrives agents x y d := by
  classical
  obtain ⟨k, hk⟩ := above_iff.mp h
  have hex : ∃ d, 0 < d ∧ up (manager agents) d y = some x := ⟨k + 1, Nat.succ_pos k, hk⟩
  refine ⟨Nat.find hex, (Nat.find_spec hex).1, (Nat.find_spec hex).2, ?_⟩
  intro j hpos hlt hup
  exact Nat.find_min hex hlt ⟨hpos, hup⟩

theorem Arrives.above {d : Nat} (h : Arrives agents x y d) :
    Relation.TransGen (fun x y => manager agents x = some y) y x := by
  refine above_iff.mpr ⟨d - 1, ?_⟩
  rw [Nat.sub_add_cancel h.pos]
  exact h.comes

theorem Rostered.arrives_le (h : Rostered agents) {d : Nat} (harrives : Arrives agents x y d) :
    d ≤ agents.length := by
  have hle := first_le (fun _ _ hm => h.manager_mem hm) harrives.comes harrives.first
  simpa using hle

/-- One step on. -/
theorem Arrives.step {z : String} {d : Nat} (hstep : manager agents y = some z) (hne : z ≠ x) :
    Arrives agents x y (d + 1) ↔ Arrives agents x z d := by
  constructor
  · intro h
    have hcomes := h.comes
    rw [up_succ hstep] at hcomes
    refine ⟨?_, hcomes, fun j hpos hlt hup => ?_⟩
    · rcases Nat.eq_zero_or_pos d with rfl | hpos
      · exact absurd (Option.some.inj hcomes) hne
      · exact hpos
    · exact h.first (j + 1) (Nat.succ_pos j) (by omega) ((up_succ hstep j).trans hup)
  · intro h
    refine ⟨Nat.succ_pos d, (up_succ hstep d).trans h.comes, fun j hpos hlt hup => ?_⟩
    obtain ⟨i, rfl⟩ : ∃ i, j = i + 1 := ⟨j - 1, by omega⟩
    rw [up_succ hstep] at hup
    rcases Nat.eq_zero_or_pos i with rfl | hpos'
    · exact hne (Option.some.inj hup)
    · exact h.first i hpos' (by omega) hup

/-- The loop of `depth` stops where the walk arrives. -/
theorem Rostered.levels_of_arrives (h : Rostered agents) {d : Nat} (harrives : Arrives agents x y d) :
    ∀ n k, d ≤ n → levels agents x n (manager agents y) k = some (.ok (some (k + d))) := by
  -- by induction on the way up, with the counter of the loop free
  induction d generalizing y with
  | zero => exact absurd harrives.pos (Nat.lt_irrefl 0)
  | succ d ih =>
      intro n k hn
      obtain ⟨n, rfl⟩ : ∃ i, n = i + 1 := ⟨n - 1, by omega⟩
      cases hstep : manager agents y with
      | none =>
          have hcomes := harrives.comes
          rw [up, hstep] at hcomes
          cases hcomes
      | some z =>
          rw [levels]
          by_cases hz : z = x
          · -- arrived, and no later than `d + 1`
            have hd : d = 0 := by
              by_contra hd
              exact harrives.first 1 Nat.one_pos (by omega) ((up_succ hstep 0).trans (congrArg some hz))
            rw [if_pos hz, hd]
          · obtain ⟨b, hb⟩ := h.manager_found hstep
            rw [if_neg hz, manager_of_eq hb]
            dsimp only
            rw [ih ((Arrives.step hstep hz).mp harrives) n (k + 1) (by omega), Nat.add_right_comm]
            rfl

/-- What `depth` answers is where the walk arrives. -/
theorem arrives_of_levels {n k e : Nat} (h : levels agents x n (manager agents y) k = some (.ok (some e))) :
    ∃ d, e = k + d ∧ Arrives agents x y d := by
  -- by induction on the rounds of the loop
  induction n generalizing y k with
  | zero =>
      cases hstep : manager agents y with
      | none => rw [hstep] at h; cases h
      | some z => rw [hstep] at h; cases h
  | succ n ih =>
      cases hstep : manager agents y with
      | none => rw [hstep] at h; cases h
      | some z =>
          rw [hstep, levels] at h
          split at h
          · rename_i hz
            cases h
            refine ⟨1, rfl, Nat.one_pos, (up_succ hstep 0).trans (congrArg some hz), ?_⟩
            intro j hpos hlt
            omega
          · rename_i hz
            cases hz' : find agents z with
            | none => rw [manager_of, hz'] at h; cases h
            | some b =>
                rw [manager_of_eq hz'] at h
                obtain ⟨d, rfl, harrives⟩ := ih h
                exact ⟨d + 1, by omega, (Arrives.step hstep hz).mpr harrives⟩

/-- **`depth` counts the steps to the ancestor**, the first time the walk comes to it. -/
theorem Rostered.depth_eq_iff (h : Rostered agents) (hrow : find agents y = some a) (hne : x ≠ y) {n : Nat}
    (hn : agents.length ≤ n) (d : Nat) :
    depth agents n x y = some (.ok (some d)) ↔ Arrives agents x y d := by
  rw [depth, if_neg hne, manager_of_eq hrow]
  dsimp only
  constructor
  · intro hlevels
    obtain ⟨d', rfl, harrives⟩ := arrives_of_levels hlevels
    rwa [Nat.zero_add]
  · intro harrives
    rw [h.levels_of_arrives harrives n 0 ((h.arrives_le harrives).trans hn), Nat.zero_add]

/-- On a chain, the walk arrives where the ancestor is listed. -/
theorem arrives_iff_getElem (hl : Chain (manager agents) y l) (d : Nat) :
    Arrives agents x y d ↔ 0 < d ∧ l[d - 1]? = some x := by
  constructor
  · intro h
    refine ⟨h.pos, ?_⟩
    rw [hl.getElem?_eq, Nat.sub_add_cancel h.pos]
    exact h.comes
  · rintro ⟨hpos, hx⟩
    have hcomes := hx
    rw [hl.getElem?_eq, Nat.sub_add_cancel hpos] at hcomes
    refine ⟨hpos, hcomes, fun j hj hlt hup => ?_⟩
    -- a chain lists no node twice
    have hx' : l[j - 1]? = some x := by
      rw [hl.getElem?_eq, Nat.sub_add_cancel hj]
      exact hup
    have hlen : j - 1 < l.length := (List.getElem?_eq_some_iff.mp hx').1
    have hsame := (List.getElem?_inj hlen hl.nodup).mp (hx'.trans hx.symm)
    omega

/-! ## The descent -/

theorem mem_direct_reports (h : Rostered agents) :
    x ∈ direct_reports agents y ↔ is_active agents x = true ∧ manager agents x = some y := by
  unfold direct_reports by_hire
  rw [List.mem_map, is_active_iff, manager_some]
  constructor
  · rintro ⟨a, ha, rfl⟩
    rw [(List.perm_insertionSort _ _).mem_iff, List.mem_filter] at ha
    have hfind := h.find_of_mem ha.1
    have hreports := ha.2
    unfold reports Agent.active at hreports
    rw [Bool.and_eq_true, decide_eq_true_iff, decide_eq_true_iff] at hreports
    exact ⟨⟨a, hfind, hreports.2⟩, a, hfind, hreports.1⟩
  · rintro ⟨⟨a, hfind, hactive⟩, b, hfind', hreports⟩
    obtain rfl := Option.some.inj (hfind.symm.trans hfind')
    refine ⟨a, ?_, find_id hfind⟩
    rw [(List.perm_insertionSort _ _).mem_iff, List.mem_filter]
    exact ⟨find_mem hfind, by simp [reports, Agent.active, hreports, hactive]⟩

theorem Rostered.direct_reports_nodup (h : Rostered agents) (y : String) : (direct_reports agents y).Nodup := by
  have hsub : ((agents.filter (reports y)).map Agent.id).Sublist (agents.map Agent.id) :=
    List.filter_sublist.map _
  have hperm : (direct_reports agents y).Perm ((agents.filter (reports y)).map Agent.id) :=
    (List.perm_insertionSort _ _).map _
  exact hperm.nodup_iff.mpr (hsub.nodup h.ids)

/-- An agent is active and below the root. -/
def Below (agents : List Agent) (root x : String) : Prop :=
  is_active agents x = true ∧ Relation.TransGen (fun x y => manager agents x = some y) x root

/-- What the loop has listed, and what is on the stack: agents below the root, each once, each under the root or under
a listed one, and with them all their reports. -/
structure Descent (agents : List Agent) (root : String) (frontier out : List String) : Prop where
  once : (out ++ frontier).Nodup
  below : ∀ x ∈ out ++ frontier, Below agents root x
  under : ∀ x ∈ out ++ frontier, ∃ m, manager agents x = some m ∧ (m = root ∨ m ∈ out)
  complete : ∀ m, m = root ∨ m ∈ out → ∀ x ∈ direct_reports agents m, x ∈ out ++ frontier

variable {root : String} {frontier out : List String}

theorem Descent.start (h : Rostered agents) (root : String) :
    Descent agents root (direct_reports agents root) [] where
  once := h.direct_reports_nodup root
  below := by
    intro x hx
    obtain ⟨hactive, hmanager⟩ := (mem_direct_reports h).mp hx
    exact ⟨hactive, .single hmanager⟩
  under := fun x hx => ⟨root, ((mem_direct_reports h).mp hx).2, .inl rfl⟩
  complete := by
    rintro m (rfl | hm) x hx
    · exact hx
    · cases hm

/-- **One round**: the top of the stack is listed, and its reports are put on the stack. -/
theorem Descent.round (hchart : Charted agents) {current : String}
    (h : Descent agents root (frontier ++ [current]) out) :
    Descent agents root (frontier ++ direct_reports agents current) (out ++ [current]) := by
  have hr := hchart.toRostered
  have hcur : current ∈ out ++ (frontier ++ [current]) := by simp
  have hperm : ((out ++ [current]) ++ (frontier ++ direct_reports agents current)).Perm
      ((out ++ (frontier ++ [current])) ++ direct_reports agents current) := by
    simp only [List.append_assoc]
    refine List.Perm.append_left out ?_
    rw [← List.append_assoc, ← List.append_assoc]
    exact List.Perm.append_right _ List.perm_append_comm
  -- a report of the current agent was not seen yet: its manager would have been listed
  have hnew : ∀ x ∈ direct_reports agents current, x ∉ out ++ (frontier ++ [current]) := by
    intro x hx hseen
    obtain ⟨m, hm, hlisted⟩ := h.under x hseen
    rw [((mem_direct_reports hr).mp hx).2] at hm
    obtain rfl := Option.some.inj hm
    rcases hlisted with rfl | hout
    · exact hchart.rooted.acyclic _ (h.below _ hcur).2
    · exact (List.disjoint_of_nodup_append h.once) hout (by simp)
  constructor
  · rw [hperm.nodup_iff, List.nodup_append']
    exact ⟨h.once, hr.direct_reports_nodup current, fun x hseen hx => hnew x hx hseen⟩
  · intro x hx
    rcases List.mem_append.mp (hperm.subset hx) with hold | hx
    · exact h.below x hold
    · obtain ⟨hactive, hmanager⟩ := (mem_direct_reports hr).mp hx
      exact ⟨hactive, .head hmanager (h.below _ hcur).2⟩
  · intro x hx
    rcases List.mem_append.mp (hperm.subset hx) with hold | hx
    · obtain ⟨m, hm, hlisted⟩ := h.under x hold
      exact ⟨m, hm, hlisted.imp_right (List.mem_append_left _)⟩
    · exact ⟨current, ((mem_direct_reports hr).mp hx).2, .inr (by simp)⟩
  · intro m hm x hx
    refine hperm.symm.subset ?_
    rw [List.mem_append]
    rcases hm with rfl | hm
    · exact .inl (h.complete _ (.inl rfl) x hx)
    · rcases List.mem_append.mp hm with hout | hlast
      · exact .inl (h.complete m (.inr hout) x hx)
      · obtain rfl := List.mem_singleton.mp hlast
        exact .inr hx

/-- What is listed and on the stack are rows of the table. -/
theorem Descent.length_le (h : Descent agents root frontier out) :
    out.length + frontier.length ≤ agents.length := by
  have hsub : ∀ x ∈ out ++ frontier, x ∈ agents.map Agent.id := by
    intro x hx
    obtain ⟨a, ha, -⟩ := is_active_iff.mp (h.below x hx).1
    exact find_id ha ▸ List.mem_map_of_mem (find_mem ha)
  have hlen := (h.once.subperm hsub).length_le
  rwa [List.length_append, List.length_map] at hlen

/-- The loop ends, since each round lists another row. -/
theorem Descent.ends (hchart : Charted agents) (n : Nat) (h : Descent agents root frontier out)
    (hn : agents.length ≤ n + out.length) :
    ∃ l, descend agents n frontier out = some l ∧ Descent agents root [] l := by
  induction n generalizing frontier out with
  | zero =>
      have hlen := h.length_le
      obtain rfl := List.length_eq_zero_iff.mp (show frontier.length = 0 by omega)
      exact ⟨out, rfl, h⟩
  | succ n ih =>
      rcases List.eq_nil_or_concat' frontier with rfl | ⟨rest, current, rfl⟩
      · exact ⟨out, rfl, h⟩
      · have hleft : agents.length ≤ n + (out ++ [current]).length := by
          rw [List.length_append, List.length_singleton]
          omega
        obtain ⟨l, hl, hdone⟩ := ih (h.round hchart) hleft
        refine ⟨l, ?_, hdone⟩
        rw [descend, List.getLast?_concat]
        dsimp only
        rw [List.dropLast_concat]
        exact hl

/-- Active agents have active managers. -/
theorem Rostered.manager_active (h : Rostered agents) (hactive : is_active agents x = true)
    (hm : manager agents x = some y) : is_active agents y = true := by
  obtain ⟨a, ha, hstatus⟩ := is_active_iff.mp hactive
  obtain ⟨b, hb, hreports⟩ := manager_some.mp hm
  obtain rfl := Option.some.inj (ha.symm.trans hb)
  obtain ⟨c, hc, himp⟩ := h.managed a (find_mem ha) y hreports
  exact is_active_iff.mpr ⟨c, hc, himp hstatus⟩

/-- When the stack is empty, everybody below the root is listed. -/
theorem Descent.mem_iff (hr : Rostered agents) (h : Descent agents root [] l) : x ∈ l ↔ Below agents root x := by
  have hlist : l ++ [] = l := List.append_nil l
  constructor
  · intro hx
    exact h.below x (hlist.symm ▸ hx)
  · rintro ⟨hactive, habove⟩
    induction habove using Relation.TransGen.head_induction_on with
    | single hstep => exact hlist ▸ h.complete root (.inl rfl) _ ((mem_direct_reports hr).mpr ⟨hactive, hstep⟩)
    | head hstep _ ih =>
        have hlisted := ih (hr.manager_active hactive hstep)
        exact hlist ▸ h.complete _ (.inr hlisted) _ ((mem_direct_reports hr).mpr ⟨hactive, hstep⟩)

/-- **The descent ends, and lists every active agent below once.** -/
theorem Charted.all_descendants_spec (h : Charted agents) (root : String) {n : Nat} (hn : agents.length ≤ n) :
    ∃ l, all_descendants agents n root = some l ∧ l.Nodup ∧ ∀ x, x ∈ l ↔ Below agents root x := by
  obtain ⟨l, hl, hdone⟩ := (Descent.start h.toRostered root).ends h n (by simpa using hn)
  refine ⟨l, hl, ?_, fun x => hdone.mem_iff h.toRostered⟩
  have honce := hdone.once
  rwa [List.append_nil] at honce

/-! ## Reached organisations -/

/-- The organisations that come about by a bootstrap and steps that meet a condition. -/
def Reached (C : Org → Label → Prop) (o : Org) : Prop :=
  ∃ events lower ids now requested_by run,
    Along step C (founded events lower ids now requested_by) run ∧
      exec step (founded events lower ids now requested_by) run = o

theorem Reached.invariant {C : Org → Label → Prop} {I : Org → Prop}
    (hfound : ∀ events lower ids now requested_by, I (founded events lower ids now requested_by))
    (hstep : ∀ o label, I o → C o label → I (step o label)) {o : Org} (ho : Reached C o) : I o := by
  obtain ⟨events, lower, ids, now, requested_by, run, halong, rfl⟩ := ho
  exact exec_invariant_along hstep (hfound events lower ids now requested_by) halong

/-- Hires, reassignments, firings, and starts that repair from the top. -/
theorem Reached.charted {o : Org} (ho : Reached (fun o label => repairs_from_top o label = true) o) :
    Charted o.agents :=
  ho.invariant (I := fun o => Charted o.agents) founded_charted fun _ _ h htop => h.step htop

/-- **The traversals agree**: where `depth` finds an ancestor, `chain_up` lists it and the descent from it lists the
agent; every descent ends and lists nobody twice. -/
theorem traversals_agree {o : Org} (ho : Reached (fun o label => repairs_from_top o label = true) o) {n : Nat}
    (hn : o.agents.length ≤ n) :
    (∀ a, ∃ l, all_descendants o.agents n a = some l ∧ l.Nodup) ∧
      ∀ a b, is_active o.agents b = true → a ≠ b →
        (∃ chain, chain_up o.agents n b = some (.ok chain) ∧
          ∀ d, depth o.agents n a b = some (.ok (some d)) ↔ 0 < d ∧ chain[d - 1]? = some a) ∧
        (is_active o.agents a = true →
          ((∃ d, depth o.agents n a b = some (.ok (some d))) ↔
            ∃ l, all_descendants o.agents n a = some l ∧ b ∈ l)) := by
  have hchart := ho.charted
  constructor
  · intro a
    obtain ⟨l, hl, honce, -⟩ := hchart.all_descendants_spec a hn
    exact ⟨l, hl, honce⟩
  intro a b hactive hne
  obtain ⟨row, hrow, -⟩ := is_active_iff.mp hactive
  constructor
  · obtain ⟨chain, hchain⟩ := hchart.rooted b
    refine ⟨chain, chain_up_eq hchart.toRostered hrow hchain ((hchart.chain_length hchain).trans hn), fun d => ?_⟩
    rw [hchart.depth_eq_iff hrow hne hn, arrives_iff_getElem hchain]
  · intro _
    -- both say that `a` is above `b`
    obtain ⟨l, hl, -, hmem⟩ := hchart.all_descendants_spec a hn
    constructor
    · rintro ⟨d, hd⟩
      exact ⟨l, hl, (hmem b).mpr ⟨hactive, ((hchart.depth_eq_iff hrow hne hn d).mp hd).above⟩⟩
    · rintro ⟨l', hl', hb⟩
      obtain rfl := Option.some.inj (hl.symm.trans hl')
      obtain ⟨d, hd⟩ := arrives_of_above ((hmem b).mp hb).2
      exact ⟨d, (hchart.depth_eq_iff hrow hne hn d).mpr hd⟩

/-- Two members, one below the other, and the CEO above both. -/
theorem traversals_agree_small :
    (∃ d, depth (exec step small_company
        [.add_agent "m1" 20 (member_under "c1"), .add_agent "m2" 30 (member_under "m1")]).agents 5 "c1" "m2" =
          some (.ok (some d))) ↔
      ∃ l, all_descendants (exec step small_company
        [.add_agent "m1" 20 (member_under "c1"), .add_agent "m2" 30 (member_under "m1")]).agents 5 "c1" = some l ∧
          "m2" ∈ l := by
  refine ((traversals_agree ⟨_, _, _, _, _, _, ?_, rfl⟩ ?_).2 "c1" "m2" ?_ ?_).2 ?_
  all_goals decide +kernel

end Org

end CompanyFactory
