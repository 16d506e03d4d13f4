import CompanyFactory.Identity.Traversals

/-!
# `Identity.Fire` — the table of `fire`

A call of `fire` is denied, or dismisses the target; its conditions are read off the chart as it is, also where a start
has closed a cycle. What the dismissal writes stays, whether or not the store takes the events behind it.

* `fire_denied_none_iff` — the conditions of a firing.
* `fire_of_may` — what a firing does.
* `fire_table` — outcome, table and events of every call.
-/

namespace CompanyFactory

open Act Machine Forest Identity Bootstrap

namespace Org

/-- The conditions of a firing. -/
structure MayFire (o : Org) (f : Firing) : Prop where
  routed : f.via_hr = true
  actor : is_active o.agents f.actor_id = true
  target : is_active o.agents f.target_id = true
  other : f.actor_id ≠ f.target_id
  not_ceo : ∀ t, find o.agents f.target_id = some t → t.role ≠ .CEO
  not_last_hr : ∀ t, find o.agents f.target_id = some t → t.role = .HR →
    ∃ b ∈ o.agents, b.role = .HR ∧ b.status = .ACTIVE ∧ b.id ≠ f.target_id
  above : Relation.TransGen (fun x y => manager o.agents x = some y) f.target_id f.actor_id
  reason : invalid_reason o.lower f.reason = none

/-- The events of a firing. -/
def suite (o : Org) (f : Firing) : List Post :=
  fired_posts f (manager o.agents f.target_id) (direct_reports o.agents f.target_id)

/-- Kind and payload of the events: the firing, a notification if the manager is not the actor, and one event for each
report that is detached. -/
def recorded (o : Org) (f : Firing) : List (EventKind × Fields) :=
  (.AGENT_FIRED, [("agent_id", .str f.target_id), ("by_agent_id", .str f.actor_id), ("reason", .str f.reason)]) ::
    ((match manager o.agents f.target_id with
      | none => []
      | some m =>
        if m = f.actor_id then []
        else [(.AGENT_FIRE_NOTIFY, [("to_agent", .str m), ("fired_agent", .str f.target_id),
          ("actor", .str f.actor_id), ("reason", .str f.reason)])]) ++
      (direct_reports o.agents f.target_id).map fun x =>
        (.AGENT_ORPHANED, [("agent_id", .str x), ("former_manager_id", .str f.target_id)]))

variable {agents : List Agent} {o : Org} {f : Firing} {now : Time}

/-! ## The conditions -/

theorem get_active_iff {x : String} {a : Agent} :
    get_active agents x = some a ↔ find agents x = some a ∧ a.status = .ACTIVE := by
  unfold get_active
  rw [Option.filter_eq_some_iff]
  exact and_congr_right fun _ => decide_eq_true_iff

theorem has_other_active_hr_iff {x : String} : has_other_active_hr agents x = true ↔
    ∃ b ∈ agents, b.role = .HR ∧ b.status = .ACTIVE ∧ b.id ≠ x := by
  simp [has_other_active_hr, Agent.active, and_assoc]

/-- The guards before the chart is consulted. -/
structure Guarded (agents : List Agent) (f : Firing) (target : Agent) : Prop where
  routed : f.via_hr = true
  actor : is_active agents f.actor_id = true
  row : find agents f.target_id = some target
  active : target.status = .ACTIVE
  other : f.actor_id ≠ f.target_id
  not_ceo : target.role ≠ .CEO
  not_last_hr : target.role = .HR → has_other_active_hr agents f.target_id = true

theorem fire_guard_none_iff : fire_guard agents f = none ↔ ∃ target, Guarded agents f target := by
  unfold fire_guard
  constructor
  · intro h
    split at h
    · cases h
    rename_i hrouted
    split at h
    · cases h
    · cases h
    · rename_i actor target hactor htarget
      obtain ⟨harow, haactive⟩ := get_active_iff.mp hactor
      obtain ⟨htrow, htactive⟩ := get_active_iff.mp htarget
      -- the rows that were found have the ids that were asked for
      rw [find_id harow, find_id htrow] at h
      split at h
      · cases h
      rename_i hother
      split at h
      · cases h
      rename_i hceo
      split at h
      · cases h
      rename_i hhr
      refine ⟨target, by simpa using hrouted, is_active_iff.mpr ⟨actor, harow, haactive⟩, htrow, htactive, hother, hceo,
        fun hrole => ?_⟩
      rw [not_and, Bool.not_eq_false] at hhr
      exact hhr hrole
  · rintro ⟨target, h⟩
    obtain ⟨actor, harow, haactive⟩ := is_active_iff.mp h.actor
    rw [get_active_iff.mpr ⟨harow, haactive⟩, get_active_iff.mpr ⟨h.row, h.active⟩]
    dsimp only
    have hhr : ¬ (target.role = .HR ∧ has_other_active_hr agents f.target_id = false) := by
      rintro ⟨hrole, hnone⟩
      rw [h.not_last_hr hrole] at hnone
      cases hnone
    rw [find_id harow, find_id h.row, if_neg (by simp [h.routed]), if_neg h.other, if_neg h.not_ceo, if_neg hhr]

/-- Under managers that are rows, the walk of `depth` arrives at the actor exactly if it is above. -/
theorem Rostered.depth_pos_iff (h : Rostered agents) {x y : String} {row : Agent} (hrow : find agents y = some row)
    (hne : x ≠ y) : (∃ d, ended (depth agents (rounds agents) x y) = .ok (some d)) ↔
      Relation.TransGen (fun x y => manager agents x = some y) y x := by
  have hended : ∀ d, ended (depth agents (rounds agents) x y) = .ok (some d) ↔ Arrives agents x y d := by
    intro d
    rw [← h.depth_eq_iff hrow hne (Nat.le_succ _)]
    unfold rounds
    rcases depth agents (agents.length + 1) x y with _ | (e | d')
    · simp [ended]
    · simp [ended]
    · simp [ended]
  constructor
  · rintro ⟨d, hd⟩
    exact ((hended d).mp hd).above
  · intro habove
    obtain ⟨d, hd⟩ := arrives_of_above habove
    exact ⟨d, (hended d).mpr hd⟩

/-- `depth` of two different agents is no zero. -/
theorem Rostered.depth_ne_zero (h : Rostered agents) {x y : String} {row : Agent} (hrow : find agents y = some row)
    (hne : x ≠ y) : ended (depth agents (rounds agents) x y) ≠ .ok (some 0) := by
  intro hzero
  have hdepth : depth agents (rounds agents) x y = some (.ok (some 0)) := by
    rcases hd : depth agents (rounds agents) x y with _ | (e | d)
    · rw [hd] at hzero; cases hzero
    · rw [hd] at hzero; cases hzero
    · rw [hd] at hzero; cases hzero; rfl
  exact Nat.lt_irrefl 0 ((h.depth_eq_iff hrow hne (Nat.le_succ _) 0).mp hdepth).pos

/-- **When a call is not denied.** -/
theorem fire_denied_none_iff (h : Rostered o.agents) : fire_denied o.lower o.agents f = .ok none ↔ MayFire o f := by
  unfold fire_denied
  constructor
  · intro hdenied
    split at hdenied
    · cases hdenied
    rename_i hguard
    obtain ⟨target, hg⟩ := fire_guard_none_iff.mp hguard
    obtain ⟨d, hd, hrest⟩ := except_bind_eq_ok.mp hdenied
    split at hrest
    · cases hrest
    rename_i hd0
    have hrow : ∀ t, find o.agents f.target_id = some t → t = target :=
      fun t ht => Option.some.inj (ht.symm.trans hg.row)
    refine ⟨hg.routed, hg.actor, is_active_iff.mpr ⟨target, hg.row, hg.active⟩, hg.other, ?_, ?_, ?_, Except.ok.inj hrest⟩
    · intro t ht
      rw [hrow t ht]
      exact hg.not_ceo
    · intro t ht hrole
      rw [hrow t ht] at hrole
      exact has_other_active_hr_iff.mp (hg.not_last_hr hrole)
    · cases d with
      | none => exact absurd (.inl rfl) hd0
      | some d => exact (h.depth_pos_iff hg.row hg.other).mp ⟨d, hd⟩
  · intro hmay
    obtain ⟨target, hrow, hactive⟩ := is_active_iff.mp hmay.target
    have hg : Guarded o.agents f target := ⟨hmay.routed, hmay.actor, hrow, hactive, hmay.other, hmay.not_ceo _ hrow,
      fun hrole => has_other_active_hr_iff.mpr (hmay.not_last_hr _ hrow hrole)⟩
    rw [fire_guard_none_iff.mpr ⟨target, hg⟩]
    obtain ⟨d, hd⟩ := (h.depth_pos_iff hrow hmay.other).mpr hmay.above
    -- a chain that was walked up is not empty
    have hzero : d ≠ 0 := by
      rintro rfl
      exact h.depth_ne_zero hrow hmay.other hd
    show (ended _ >>= fun _ => _) = _
    rw [hd]
    show (if some d = none ∨ some d = some 0 then _ else _) = _
    rw [if_neg (by simp [hzero]), hmay.reason]
    rfl

/-! ## What a firing does -/

/-- The events of a call go to the store. -/
theorem appendAll_eq (posts : List Post) (o : Org) : appendAll posts o =
    match EventStore.appendAll posts o.events with
    | (.ok _, events) => (.ok (), { o with events })
    | (.error e, events) => (.error (.raises e), { o with events }) := by
  induction posts generalizing o with
  | nil => rfl
  | cons post posts ih =>
      rw [appendAll, bind_run, EventStore.appendAll_cons, append]
      rcases EventStore.append post o.events with ⟨_ | event, events⟩
      · rfl
      · exact ih _

/-- A firing that is not denied dismisses the target and appends its events. -/
theorem fire_of_may (h : MayFire o f) (hroster : Rostered o.agents) (now : Time) : fire now f o =
    match EventStore.appendAll (suite o f) o.events with
    | (.ok _, events) =>
        (.ok { result := .DIRECT_FIRED }, { o with agents := o.agents.map (dismissed f now), events })
    | (.error e, events) =>
        (.error (.raises e), { o with agents := o.agents.map (dismissed f now), events }) := by
  obtain ⟨target, hrow, -⟩ := is_active_iff.mp h.target
  have hget : get o.agents f.target_id = .ok target := by rw [get, hrow]
  have hended : ended (some (Except.ok target)) = .ok target := rfl
  have hlast : ¬ (target.role = .HR ∧ has_other_active_hr o.agents f.target_id = false) := by
    rintro ⟨hrole, hnone⟩
    rw [has_other_active_hr_iff.mpr (h.not_last_hr target hrow hrole)] at hnone
    cases hnone
  have hdo : do_fire now f o = appendAll (suite o f) { o with agents := o.agents.map (dismissed f now) } := by
    rw [do_fire, read_bind, hget, hended, ofExcept_ok_bind, if_neg hlast, ← manager_of_find hrow, ← dismiss_eq]
    rfl
  rw [fire, read_bind, id, (fire_denied_none_iff hroster).mpr h, ofExcept_ok_bind]
  dsimp only
  rw [bind_run, hdo, appendAll_eq]
  rcases EventStore.appendAll (suite o f) o.events with ⟨_ | _, events⟩ <;> rfl

theorem fire_of_not_may (h : ¬ MayFire o f) (hroster : Rostered o.agents) (now : Time) :
    (fire now f o).1 ≠ .ok { result := .DIRECT_FIRED } := by
  have hdenied : fire_denied o.lower o.agents f ≠ .ok none := fun hnone => h ((fire_denied_none_iff hroster).mp hnone)
  rw [fire, read_bind, id]
  rcases hd : fire_denied o.lower o.agents f with e | _ | reason
  · intro heq
    cases heq
  · exact absurd hd hdenied
  · intro heq
    cases heq

/-- A call that is denied leaves everything as it is. -/
theorem fire_denied_same {outcome : FireOutcome} (h : (fire now f o).1 = .ok outcome)
    (hdenied : outcome.result = .DENIED) : (fire now f o).2 = o := by
  rw [fire, read_bind, id] at h ⊢
  rcases hd : fire_denied o.lower o.agents f with e | _ | reason
  · rfl
  · rw [hd, ofExcept_ok_bind] at h
    dsimp only at h
    rw [bind_run] at h
    rcases hrun : do_fire now f o with ⟨e | _, u⟩
    · rw [hrun] at h; cases h
    · rw [hrun] at h; cases h; cases hdenied
  · rfl

/-! ## The events -/

/-- The three payload models take what a firing sends, field by field. -/
theorem suite_payload {post : Post} (h : post ∈ suite o f) :
    EventStore.validate_payload post.kind post.payload = .ok post.payload := by
  unfold suite fired_posts at h
  rcases List.mem_cons.mp h with rfl | h
  · rfl
  rcases List.mem_append.mp h with h | h
  · split at h
    · cases h
    · split at h
      · cases h
      · obtain rfl := List.mem_singleton.mp h
        rfl
  · obtain ⟨x, -, rfl⟩ := List.mem_map.mp h
    rfl

/-- Kind and payload of what is sent; no agent has the empty id, so a manager is told unless it is the actor. -/
theorem suite_recorded (hmanager : manager o.agents f.target_id ≠ some "") :
    (suite o f).map (fun post => (post.kind, post.payload)) = recorded o f := by
  unfold suite recorded fired_posts
  rw [List.map_cons, List.map_append, List.map_map]
  congr 2
  cases hm : manager o.agents f.target_id with
  | none => rfl
  | some m =>
      have hne : m ≠ "" := fun heq => hmanager (hm.trans (congrArg some heq))
      dsimp only
      by_cases hactor : m = f.actor_id
      · rw [if_pos (.inr hactor), if_pos hactor]
        rfl
      · rw [if_neg (by simp [hne, hactor]), if_neg hactor]
        rfl

/-- What is logged has the kinds and the payloads of what was sent. -/
theorem logged_recorded {posts : List Post} {events : List Event} (h : List.Forall₂ EventStore.Logged posts events)
    (hvalid : ∀ post ∈ posts, EventStore.validate_payload post.kind post.payload = .ok post.payload) :
    events.map (fun e => (e.kind, e.payload)) = posts.map fun post => (post.kind, post.payload) := by
  induction h with
  | nil => rfl
  | @cons post event posts events hlogged _ ih =>
      have hpayload : event.payload = post.payload :=
        Except.ok.inj (hlogged.payload.symm.trans (hvalid post List.mem_cons_self))
      rw [List.map_cons, List.map_cons, ih fun p hp => hvalid p (List.mem_cons_of_mem _ hp), hlogged.kind, hpayload]

/-- Managers are rows, and a company is reached by steps that keep them rows. -/
theorem Reached.rostered {C : Org → Label → Prop} (ho : Reached C o) : Rostered o.agents :=
  ho.invariant (I := fun o => Rostered o.agents)
    (fun events lower ids now requested_by => (founded_charted events lower ids now requested_by).toRostered)
    fun o label h _ => h.written (step_written o label)

/-- **The table of `fire`**, in every organisation that a bootstrap and any steps have made. -/
theorem fire_table {C : Org → Label → Prop} (ho : Reached C o) (hids : ∀ a ∈ o.agents, a.id ≠ "") (now : Time)
    (f : Firing) :
    ((fire now f o).1 = .ok { result := .DIRECT_FIRED } ↔ MayFire o f ∧ o.events.accepts (suite o f) = true) ∧
    (∀ outcome, (fire now f o).1 = .ok outcome → outcome.result = .DENIED → (fire now f o).2 = o) ∧
    (MayFire o f → (fire now f o).2.agents = o.agents.map (dismissed f now)) ∧
    (MayFire o f → o.events.accepts (suite o f) = true → ∃ events,
      (fire now f o).2.events.log = o.events.log ++ events ∧
        events.map (fun e => (e.kind, e.payload)) = recorded o f) ∧
    (direct_reports o.agents f.target_id).Nodup ∧
    ∀ x, x ∈ direct_reports o.agents f.target_id ↔
      is_active o.agents x = true ∧ manager o.agents x = some f.target_id := by
  have hroster := ho.rostered
  refine ⟨?_, fun outcome => fire_denied_same, fun hmay => ?_, fun hmay haccepts => ?_,
    hroster.direct_reports_nodup _, fun x => mem_direct_reports hroster⟩
  · -- a firing that is let through still needs the log to take the whole suite
    by_cases hmay : MayFire o f
    · rw [fire_of_may hmay hroster]
      cases haccepts : o.events.accepts (suite o f) with
      | true =>
          have hok := EventStore.appendAll_of_accepts haccepts
          rcases hrun : EventStore.appendAll (suite o f) o.events with ⟨r, events⟩
          rw [hrun] at hok
          obtain rfl : r = .ok () := hok
          exact iff_of_true rfl ⟨hmay, rfl⟩
      | false =>
          obtain ⟨e, he⟩ := EventStore.appendAll_of_refused haccepts
          rcases hrun : EventStore.appendAll (suite o f) o.events with ⟨r, events⟩
          rw [hrun] at he
          obtain rfl : r = .error e := he
          exact iff_of_false nofun fun hboth => nomatch hboth.2
    · exact iff_of_false (fire_of_not_may hmay hroster now) fun hboth => hmay hboth.1
  · rw [fire_of_may hmay hroster]
    rcases EventStore.appendAll (suite o f) o.events with ⟨_ | _, events⟩ <;> rfl
  · have hmanager : manager o.agents f.target_id ≠ some "" := by
      intro hm
      obtain ⟨b, hb⟩ := hroster.manager_found hm
      exact hids b (find_mem hb) (find_id hb)
    rw [fire_of_may hmay hroster]
    have hok := EventStore.appendAll_of_accepts haccepts
    rcases hrun : EventStore.appendAll (suite o f) o.events with ⟨r, events⟩
    rw [hrun] at hok
    obtain rfl : r = .ok () := hok
    obtain ⟨rows, hlog, hall⟩ := EventStore.appendAll_logged hrun
    exact ⟨rows, hlog, (logged_recorded hall fun _ => suite_payload).trans (suite_recorded hmanager)⟩

/-- A member with another member below it. -/
def small_line : List Label :=
  [.add_agent "m1" 20 (member_under "c1"), .add_agent "m2" 30 (member_under "m1")]

def closing_line (via_hr : Bool) : Firing :=
  { actor_id := "c1", target_id := "m1", reason := "closing the product line", via_hr }

theorem fire_table_small :
    (fire 40 (closing_line true) (exec step small_company small_line)).1 = .ok { result := .DIRECT_FIRED } ↔
      MayFire (exec step small_company small_line) (closing_line true) ∧
        (exec step small_company small_line).events.accepts
          (suite (exec step small_company small_line) (closing_line true)) = true :=
  (fire_table (C := fun _ _ => True) ⟨_, _, _, _, _, small_line, along_of_forall (fun _ _ => trivial) _, rfl⟩ (by decide +kernel) 40
    (closing_line true)).1

/-- **A call that is not routed via HR is denied**, whoever fires whom. -/
theorem unrouted_denied :
    ¬ ((fire 40 (closing_line false) (exec step small_company small_line)).1 = .ok { result := .DIRECT_FIRED } ↔
      MayFire (exec step small_company small_line) { closing_line false with via_hr := true }) := by
  have hroster : Rostered (exec step small_company small_line).agents :=
    Reached.rostered (C := fun _ _ => True) ⟨_, _, _, _, _, small_line, along_of_forall (fun _ _ => trivial) _, rfl⟩
  intro hiff
  have hmay : MayFire (exec step small_company small_line) { closing_line false with via_hr := true } :=
    (fire_denied_none_iff hroster).mp (by decide +kernel)
  have hdenied : (fire 40 (closing_line false) (exec step small_company small_line)).1 =
      .ok { result := .DENIED, reason := some "must_route_via_hr" } := rfl
  have hfired := hiff.mpr hmay
  rw [hdenied] at hfired
  cases hfired

end Org

end CompanyFactory
