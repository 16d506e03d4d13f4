import CompanyFactory.Lib.Run
import CompanyFactory.Orchestrator.Consumers

/-!
# `Orchestrator.Served` — the consumers of the registered agents

A consumer is live when its task loops, is not at its end and is not being cancelled. `Tending agents o` says
that the live consumers are those of `agents`, one each, and that the table of consumers knows them.

* While the orchestrator runs, the agents are the registered ones; while it does not, there are none
  (`Tended`).
* `step_tended` — a step that meets `Tends` keeps this. `Tends` rules out a registration while the orchestrator
  runs, a start before a stop has ended, and the ends of a consumer that `_dispatch` does not catch.
* `registered_served` — after a run of such steps every registered agent has exactly one live consumer,
  with the current handler, and it takes up what is queued.
-/

namespace CompanyFactory

open Act Machine

namespace Orchestrator

/-- A consumer that goes on. -/
def Live (task : ConsumerTask) : Prop :=
  task.loops = true ∧ task.phase ≠ .done ∧ task.cancelling = false

/-- The live consumers are those of the agents. -/
structure Tending (agents : List AgentHandle) (o : Orchestrator) : Prop where
  keys : ∀ id n, o.consumers.lookup id = some n →
    ∃ task, o.tasks[n]? = some task ∧ task.handle.id = id
  live : ∀ n task, o.tasks[n]? = some task → Live task →
    task.handle ∈ agents ∧ o.consumers.lookup task.handle.id = some n
  served : ∀ agent ∈ agents, ∃ (n : Nat) (task : ConsumerTask),
    o.tasks[n]? = some task ∧ Live task ∧ task.handle = agent

/-- Running, the registered agents are tended; not running, nobody is. -/
structure Tended (o : Orchestrator) : Prop where
  ids : (o.agents.map AgentHandle.id).Nodup
  up : o.running = true → Tending o.agents o ∧ o.stops = [] ∧ o.stop_event = false
  down : o.running = false → Tending [] o ∧ (o.stops = [] → o.consumers = [])

/-- The step starts and ends consumers in step with the registry. -/
def Tends (o : Orchestrator) : Label → Prop
  | .register agent => o.running = true → agent ∈ o.agents
  | .start => o.stops = []
  | .poll n => ∀ task, o.tasks[n]? = some task → Live task → task.phase = .idle →
      o.queue.bucket task.handle.id ≠ [] → o.accepting = true ∨ o.queue.available = true
  | .deliver_ends n outcome _ => ∀ task env, o.tasks[n]? = some task →
      task.phase = .delivering env → task.loops = true →
      abandoned outcome = task.cancelling ∧
        ∀ e, outcome = .error e → e.isException = true →
          _MAX_ATTEMPTS ≤ env.attempts + 1 ∨ o.queue.available = true
  | _ => True

variable {o : Orchestrator} {agents : List AgentHandle} {n : Nat} {task next : ConsumerTask}

/-! ## Tasks -/

/-- Only the tasks and the table of consumers matter. -/
theorem Tending.of_eq {o' : Orchestrator} (h : Tending agents o) (htasks : o'.tasks = o.tasks)
    (hconsumers : o'.consumers = o.consumers) : Tending agents o' where
  keys := by rw [htasks, hconsumers]; exact h.keys
  live := by rw [htasks, hconsumers]; exact h.live
  served := by rw [htasks]; exact h.served

/-- A task goes on to a state that is as live as the one before. -/
theorem Tending.set_task (h : Tending agents o) (hn : o.tasks[n]? = some task)
    (hhandle : next.handle = task.handle) (hlive : Live next ↔ Live task) :
    Tending agents (set_task n next o) := by
  have hget : ∀ m, (o.tasks.set n next)[m]? = if m = n then some next else o.tasks[m]? := by
    intro m
    rw [List.getElem?_set]
    by_cases hm : n = m
    · subst hm
      have hlt : n < o.tasks.length := (List.getElem?_eq_some_iff.mp hn).1
      simp [hlt]
    · simp [hm, Ne.symm hm]
  constructor
  · intro id m hlookup
    obtain ⟨t, ht, hid⟩ := h.keys id m hlookup
    show ∃ t, (o.tasks.set n next)[m]? = some t ∧ _
    rw [hget]
    by_cases hm : m = n
    · subst hm
      rw [hn] at ht
      cases ht
      exact ⟨next, by simp, by rw [hhandle]; exact hid⟩
    · exact ⟨t, by rw [if_neg hm]; exact ht, hid⟩
  · intro m t ht htlive
    replace ht : (o.tasks.set n next)[m]? = some t := ht
    rw [hget] at ht
    by_cases hm : m = n
    · rw [if_pos hm] at ht
      cases ht
      rw [hhandle, hm]
      exact h.live n task hn (hlive.mp htlive)
    · rw [if_neg hm] at ht
      exact h.live m t ht htlive
  · intro agent hmem
    obtain ⟨m, t, ht, htlive, hagent⟩ := h.served agent hmem
    by_cases hm : m = n
    · subst hm
      rw [hn] at ht
      cases ht
      refine ⟨m, next, ?_, hlive.mpr htlive, hhandle.trans hagent⟩
      show (o.tasks.set m next)[m]? = _
      rw [hget, if_pos rfl]
    · refine ⟨m, t, ?_, htlive, hagent⟩
      show (o.tasks.set n next)[m]? = _
      rw [hget, if_neg hm]
      exact ht

theorem not_live_of_done (h : task.phase = .done) : ¬ Live task := fun hlive => hlive.2.1 h

/-- A task that is not live ends. -/
theorem Tending.finished (h : Tending agents o) (hn : o.tasks[n]? = some task)
    (hdead : ¬ Live task) : Tending agents (finished n task o) :=
  h.set_task hn rfl (iff_of_false (not_live_of_done rfl) hdead)

theorem Tending.push_back {o' : Orchestrator} {env : MessageEnvelope} (h : Tending agents o)
    (hpush : push_back env o = some o') : Tending agents o' ∧ o'.tasks = o.tasks := by
  unfold Orchestrator.push_back at hpush
  split at hpush
  · cases hpush
    exact ⟨h.of_eq rfl rfl, rfl⟩
  · cases hpush

/-- A consumer that polls stays as live as it was. -/
theorem Tending.poll (h : Tending agents o) (hC : Tends o (.poll n))
    (hcalm : agents = [] ∨ o.stop_event = false) : Tending agents (poll n o) := by
  unfold Orchestrator.poll
  split
  · exact h
  · rename_i task hn
    by_cases hidle : task.phase = .idle
    · rw [if_neg (not_not_intro hidle)]
      by_cases hcancel : task.cancelling = true
      · rw [if_pos hcancel]
        refine h.finished hn fun hlive => ?_
        rw [hlive.2.2] at hcancel
        cases hcancel
      · rw [if_neg hcancel]
        have hdead_of_nil : agents = [] → ¬ Live task := by
          intro hnil hlive
          have hmem := (h.live n task hn hlive).1
          rw [hnil] at hmem
          cases hmem
        unfold take_next
        split
        · exact h
        · rename_i env queue hpop
          have hqueue : Tending agents { o with queue } := h.of_eq rfl rfl
          have hbucket := InMemoryMessageQueue.bucket_of_pop hpop
          unfold take_up
          split
          · rename_i hset
            have hstop : o.stop_event = true := hset
            exact hqueue.finished hn (hdead_of_nil (hcalm.resolve_right (by simp [hstop])))
          · split
            · rename_i haccepting
              cases hpush : Orchestrator.push_back env { o with queue } with
              | some o' => exact (hqueue.push_back hpush).1
              | none =>
                  -- the push failed, so the consumer was not live
                  refine hqueue.finished hn fun hlive => ?_
                  have hback := hC task hn hlive hidle hbucket
                  have havailable : queue.available = true := by
                    rw [InMemoryMessageQueue.available_of_pop hpop]
                    exact hback.resolve_left (by simpa using haccepting)
                  rw [push_back_run (o := { o with queue }) env havailable] at hpush
                  cases hpush
            · refine hqueue.set_task hn rfl ?_
              unfold Live
              simp [hidle]
    · rw [if_pos hidle]
      exact h

/-- A consumer that resumes after a delivery stays live if it was not cancelled. -/
theorem Tending.resumed (h : Tending agents o) (hn : o.tasks[n]? = some task)
    (hphase : task.phase ≠ .done) (hcancel : task.loops = true → task.cancelling = false) :
    Tending agents (resumed n task o) := by
  refine h.set_task hn rfl ?_
  unfold Live
  cases hloops : task.loops with
  | false => simp
  | true => simp [hphase, hcancel hloops]

theorem Tending.deliver_ends {outcome : Except Exn Unit} {now : Time} (h : Tending agents o)
    (hC : Tends o (.deliver_ends n outcome now)) :
    Tending agents (deliver_ends n outcome now o) := by
  unfold Orchestrator.deliver_ends
  split
  · exact h
  · rename_i task hn
    split
    · rename_i env hphase
      have hrule := hC task env hn hphase
      have hopen : task.phase ≠ .done := by simp [hphase]
      cases outcome with
      | ok u =>
          have hdelivered : Tending agents
              { o with
                delivered := o.delivered ++ [{ handle := task.handle, envelope := env }] } :=
            h.of_eq rfl rfl
          exact hdelivered.resumed hn hopen fun hloops => (hrule hloops).1.symm
      | error e =>
          unfold end_delivery
          dsimp only
          by_cases hexc : e.isException = true
          · rw [if_pos hexc]
            have hkept : task.loops = true → task.cancelling = false := by
              intro hloops
              rw [← (hrule hloops).1, abandoned, hexc]
              rfl
            unfold retry
            split
            · have hdead : Tending agents { o with queue := o.queue.to_dlq env e.str now } :=
                h.of_eq rfl rfl
              exact hdead.resumed hn hopen hkept
            · rename_i hfew
              cases hpush : Orchestrator.push_back env.bumped o with
              | some o' =>
                  obtain ⟨hpushed, htasks⟩ := h.push_back hpush
                  exact hpushed.resumed (htasks ▸ hn) hopen hkept
              | none =>
                  refine h.finished hn fun hlive => ?_
                  have hback := ((hrule hlive.1).2 e rfl hexc).resolve_left hfew
                  rw [push_back_run env.bumped hback] at hpush
                  cases hpush
          · rw [if_neg hexc]
            refine h.finished hn fun hlive => ?_
            have hcancel := (hrule hlive.1).1
            rw [hlive.2.2, abandoned] at hcancel
            simp [hexc] at hcancel
    · exact h

theorem get_snoc {tasks : List ConsumerTask} {m : Nat} {t : ConsumerTask} :
    (tasks ++ [next])[m]? = some t ↔ tasks[m]? = some t ∨ m = tasks.length ∧ t = next := by
  rw [List.getElem?_append]
  by_cases hm : m < tasks.length
  · have hne : m ≠ tasks.length := Nat.ne_of_lt hm
    simp [hm, hne]
  · have hnone : tasks[m]? = none := List.getElem?_eq_none (by omega)
    rw [if_neg hm, hnone]
    cases hd : m - tasks.length with
    | zero =>
        have heq : m = tasks.length := by omega
        simp [heq, eq_comm]
    | succ k =>
        have hne : m ≠ tasks.length := by omega
        simp [hne]

/-- A task that does not loop is no consumer. -/
theorem Tending.drain (h : Tending agents o) (agent : AgentHandle) :
    Tending agents (drain agent o) := by
  unfold Orchestrator.drain
  split
  · exact h
  · rename_i env queue hpop
    have hqueue : Tending agents { o with queue } := h.of_eq rfl rfl
    unfold drain_up
    split
    · cases hpush : Orchestrator.push_back env { o with queue } with
      | some o' => exact (hqueue.push_back hpush).1
      | none => exact hqueue
    · constructor
      · intro id m hlookup
        obtain ⟨t, ht, hid⟩ := h.keys id m hlookup
        exact ⟨t, get_snoc.mpr (.inl ht), hid⟩
      · intro m t ht hlive
        rcases get_snoc.mp ht with ht | ⟨-, rfl⟩
        · exact h.live m t ht hlive
        · exact absurd hlive.1 (by simp)
      · intro a hmem
        obtain ⟨m, t, ht, hlive, ha⟩ := h.served a hmem
        exact ⟨m, t, get_snoc.mpr (.inl ht), hlive, ha⟩

/-! ## The table of consumers -/

theorem lookup_filter_ne (entries : List (String × Nat)) (id id' : String) :
    (entries.filter (fun entry => entry.1 ≠ id)).lookup id' =
      if id' = id then none else entries.lookup id' := by
  induction entries with
  | nil => simp
  | cons entry rest ih =>
      by_cases hkeep : entry.1 = id
      · rw [List.filter_cons_of_neg (by simpa using hkeep), ih]
        by_cases hid : id' = id
        · simp [hid]
        · have hne : (id' == entry.1) = false := by simpa [hkeep] using hid
          rw [if_neg hid, if_neg hid, List.lookup_cons, hne]
      · rw [List.filter_cons_of_pos (by simpa using hkeep), List.lookup_cons, List.lookup_cons, ih]
        by_cases hid : id' = id
        · have hne : (id' == entry.1) = false := by
            rw [hid]
            simpa using Ne.symm hkeep
          rw [if_pos hid, if_pos hid, hne]
        · simp only [if_neg hid]

/-- A consumer for an agent that has none. -/
theorem Tending.spawn {agent : AgentHandle} (h : Tending agents o)
    (hnew : agent.id ∉ agents.map AgentHandle.id) :
    Tending (agents ++ [agent]) (spawn agent o) := by
  have hlookup : ∀ id, (Orchestrator.spawn agent o).consumers.lookup id =
      if id = agent.id then some o.tasks.length else o.consumers.lookup id := by
    intro id
    show List.lookup id (_ :: _) = _
    rw [List.lookup_cons, lookup_filter_ne]
    by_cases hid : id = agent.id
    · simp [hid]
    · have hne : (id == agent.id) = false := by simpa using hid
      simp [hid, hne]
  constructor
  · intro id m hm
    rw [hlookup] at hm
    split at hm
    · rename_i hid
      cases hm
      exact ⟨_, get_snoc.mpr (.inr ⟨rfl, rfl⟩), hid.symm⟩
    · obtain ⟨t, ht, hid⟩ := h.keys id m hm
      exact ⟨t, get_snoc.mpr (.inl ht), hid⟩
  · intro m t ht hlive
    rw [hlookup]
    rcases get_snoc.mp ht with ht | ⟨rfl, rfl⟩
    · obtain ⟨hmem, hknown⟩ := h.live m t ht hlive
      have hne : t.handle.id ≠ agent.id := fun hid =>
        hnew (hid ▸ List.mem_map_of_mem hmem)
      rw [if_neg hne]
      exact ⟨List.mem_append_left _ hmem, hknown⟩
    · simp
  · intro a hmem
    rcases List.mem_append.mp hmem with hmem | hmem
    · obtain ⟨m, t, ht, hlive, ha⟩ := h.served a hmem
      exact ⟨m, t, get_snoc.mpr (.inl ht), hlive, ha⟩
    · rw [List.mem_singleton] at hmem
      refine ⟨o.tasks.length, _, get_snoc.mpr (.inr ⟨rfl, rfl⟩), ?_, hmem.symm⟩
      exact ⟨rfl, by simp, rfl⟩

theorem cancel_not_live (task : ConsumerTask) : ¬ Live task.cancel := by
  unfold ConsumerTask.cancel Live
  split
  · rename_i hdone
    simp [hdone]
  · simp

theorem get_cancel {ids : List Nat} {tasks : List ConsumerTask} {m : Nat} {t : ConsumerTask}
    (h : (cancel_tasks ids tasks)[m]? = some t) (hlive : Live t) :
    tasks[m]? = some t ∧ m ∉ ids := by
  unfold cancel_tasks at h
  rw [List.getElem?_mapIdx] at h
  cases hm : tasks[m]? with
  | none =>
      rw [hm] at h
      cases h
  | some t' =>
      rw [hm, Option.map_some, Option.some.injEq] at h
      split at h
      · rw [← h] at hlive
        exact absurd hlive (cancel_not_live _)
      · rename_i hids
        exact ⟨congrArg some h, by simpa using hids⟩

theorem cancel_get {tasks : List ConsumerTask} {m : Nat} {t : ConsumerTask} (ids : List Nat)
    (h : tasks[m]? = some t) : ∃ t', (cancel_tasks ids tasks)[m]? = some t' ∧
      t'.handle = t.handle ∧ (m ∉ ids → t' = t) := by
  unfold cancel_tasks
  rw [List.getElem?_mapIdx, h, Option.map_some]
  refine ⟨_, rfl, ?_, fun hm => ?_⟩
  · split
    · unfold ConsumerTask.cancel
      split <;> rfl
    · rfl
  · rw [if_neg (by simpa using hm)]

/-- `unregister` ends the consumer of one agent. -/
theorem Tending.unregister (h : Tending agents o) (agent_id : String) :
    Tending (agents.filter (fun agent => agent.id ≠ agent_id)) (unregister agent_id o) := by
  have hids : ∀ m, m ∈ (o.consumers.lookup agent_id).toList ↔
      o.consumers.lookup agent_id = some m := by
    intro m
    cases o.consumers.lookup agent_id <;> simp [eq_comm]
  constructor
  · intro id m hlookup
    replace hlookup : (o.consumers.filter _).lookup id = some m := hlookup
    rw [lookup_filter_ne] at hlookup
    split at hlookup
    · cases hlookup
    · obtain ⟨t, ht, hid⟩ := h.keys id m hlookup
      obtain ⟨t', ht', hhandle, -⟩ := cancel_get (o.consumers.lookup agent_id).toList ht
      exact ⟨t', ht', by rw [hhandle]; exact hid⟩
  · intro m t ht hlive
    obtain ⟨ht, hm⟩ := get_cancel ht hlive
    obtain ⟨hmem, hknown⟩ := h.live m t ht hlive
    have hne : t.handle.id ≠ agent_id := fun hid => hm ((hids m).mpr (hid ▸ hknown))
    refine ⟨List.mem_filter.mpr ⟨hmem, by simpa using hne⟩, ?_⟩
    show (o.consumers.filter _).lookup t.handle.id = some m
    rw [lookup_filter_ne, if_neg hne]
    exact hknown
  · intro a hmem
    obtain ⟨hmem, hne⟩ := List.mem_filter.mp hmem
    obtain ⟨m, t, ht, hlive, ha⟩ := h.served a hmem
    obtain ⟨t', ht', -, hsame⟩ := cancel_get (o.consumers.lookup agent_id).toList ht
    have hm : m ∉ (o.consumers.lookup agent_id).toList := by
      rw [hids]
      intro hlookup
      obtain ⟨t₁, ht₁, hid⟩ := h.keys agent_id m hlookup
      rw [ht] at ht₁
      cases ht₁
      rw [ha] at hid
      simp [hid] at hne
    rw [hsame hm] at ht'
    exact ⟨m, t, ht', hlive, ha⟩

/-- `stop` ends all of them. -/
theorem Tending.stop (h : Tending agents o) : Tending [] (stop o) := by
  constructor
  · intro id m hlookup
    obtain ⟨t, ht, hid⟩ := h.keys id m hlookup
    obtain ⟨t', ht', hhandle, -⟩ := cancel_get (o.consumers.map Prod.snd) ht
    exact ⟨t', ht', by rw [hhandle]; exact hid⟩
  · intro m t ht hlive
    obtain ⟨ht, hm⟩ := get_cancel ht hlive
    obtain ⟨-, hknown⟩ := h.live m t ht hlive
    obtain ⟨front, back, hsplit, -⟩ := List.lookup_eq_some_iff.mp hknown
    apply absurd _ hm
    rw [hsplit]
    simp
  · intro a hmem
    cases hmem

theorem Tending.has_consumer (h : Tending agents o) {agent : AgentHandle} (hmem : agent ∈ agents) :
    has_consumer o agent.id = true := by
  obtain ⟨n, task, hn, hlive, rfl⟩ := h.served agent hmem
  obtain ⟨-, hknown⟩ := h.live n task hn hlive
  unfold Orchestrator.has_consumer
  rw [hknown, Option.bind_some, hn]
  simpa using hlive.2.1

/-- `start` for agents that all have their consumers. -/
theorem foldl_ensure_of_has (as : List AgentHandle) (h : ∀ a ∈ as, has_consumer o a.id = true) :
    as.foldl ensure_consumer o = o := by
  induction as with
  | nil => rfl
  | cons a rest ih =>
      have ha : ensure_consumer o a = o := by
        unfold ensure_consumer
        rw [if_pos (h a List.mem_cons_self)]
      rw [List.foldl_cons, ha]
      exact ih fun b hb => h b (List.mem_cons_of_mem _ hb)

/-- `start` for agents of which only the first ones have consumers. -/
theorem Tending.foldl_ensure (rest : List AgentHandle) :
    ∀ {agents : List AgentHandle} {o : Orchestrator}, Tending agents o →
      ((agents ++ rest).map AgentHandle.id).Nodup →
      (∀ id n, o.consumers.lookup id = some n → id ∈ agents.map AgentHandle.id) →
      Tending (agents ++ rest) (rest.foldl ensure_consumer o) := by
  induction rest with
  | nil =>
      intro agents o h _ _
      rw [List.append_nil]
      exact h
  | cons a rest ih =>
      intro agents o h hnodup hknown
      have hsplit : agents ++ a :: rest = (agents ++ [a]) ++ rest := by simp
      have hnew : a.id ∉ agents.map AgentHandle.id := by
        rw [List.map_append, List.map_cons] at hnodup
        intro hmem
        exact List.disjoint_of_nodup_append hnodup hmem List.mem_cons_self
      have hnone : o.consumers.lookup a.id = none := by
        cases hlookup : o.consumers.lookup a.id with
        | none => rfl
        | some n => exact absurd (hknown a.id n hlookup) hnew
      have hspawn : ensure_consumer o a = Orchestrator.spawn a o := by
        unfold ensure_consumer Orchestrator.has_consumer
        rw [hnone]
        rfl
      rw [List.foldl_cons, hspawn, hsplit]
      rw [hsplit] at hnodup
      refine ih (h.spawn hnew) hnodup fun id n hlookup => ?_
      replace hlookup : List.lookup id (_ :: _) = some n := hlookup
      rw [List.lookup_cons, lookup_filter_ne] at hlookup
      rw [List.map_append]
      by_cases hid : id = a.id
      · rw [hid]
        exact List.mem_append_right _ List.mem_cons_self
      · have hne : (id == a.id) = false := by simpa using hid
        rw [hne, if_neg hid] at hlookup
        exact List.mem_append_left _ (hknown id n hlookup)

/-! ## Steps -/

theorem put_agent_of_mem {agents : List AgentHandle} {agent : AgentHandle} (hmem : agent ∈ agents)
    (hnodup : (agents.map AgentHandle.id).Nodup) : put_agent agents agent = agents := by
  have hany : agents.any (fun a => decide (a.id = agent.id)) = true := by
    rw [List.any_eq_true]
    exact ⟨agent, hmem, by simp⟩
  unfold put_agent
  rw [if_pos hany]
  refine (List.map_congr_left fun a ha => ?_).trans (List.map_id agents)
  split
  · rename_i hid
    exact (List.inj_on_of_nodup_map hnodup hmem ha hid.symm)
  · rfl

theorem put_agent_ids {agents : List AgentHandle} (agent : AgentHandle)
    (hnodup : (agents.map AgentHandle.id).Nodup) :
    ((put_agent agents agent).map AgentHandle.id).Nodup := by
  unfold put_agent
  split
  · rw [List.map_map]
    have hids : AgentHandle.id ∘ (fun a => if a.id = agent.id then agent else a) =
        AgentHandle.id := by
      funext a
      show (if a.id = agent.id then agent else a).id = a.id
      split
      · rename_i hid
        exact hid.symm
      · rfl
    rw [hids]
    exact hnodup
  · rename_i hnew
    rw [List.map_append, List.map_singleton]
    refine List.Nodup.append hnodup (List.nodup_singleton _) ?_
    intro id hmem hlast
    rw [List.mem_singleton] at hlast
    obtain ⟨a, ha, hid⟩ := List.mem_map.mp hmem
    apply hnew
    rw [List.any_eq_true]
    exact ⟨a, ha, by simpa using hid.trans hlast⟩

/-- Creating consumers changes nothing but the tasks and the table. -/
theorem foldl_ensure_frame (as : List AgentHandle) (o : Orchestrator) :
    (as.foldl ensure_consumer o).agents = o.agents ∧ (as.foldl ensure_consumer o).stops = o.stops ∧
      (as.foldl ensure_consumer o).stop_event = o.stop_event ∧
      (as.foldl ensure_consumer o).queue = o.queue := by
  induction as generalizing o with
  | nil => exact ⟨rfl, rfl, rfl, rfl⟩
  | cons a rest ih =>
      obtain ⟨hagents, hstops, hevent, hqueue⟩ := ih (ensure_consumer o a)
      rw [List.foldl_cons, hagents, hstops, hevent, hqueue]
      unfold ensure_consumer
      split
      · exact ⟨rfl, rfl, rfl, rfl⟩
      · exact ⟨rfl, rfl, rfl, rfl⟩

theorem Tended.start (h : Tended o) (hstops : o.stops = []) : Tended (start o) := by
  obtain ⟨hagents, hstops', hevent, -⟩ :=
    foldl_ensure_frame o.agents { o with stop_event := false }
  have htending :
      Tending o.agents (o.agents.foldl ensure_consumer { o with stop_event := false }) := by
    by_cases hrunning : o.running = true
    · have hup : Tending o.agents { o with stop_event := false } :=
        (h.up hrunning).1.of_eq rfl rfl
      rw [foldl_ensure_of_has o.agents fun a ha => hup.has_consumer ha]
      exact hup
    · obtain ⟨hdown, hempty⟩ := h.down (by simpa using hrunning)
      have hstart : Tending [] { o with stop_event := false } := hdown.of_eq rfl rfl
      have hall := hstart.foldl_ensure o.agents h.ids fun id n hlookup => by
        replace hlookup : o.consumers.lookup id = some n := hlookup
        rw [hempty hstops] at hlookup
        cases hlookup
      exact hall
  constructor
  · show ((o.agents.foldl ensure_consumer _).agents.map _).Nodup
    rw [hagents]
    exact h.ids
  · intro _
    refine ⟨?_, hstops'.trans hstops, hevent⟩
    show Tending (o.agents.foldl ensure_consumer _).agents _
    rw [hagents]
    exact htending.of_eq rfl rfl
  · intro hrunning
    cases hrunning

/-- A step of a task, whoever is tended. -/
theorem Tended.of_step {o' : Orchestrator} (h : Tended o) (hagents : o'.agents = o.agents)
    (hlife : o'.running = o.running ∧ o'.stops = o.stops ∧ o'.stop_event = o.stop_event ∧
      o'.consumers = o.consumers)
    (hstep : ∀ agents, Tending agents o → (agents = [] ∨ o.stop_event = false) →
      Tending agents o') : Tended o' := by
  obtain ⟨hrunning, hstops, hevent, hconsumers⟩ := hlife
  constructor
  · rw [hagents]
    exact h.ids
  · intro hrun
    rw [hrunning] at hrun
    obtain ⟨htending, hcalm, hclear⟩ := h.up hrun
    rw [hagents, hstops, hevent]
    exact ⟨hstep _ htending (.inr hclear), hcalm, hclear⟩
  · intro hrun
    rw [hrunning] at hrun
    obtain ⟨htending, hempty⟩ := h.down hrun
    rw [hstops, hconsumers]
    exact ⟨hstep _ htending (.inl rfl), hempty⟩

/-- The lifecycle is left alone, and the waiters still know of every envelope. -/
structure Steady (o o' : Orchestrator) : Prop where
  agents : o'.agents = o.agents
  life : o'.running = o.running ∧ o'.stops = o.stops ∧ o'.stop_event = o.stop_event ∧
    o'.consumers = o.consumers
  awake : o.queue.Awake → o'.queue.Awake

theorem Steady.refl (o : Orchestrator) : Steady o o := ⟨rfl, ⟨rfl, rfl, rfl, rfl⟩, id⟩

theorem Steady.trans {o o' o'' : Orchestrator} (h : Steady o o') (h' : Steady o' o'') :
    Steady o o'' := by
  obtain ⟨hagents, ⟨hrunning, hstops, hevent, hconsumers⟩, hawake⟩ := h
  refine ⟨h'.agents.trans hagents, ?_, h'.awake ∘ hawake⟩
  obtain ⟨-, ⟨hrunning', hstops', hevent', hconsumers'⟩, -⟩ := h'
  exact ⟨hrunning'.trans hrunning, hstops'.trans hstops, hevent'.trans hevent,
    hconsumers'.trans hconsumers⟩

/-- New tasks, deliveries and dead letters. -/
theorem Steady.of_queue {o o' : Orchestrator} (hagents : o'.agents = o.agents)
    (hlife : o'.running = o.running ∧ o'.stops = o.stops ∧ o'.stop_event = o.stop_event ∧
      o'.consumers = o.consumers)
    (hqueues : o'.queue.queues = o.queue.queues) (hwaiters : o'.queue.waiters = o.queue.waiters) :
    Steady o o' := by
  refine ⟨hagents, hlife, fun h => ?_⟩
  unfold InMemoryMessageQueue.Awake InMemoryMessageQueue.bucket at *
  rw [hqueues, hwaiters]
  exact h

theorem pop_steady {agent_id : String} {env : MessageEnvelope} {queue : InMemoryMessageQueue}
    (h : o.queue.pop agent_id = (some env, queue)) : Steady o { o with queue } := by
  obtain ⟨-, rfl⟩ := InMemoryMessageQueue.pop_some h
  exact ⟨rfl, ⟨rfl, rfl, rfl, rfl⟩, fun h => h.popped agent_id⟩

theorem push_back_steady {o' : Orchestrator} {env : MessageEnvelope}
    (h : push_back env o = some o') : Steady o o' := by
  unfold push_back InMemoryMessageQueue.push at h
  cases havailable : o.queue.available with
  | true =>
      rw [havailable] at h
      cases h
      exact ⟨rfl, ⟨rfl, rfl, rfl, rfl⟩, fun hawake => hawake.pushed env⟩
  | false =>
      rw [havailable] at h
      cases h

theorem set_task_steady (n : Nat) (task : ConsumerTask) (o : Orchestrator) :
    Steady o (set_task n task o) := .of_queue rfl ⟨rfl, rfl, rfl, rfl⟩ rfl rfl

theorem poll_steady (n : Nat) (o : Orchestrator) : Steady o (poll n o) := by
  unfold poll
  split
  · exact .refl o
  · split
    · exact .refl o
    · split
      · exact set_task_steady _ _ _
      · unfold take_next
        split
        · exact .refl o
        · rename_i env queue hpop
          refine (pop_steady hpop).trans ?_
          unfold take_up
          split
          · exact set_task_steady _ _ _
          · split
            · cases hpush : push_back env { o with queue } with
              | some o' => exact push_back_steady hpush
              | none => exact set_task_steady _ _ _
            · exact set_task_steady _ _ _

theorem deliver_ends_steady (n : Nat) (outcome : Except Exn Unit) (now : Time) (o : Orchestrator) :
    Steady o (deliver_ends n outcome now o) := by
  unfold deliver_ends
  split
  · exact .refl o
  · rename_i task hn
    split
    · rename_i env hphase
      unfold end_delivery
      split
      · exact .of_queue rfl ⟨rfl, rfl, rfl, rfl⟩ rfl rfl
      · split
        · unfold retry
          split
          · exact .of_queue rfl ⟨rfl, rfl, rfl, rfl⟩ rfl rfl
          · cases hpush : push_back env.bumped o with
            | some o' => exact (push_back_steady hpush).trans (set_task_steady _ _ _)
            | none => exact set_task_steady _ _ _
        · exact set_task_steady _ _ _
    · exact .refl o

theorem drain_steady (agent : AgentHandle) (o : Orchestrator) : Steady o (drain agent o) := by
  unfold drain
  split
  · exact .refl o
  · rename_i env queue hpop
    refine (pop_steady hpop).trans ?_
    unfold drain_up
    split
    · cases hpush : push_back env { o with queue } with
      | some o' => exact push_back_steady hpush
      | none => exact .refl _
    · exact .of_queue rfl ⟨rfl, rfl, rfl, rfl⟩ rfl rfl

theorem steady_respects : Respects Steady where
  refl := .refl
  trans := fun _ _ _ => .trans
  gates := fun _ _ _ _ _ _ => .of_queue rfl ⟨rfl, rfl, rfl, rfl⟩ rfl rfl
  push := fun o req => by
    unfold enqueue InMemoryMessageQueue.push
    cases o.queue.available with
    | true => exact ⟨rfl, ⟨rfl, rfl, rfl, rfl⟩, fun hawake => hawake.pushed _⟩
    | false => exact .of_queue rfl ⟨rfl, rfl, rfl, rfl⟩ rfl rfl

/-- Tended stays what the gates of a send move. -/
theorem tended_respects : Respects (fun o o' => Tended o → Tended o') where
  refl := fun _ => id
  trans := fun _ _ _ h h' => h' ∘ h
  gates := fun _ _ _ _ _ _ h =>
    h.of_step rfl ⟨rfl, rfl, rfl, rfl⟩ fun _ htending _ => htending.of_eq rfl rfl
  push := fun o req h => by
    unfold enqueue
    split
    · exact h.of_step rfl ⟨rfl, rfl, rfl, rfl⟩ fun _ htending _ => htending.of_eq rfl rfl
    · exact h.of_step rfl ⟨rfl, rfl, rfl, rfl⟩ fun _ htending _ => htending.of_eq rfl rfl

theorem Tended.register (h : Tended o) {agent : AgentHandle}
    (hC : o.running = true → agent ∈ o.agents) : Tended (register agent o) := by
  constructor
  · exact put_agent_ids agent h.ids
  · intro hrunning
    obtain ⟨htending, hcalm⟩ := h.up hrunning
    refine ⟨?_, hcalm⟩
    show Tending (put_agent o.agents agent) _
    rw [put_agent_of_mem (hC hrunning) h.ids]
    exact htending.of_eq rfl rfl
  · intro hrunning
    obtain ⟨htending, hempty⟩ := h.down hrunning
    exact ⟨htending.of_eq rfl rfl, hempty⟩

theorem Tended.unregister (h : Tended o) (agent_id : String) : Tended (unregister agent_id o) := by
  constructor
  · exact h.ids.sublist (List.Sublist.map _ List.filter_sublist)
  · intro hrunning
    obtain ⟨htending, hcalm⟩ := h.up hrunning
    exact ⟨htending.unregister agent_id, hcalm⟩
  · intro hrunning
    obtain ⟨htending, hempty⟩ := h.down hrunning
    refine ⟨htending.unregister agent_id, fun hstops => ?_⟩
    show o.consumers.filter _ = []
    rw [hempty hstops]
    rfl

theorem Tended.stop (h : Tended o) : Tended (stop o) := by
  constructor
  · exact h.ids
  · intro hrunning
    cases hrunning
  · intro _
    refine ⟨?_, fun hstops => ?_⟩
    · by_cases hrunning : o.running = true
      · exact (h.up hrunning).1.stop
      · exact (h.down (by simpa using hrunning)).1.stop
    · replace hstops : o.stops ++ [_] = [] := hstops
      simp at hstops

theorem Tended.stop_ends (h : Tended o) (k : Nat) : Tended (stop_ends k o) := by
  unfold Orchestrator.stop_ends
  split
  · exact h
  · rename_i ids hk
    split
    · constructor
      · exact h.ids
      · intro hrunning
        -- no stop waits while the orchestrator runs
        rw [(h.up hrunning).2.1] at hk
        cases hk
      · intro hrunning
        obtain ⟨htending, -⟩ := h.down hrunning
        refine ⟨⟨fun id n hlookup => ?_, fun n task hn hlive => ?_, fun a hmem => ?_⟩, fun _ => rfl⟩
        · cases hlookup
        · exact absurd (htending.live n task hn hlive).1 List.not_mem_nil
        · cases hmem
    · exact h

theorem step_tended {label : Label} (h : Tended o) (hC : Tends o label) : Tended (step o label) := by
  cases label with
  | send req => exact send_respects tended_respects req o h
  | register agent => exact h.register hC
  | unregister agent_id => exact h.unregister agent_id
  | start => exact h.start hC
  | stop => exact h.stop
  | stop_ends k => exact h.stop_ends k
  | poll n =>
      obtain ⟨hagents, hlife, -⟩ := poll_steady n o
      exact h.of_step hagents hlife fun _ htending hcalm => htending.poll hC hcalm
  | deliver_ends n outcome now =>
      obtain ⟨hagents, hlife, -⟩ := deliver_ends_steady n outcome now o
      exact h.of_step hagents hlife fun _ htending _ => htending.deliver_ends hC
  | drain agent =>
      obtain ⟨hagents, hlife, -⟩ := drain_steady agent o
      exact h.of_step hagents hlife fun _ htending _ => htending.drain agent
  | suspend agent_id reason => exact suspend_respects tended_respects agent_id reason o h
  | resume agent_id =>
      exact h.of_step rfl ⟨rfl, rfl, rfl, rfl⟩ fun _ htending _ => htending.of_eq rfl rfl
  | clock accepting =>
      exact h.of_step rfl ⟨rfl, rfl, rfl, rfl⟩ fun _ htending _ => htending.of_eq rfl rfl
  | set_available value =>
      exact h.of_step rfl ⟨rfl, rfl, rfl, rfl⟩ fun _ htending _ => htending.of_eq rfl rfl
  | hire_or_fire org =>
      exact h.of_step rfl ⟨rfl, rfl, rfl, rfl⟩ fun _ htending _ => htending.of_eq rfl rfl
  | configure_rate_limit agent_id cfg now =>
      exact h.of_step rfl ⟨rfl, rfl, rfl, rfl⟩ fun _ htending _ => htending.of_eq rfl rfl
  | publish post => exact append_respects tended_respects post o h

theorem step_awake (label : Label) (h : o.queue.Awake) : (step o label).queue.Awake := by
  cases label with
  | send req => exact (send_respects steady_respects req o).awake h
  | start =>
      show (o.agents.foldl ensure_consumer { o with stop_event := false }).queue.Awake
      rw [(foldl_ensure_frame o.agents { o with stop_event := false }).2.2.2]
      exact h
  | stop_ends k =>
      show (stop_ends k o).queue.Awake
      unfold stop_ends
      split
      · exact h
      · split <;> exact h
  | poll n => exact (poll_steady n o).awake h
  | deliver_ends n outcome now => exact (deliver_ends_steady n outcome now o).awake h
  | drain agent => exact (drain_steady agent o).awake h
  | suspend agent_id reason => exact (suspend_respects steady_respects agent_id reason o).awake h
  | publish post => exact (append_respects steady_respects post o).awake h
  | set_available value => exact h
  | register agent => exact h
  | unregister agent_id => exact h
  | stop => exact h
  | resume agent_id => exact h
  | clock accepting => exact h
  | hire_or_fire org => exact h
  | configure_rate_limit agent_id cfg now => exact h

/-! ## Runs -/

theorem run_awake (labels : List Label) (h : o.queue.Awake) :
    (exec step o labels).queue.Awake := by
  have hstep : ∀ (o : Orchestrator) label, o.queue.Awake → (step o label).queue.Awake := by
    intro o label h
    exact step_awake label h
  exact exec_invariant hstep h labels

/-- Exactly one live consumer serves the agent, and it has the registered object. -/
def Serves (o : Orchestrator) (agent : AgentHandle) (n : Nat) (task : ConsumerTask) : Prop :=
  o.tasks[n]? = some task ∧ Live task ∧ task.handle = agent ∧
    ∀ m other, o.tasks[m]? = some other → Live other → other.handle.id = agent.id → m = n

theorem Tending.serves (h : Tending agents o) {agent : AgentHandle} (hmem : agent ∈ agents) :
    ∃ n task, Serves o agent n task := by
  obtain ⟨n, task, hn, hlive, rfl⟩ := h.served agent hmem
  refine ⟨n, task, hn, hlive, rfl, fun m other hm hother hid => ?_⟩
  have hknown := (h.live m other hm hother).2
  rw [hid, (h.live n task hn hlive).2] at hknown
  exact (Option.some.inj hknown).symm

/-- The consumer of a queued message is woken, and starts its delivery. -/
theorem Serves.dispatches {agent : AgentHandle} (h : Serves o agent n task) (hawake : o.queue.Awake)
    (hstop : o.stop_event = false) (haccepting : o.accepting = true) (hidle : task.phase = .idle)
    {env : MessageEnvelope} {rest : List MessageEnvelope}
    (hqueued : o.queue.bucket agent.id = env :: rest) :
    o.queue.waiters agent.id = true ∧
      (step o (.poll n)).tasks[n]? = some { task with phase := .delivering env } := by
  obtain ⟨hn, hlive, rfl, -⟩ := h
  refine ⟨hawake _ (by simp [hqueued]), ?_⟩
  have hpop : o.queue.pop task.handle.id = (some env, o.queue.popped task.handle.id) := by
    have hhead := o.queue.pop_head task.handle.id
    rw [hqueued, List.head?_cons] at hhead
    rcases hres : o.queue.pop task.handle.id with ⟨r, queue⟩
    rw [hres] at hhead
    cases hhead
    rw [(InMemoryMessageQueue.pop_some hres).2]
  have hcancel : ¬ task.cancelling = true := by simp [hlive.2.2]
  show (poll n o).tasks[n]? = _
  unfold poll
  rw [hn]
  dsimp only
  rw [if_neg (not_not_intro hidle), if_neg hcancel]
  unfold take_next
  rw [hpop]
  unfold take_up
  dsimp only
  rw [hstop, haccepting, if_neg (by decide), if_neg (by decide)]
  unfold set_task
  have hlt : n < o.tasks.length := (List.getElem?_eq_some_iff.mp hn).1
  exact List.getElem?_set_self hlt

theorem fresh_tended (org : List OrgRow) (events : EventStore) (rate : RateLimitConfig)
    (loop_config : LoopDetectorConfig) (lower : String → String) :
    Tended (fresh org events rate loop_config lower) where
  ids := List.nodup_nil
  up := by
    intro hrunning
    cases hrunning
  down := by
    refine fun _ => ⟨⟨?_, ?_, ?_⟩, fun _ => rfl⟩
    · intro id n hlookup
      cases hlookup
    · intro n task hn
      cases hn
    · intro agent hmem
      cases hmem

/-- **Every registered agent is served.** After a run whose steps start and end consumers in step with the
    registry, while the orchestrator runs, every registered agent has exactly one live consumer, which
    has the object registered last and takes up the first message that is queued for the agent. -/
theorem registered_served (org : List OrgRow) (events : EventStore) (rate : RateLimitConfig)
    (loop_config : LoopDetectorConfig) (lower : String → String) (labels : List Label)
    (hC : Along step Tends (fresh org events rate loop_config lower) labels)
    (hrunning : (exec step (fresh org events rate loop_config lower) labels).running = true) :
    let o := exec step (fresh org events rate loop_config lower) labels
    ∀ agent ∈ o.agents, ∃ n task, Serves o agent n task ∧
      (o.accepting = true → task.phase = .idle → ∀ env rest,
        o.queue.bucket agent.id = env :: rest →
          o.queue.waiters agent.id = true ∧
            (step o (.poll n)).tasks[n]? = some { task with phase := .delivering env }) := by
  intro o agent hmem
  have htended : Tended o :=
    exec_invariant_along (fun _ _ => step_tended) (fresh_tended _ _ _ _ _) hC
  have hawake : o.queue.Awake := run_awake labels fun _ hne => absurd rfl hne
  obtain ⟨htending, -, hstop⟩ := htended.up hrunning
  obtain ⟨n, task, hserves⟩ := htending.serves hmem
  exact ⟨n, task, hserves, fun haccepting hidle env rest hqueued =>
    hserves.dispatches hawake hstop haccepting hidle hqueued⟩

def one_manager : Orchestrator := fresh [⟨"ceo", true, none⟩] .quiet {} {} id

/-- Registered before the start. -/
theorem registered_served_run :
    let o := exec step one_manager [.register ⟨"ceo", 0⟩, .start]
    ∀ agent ∈ o.agents, ∃ n task, Serves o agent n task ∧
      (o.accepting = true → task.phase = .idle → ∀ env rest,
        o.queue.bucket agent.id = env :: rest →
          o.queue.waiters agent.id = true ∧
            (step o (.poll n)).tasks[n]? = some { task with phase := .delivering env }) := by
  refine registered_served _ _ _ _ _ [.register ⟨"ceo", 0⟩, .start] ⟨?_, rfl, trivial⟩ rfl
  intro hrunning
  cases hrunning

/-- **A hire at run time.** An agent that is registered after the start, as a runtime hire is, has no
    consumer while the orchestrator runs. -/
theorem late_registration_unserved :
    let o := exec step one_manager [.register ⟨"ceo", 0⟩, .start, .register ⟨"eng", 1⟩]
    o.running = true ∧ ⟨"eng", 1⟩ ∈ o.agents ∧ ∀ task ∈ o.tasks, task.handle.id ≠ "eng" := by
  decide +kernel

end Orchestrator

end CompanyFactory
