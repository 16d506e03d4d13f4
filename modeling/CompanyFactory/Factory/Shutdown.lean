import CompanyFactory.Factory.Tasks

/-!
# `Factory.Shutdown` — what a close leaves running

A close has taken the agents that there were when it began to stop them, and it stops the orchestrator and the clock.

* `Closing.Sound` — a call waits, or will wait, for every task on its list that still runs.
* `listed_are_done` — a close that has returned has stopped all that is on its list.
* `shutdown_stops_efficiency` — the other call stops the efficiency service too.
* `shutdown_complete_iff` — what is not on the list, and must not be running.
* `efficiency_survives` — the loop of the efficiency service runs on after every close.
-/

namespace CompanyFactory.Shutdown

open Machine Teardown

/-! ## What a close promises -/

/-- Every task that was ever started is done, and no later step of it writes. -/
def Complete (s : State) : Prop :=
  ∀ t ∈ s.loop.started, t ∉ s.loop.tasks ∧ ∀ later, (exec step s later).writes t = s.writes t

/-- The call `k` is a `close_handle` that has returned. -/
def closed (s : State) (k : Nat) : Bool :=
  s.closings[k]?.any fun cl => decide (cl.call ≠ .shutdown ∧ cl.phase = .returned)

/-- In this step the `close_handle` with the number `k` returns. -/
def Returns (s : State) (label : Label) (k : Nat) : Prop := closed s k = false ∧ closed (step s label) k = true

instance (s : State) (label : Label) (k : Nat) : Decidable (Returns s label k) := instDecidableAnd

/-- The tasks that are not on the list of the close `k`; an agent is not if it was hired after the list was taken. -/
def LeftOut (s : State) (k : Nat) : Task → Prop
  | .consumer _ | .watchdog | .clock => False
  | .agent a => ∃ cl, s.closings[k]? = some cl ∧ cl.phase = .stopping ∧ a ∉ cl.agents
  | .efficiency | .hire_spawn _ | .notice _ => True

variable {s : State} {label : Label}

/-- The task is done, is not created again, and has used the database so often. -/
def Gone (t : Task) (writes : Nat) (s : State) : Prop :=
  s.loop.Known t ∧ t ∉ s.loop.tasks ∧ s.writes t = writes

theorem gone_step {t : Task} {writes : Nat} (s : State) (label : Label) (h : Gone t writes s) :
    Gone t writes (step s label) := by
  obtain ⟨hknown, hdone, hwrites⟩ := h
  have hgrows := step_grows s label
  exact ⟨hgrows.known t hknown, hgrows.gone hknown hdone, (step_writes s label hdone).trans hwrites⟩

theorem complete_iff (hs : s.loop.Sound) : Complete s ↔ s.loop.tasks = [] := by
  constructor
  · intro hc
    apply List.eq_nil_iff_forall_not_mem.mpr
    intro t ht
    exact (hc t (hs.started t ht)).1 ht
  · intro hnil t ht
    have hdone : t ∉ s.loop.tasks := by rw [hnil]; exact List.not_mem_nil
    have hgone : Gone t (s.writes t) s := ⟨hs.known t ht, hdone, rfl⟩
    exact ⟨hdone, fun later => (exec_invariant gone_step hgone later).2.2⟩

/-! ## The calls -/

theorem known_of_mem_tasks_of {b : Build} {l : EventLoop} {agents : List String} (hagents : ∀ a ∈ agents, a ∈ l.agents)
    {service : Service} {t : Task} (ht : t ∈ b.tasks_of agents service) : l.Known t := by
  cases service with
  | agents =>
      obtain ⟨a, ha, rfl⟩ := List.mem_map.mp ht
      exact hagents a ha
  | efficiency =>
      simp only [Build.tasks_of] at ht
      split at ht
      · rw [List.mem_singleton.mp ht]; trivial
      · exact absurd ht List.not_mem_nil
  | orchestrator =>
      rcases List.mem_append.mp ht with ht | ht
      · obtain ⟨a, -, rfl⟩ := List.mem_map.mp ht
        trivial
      · split at ht
        · rw [List.mem_singleton.mp ht]; trivial
        · exact absurd ht List.not_mem_nil
  | clock => rw [List.mem_singleton.mp ht]; trivial

namespace Closing

@[simp] theorem goes_on_call (b : Build) (l : EventLoop) (cl : Closing) : (cl.goes_on b l).call = cl.call := by
  unfold Closing.goes_on
  split <;> rfl

@[simp] theorem raises_call (cl : Closing) : cl.raises.call = cl.call := by
  unfold Closing.raises
  split <;> rfl

/-- A call waits, or will wait, for every task of its services that still runs. -/
structure Sound (b : Build) (l : EventLoop) (cl : Closing) : Prop where
  agents : ∀ a ∈ cl.agents, a ∈ l.agents
  outstanding : ∀ service ∈ cl.call.services, ∀ t ∈ b.tasks_of cl.agents service, t ∈ l.tasks →
    t ∈ cl.rest.outstanding (b.tasks_of cl.agents)
  waiting : cl.phase = .waiting_idle → cl.rest = ⟨[], cl.call.services⟩
  sleeping : cl.phase = .sleeping → cl.call = .shutdown
  ended : cl.phase = .sleeping ∨ cl.phase = .returned → cl.rest = .finished

variable {b : Build} {l l' : EventLoop} {cl : Closing}

theorem Sound.grows (h : cl.Sound b l) (hl : l.Grows l') : cl.Sound b l' where
  agents a ha := hl.known (.agent a) (h.agents a ha)
  outstanding service hservice t ht hrun := by
    apply h.outstanding service hservice t ht
    rcases hl.tasks t hrun with hrun | hnew
    · exact hrun
    · exact absurd (known_of_mem_tasks_of h.agents ht) hnew
  waiting := h.waiting
  sleeping := h.sleeping
  ended := h.ended

theorem sound_opened (call : Call) : (opened call).Sound b l where
  agents a ha := absurd ha List.not_mem_nil
  outstanding service hservice t ht _ := by
    rw [mem_outstanding]
    exact .inr ⟨service, hservice, ht⟩
  waiting _ := rfl
  sleeping h := by cases h
  ended h := by rcases h with h | h <;> cases h

/-- After `settle` the call has returned, sleeps or is at a `stop`. -/
theorem settle_phase (tasks : List Task) (cl : Closing) :
    ((cl.settle b tasks).phase = .stopping) ∨
      (cl.settle b tasks).rest = .finished ∧
        ((cl.settle b tasks).phase = .returned ∨ (cl.settle b tasks).phase = .sleeping ∧ cl.call = .shutdown) := by
  simp only [settle]
  split
  · rename_i hfinished
    refine .inr ⟨hfinished, ?_⟩
    cases cl.call with
    | close_handle => exact .inl rfl
    | shutdown => exact .inr ⟨rfl, rfl⟩
  · exact .inl rfl

theorem sound_settle (hagents : ∀ a ∈ cl.agents, a ∈ l.agents)
    (hout : ∀ service ∈ cl.call.services, ∀ t ∈ b.tasks_of cl.agents service, t ∈ l.tasks →
      t ∈ cl.rest.outstanding (b.tasks_of cl.agents)) : (cl.settle b l.tasks).Sound b l := by
  have hphase := settle_phase (b := b) l.tasks cl
  constructor
  · exact hagents
  · -- `advance` passes over tasks that are done
    intro service hservice t ht hrun
    exact mem_outstanding_advance hrun (hout service hservice t ht hrun)
  · intro hw
    rw [hw] at hphase
    simp at hphase
  · intro hsl
    rcases hphase with h | ⟨-, h | ⟨-, h⟩⟩
    · rw [h] at hsl; cases hsl
    · rw [h] at hsl; cases hsl
    · exact h
  · intro hend
    rcases hphase with h | ⟨h, -⟩
    · rw [h] at hend
      rcases hend with hend | hend <;> cases hend
    · exact h

theorem Sound.goes_on (h : cl.Sound b l) : (cl.goes_on b l).Sound b l := by
  unfold Closing.goes_on
  split
  · -- the list of agents is taken, and nothing of the plan is done yet
    rename_i hw
    apply sound_settle
    · intro a ha
      exact ha
    · intro service hservice t ht _
      simp only [h.waiting hw, mem_outstanding]
      exact .inr ⟨service, hservice, ht⟩
  · exact sound_settle h.agents h.outstanding
  · rename_i hsl
    refine ⟨h.agents, h.outstanding, ?_, ?_, fun _ => h.ended (.inl hsl)⟩
    · intro hw; cases hw
    · intro _; exact h.sleeping hsl
  · exact h
  · exact h

theorem Sound.raises (h : cl.Sound b l) : cl.raises.Sound b l := by
  unfold Closing.raises
  split
  · exact h
  · refine ⟨h.agents, h.outstanding, ?_, ?_, ?_⟩
    · intro hw; cases hw
    · intro hsl; cases hsl
    · rintro (hend | hend) <;> cases hend

/-- A call that goes on with the stops takes its list of agents in this step, or has taken it before. -/
theorem goes_on_agents (h : cl.phase = .waiting_idle ∨ cl.phase = .stopping) :
    (cl.goes_on b l).agents = l.agents ∨ cl.phase = .stopping ∧ (cl.goes_on b l).agents = cl.agents := by
  rcases h with hphase | hphase
  · simp only [Closing.goes_on, hphase]
    exact .inl rfl
  · simp only [Closing.goes_on, hphase]
    exact .inr ⟨trivial, rfl⟩

end Closing

/-- Where a call can come from in a step: it is as before, or the tasks are, and it was called, went on or was
    broken off. -/
inductive Moved (s : State) (label : Label) (k : Nat) : Closing → Prop where
  | opened (call : Call) : label = .calls call → Moved s label k (.opened call)
  | called (call : Call) : label = .calls call → Moved s label k ((Closing.opened call).goes_on s.build s.loop)
  | goes_on {cl : Closing} : s.closings[k]? = some cl → Moved s label k (cl.goes_on s.build s.loop)
  | raises {cl : Closing} : s.closings[k]? = some cl → Moved s label k cl.raises

section Calls

variable {k j : Nat} {cl cl' : Closing}

/-- The call is a new one, or the one that was there. -/
theorem Moved.call (h : Moved s label k cl') :
    label = .calls cl'.call ∨ ∃ cl, s.closings[k]? = some cl ∧ cl'.call = cl.call := by
  cases h with
  | opened call hcall => exact .inl hcall
  | called call hcall =>
      rw [Closing.goes_on_call]
      exact .inl hcall
  | @goes_on cl hcl => exact .inr ⟨cl, hcl, Closing.goes_on_call _ _ cl⟩
  | @raises cl hcl => exact .inr ⟨cl, hcl, Closing.raises_call cl⟩

/-- A call that was broken off is over, and a call that has returned is not broken off. -/
theorem raises_phase (cl : Closing) : cl.raises.phase = .raised ∨ cl.phase = .returned ∧ cl.raises = cl := by
  unfold Closing.raises
  split
  · rename_i hp
    exact .inr ⟨hp, rfl⟩
  · exact .inl rfl

/-- A look at a list in which one entry was set. -/
theorem set_closing {closings : List Closing} (h : (closings.set k cl)[j]? = some cl') :
    closings[j]? = some cl' ∨ k = j ∧ cl' = cl := by
  rw [List.getElem?_set] at h
  split at h
  · rename_i hkj
    split at h
    · exact .inr ⟨hkj, (Option.some.inj h).symm⟩
    · cases h
  · exact .inl h

theorem goes_on_closing (h : (s.goes_on k).closings[j]? = some cl') :
    s.closings[j]? = some cl' ∨ ∃ cl, s.closings[j]? = some cl ∧ cl' = cl.goes_on s.build s.loop := by
  unfold State.goes_on at h
  split at h
  · exact .inl h
  · rename_i cl hcl
    rcases set_closing h with hold | ⟨rfl, hset⟩
    · exact .inl hold
    · exact .inr ⟨cl, hcl, hset⟩

/-- The call that was just made, and those before it. -/
theorem getElem?_snoc (h : (s.closings ++ [cl])[j]? = some cl') :
    s.closings[j]? = some cl' ∨ cl' = cl := by
  rcases Nat.lt_trichotomy j s.closings.length with hlt | heq | hgt
  · rw [List.getElem?_append_left hlt] at h
    exact .inl h
  · subst heq
    rw [List.getElem?_concat_length] at h
    exact .inr (Option.some.inj h).symm
  · rw [List.getElem?_eq_none (by simp; omega)] at h
    cases h

theorem calls_closing {call : Call} (h : (s.calls call).closings[j]? = some cl') :
    s.closings[j]? = some cl' ∨ Moved s (.calls call) j cl' := by
  -- the same for the two ways of going on at once
  have hgoes : ∀ d : Disk, (State.goes_on s.closings.length
      { s with closings := s.closings ++ [.opened call], disk := d }).closings[j]? = some cl' →
      s.closings[j]? = some cl' ∨ Moved s (.calls call) j cl' := by
    intro d h
    rcases goes_on_closing h with h | ⟨cl, hcl, rfl⟩
    · rcases getElem?_snoc h with h | rfl
      · exact .inl h
      · exact .inr (.opened call rfl)
    · rcases getElem?_snoc hcl with hcl | rfl
      · exact .inr (.goes_on hcl)
      · exact .inr (.called call rfl)
  unfold State.calls at h
  split at h
  · rcases getElem?_snoc h with h | rfl
    · exact .inl h
    · exact .inr (.opened _ rfl)
  · exact hgoes _ h
  · exact hgoes _ h

theorem raises_closing (h : (s.raises k).closings[j]? = some cl') :
    s.closings[j]? = some cl' ∨ Moved s (.raises k) j cl' := by
  unfold State.raises at h
  split at h
  · exact .inl h
  · rename_i cl hcl
    rcases set_closing h with hold | ⟨rfl, rfl⟩
    · exact .inl hold
    · exact .inr (.raises hcl)

/-- What a step does to a call. -/
theorem step_closing (h : (step s label).closings[j]? = some cl') :
    s.closings[j]? = some cl' ∨ (step s label).loop = s.loop ∧ Moved s label j cl' := by
  cases label with
  | works t =>
      rw [step] at h
      split at h <;> exact .inl h
  | ends t =>
      rw [step] at h
      split at h <;> exact .inl h
  | hires t agent persona_loads =>
      rw [step] at h
      split at h <;> exact .inl h
  | approves => exact .inl h
  | notifies =>
      rw [step] at h
      split at h <;> exact .inl h
  | calls call => exact (calls_closing h).imp id fun hm => ⟨calls_loop s call, hm⟩
  | goes_on k =>
      refine (goes_on_closing h).imp id ?_
      rintro ⟨cl, hcl, rfl⟩
      exact ⟨goes_on_loop s k, .goes_on hcl⟩
  | raises k => exact (raises_closing h).imp id fun hm => ⟨raises_loop s k, hm⟩

end Calls

/-! ## What holds in every run -/

/-- A task that only the build starts is one of the build. -/
def Task.Due (b : Build) : Task → Prop
  | .consumer a => a ∈ b.agents
  | .watchdog => b.watchdog_enabled = true
  | .efficiency => b.efficiency_starts = true
  | .agent _ | .clock | .hire_spawn _ | .notice _ => True

structure Sound (s : State) : Prop where
  loop : s.loop.Sound
  due : ∀ t ∈ s.loop.tasks, t.Due s.build
  closings : ∀ (k : Nat) (cl : Closing), s.closings[k]? = some cl → cl.Sound s.build s.loop

theorem due_of_mem_build {b : Build} {t : Task} (ht : t ∈ b.tasks) : t.Due b := by
  cases t with
  | consumer a => simpa [Build.tasks, Task.Due] using ht
  | watchdog => simpa [Build.tasks, Task.Due] using ht
  | efficiency => simpa [Build.tasks, Task.Due] using ht
  | agent | clock | hire_spawn | notice => trivial

theorem sound_built (b : Build) : Sound (built b) where
  loop := by
    refine ⟨fun _ ht => ht, fun t ht => ?_⟩
    change t ∈ b.tasks at ht
    cases t with
    | agent a =>
        have ha : a ∈ b.agents := by simpa [Build.tasks] using ht
        exact ha
    | hire_spawn n => simp [Build.tasks] at ht
    | notice n => simp [Build.tasks] at ht
    | consumer | watchdog | clock | efficiency => trivial
  due _ ht := due_of_mem_build ht
  closings k cl h := by simp [built] at h

theorem sound_step (s : State) (label : Label) (hs : Sound s) : Sound (step s label) where
  loop := (step_grows s label).sound hs.loop
  due t ht := by
    rw [step_build]
    rcases (step_grows s label).tasks t ht with hrun | hnew
    · exact hs.due t hrun
    · cases t with
      | agent | clock | hire_spawn | notice => trivial
      | consumer | watchdog | efficiency => exact absurd trivial hnew
  closings k cl' h := by
    rw [step_build]
    rcases step_closing h with h | ⟨hloop, hmoved⟩
    · exact (hs.closings k cl' h).grows (step_grows s label)
    · rw [hloop]
      cases hmoved with
      | opened call _ => exact Closing.sound_opened call
      | called call _ => exact (Closing.sound_opened call).goes_on
      | goes_on hcl => exact (hs.closings k _ hcl).goes_on
      | raises hcl => exact (hs.closings k _ hcl).raises

theorem sound_exec (b : Build) (is : List Label) : Sound (exec step (built b) is) :=
  exec_invariant sound_step (sound_built b) is

/-! ## The end of a close -/

theorem closed_iff {k : Nat} :
    closed s k = true ↔ ∃ cl, s.closings[k]? = some cl ∧ cl.call ≠ .shutdown ∧ cl.phase = .returned := by
  simp [closed, Option.any_eq_true]

/-- The step in which a close returns leaves the tasks as they are, and the close has an agent on its list unless the
    agent was hired after the list was taken. -/
theorem Returns.list_taken {k : Nat} (hs : Sound s) (h : Returns s label k) :
    (step s label).loop = s.loop ∧ ∃ cl, (step s label).closings[k]? = some cl ∧ cl.call ≠ .shutdown ∧
      cl.phase = .returned ∧ ∀ a, a ∈ s.loop.agents → a ∈ cl.agents ∨ LeftOut s k (.agent a) := by
  obtain ⟨hbefore, hafter⟩ := h
  obtain ⟨cl', hcl', hcall, hphase⟩ := closed_iff.mp hafter
  have hopen : ∀ cl, s.closings[k]? = some cl → cl.call ≠ .shutdown → cl.phase ≠ .returned := by
    intro cl hcl hc hp
    rw [closed_iff.mpr ⟨cl, hcl, hc, hp⟩] at hbefore
    cases hbefore
  rcases step_closing hcl' with hsame | ⟨hloop, hmoved⟩
  · exact absurd hphase (hopen cl' hsame hcall)
  refine ⟨hloop, cl', hcl', hcall, hphase, fun a ha => ?_⟩
  cases hmoved with
  | opened call _ => cases hphase
  | called call _ =>
      -- it was called in this step, and the list is of this step
      exact .inl ha
  | @goes_on cl hcl =>
      rw [Closing.goes_on_call] at hcall
      have hlive : cl.phase = .waiting_idle ∨ cl.phase = .stopping := by
        cases hp : cl.phase with
        | waiting_idle => exact .inl rfl
        | stopping => exact .inr rfl
        | sleeping => exact absurd ((hs.closings k cl hcl).sleeping hp) hcall
        | returned => exact absurd hp (hopen cl hcl hcall)
        | raised =>
            simp only [Closing.goes_on, hp] at hphase
            cases hphase
      rcases Closing.goes_on_agents hlive with hagents | ⟨hstopping, hagents⟩
      · rw [hagents]
        exact .inl ha
      · by_cases hin : a ∈ cl.agents
        · exact .inl (hagents ▸ hin)
        · exact .inr ⟨cl, hcl, hstopping, hin⟩
  | @raises cl hcl =>
      rcases raises_phase cl with hraised | ⟨hp, hsame⟩
      · rw [hraised] at hphase
        cases hphase
      · rw [hsame] at hcall
        exact absurd hp (hopen cl hcl hcall)

/-- A call that has returned has stopped its services. -/
theorem done_of_returned {k : Nat} {cl : Closing} (hs : Sound s) (hcl : s.closings[k]? = some cl)
    (hphase : cl.phase = .returned) {service : Service} (hservice : service ∈ cl.call.services) {t : Task}
    (ht : t ∈ s.build.tasks_of cl.agents service) : t ∉ s.loop.tasks := by
  intro hrun
  have hsound := hs.closings k cl hcl
  have hout := hsound.outstanding service hservice t ht hrun
  rw [hsound.ended (.inr hphase), outstanding_finished] at hout
  exact List.not_mem_nil hout

/-- `CompanyHandle.shutdown` stops the efficiency service. -/
theorem shutdown_stops_efficiency {k : Nat} {cl : Closing} (hs : Sound s) (hcl : s.closings[k]? = some cl)
    (hcall : cl.call = .shutdown) (hphase : cl.phase = .returned) : .efficiency ∉ s.loop.tasks := by
  intro hrun
  have hon : s.build.efficiency_starts = true := hs.due _ hrun
  have hlisted : Service.efficiency ∈ cl.call.services := by simp [hcall, Call.services]
  refine done_of_returned hs hcl hphase hlisted ?_ hrun
  simp [Build.tasks_of, hon]

/-- When a close returns, every task that runs is one that is not on its list. -/
theorem listed_are_done {k : Nat} (hs : Sound s) (h : Returns s label k) {t : Task} (ht : t ∈ s.loop.tasks) :
    LeftOut s k t := by
  obtain ⟨hloop, cl, hcl, hcall, hphase, hagents⟩ := h.list_taken hs
  -- the tasks of the services on the list are done
  have hdone : ∀ service ∈ cl.call.services, t ∉ s.build.tasks_of cl.agents service := by
    intro service hservice hmem
    rw [← step_build s label] at hmem
    refine done_of_returned (sound_step s label hs) hcl hphase hservice hmem ?_
    rw [hloop]
    exact ht
  have hdue := hs.due t ht
  obtain ⟨force, purge, hcall⟩ : ∃ force purge, cl.call = .close_handle force purge := by
    cases hc : cl.call with
    | close_handle force purge => exact ⟨force, purge, rfl⟩
    | shutdown => exact absurd hc hcall
  rw [hcall] at hdone
  cases t with
  | consumer a =>
      refine absurd ?_ (hdone .orchestrator (by simp [Call.services]))
      exact List.mem_append_left _ (List.mem_map.mpr ⟨a, hdue, rfl⟩)
  | watchdog =>
      have hwatchdog : s.build.watchdog_enabled = true := hdue
      refine absurd ?_ (hdone .orchestrator (by simp [Call.services]))
      simp [Build.tasks_of, hwatchdog]
  | agent a =>
      refine (hagents a (hs.loop.known _ (hs.loop.started _ ht))).resolve_left fun ha => ?_
      refine absurd ?_ (hdone .agents (by simp [Call.services]))
      exact List.mem_map.mpr ⟨a, ha, rfl⟩
  | clock => exact absurd List.mem_cons_self (hdone .clock (by simp [Call.services]))
  | efficiency => trivial
  | hire_spawn n => trivial
  | notice n => trivial

/-- The tasks are stopped, and stay so, exactly if none of those runs that are not on the list. -/
theorem complete_iff_of_returns {k : Nat} (hs : Sound s) (h : Returns s label k) :
    Complete (step s label) ↔ ∀ t ∈ s.loop.tasks, ¬ LeftOut s k t := by
  rw [complete_iff (sound_step s label hs).loop, (h.list_taken hs).1, List.eq_nil_iff_forall_not_mem]
  constructor
  · intro hnone t ht
    exact absurd ht (hnone t)
  · intro hall t ht
    exact hall t ht (listed_are_done hs h ht)

/-! ## Runs that leave nothing out -/

/-- Nobody is hired while a call is stopping the company, and no task that nobody keeps runs when a close returns. -/
def Orderly (s : State) : Label → Prop
  | .hires _ _ _ => ∀ cl ∈ s.closings, cl.phase ≠ .stopping
  | label => ∀ k < (step s label).closings.length, Returns s label k → ∀ t ∈ s.loop.tasks, t.untracked = false

instance : ∀ (s : State) (label : Label), Decidable (Orderly s label)
  | s, .hires _ _ _ => inferInstanceAs (Decidable (∀ cl ∈ s.closings, cl.phase ≠ .stopping))
  | s, .works t => decidableLast s (.works t)
  | s, .ends t => decidableLast s (.ends t)
  | s, .approves => decidableLast s .approves
  | s, .notifies => decidableLast s .notifies
  | s, .calls call => decidableLast s (.calls call)
  | s, .goes_on k => decidableLast s (.goes_on k)
  | s, .raises k => decidableLast s (.raises k)
where
  decidableLast (s : State) (label : Label) : Decidable (∀ k < (step s label).closings.length,
      Returns s label k → ∀ t ∈ s.loop.tasks, t.untracked = false) := inferInstance

/-- Every agent that runs is on the list of every call that is stopping the company. -/
def Covered (s : State) : Prop :=
  ∀ (k : Nat) (cl : Closing), s.closings[k]? = some cl → cl.phase = .stopping →
    ∀ a, .agent a ∈ s.loop.tasks → a ∈ cl.agents

/-- Only a hire starts an agent. -/
theorem agent_of_step (hlabel : ∀ t agent persona_loads, label ≠ .hires t agent persona_loads) {a : String}
    (ha : .agent a ∈ (step s label).loop.tasks) : .agent a ∈ s.loop.tasks := by
  cases label with
  | works t =>
      rw [step] at ha
      split at ha <;> exact ha
  | ends t =>
      rw [step] at ha
      split at ha
      · exact (List.mem_filter.mp ha).1
      · exact ha
  | hires t agent persona_loads => exact absurd rfl (hlabel t agent persona_loads)
  | approves => simpa [step, EventLoop.on_approval, EventLoop.create_task] using ha
  | notifies =>
      rw [step] at ha
      split at ha
      · simpa [EventLoop.notify_manager, EventLoop.create_task] using ha
      · exact ha
  | calls call => rwa [step, calls_loop] at ha
  | goes_on k => rwa [step, goes_on_loop] at ha
  | raises k => rwa [step, raises_loop] at ha

theorem covered_step (hs : Sound s) (hc : Covered s) (ho : Orderly s label) : Covered (step s label) := by
  intro k cl' hcl' hphase a ha
  rcases step_closing hcl' with hsame | ⟨hloop, hmoved⟩
  · by_cases hlabel : ∀ t agent persona_loads, label ≠ .hires t agent persona_loads
    · exact hc k cl' hsame hphase a (agent_of_step hlabel ha)
    · -- a hire, and no call is stopping the company
      push Not at hlabel
      obtain ⟨t, agent, persona_loads, rfl⟩ := hlabel
      exact absurd hphase (ho cl' (List.mem_of_getElem? hsame))
  · -- a call has moved: the tasks are those of before
    rw [hloop] at ha
    have hknown : a ∈ s.loop.agents := hs.loop.known _ (hs.loop.started _ ha)
    cases hmoved with
    | opened call _ => cases hphase
    | called call _ => exact hknown
    | @goes_on cl hcl =>
        have hlive : cl.phase = .waiting_idle ∨ cl.phase = .stopping := by
          cases hp : cl.phase with
          | waiting_idle => exact .inl rfl
          | stopping => exact .inr rfl
          | sleeping | returned | raised => simp [Closing.goes_on, hp] at hphase
        rcases Closing.goes_on_agents hlive with hagents | ⟨hstopping, hagents⟩
        · rw [hagents]
          exact hknown
        · rw [hagents]
          exact hc k cl hcl hstopping a ha
    | @raises cl hcl =>
        rcases raises_phase cl with hraised | ⟨hreturned, hsame⟩
        · rw [hraised] at hphase
          cases hphase
        · rw [hsame, hreturned] at hphase
          cases hphase

theorem covered_exec {b : Build} {is : List Label} (ho : Along step Orderly (built b) is) :
    Covered (exec step (built b) is) := by
  have hstep : ∀ s label, Sound s ∧ Covered s → Orderly s label → Sound (step s label) ∧ Covered (step s label) := by
    rintro s label ⟨hs, hc⟩ ho
    exact ⟨sound_step s label hs, covered_step hs hc ho⟩
  refine (exec_invariant_along hstep ⟨sound_built b, ?_⟩ ho).2
  intro k cl h
  simp [built] at h

/-- In an orderly run of a company without the efficiency service, no running task is left out by a close that
    returns. -/
theorem none_left_out {k : Nat} (hs : Sound s) (hc : Covered s) (ho : Orderly s label)
    (hoff : s.build.efficiency_starts = false) (h : Returns s label k) : ∀ t ∈ s.loop.tasks, ¬ LeftOut s k t := by
  have huntracked : ∀ t ∈ s.loop.tasks, t.untracked = false := by
    have hlast : ∀ hl : k < (step s label).closings.length, ∀ t ∈ s.loop.tasks, t.untracked = false := by
      intro hl
      cases label with
      | hires t agent persona_loads =>
          -- a hire makes no call return
          obtain ⟨hbefore, hafter⟩ := h
          have hsame : (step s (.hires t agent persona_loads)).closings = s.closings := by
            rw [step]
            split <;> rfl
          rw [closed, hsame, ← closed, hbefore] at hafter
          cases hafter
      | works | ends | approves | notifies | calls | goes_on | raises => exact ho k hl h
    obtain ⟨cl, hcl, -⟩ := closed_iff.mp h.2
    exact hlast (List.getElem?_eq_some_iff.mp hcl).1
  intro t ht hleft
  cases t with
  | consumer | watchdog | clock => exact hleft
  | agent a =>
      obtain ⟨cl, hcl, hstopping, hnot⟩ := hleft
      exact hnot (hc k cl hcl hstopping a ht)
  | efficiency =>
      have hon : s.build.efficiency_starts = true := hs.due _ ht
      rw [hoff] at hon
      cases hon
  | hire_spawn n => cases huntracked _ ht
  | notice n => cases huntracked _ ht

theorem exec_build (b : Build) (is : List Label) : (exec step (built b) is).build = b := by
  have hstep : ∀ s label, s.build = b → (step s label).build = b := fun s label h => (step_build s label).trans h
  exact exec_invariant hstep rfl is

/-- When `close_handle` returns, every task is stopped for good exactly if none runs that is not on its list: not the
    efficiency service, no task that nobody keeps, and no agent hired after the list was taken. In an orderly run of
    a company without the efficiency service that is so. -/
theorem shutdown_complete_iff (b : Build) (is : List Label) (label : Label) (k : Nat)
    (h : Returns (exec step (built b) is) label k) :
    (Complete (exec step (built b) (is ++ [label])) ↔
      ∀ t ∈ (exec step (built b) is).loop.tasks, ¬ LeftOut (exec step (built b) is) k t) ∧
    (b.efficiency_starts = false → Along step Orderly (built b) (is ++ [label]) →
      Complete (exec step (built b) (is ++ [label]))) := by
  have hs := sound_exec b is
  rw [exec_snoc]
  refine ⟨complete_iff_of_returns hs h, fun hoff horderly => ?_⟩
  obtain ⟨hrun, hlast⟩ := along_snoc.mp horderly
  rw [← exec_build b is] at hoff
  exact (complete_iff_of_returns hs h).mpr (none_left_out hs (covered_exec hrun) hlast hoff h)

/-- A company with one agent, a hire and a turn that ends by itself, closed without force. -/
theorem shutdown_complete_hired :
    Complete (exec step (built ⟨["ceo"], true, false⟩)
      [.works (.agent "ceo"), .hires (.agent "ceo") "member" true, .calls (.close_handle false true), .goes_on 0,
        .ends (.agent "ceo"), .ends (.agent "member"), .goes_on 0, .ends (.consumer "ceo"), .ends .watchdog,
        .goes_on 0, .ends .clock, .goes_on 0]) :=
  (shutdown_complete_iff ⟨["ceo"], true, false⟩
      [.works (.agent "ceo"), .hires (.agent "ceo") "member" true, .calls (.close_handle false true), .goes_on 0,
        .ends (.agent "ceo"), .ends (.agent "member"), .goes_on 0, .ends (.consumer "ceo"), .ends .watchdog,
        .goes_on 0, .ends .clock]
      (.goes_on 0) 0 (by decide +kernel)).2 rfl (by decide +kernel)

/-! ## The efficiency service -/

/-- `close_handle` does not ask the efficiency service to stop. -/
theorem efficiency_not_asked {b : Build} {cl : Closing} (hcall : cl.call ≠ .shutdown) :
    .efficiency ∉ cl.asked b := by
  intro hmem
  obtain ⟨service, hservice, ht⟩ := List.mem_flatMap.mp hmem
  have hplan := (List.mem_filter.mp hservice).1
  cases hc : cl.call with
  | shutdown => exact hcall hc
  | close_handle force purge =>
      rw [hc] at hplan
      cases service with
      | agents => simp [Build.tasks_of] at ht
      | efficiency => simp [Call.services] at hplan
      | orchestrator => simp [Build.tasks_of] at ht
      | clock => simp [Build.tasks_of] at ht

/-- The loop of the efficiency service runs, and `shutdown` was not called. -/
def EfficiencyRuns (s : State) : Prop :=
  .efficiency ∈ s.loop.tasks ∧ ∀ (k : Nat) (cl : Closing), s.closings[k]? = some cl → cl.call ≠ .shutdown

theorem efficiency_step (s : State) (label : Label) (h : EfficiencyRuns s) (hlabel : label ≠ .calls .shutdown) :
    EfficiencyRuns (step s label) := by
  obtain ⟨hrun, hcalls⟩ := h
  have hasked : s.asked .efficiency = false := by
    rw [State.asked, List.any_eq_false]
    intro cl hcl
    obtain ⟨k, hk⟩ := List.mem_iff_getElem?.mp hcl
    simpa using efficiency_not_asked (hcalls k cl hk)
  refine ⟨runs_on hrun fun _ => ⟨rfl, hasked⟩, fun k cl' hcl' => ?_⟩
  rcases step_closing hcl' with hsame | ⟨-, hmoved⟩
  · exact hcalls k cl' hsame
  · rcases hmoved.call with hcall | ⟨cl, hcl, hcall⟩
    · intro hshut
      exact hlabel (hcall.trans (congrArg Label.calls hshut))
    · rw [hcall]
      exact hcalls k cl hcl

/-- A loop of the efficiency service that was started runs on, whatever closes return; and so no close of this
    company is complete. -/
theorem efficiency_survives {b : Build} (hon : b.efficiency_starts = true) {is : List Label}
    (hcalls : .calls .shutdown ∉ is) :
    .efficiency ∈ (exec step (built b) is).loop.tasks ∧ ¬ Complete (exec step (built b) is) := by
  have hstart : EfficiencyRuns (built b) := by
    refine ⟨?_, fun k cl h => ?_⟩
    · simp [built, Build.tasks, hon]
    · simp [built] at h
  have halong : Along step (fun _ label => label ≠ Label.calls .shutdown) (built b) is := by
    rw [along_iff_cut]
    rintro pre label post rfl rfl
    exact hcalls (List.mem_append_right _ List.mem_cons_self)
  have hrun := (exec_invariant_along efficiency_step hstart halong).1
  refine ⟨hrun, fun hc => ?_⟩
  rw [complete_iff (sound_exec b is).loop] at hc
  rw [hc] at hrun
  exact List.not_mem_nil hrun

/-- A purged company whose efficiency service was started: its loop is not stopped, and its next tick makes the
    directory again. -/
theorem efficiency_not_stopped :
    ¬ (∀ (b : Build) (is : List Label) (label : Label) (k : Nat), Returns (exec step (built b) is) label k →
      Complete (exec step (built b) (is ++ [label]))) ∧
    ∃ is, Returns (exec step (built ⟨["ceo"], true, true⟩) is) (.goes_on 0) 0 ∧
      (exec step (built ⟨["ceo"], true, true⟩) (is ++ [.goes_on 0])).disk.directory = false ∧
      (exec step (built ⟨["ceo"], true, true⟩) (is ++ [.goes_on 0] ++ [.works .efficiency])).disk.directory = true ∧
      (exec step (built ⟨["ceo"], true, true⟩) (is ++ [.goes_on 0] ++ [.works .efficiency])).writes .efficiency = 1 := by
  have hreturns : Returns (exec step (built ⟨["ceo"], true, true⟩)
      [.calls (.close_handle false true), .goes_on 0, .ends (.agent "ceo"), .goes_on 0, .ends (.consumer "ceo"),
        .ends .watchdog, .goes_on 0, .ends .clock]) (.goes_on 0) 0 := by decide +kernel
  refine ⟨fun hall => ?_, _, hreturns, by decide +kernel, by decide +kernel, by decide +kernel⟩
  have hc := hall _ _ _ _ hreturns
  refine absurd (hc .efficiency ?_).1 ?_
  · decide +kernel
  · decide +kernel

end CompanyFactory.Shutdown
