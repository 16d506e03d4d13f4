import CompanyFactory.Orchestrator.Traffic

/-!
# `Orchestrator.Losses` — what is dropped is gone

The other side of `Orchestrator.Custody`: a consumer or a drain that does not meet `Keeps` drops an envelope
(`step_drops`), and an envelope that is in no place any more turns up in none again (`Lost.accrues`), because whatever
a step brings in is new.
-/

namespace CompanyFactory

open Act Machine

namespace Orchestrator

variable {o o' : Orchestrator} {label : Label} {n : Nat} {task : ConsumerTask} {env : MessageEnvelope}

/-! ## Dropping -/

/-- A task that ends without the envelope that it took. -/
theorem finished_loose {queue : InMemoryMessageQueue} (hn : o.tasks[n]? = some task) (hhand : task.hand = none)
    (hpop : o.queue.pop task.handle.id = (some env, queue)) :
    Loose env o (finished n task { o with queue }) := by
  have hsame : SameCensus { o with queue } (finished n task { o with queue }) := set_task_same hn hhand rfl
  obtain ⟨hloose, hsent⟩ := pop_loose hpop
  exact ⟨hloose.trans (hsame.1.symm.cons _), hsame.2.trans hsent⟩

/-- A consumer that was stopped, or that cannot put the envelope back, ends without it. -/
theorem take_up_finished (hno : ¬ (o.stop_event = false ∧ (o.accepting = true ∨ o.queue.available = true))) :
    take_up n task env o = finished n task o := by
  unfold take_up
  cases hstop : o.stop_event with
  | true => rw [if_pos rfl]
  | false =>
      rw [hstop] at hno
      have hneither := not_or.mp fun hback => hno ⟨rfl, hback⟩
      have hpaused : o.accepting = false := by simpa using hneither.1
      have hoffline : o.queue.available = false := by simpa using hneither.2
      rw [if_neg Bool.false_ne_true, hpaused, Bool.not_false, if_pos rfl, push_back_offline env hoffline,
        Option.getD_none]

theorem head_of_ne_nil {agent_id : String} (h : o.queue.bucket agent_id ≠ []) :
    ∃ env queue, o.queue.pop agent_id = (some env, queue) := by
  obtain ⟨env, rest, hbucket⟩ := List.exists_cons_of_ne_nil h
  obtain ⟨queue, hpop⟩ := pop_of_head (o := o) (by rw [hbucket, List.head?_cons])
  exact ⟨env, queue, hpop⟩

theorem poll_drops (hno : ¬ Keeps o (.poll n)) : ∃ env, Loose env o (poll n o) := by
  simp only [Keeps] at hno
  push Not at hno
  obtain ⟨task, hn, hidle, hgoes, hne, hstop⟩ := hno
  obtain ⟨env, queue, hpop⟩ := head_of_ne_nil hne
  have hended : take_up n task env { o with queue } = finished n task { o with queue } := by
    refine take_up_finished ?_
    rintro ⟨hrunning, hback⟩
    obtain ⟨hpaused, hoffline⟩ := hstop hrunning
    rcases hback with haccepting | havailable
    · exact hpaused haccepting
    · exact hoffline ((InMemoryMessageQueue.available_of_pop hpop).symm.trans havailable)
  refine ⟨env, ?_⟩
  rw [poll, hn]
  dsimp only
  rw [if_neg (not_not_intro hidle), hgoes, if_neg Bool.false_ne_true, take_next, hpop]
  dsimp only
  rw [hended]
  exact finished_loose hn (hand_idle hidle) hpop

theorem drain_drops {agent : AgentHandle} (hno : ¬ Keeps o (.drain agent)) : ∃ env, Loose env o (drain agent o) := by
  simp only [Keeps] at hno
  push Not at hno
  obtain ⟨hne, hpaused, hoffline⟩ := hno
  obtain ⟨env, queue, hpop⟩ := head_of_ne_nil hne
  have havailable : queue.available = false := by
    rw [InMemoryMessageQueue.available_of_pop hpop]
    simpa using hoffline
  refine ⟨env, ?_⟩
  rw [drain, hpop]
  dsimp only
  rw [drain_up, if_pos (by simpa using hpaused), push_back_offline (o := { o with queue }) env havailable]
  exact pop_loose hpop

/-- **A step that does not meet the condition drops an envelope.** -/
theorem step_drops (hno : ¬ Keeps o label) (hlabel : ∀ n outcome now, label ≠ .deliver_ends n outcome now) :
    ∃ env, Loose env o (step o label) := by
  cases label with
  | poll n => exact poll_drops hno
  | drain agent => exact drain_drops hno
  | deliver_ends n outcome now => exact absurd rfl (hlabel n outcome now)
  | _ => exact absurd trivial hno

/-! ## What comes in is new -/

/-- Whatever is located now was so before, or has a number of its own. -/
structure Accrues (o o' : Orchestrator) : Prop where
  sent : o.sent <+: o'.sent
  located : ∀ m ∈ o'.located.map MessageEnvelope.message,
    m ∈ o.located.map MessageEnvelope.message ∨ o.sent.length ≤ m.msg_id

theorem Accrues.refl (o : Orchestrator) : Accrues o o := ⟨List.prefix_rfl, fun _ => .inl⟩

theorem Accrues.trans (o o' o'' : Orchestrator) (h : Accrues o o') (h' : Accrues o' o'') : Accrues o o'' where
  sent := h.sent.trans h'.sent
  located := by
    intro m hmem
    rcases h'.located m hmem with hbefore | hnew
    · exact h.located m hbefore
    · exact .inr (h.sent.length_le.trans hnew)

theorem Accrues.of_same (h : SameCensus o o') : Accrues o o' where
  sent := h.2 ▸ List.prefix_rfl
  located := fun _ hmem => .inl (h.1.subset hmem)

theorem Accrues.of_loose (h : Loose env o o') : Accrues o o' where
  sent := h.2 ▸ List.prefix_rfl
  located := fun _ hmem => .inl (h.1.symm.subset (List.mem_cons_of_mem _ hmem))

theorem enqueue_accrues (req : SendRequest) (o : Orchestrator) :
    Accrues o (enqueue (new_envelope o req) o).2 := by
  unfold enqueue InMemoryMessageQueue.push
  cases o.queue.available with
  | false => exact .refl o
  | true =>
      refine ⟨List.prefix_append _ _, fun m hmem => ?_⟩
      obtain ⟨e, he, rfl⟩ := List.mem_map.mp hmem
      by_cases hnew : e = new_envelope o req
      · exact .inr (hnew ▸ Nat.le_refl _)
      · refine .inl (List.mem_map_of_mem ?_)
        unfold located hands InMemoryMessageQueue.pushed at he
        unfold located hands
        simpa [hnew, or_assoc] using he

theorem accrues_respects : Respects Accrues where
  refl := .refl
  trans := .trans
  gates := fun _ _ _ _ _ _ => .of_same (.of_eq rfl rfl)
  push := fun o req => enqueue_accrues req o

/-! ## Lost messages -/

/-- The message was sent, and is nowhere. -/
structure Lost (o : Orchestrator) (env : MessageEnvelope) : Prop where
  sent : env ∈ o.sent
  numbered : env.msg_id < o.sent.length
  nowhere : env ∉ o.located.map MessageEnvelope.message

/-- **What is dropped is lost.** -/
theorem Conserved.lost (h : Conserved o) (hloose : Loose env o o') : Lost o' env.message := by
  have hsent : env.message ∈ o.sent := h.census.subset (hloose.1.symm.subset List.mem_cons_self)
  refine ⟨hloose.2 ▸ hsent, ?_, ?_⟩
  · have hmem : env.message.msg_id ∈ List.range o.sent.length := h.numbered ▸ List.mem_map_of_mem hsent
    rw [hloose.2]
    exact List.mem_range.mp hmem
  · have hnodup := sent_nodup h.numbered
    rw [← h.census.nodup_iff, hloose.1.nodup_iff] at hnodup
    exact (List.nodup_cons.mp hnodup).1

/-- **What is lost stays so.** -/
theorem Lost.accrues (h : Lost o env) (haccrues : Accrues o o') : Lost o' env where
  sent := haccrues.sent.subset h.sent
  numbered := Nat.lt_of_lt_of_le h.numbered haccrues.sent.length_le
  nowhere := by
    intro hmem
    rcases haccrues.located env hmem with hbefore | hnew
    · exact h.nowhere hbefore
    · exact absurd h.numbered (Nat.not_lt_of_le hnew)

end Orchestrator

end CompanyFactory
