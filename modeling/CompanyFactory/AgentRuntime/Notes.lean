import CompanyFactory.AgentRuntime.Turn

/-!
# `AgentRuntime.Notes` — what a turn writes into working memory

A turn writes five kinds of items, and each has its author: the message that came in, a tool, the turn itself with a
rejection or a truncation, and the agent with its own text (`Note`).

* `run_turn_leaves` — whatever a turn does to the company, what it does to the memory is to write notes, and what it does
  to the submissions is to submit.
* `run_turn_notes` — so the working memory of a turn is the one before and a list of notes.
-/

namespace CompanyFactory

namespace AgentRuntime

open Act

/-- An item that `run_turn` writes, by its author. -/
inductive Note where
  | incoming (msg : IncomingMessage) (now : Time)
  | tool (tool_name : String) (ok : Bool) (now : Time)
  | rejection (tool_name reason : String) (now : Time)
  /-- the agent's own output -/
  | own (text : String) (now : Time)
  | truncation (tool_invocations : Nat) (now : Time)
  deriving DecidableEq

namespace Note

def item : Note → WorkingItem
  | .incoming msg now => user_item msg now
  | .tool tool_name ok now => tool_item tool_name ok now
  | .rejection tool_name reason now => rejection_item tool_name reason now
  | .own text now => { role := "agent", content := text, ts_company := now }
  | .truncation tool_invocations now => truncation_item tool_invocations now

def is_own : Note → Bool
  | .own _ _ => true
  | .incoming _ _ => false
  | .tool _ _ _ => false
  | .rejection _ _ _ => false
  | .truncation _ _ => false

/-- No item has the role of an assistant. -/
theorem role_ne_assistant (note : Note) : note.item.role ≠ "assistant" := by
  cases note with
  | own text now => simp [item]
  | incoming msg now => simp [item, user_item]
  | tool tool_name ok now => simp [item, tool_item]
  | rejection tool_name reason now => simp [item, rejection_item]
  | truncation tool_invocations now => simp [item, truncation_item]

end Note

/-! ## Footprint -/

section Footprint

variable {R : Runtime → Runtime → Prop}
  (hrest : ∀ rt rt', rt'.memory = rt.memory → rt'.submitted = rt.submitted → R rt rt')
  (htrans : ∀ a b c, R a b → R b c → R a c) {agent_id : String}
  (hnote : ∀ note : Note, Moves R (remember agent_id note.item))

include hrest

theorem on_company_leaves {α : Type} (m : Act Company Exn α) : Moves R (on_company m) := fun _ => hrest _ _ rfl rfl

theorem append_leaves (post : Post) : Moves R (append post) := on_company_leaves hrest _

theorem record_error_leaves : Moves R record_error := fun _ => hrest _ _ rfl rfl

include htrans

theorem guard_stream_leaves {α : Type} {body : Act Runtime Exn α} (h : Moves R body) : Moves R (guard_stream body) := by
  have hrefl : ∀ rt, R rt rt := fun _ => hrest _ _ rfl rfl
  have hrecord : ∀ e : Exn, Moves R (do record_error; Act.raise e : Act Runtime Exn α) :=
    fun e => Moves.bind htrans (record_error_leaves hrest) fun _ => Moves.raise hrefl _
  apply Moves.bind htrans (Moves.attempt h)
  intro ended
  cases ended with
  | ok a => exact Moves.pure hrefl a
  | error e =>
    cases e with
    | cancelled => exact Moves.raise hrefl _
    | _ => exact hrecord _

theorem auto_ack_leaves (env : TurnEnv) (full_text : String) (msg : IncomingMessage) (replied : Bool) :
    Moves R (auto_ack env agent_id full_text msg replied) := by
  have hrefl : ∀ rt, R rt rt := fun _ => hrest _ _ rfl rfl
  unfold auto_ack
  split
  · exact Moves.pure hrefl ()
  · apply Moves.ite (Moves.pure hrefl ())
    apply Moves.bind htrans (Moves.attempt (on_company_leaves hrest _))
    intro acked
    cases acked with
    | ok result => exact Moves.pure hrefl ()
    | error e => exact Moves.ite (Moves.pure hrefl ()) (Moves.raise hrefl e)

include hnote

theorem finish_turn_leaves (env : TurnEnv) (msg : IncomingMessage) (p : Progress) :
    Moves R (finish_turn env agent_id msg p) := by
  have hrefl : ∀ rt, R rt rt := fun _ => hrest _ _ rfl rfl
  have htext : Moves R (note_text env agent_id ("".intercalate p.text_chunks)) :=
    Moves.ite (Moves.pure hrefl ()) (hnote (.own _ env.now))
  have htruncated : Moves R (note_truncation env agent_id msg p) := by
    apply Moves.ite _ (Moves.pure hrefl ())
    exact Moves.bind htrans (append_leaves hrest _) fun _ => hnote (.truncation p.tool_invocations env.now)
  apply Moves.bind htrans htext
  intro _
  apply Moves.bind htrans htruncated
  intro _
  apply Moves.bind htrans (auto_ack_leaves hrest htrans _ _ _ _)
  intro _
  apply Moves.bind htrans (fun _ => hrest _ _ rfl rfl)
  intro _
  apply Moves.bind htrans (append_leaves hrest _)
  intro _
  exact Moves.bind htrans (append_leaves hrest _) fun _ => Moves.pure hrefl _

variable (hsubmit : ∀ env index submission, Moves R (submit env index submission))

include hsubmit

theorem tool_event_leaves (env : TurnEnv) (msg : IncomingMessage) (use : ToolUse) (index : Nat) :
    Moves R (tool_event env agent_id msg use index) := by
  have hrefl : ∀ rt, R rt rt := fun _ => hrest _ _ rfl rfl
  apply Moves.bind htrans (Moves.attempt (on_company_leaves hrest _))
  intro invoked
  cases invoked with
  | error e =>
    apply Moves.ite _ (Moves.raise hrefl e)
    apply Moves.bind htrans (record_error_leaves hrest)
    intro _
    exact Moves.bind htrans (hsubmit _ _ _) fun _ => Moves.pure hrefl false
  | ok result =>
    apply Moves.bind htrans (hsubmit _ _ _)
    intro _
    apply Moves.bind htrans (hnote (.tool use.tool_name _ env.now))
    intro _
    cases rejection_reason use.tool_name result with
    | none => exact Moves.pure hrefl _
    | some reason =>
      apply Moves.ite (Moves.pure hrefl _)
      exact Moves.bind htrans (hnote (.rejection use.tool_name reason env.now)) fun _ => Moves.pure hrefl _

theorem stream_loop_leaves (env : TurnEnv) (msg : IncomingMessage) (items : List StreamItem) (p : Progress) :
    Moves R (stream_loop env agent_id msg items p) := by
  have hrefl : ∀ rt, R rt rt := fun _ => hrest _ _ rfl rfl
  induction items generalizing p with
  | nil => exact Moves.pure hrefl p
  | cons item rest ih =>
    cases item with
    | raises e => exact Moves.raise hrefl e
    | event ev =>
      cases ev with
      | text text => exact ih _
      | stop reason => exact ih _
      | tool_use use => exact Moves.bind htrans (tool_event_leaves hrest htrans hnote hsubmit env msg use _) fun _ => ih _

/-- **Footprint of a turn**, whatever its outcome: the company is free, the memory gets notes. -/
theorem run_turn_leaves (env : TurnEnv) (msg : IncomingMessage) : Moves R (run_turn env agent_id msg) := by
  have hrefl : ∀ rt, R rt rt := fun _ => hrest _ _ rfl rfl
  apply Moves.bind htrans (hnote (.incoming msg env.now))
  intro _
  apply Moves.bind htrans (append_leaves hrest _)
  intro _
  apply Moves.bind htrans (Moves.ofExcept hrefl _)
  intro hits
  apply Moves.bind htrans (Moves.ofExcept hrefl _)
  intro persona
  apply Moves.bind htrans (Moves.read hrefl _)
  intro history
  have hopen : ∀ system, Moves R (open_stream env system history) := by
    intro system
    apply Moves.ite _ (Moves.ofExcept hrefl _)
    exact Moves.bind htrans (record_error_leaves hrest) fun _ => Moves.raise hrefl _
  apply Moves.bind htrans (hopen _)
  intro stream
  apply Moves.bind htrans
    (guard_stream_leaves hrest htrans (stream_loop_leaves hrest htrans hnote hsubmit env msg stream {}))
  intro progress
  exact finish_turn_leaves hrest htrans hnote env msg progress

end Footprint

/-! ## The notes of a turn -/

/-- Notes have been written for an agent. -/
def Notes (agent_id : String) (rt rt' : Runtime) : Prop :=
  ∃ notes : List Note, rt'.memory.working = rt.memory.working ++ notes.map fun note => (agent_id, note.item)

theorem Notes.of_same {agent_id : String} {rt rt' : Runtime} (h : rt'.memory = rt.memory) : Notes agent_id rt rt' :=
  ⟨[], by rw [h]; exact (List.append_nil _).symm⟩

theorem Notes.trans {agent_id : String} (a b c : Runtime) (hab : Notes agent_id a b) (hbc : Notes agent_id b c) :
    Notes agent_id a c := by
  obtain ⟨notes, hab⟩ := hab
  obtain ⟨notes', hbc⟩ := hbc
  exact ⟨notes ++ notes', by rw [hbc, hab, List.append_assoc, List.map_append]⟩

/-- A write is refused, or it is the last row. -/
theorem append_working_cases (agent_id : String) (item : WorkingItem) (m : Memory) :
    (Memory.append_working agent_id item m).2.working = m.working ∨
      (Memory.append_working agent_id item m).2.working = m.working ++ [(agent_id, item)] := by
  unfold Memory.append_working Memory.attempt_write
  split
  · exact .inl rfl
  · exact .inr rfl

theorem remember_notes (agent_id : String) (note : Note) : Moves (Notes agent_id) (remember agent_id note.item) := by
  intro rt
  rcases append_working_cases agent_id note.item rt.memory with h | h
  · exact ⟨[], h.trans (List.append_nil _).symm⟩
  · exact ⟨[note], h⟩

/-- **A turn adds notes to working memory, and changes nothing else of it.** -/
theorem run_turn_notes (env : TurnEnv) (agent_id : String) (msg : IncomingMessage) :
    Moves (Notes agent_id) (run_turn env agent_id msg) :=
  run_turn_leaves (fun _ _ h _ => Notes.of_same h) Notes.trans (remember_notes agent_id)
    (fun _ _ _ _ => Notes.of_same rfl) env msg

end AgentRuntime

end CompanyFactory
