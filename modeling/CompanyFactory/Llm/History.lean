import CompanyFactory.AgentRuntime.Loop
import CompanyFactory.AgentRuntime.Notes
import CompanyFactory.Llm.Messages
import Mathlib.Data.List.Forall2

/-!
# `Llm.History` — who said what in the history that is sent

Both conversions know the role of an assistant, and keep it. **`run_turn` never writes it**: the agent's own output has the
role of the agent, which both conversions turn into the user's.

* `window_notes` — a window of working memory is a list of notes, in the order in which they were written.
* `authors_iff` — the authors are kept exactly when the window has nothing that the agent said itself.
-/

namespace CompanyFactory

namespace Llm

open AgentRuntime

/-- The memories after a sequence of turns of any agents, and after the first write of a further turn. -/
inductive Turns : Memory → Prop where
  | start {m : Memory} : m.working = [] → Turns m
  | asked {m : Memory} (agent_id : String) (msg : IncomingMessage) (now : Time) :
      Turns m → Turns (Memory.append_working agent_id (user_item msg now) m).2
  | turn {rt : Runtime} (env : TurnEnv) (agent_id : String) (msg : IncomingMessage) :
      Turns rt.memory → Turns (AgentRuntime.run_turn env agent_id msg rt).2.memory

/-- Working memory is what turns wrote, in order: a note of an agent for each row. -/
theorem Turns.notes {m : Memory} (h : Turns m) :
    ∃ rows : List (String × Note), m.working = rows.map fun row => (row.1, row.2.item) := by
  induction h with
  | start hempty => exact ⟨[], hempty⟩
  | asked agent_id msg now _ ih =>
    obtain ⟨rows, hrows⟩ := ih
    rcases append_working_cases agent_id (user_item msg now) _ with h | h
    · exact ⟨rows, h.trans hrows⟩
    · exact ⟨rows ++ [(agent_id, .incoming msg now)], by rw [h, hrows, List.map_append]; rfl⟩
  | turn env agent_id msg _ ih =>
    obtain ⟨rows, hrows⟩ := ih
    obtain ⟨notes, hnotes⟩ := run_turn_notes env agent_id msg _
    refine ⟨rows ++ notes.map fun note => (agent_id, note), ?_⟩
    rw [hnotes, hrows, List.map_append, List.map_map]
    rfl

/-- The last notes of an agent. -/
def last_notes (rows : List (String × Note)) (agent_id : String) (n : Nat) : List Note :=
  let notes := (rows.filter fun row => row.1 = agent_id).map Prod.snd
  notes.drop (notes.length - n)

/-- What is read for an agent is what was written for it last. -/
theorem window_notes {m : Memory} {rows : List (String × Note)}
    (hrows : m.working = rows.map fun row => (row.1, row.2.item)) (agent_id : String) (n : Nat) :
    m.working_window agent_id n = (last_notes rows agent_id n).map Note.item := by
  simp only [Memory.working_window, last_notes, hrows, List.filter_map, List.map_drop, List.map_map, List.length_map]
  rfl

/-- Messages keep the authors of the notes: one message for each, in order, and an assistant's exactly for the agent's own
output. -/
def Authored {μ : Type} (plain : String → String → μ) (messages : List μ) (notes : List Note) : Prop :=
  List.Forall₂ (fun message note => ∃ role, message = plain role note.item.content ∧
    (role = "assistant" ↔ note.is_own = true)) messages notes

/-- A conversion item by item that gives no note the role of an assistant. -/
theorem authored_iff {μ : Type} {plain : String → String → μ}
    (hplain : ∀ role role' content content', plain role content = plain role' content' → role = role')
    {role : String → String} (hrole : ∀ note : Note, role note.item.role ≠ "assistant") (notes : List Note) :
    Authored plain (notes.map fun note => plain (role note.item.role) note.item.content) notes ↔
      ∀ note ∈ notes, note.is_own = false := by
  induction notes with
  | nil => exact iff_of_true .nil nofun
  | cons note notes ih =>
    constructor
    · intro h
      cases h with
      | cons hfirst hrest =>
        obtain ⟨role', heq, hown⟩ := hfirst
        obtain rfl := hplain _ _ _ _ heq
        rw [List.forall_mem_cons]
        refine ⟨?_, ih.mp hrest⟩
        rw [Bool.eq_false_iff]
        exact fun howned => hrole note (hown.mpr howned)
    · intro h
      rw [List.forall_mem_cons] at h
      refine .cons ⟨_, rfl, ?_⟩ (ih.mpr h.2)
      rw [h.1]
      exact iff_of_false (hrole note) Bool.false_ne_true

theorem chat_role_ne (note : Note) : chat_role note.item.role ≠ "assistant" := by
  have hne := note.role_ne_assistant
  unfold chat_role
  split
  · exact hne
  · decide

theorem block_role_ne (note : Note) : block_role note.item.role ≠ "assistant" := by
  unfold block_role
  rw [if_neg note.role_ne_assistant]
  decide

/-- **The authors are kept exactly when the agent itself has said nothing in the window.** -/
theorem authors_iff {m : Memory} (h : Turns m) (agent_id : String) (n : Nat) :
    ∃ notes : List Note, m.working_window agent_id n = notes.map Note.item ∧
      (Authored ChatMessage.plain (to_openai_history (m.working_window agent_id n)) notes ∧
        Authored BlockMessage.plain (to_messages (m.working_window agent_id n)) notes ↔
          ∀ note ∈ notes, note.is_own = false) := by
  obtain ⟨rows, hrows⟩ := h.notes
  have hwindow := window_notes hrows agent_id n
  refine ⟨last_notes rows agent_id n, hwindow, ?_⟩
  have hchat : Authored ChatMessage.plain _ (last_notes rows agent_id n) ↔ _ :=
    authored_iff (fun _ _ _ _ heq => (ChatMessage.plain.inj heq).1) chat_role_ne _
  have hblock : Authored BlockMessage.plain _ (last_notes rows agent_id n) ↔ _ :=
    authored_iff (fun _ _ _ _ heq => (BlockMessage.plain.inj heq).1) block_role_ne _
  rw [hwindow, to_openai_history, to_messages, List.map_map, List.map_map]
  exact ⟨fun hboth => hchat.mp hboth.1, fun hown => ⟨hchat.mpr hown, hblock.mpr hown⟩⟩

/-- The memory of an agent that has answered one message. -/
def answered : Memory :=
  (AgentRuntime.run_turn AgentTask.calm_env "eng-1" (AgentTask.request "first") AgentTask.hired).2.memory

theorem answered_turns : Turns answered := .turn _ _ _ (.start rfl)

theorem authors_iff_answered :
    ∃ notes : List Note, answered.working_window "eng-1" 20 = notes.map Note.item ∧
      (Authored ChatMessage.plain (to_openai_history (answered.working_window "eng-1" 20)) notes ∧
        Authored BlockMessage.plain (to_messages (answered.working_window "eng-1" 20)) notes ↔
          ∀ note ∈ notes, note.is_own = false) :=
  authors_iff answered_turns "eng-1" 20

/-- The agent has answered, and its answer is sent as the user's. -/
theorem own_answer_is_the_users :
    Turns answered ∧
    answered.working_window "eng-1" 20 =
      [.incoming (AgentTask.request "first") 0, .own "done" 0].map Note.item ∧
    ¬ Authored ChatMessage.plain (to_openai_history (answered.working_window "eng-1" 20))
        [.incoming (AgentTask.request "first") 0, .own "done" 0] ∧
    ¬ Authored BlockMessage.plain (to_messages (answered.working_window "eng-1" 20))
        [.incoming (AgentTask.request "first") 0, .own "done" 0] := by
  refine ⟨answered_turns, rfl, ?_, ?_⟩
  · intro h
    have hall : ∀ note ∈ [Note.incoming (AgentTask.request "first") 0, .own "done" 0], note.is_own = false :=
      (authored_iff (fun _ _ _ _ heq => (ChatMessage.plain.inj heq).1) chat_role_ne _).mp h
    cases hall (.own "done" 0) (by simp)
  · intro h
    have hall : ∀ note ∈ [Note.incoming (AgentTask.request "first") 0, .own "done" 0], note.is_own = false :=
      (authored_iff (fun _ _ _ _ heq => (BlockMessage.plain.inj heq).1) block_role_ne _).mp h
    cases hall (.own "done" 0) (by simp)

end Llm

end CompanyFactory
