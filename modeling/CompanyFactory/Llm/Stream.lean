import CompanyFactory.AgentRuntime.Notes
import CompanyFactory.Llm.ToolLoop

/-!
# `Llm.Stream` — what a client yields is a stream

`AgentRuntime.run_turn` is given the stream of the LLM as a list of items. A session with a client makes such a list as it
goes: each text, each stop and each tool-use event is an item, and what the client raises is the last one.

* `Streams.bind` — what two parts yield, one after the other.
* `run_turn_streams` — **a turn with a client is the turn with the stream that it yields**, whatever the provider
  answers, if the inputs of its tools are dictionaries.
* `run_turn_moves` — so what every turn does with a stream, a turn does with a client.
-/

namespace CompanyFactory

namespace Llm

open Act AgentRuntime

variable {μ ρ κ : Type} {α β : Type} {host : Host}

theorem stream_loop_append (env : TurnEnv) (agent_id : String) (msg : IncomingMessage) (items rest : List StreamItem)
    (p : Progress) : stream_loop env agent_id msg (items ++ rest) p =
      stream_loop env agent_id msg items p >>= fun q => stream_loop env agent_id msg rest q := by
  induction items generalizing p with
  | nil => rfl
  | cons item items ih =>
    funext rt
    rw [List.cons_append]
    match item with
    | .raises e => rfl
    | .event (.stop reason) =>
      rw [stream_loop, stream_loop]
      exact congrFun (ih _) rt
    | .event (.text text) =>
      rw [stream_loop, stream_loop]
      exact congrFun (ih _) rt
    | .event (.tool_use use) =>
      rw [stream_loop, stream_loop, Act.bind_run, Act.bind_run, Act.bind_run]
      rcases tool_event env agent_id msg use (p.tool_invocations + 1) rt with ⟨_ | replied, rt'⟩
      · rfl
      · exact congrFun (ih _) rt'

/-- The stream that is opened does not matter to the loop over it. -/
theorem stream_loop_llm (env : TurnEnv) (llm : Nat → String → List WorkingItem → Except Exn (List StreamItem))
    (agent_id : String) (msg : IncomingMessage) (items : List StreamItem) (p : Progress) :
    stream_loop { env with llm } agent_id msg items p = stream_loop env agent_id msg items p := by
  induction items generalizing p with
  | nil => rfl
  | cons item items ih =>
    match item with
    | .raises e => rfl
    | .event (.stop reason) => exact ih _
    | .event (.text text) => exact ih _
    | .event (.tool_use use) =>
      rw [stream_loop, stream_loop]
      refine congrArg (tool_event env agent_id msg use (p.tool_invocations + 1) >>= ·) ?_
      funext replied
      exact ih _

/-! ## What a part of a session yields -/

/-- From every state, the loop over some items does to the turn what the computation does. -/
def Streams (host : Host) (m : Act (Session μ) Exn α) : Prop :=
  ∀ s, ∃ items, stream_loop host.env host.agent_id host.msg items s.progress s.rt =
    ((m s).1.map fun _ => (m s).2.progress, (m s).2.rt)

namespace Streams

/-- A computation that leaves the turn alone yields nothing, or what it raises. -/
theorem of_quiet {m : Act (Session μ) Exn α} (h : ∀ s, (m s).2.progress = s.progress ∧ (m s).2.rt = s.rt) :
    Streams host m := by
  intro s
  obtain ⟨hprogress, hrt⟩ := h s
  rw [hprogress, hrt]
  cases (m s).1 with
  | ok a => exact ⟨[], rfl⟩
  | error e => exact ⟨[.raises e], rfl⟩

theorem pure (a : α) : Streams host (Pure.pure a : Act (Session μ) Exn α) := of_quiet fun _ => ⟨rfl, rfl⟩

theorem ofExcept (r : Except Exn α) : Streams host (Act.ofExcept r : Act (Session μ) Exn α) :=
  of_quiet fun _ => ⟨rfl, rfl⟩

/-- **One part after the other**: their items, one after the other. -/
theorem bind {m : Act (Session μ) Exn α} {f : α → Act (Session μ) Exn β} (hm : Streams host m)
    (hf : ∀ a, Streams host (f a)) : Streams host (m >>= f) := by
  intro s
  obtain ⟨items, hitems⟩ := hm s
  rw [Act.bind_run]
  rcases hrun : m s with ⟨e | a, t⟩
  · rw [hrun] at hitems
    exact ⟨items, hitems⟩
  · rw [hrun] at hitems
    obtain ⟨rest, hrest⟩ := hf a t
    refine ⟨items ++ rest, ?_⟩
    rw [stream_loop_append, Act.bind_of_ok hitems]
    exact hrest

theorem ite {c : Prop} [Decidable c] {m k : Act (Session μ) Exn α} (hm : Streams host m) (hk : Streams host k) :
    Streams host (if c then m else k) := by
  split
  · exact hm
  · exact hk

theorem yield_text (text : String) : Streams host (Llm.yield_text text : Act (Session μ) Exn Unit) :=
  fun _ => ⟨[.event (.text text)], rfl⟩

theorem yield_stop (reason : String) : Streams host (Llm.yield_stop reason : Act (Session μ) Exn Unit) :=
  fun _ => ⟨[.event (.stop reason)], rfl⟩

theorem yield_tool_use {tool_input : Json} {fields : Fields} (hdict : host.dict_of tool_input = .ok fields)
    (tool_use_id tool_name : String) :
    Streams host (host.yield_tool_use tool_use_id tool_name tool_input : Act (Session μ) Exn Unit) := by
  intro s
  refine ⟨[.event (.tool_use { tool_use_id, tool_name, tool_input := fields })], ?_⟩
  rw [stream_loop, Act.bind_run]
  unfold Host.yield_tool_use Host.consume
  rw [hdict]
  dsimp only
  rcases tool_event host.env host.agent_id host.msg { tool_use_id, tool_name, tool_input := fields }
    (s.progress.tool_invocations + 1) s.rt with ⟨_ | replied, rt⟩ <;> rfl

theorem await_future (fut : Nat) : Streams host (host.await_future fut : Act (Session μ) Exn ToolText) := by
  refine of_quiet fun s => ?_
  unfold Host.await_future
  split <;> exact ⟨rfl, rfl⟩

theorem await_all (futures : List (String × Nat)) :
    Streams host (Llm.await_all host futures : Act (Session μ) Exn (List (String × ToolText))) := by
  induction futures with
  | nil => exact pure []
  | cons opened futures ih => exact (await_future opened.2).bind fun _ => ih.bind fun _ => pure _

end Streams

/-! ## The loop -/

/-- The parts of a format that are its own. -/
structure Bridge.Streaming (b : Bridge μ ρ κ) (host : Host) : Prop where
  ask : ∀ messages, Streams host (b.ask messages)
  finish : ∀ resp, Streams host (b.finish resp)
  open_call : ∀ call, Streams host (b.open_call call)

namespace Bridge.Streaming

variable {b : Bridge μ ρ κ} (h : b.Streaming host)

include h

theorem open_all (calls : List κ) : Streams host (Llm.open_all b calls) := by
  induction calls with
  | nil => exact Streams.pure []
  | cons call calls ih => exact (h.open_call call).bind fun _ => ih.bind fun _ => Streams.pure _

/-- **A session is a stream**, by induction on the loops that are left. -/
theorem run (loops : Nat) (messages : List μ) : Streams host (b.run host loops messages) := by
  induction loops generalizing messages with
  | zero => exact Streams.yield_stop "tool_loop_cap"
  | succ loops ih =>
    refine (h.ask messages).bind fun resp => (Streams.ofExcept _).bind fun calls => ?_
    refine Streams.ite (h.finish resp) ?_
    exact (h.open_all calls).bind fun futures => (Streams.await_all futures).bind fun results => ih _

end Bridge.Streaming

/-- Every value is made a dictionary. -/
def Host.Dicts (host : Host) : Prop := ∀ value, ∃ fields, host.dict value = .ok fields

theorem Host.Dicts.dict_of (h : host.Dicts) (value : Json) : ∃ fields, host.dict_of value = .ok fields := by
  cases value with
  | obj fields => exact ⟨fields, rfl⟩
  | null => exact h .null
  | bool b => exact h (.bool b)
  | num q => exact h (.num q)
  | str s => exact h (.str s)
  | arr xs => exact h (.arr xs)

section Clients

variable {τ : Type} [LinearOrder τ] [Zero τ]

theorem ChatClient.streaming (client : ChatClient τ) (hdicts : host.Dicts) : (client.bridge host).Streaming host where
  ask := by
    refine fun messages => Streams.of_quiet fun s => ?_
    show (client.ask host messages s).2.progress = _ ∧ (client.ask host messages s).2.rt = _
    unfold ChatClient.ask
    dsimp only
    split <;> exact ⟨rfl, rfl⟩
  finish := by
    intro resp
    show Streams host (ChatClient.finish resp)
    unfold ChatClient.finish
    split
    · exact Streams.pure ()
    · exact Streams.ite (Streams.yield_stop _) ((Streams.yield_text _).bind fun _ => Streams.yield_stop _)
  open_call := by
    intro call
    refine (Streams.ofExcept _).bind fun args => (Streams.of_quiet fun _ => ⟨rfl, rfl⟩).bind fun fut => ?_
    obtain ⟨fields, hfields⟩ := hdicts.dict_of args
    exact (Streams.yield_tool_use hfields _ _).bind fun _ => Streams.pure _

theorem BlockClient.yield_texts_streams (content : List Block) : Streams host (BlockClient.yield_texts content) := by
  induction content with
  | nil => exact Streams.pure ()
  | cons block content ih =>
    cases block with
    | text text => exact Streams.ite ih ((Streams.yield_text text).bind fun _ => ih)
    | tool_use id name input => exact ih
    | tool_result id content is_error => exact ih
    | other kind => exact ih

theorem BlockClient.streaming (client : BlockClient) : (client.bridge host).Streaming host where
  ask := by
    refine fun messages => Streams.of_quiet fun s => ?_
    show (client.ask host messages s).2.progress = _ ∧ (client.ask host messages s).2.rt = _
    unfold BlockClient.ask
    dsimp only
    split <;> exact ⟨rfl, rfl⟩
  finish := fun resp => (BlockClient.yield_texts_streams resp.content).bind fun _ => Streams.yield_stop _
  open_call := by
    intro call
    refine (Streams.of_quiet fun _ => ⟨rfl, rfl⟩).bind fun fut => (Streams.ofExcept _).bind fun input => ?_
    exact (Streams.yield_tool_use rfl _ _).bind fun _ => Streams.pure _

end Clients

/-! ## The turn -/

/-- The collaborators of the turn, with an LLM that answers with these items. -/
def Host.with_stream (host : Host) (items : List StreamItem) : TurnEnv :=
  { host.env with llm := fun _ _ _ => .ok items }

theorem open_stream_bind (host : Host) (items : List StreamItem) (system : String) (history : List WorkingItem)
    (f : List StreamItem → Act Runtime Exn α) :
    open_stream (host.with_stream items) system history >>= f = open_client host >>= fun _ => f items := by
  unfold open_stream open_client Host.with_stream
  dsimp only
  cases host.env.opening_times_out <;> rfl

theorem stream_loop_with (host : Host) (stream items : List StreamItem) (p : Progress) :
    stream_loop (host.with_stream stream) host.agent_id host.msg items p =
      stream_loop host.env host.agent_id host.msg items p :=
  stream_loop_llm host.env _ host.agent_id host.msg items p

/-- The handlers around the stream see how it ended, and the turn as it left it. -/
theorem guard_stream_eq {m : Act Runtime Exn α} {ended : Except Exn β} {f : β → α} {rt rt' : Runtime}
    (h : m rt = (ended.map f, rt')) : guard_stream m rt =
      ((guard_stream (Act.ofExcept ended) rt').1.map f, (guard_stream (Act.ofExcept ended) rt').2) := by
  unfold guard_stream
  rw [Act.attempt_bind, Act.attempt_bind, h]
  cases ended with
  | ok b => rfl
  | error e => cases e <;> rfl

/-- The turn with the stream does what the turn with the client does. -/
def Agrees (m : Act Runtime Exn α) (k : Act (Session μ) Exn α) (s : Session μ) : Prop :=
  m s.rt = ((k s).1, (k s).2.rt)

/-- What both do. -/
theorem Agrees.after {body : Act Runtime Exn α} {m : α → Act Runtime Exn β} {k : α → Act (Session μ) Exn β}
    {s : Session μ} (h : ∀ a rt, body s.rt = (.ok a, rt) → Agrees (m a) (k a) { s with rt }) :
    Agrees (body >>= m) (on_runtime body >>= k) s := by
  unfold Agrees
  rw [Act.bind_run, Act.bind_run, on_runtime, Act.on_run]
  rcases hrun : body s.rt with ⟨e | a, rt⟩
  · rfl
  · exact h a rt hrun

/-- What precedes the stream is the same whatever the stream is. -/
theorem exists_after {body : Act Runtime Exn α} {m : List StreamItem → α → Act Runtime Exn β}
    {k : α → Act (Session μ) Exn β} (h : ∀ a t, ∃ items, Agrees (m items a) (k a) t) (s : Session μ) :
    ∃ items, Agrees (body >>= m items) (on_runtime body >>= k) s := by
  rcases hrun : body s.rt with ⟨e | a, rt⟩
  · exact ⟨[], Agrees.after fun a rt' hok => by rw [hrun] at hok; cases hok⟩
  · obtain ⟨items, hitems⟩ := h a { s with rt }
    refine ⟨items, Agrees.after fun a' rt' hok => ?_⟩
    rw [hrun] at hok
    cases hok
    exact hitems

theorem exists_ofExcept (r : Except Exn α) {m : List StreamItem → α → Act Runtime Exn β}
    {k : α → Act (Session μ) Exn β} (h : ∀ a t, ∃ items, Agrees (m items a) (k a) t) (s : Session μ) :
    ∃ items, Agrees (Act.ofExcept r >>= m items) (Act.ofExcept r >>= k) s := by
  cases r with
  | error e => exact ⟨[], rfl⟩
  | ok a => exact h a s

/-- The stream and what follows it. -/
theorem Agrees.streamed {body : Act Runtime Exn Progress} {stream : Act (Session μ) Exn Unit} {s : Session μ}
    (h : body s.rt = ((stream s).1.map fun _ => (stream s).2.progress, (stream s).2.rt))
    (next : Progress → Act Runtime Exn β) :
    Agrees (guard_stream body >>= next) (do
        let ended ← Act.attempt stream
        on_runtime (guard_stream (Act.ofExcept ended))
        let progress ← Act.read Session.progress
        on_runtime (next progress)) s := by
  unfold Agrees
  rw [Act.attempt_bind, Act.bind_run, guard_stream_eq h]
  rcases stream s with ⟨ended, t⟩
  rw [Act.bind_run, on_runtime, Act.on_run]
  rcases guard_stream (Act.ofExcept ended) t.rt with ⟨_ | _, rt⟩ <;> rfl

/-- The turn with a list of items, in terms of the host. -/
theorem run_turn_with (host : Host) (items : List StreamItem) :
    AgentRuntime.run_turn (host.with_stream items) host.agent_id host.msg = (do
      remember host.agent_id (user_item host.msg host.env.now)
      append (delivered_post host.agent_id host.msg host.env.now)
      let _ ← Act.ofExcept host.env.recall
      let _ ← Act.ofExcept host.env.persona
      open_client host
      let progress ← guard_stream (stream_loop host.env host.agent_id host.msg items {})
      finish_turn host.env host.agent_id host.msg progress) := by
  unfold AgentRuntime.run_turn
  simp only [open_stream_bind, stream_loop_with]
  rfl

/-- **A turn with a client is a turn with a stream.** -/
theorem run_turn_streams {stream : String → List WorkingItem → Act (Session μ) Exn Unit}
    (hstream : ∀ system history, Streams host (stream system history)) (s : Session μ) :
    ∃ items, Agrees (AgentRuntime.run_turn (host.with_stream items) host.agent_id host.msg)
      (Llm.run_turn host stream) s := by
  simp only [run_turn_with]
  unfold Llm.run_turn
  refine exists_after (fun _ => exists_after fun _ => exists_ofExcept _ fun hits =>
    exists_ofExcept _ fun persona t => ?_) s
  -- the session starts from the state in which the client was opened
  refine exists_after (fun _ u => ?_) t
  obtain ⟨items, hitems⟩ := hstream (persona ++ "\n\n" ++ format_recall hits)
    (t.rt.memory.working_window host.agent_id 20) { u with progress := {} }
  exact ⟨items, Agrees.streamed hitems _⟩

/-- What every turn does with a stream, a turn does with a client. -/
theorem run_turn_moves {R : Runtime → Runtime → Prop}
    (hR : ∀ env, Moves R (AgentRuntime.run_turn env host.agent_id host.msg))
    {stream : String → List WorkingItem → Act (Session μ) Exn Unit}
    (hstream : ∀ system history, Streams host (stream system history)) :
    Moves (fun s t : Session μ => R s.rt t.rt) (Llm.run_turn host stream) := by
  intro s
  obtain ⟨items, hitems⟩ := run_turn_streams hstream s
  have hmoved := hR (host.with_stream items) s.rt
  rw [hitems] at hmoved
  exact hmoved

section Clients

variable {τ : Type} [LinearOrder τ] [Zero τ]

/-- **A turn with a client adds notes to working memory**, and changes nothing else of it. -/
theorem ChatClient.run_turn_notes (client : ChatClient τ) (hdicts : host.Dicts) :
    Moves (fun s t => Notes host.agent_id s.rt t.rt) (Llm.run_turn host (client.run host)) :=
  run_turn_moves (fun env => AgentRuntime.run_turn_notes env host.agent_id host.msg)
    fun _ _ => (client.streaming hdicts).run _ _

theorem BlockClient.run_turn_notes (client : BlockClient) :
    Moves (fun s t => Notes host.agent_id s.rt t.rt) (Llm.run_turn host (client.run host)) :=
  run_turn_moves (fun env => AgentRuntime.run_turn_notes env host.agent_id host.msg)
    fun _ _ => client.streaming.run _ _

end Clients

end Llm

end CompanyFactory
