import CompanyFactory.AgentRuntime.Notes
import CompanyFactory.Llm.ToolLoop
import Mathlib.Data.List.TakeWhile

/-!
# `Llm.Transcript` — calls, results and the messages that are sent back

The generator and its consumer keep in step: the body of the consumer submits once for each tool-use event, before the
next one is yielded (`consume_submits`), so each future is resolved when it is awaited, and a round adds to the messages
one assistant message and the results of its calls (`round_kept`).

* `transcript_kept` — in a turn of either client, every request is well formed, whatever the tools do, and each event has
  one result.
-/

namespace CompanyFactory

namespace Llm

open Act AgentRuntime

variable {μ ρ κ α β : Type}

/-! ## Well-formed messages -/

/-- How the messages of a format are read. -/
structure Reads (μ : Type) where
  is_assistant : μ → Bool
  /-- the ids of the tool calls of an assistant message -/
  call_ids : μ → List String
  /-- the tool results of a message: the id, and the content -/
  results : μ → List (String × String)

namespace Reads

variable (reads : Reads μ)

/-- The tool results before the next assistant message. -/
def next_results (messages : List μ) : List (String × String) :=
  (messages.takeWhile fun m => !reads.is_assistant m).flatMap reads.results

/-- Each assistant message with tool calls is followed by one result for each call, in the order of the calls, before the
next assistant message. -/
def Answered : List μ → Prop
  | [] => True
  | m :: rest => (reads.call_ids m ≠ [] → (reads.next_results rest).map Prod.fst = reads.call_ids m) ∧ Answered rest

variable {reads}

theorem answered_of_no_calls {messages : List μ} (h : ∀ m ∈ messages, reads.call_ids m = []) :
    reads.Answered messages := by
  induction messages with
  | nil => trivial
  | cons m rest ih =>
    refine ⟨fun hne => absurd (h m (List.mem_cons_self ..)) hne, ih fun m' hm' => h m' (List.mem_cons_of_mem _ hm')⟩

theorem next_results_append {m : μ} (hm : reads.is_assistant m = true) (messages rest : List μ) :
    reads.next_results (messages ++ m :: rest) = reads.next_results messages := by
  induction messages with
  | nil => simp [next_results, hm]
  | cons m' messages ih =>
    by_cases h' : reads.is_assistant m' = true
    · simp [next_results, h']
    · simpa [next_results, h'] using ih

/-- A further assistant message does not change what follows the messages before it. -/
theorem answered_append {m : μ} (hm : reads.is_assistant m = true) {messages rest : List μ}
    (hmessages : reads.Answered messages) (hrest : reads.Answered (m :: rest)) :
    reads.Answered (messages ++ m :: rest) := by
  induction messages with
  | nil => exact hrest
  | cons m' messages ih =>
    refine ⟨?_, ih hmessages.2⟩
    show _ → (reads.next_results (messages ++ m :: rest)).map Prod.fst = _
    rw [next_results_append hm]
    exact hmessages.1

end Reads

/-! ## One submission -/

/-- What has been submitted is left as it is. -/
def Unsaid (m : Act Runtime Exn α) : Prop := Moves (fun rt rt' => rt'.submitted = rt.submitted) m

namespace Unsaid

theorem pure (a : α) : Unsaid (pure a) := fun _ => rfl

theorem raise (e : Exn) : Unsaid (α := α) (Act.raise e) := fun _ => rfl

theorem bind {m : Act Runtime Exn α} {f : α → Act Runtime Exn β} (hm : Unsaid m) (hf : ∀ a, Unsaid (f a)) :
    Unsaid (m >>= f) := Moves.bind (fun _ _ _ hab hbc => hbc.trans hab) hm hf

theorem remember (agent_id : String) (item : WorkingItem) : Unsaid (AgentRuntime.remember agent_id item) :=
  fun _ => rfl

theorem append (post : Post) : Unsaid (AgentRuntime.append post) := fun _ => rfl

theorem record_error : Unsaid AgentRuntime.record_error := fun _ => rfl

end Unsaid

/-- Something is submitted at most once, under the id, and just once by a computation that returns. -/
def Submits (id : String) (m : Act Runtime Exn α) : Prop :=
  ∀ rt, ∃ subs, (m rt).2.submitted = rt.submitted ++ subs ∧
    ∀ a, (m rt).1 = .ok a → ∃ sub : Submission, subs = [sub] ∧ sub.tool_use_id = id

namespace Submits

variable {id : String} {m : Act Runtime Exn α} {f : α → Act Runtime Exn β}

theorem raise (e : Exn) : Submits (α := α) id (Act.raise e) := by
  intro rt
  refine ⟨[], (List.append_nil _).symm, ?_⟩
  intro a ha
  cases ha

theorem submit (env : TurnEnv) (index : Nat) {submission : Submission} (hid : submission.tool_use_id = id) :
    Submits id (AgentRuntime.submit env index submission) :=
  fun _ => ⟨[submission], rfl, fun _ _ => ⟨submission, rfl, hid⟩⟩

/-- First what says nothing. -/
theorem after (hm : Unsaid m) (hf : ∀ a, Submits id (f a)) : Submits id (m >>= f) := by
  intro rt
  have hfirst := hm rt
  rw [bind_run]
  rcases hrun : m rt with ⟨e | a, rt'⟩
  · rw [hrun] at hfirst
    refine ⟨[], hfirst.trans (List.append_nil _).symm, ?_⟩
    intro b hb
    cases hb
  · rw [hrun] at hfirst
    obtain ⟨subs, hsubs, hok⟩ := hf a rt'
    exact ⟨subs, by rw [← hfirst]; exact hsubs, hok⟩

/-- Then what says nothing. -/
theorem before (hm : Submits id m) (hf : ∀ a, Unsaid (f a)) : Submits id (m >>= f) := by
  intro rt
  obtain ⟨subs, hsubs, hok⟩ := hm rt
  rw [bind_run]
  rcases hrun : m rt with ⟨e | a, rt'⟩
  · rw [hrun] at hsubs
    refine ⟨subs, hsubs, ?_⟩
    intro b hb
    cases hb
  · rw [hrun] at hsubs hok
    exact ⟨subs, (hf a rt').trans hsubs, fun _ _ => hok a rfl⟩

end Submits

theorem tool_event_submits (env : TurnEnv) (agent_id : String) (msg : IncomingMessage) (use : ToolUse) (index : Nat) :
    Submits use.tool_use_id (tool_event env agent_id msg use index) := by
  apply Submits.after (fun _ => rfl)
  intro invoked
  cases invoked with
  | error e =>
    show Submits _ (if e.isException then _ else _)
    split
    · apply Submits.after Unsaid.record_error
      intro _
      exact Submits.before (Submits.submit env index rfl) fun _ => Unsaid.pure false
    · exact Submits.raise e
  | ok result =>
    apply Submits.before (Submits.submit env index rfl)
    intro _
    apply Unsaid.bind (Unsaid.remember _ _)
    intro _
    cases rejection_reason use.tool_name result with
    | none => exact Unsaid.pure _
    | some reason =>
      show Unsaid (if reason = "" then _ else _)
      split
      · exact Unsaid.pure _
      · exact Unsaid.bind (Unsaid.remember _ _) fun _ => Unsaid.pure _

/-- **The body of the consumer submits once for each tool-use event**, whether the tool succeeds, fails or is denied. -/
theorem consume_submits (host : Host) (id name : String) (tool_input : Json) (index : Nat) :
    Submits id (host.consume id name tool_input index) := by
  unfold Host.consume
  split
  · exact tool_event_submits _ _ _ _ _
  · next e he =>
    split
    · apply Submits.after Unsaid.record_error
      intro _
      exact Submits.before (Submits.submit _ _ rfl) fun _ => Unsaid.pure false
    · exact Submits.raise e

/-! ## One call -/

/-- The future of a submission, once it is resolved. -/
def Host.text_of (host : Host) (submission : Submission) : ToolText :=
  { ok := submission.ok, content := host.dumps submission.output }

/-- What is added to a session by submissions and events: the requests are as they were. -/
structure Grew (s t : Session μ) (subs : List Submission) (ids : List String) : Prop where
  sent : t.sent = s.sent
  submitted : t.rt.submitted = s.rt.submitted ++ subs
  yielded : t.yielded = s.yielded ++ ids
  keeps : s.futures.Keeps t.futures

theorem Grew.refl (s : Session μ) : Grew s s [] [] :=
  ⟨rfl, (List.append_nil _).symm, (List.append_nil _).symm, Futures.Keeps.refl⟩

theorem Grew.progress (s : Session μ) (progress : Progress) : Grew s { s with progress } [] [] :=
  ⟨rfl, (List.append_nil _).symm, (List.append_nil _).symm, Futures.Keeps.refl⟩

theorem Grew.trans {s t u : Session μ} {subs subs' : List Submission} {ids ids' : List String}
    (h : Grew s t subs ids) (h' : Grew t u subs' ids') : Grew s u (subs ++ subs') (ids ++ ids') where
  sent := h'.sent.trans h.sent
  submitted := by rw [h'.submitted, h.submitted, List.append_assoc]
  yielded := by rw [h'.yielded, h.yielded, List.append_assoc]
  keeps := h.keeps.trans h'.keeps

theorem foldl_submit_keeps (host : Host) (subs : List Submission) (futures : Futures String ToolText) :
    futures.Keeps (subs.foldl host.submit_tool_result futures) := by
  induction subs generalizing futures with
  | nil => exact Futures.Keeps.refl
  | cons sub subs ih => exact (Futures.submit_keeps _ _ _).trans (ih _)

/-- An event leaves the requests as they are; if the body of the consumer returns, its one submission is handed over. -/
theorem yield_tool_use_grew (host : Host) (id name : String) (tool_input : Json) (s : Session μ) :
    ∃ subs, Grew s (host.yield_tool_use id name tool_input s).2 subs [id] ∧
      ∀ u, (host.yield_tool_use id name tool_input s).1 = .ok u → ∃ sub : Submission, subs = [sub] ∧
        sub.tool_use_id = id ∧
        (host.yield_tool_use id name tool_input s).2.futures = s.futures.submit id (host.text_of sub) := by
  obtain ⟨subs, hsubs, hok⟩ := consume_submits host id name tool_input (s.progress.tool_invocations + 1) s.rt
  have hdrop : (host.consume id name tool_input (s.progress.tool_invocations + 1) s.rt).2.submitted.drop
      s.rt.submitted.length = subs := by
    rw [hsubs, List.drop_left]
  have hkeeps := foldl_submit_keeps host subs s.futures
  refine ⟨subs, ?_, ?_⟩
  · unfold Host.yield_tool_use
    simp only [hdrop]
    split
    · exact ⟨rfl, hsubs, rfl, hkeeps⟩
    · exact ⟨rfl, hsubs, rfl, hkeeps⟩
  · intro u hu
    unfold Host.yield_tool_use at hu ⊢
    simp only [hdrop] at hu ⊢
    split at hu
    · next replied hr =>
      obtain ⟨sub, rfl, hid⟩ := hok replied hr
      refine ⟨sub, rfl, hid, ?_⟩
      simp only [List.foldl_cons, List.foldl_nil, Host.submit_tool_result, hid]
      rfl
    · cases hu

theorem create_future_grew (id : String) (s : Session μ) : Grew s (create_future id s).2 [] [] :=
  ⟨rfl, (List.append_nil _).symm, (List.append_nil _).symm, Futures.register_keeps _ _⟩

/-- A future and its event, with what may raise between the two. -/
def opening (host : Host) (id name : String) (between : Except Exn Json) : Act (Session μ) Exn (String × Nat) := do
  let fut ← create_future id
  let tool_input ← Act.ofExcept between
  host.yield_tool_use id name tool_input
  pure (id, fut)

theorem opening_run (host : Host) (id name : String) (tool_input : Json) (s : Session μ) :
    opening host id name (.ok tool_input) s =
      match host.yield_tool_use id name tool_input (create_future id s).2 with
      | (.ok _, t) => (.ok (id, (s.futures.register id).1), t)
      | (.error e, t) => (.error e, t) := by
  show (do
    let _ ← host.yield_tool_use id name tool_input
    pure (id, (s.futures.register id).1) : Act (Session μ) Exn (String × Nat)) (create_future id s).2 = _
  rw [bind_run]
  rcases host.yield_tool_use id name tool_input (create_future id s).2 with ⟨e | u, t⟩
  · rfl
  · rfl

/-- What opening a call does: it yields the event, and has the result when it goes on. -/
def Opens (host : Host) (id : String) (m : Act (Session μ) Exn (String × Nat)) : Prop :=
  ∀ s, ∃ subs ids, Grew s (m s).2 subs ids ∧ ∀ opened, (m s).1 = .ok opened → ∃ sub : Submission,
    subs = [sub] ∧ ids = [id] ∧ sub.tool_use_id = id ∧ opened.1 = id ∧
      (m s).2.futures.cells[opened.2]? = some (.done (host.text_of sub))

theorem opening_opens (host : Host) (id name : String) (between : Except Exn Json) :
    Opens (μ := μ) host id (opening host id name between) := by
  intro s
  have hmade := create_future_grew id s
  cases between with
  | error e =>
    refine ⟨[], [], hmade, ?_⟩
    intro opened ho
    cases ho
  | ok tool_input =>
    obtain ⟨subs, hgrew, hok⟩ := yield_tool_use_grew host id name tool_input (create_future id s).2
    rw [opening_run]
    rcases hrun : host.yield_tool_use id name tool_input (create_future id s).2 with ⟨e | u, t⟩
    · rw [hrun] at hgrew
      refine ⟨subs, [id], hmade.trans hgrew, ?_⟩
      intro opened ho
      cases ho
    · rw [hrun] at hgrew hok
      refine ⟨subs, [id], hmade.trans hgrew, ?_⟩
      intro opened ho
      cases ho
      obtain ⟨sub, hsubs, hid, hfut⟩ := hok u rfl
      refine ⟨sub, hsubs, rfl, hid, rfl, ?_⟩
      show t.futures.cells[_]? = _
      rw [hfut]
      exact Futures.register_submit _ _ _

/-- What may raise before the future is made. -/
theorem Opens.after (host : Host) (id : String) {r : Except Exn α} {f : α → Act (Session μ) Exn (String × Nat)}
    (hf : ∀ a, Opens host id (f a)) : Opens host id (Act.ofExcept r >>= f) := by
  intro s
  cases r with
  | error e =>
    refine ⟨[], [], Grew.refl s, ?_⟩
    intro opened ho
    cases ho
  | ok a => exact hf a s

/-! ## One round -/

/-- The laws of a format: what its messages say, and what its parts do to a session. -/
structure Bridge.Lawful (reads : Reads μ) (host : Host) (id_of : κ → String) (b : Bridge μ ρ κ) : Prop where
  /-- every attempt of a request sends the messages, and nothing else happens -/
  ask : ∀ messages s, ∃ n, (b.ask messages s).2 = { s with sent := s.sent ++ List.replicate n messages }
  finish : ∀ resp s, Grew s (b.finish resp s).2 [] []
  open_call : ∀ call, Opens host (id_of call) (b.open_call call)
  is_assistant : ∀ resp, reads.is_assistant (b.assistant resp) = true
  assistant_ids : ∀ resp calls, b.calls resp = .ok calls → reads.call_ids (b.assistant resp) = calls.map id_of
  assistant_results : ∀ resp, reads.results (b.assistant resp) = []
  not_assistant : ∀ results, ∀ m ∈ b.tool_results results, reads.is_assistant m = false
  no_calls : ∀ results, ∀ m ∈ b.tool_results results, reads.call_ids m = []
  results_read : ∀ results, (b.tool_results results).flatMap reads.results =
    results.map fun result => (result.1, result.2.content)

/-- A submission, as a provider reads it. -/
def Host.entry (host : Host) (submission : Submission) : String × String :=
  (submission.tool_use_id, host.dumps submission.output)

section Round

variable {reads : Reads μ} {host : Host} {id_of : κ → String} {b : Bridge μ ρ κ}

/-- Each opened future holds what was submitted for its call. -/
theorem open_all_grew (hb : b.Lawful reads host id_of) (calls : List κ) (s : Session μ) :
    ∃ subs ids, Grew s (open_all b calls s).2 subs ids ∧ ∀ futures, (open_all b calls s).1 = .ok futures →
      ids = calls.map id_of ∧ subs.map Submission.tool_use_id = ids ∧
        List.Forall₂ (fun opened sub => opened.1 = sub.tool_use_id ∧
          (open_all b calls s).2.futures.cells[opened.2]? = some (.done (host.text_of sub))) futures subs := by
  induction calls generalizing s with
  | nil =>
    refine ⟨[], [], Grew.refl s, ?_⟩
    intro futures hf
    cases hf
    exact ⟨rfl, rfl, .nil⟩
  | cons call calls ih =>
    obtain ⟨subs, ids, hgrew, hok⟩ := hb.open_call call s
    simp only [open_all, bind_run]
    rcases hrun : b.open_call call s with ⟨e | opened, t⟩
    · rw [hrun] at hgrew
      refine ⟨subs, ids, hgrew, ?_⟩
      intro futures hf
      cases hf
    · rw [hrun] at hgrew hok
      obtain ⟨sub, rfl, rfl, hid, hopened, hcell⟩ := hok opened rfl
      obtain ⟨subs', ids', hgrew', hok'⟩ := ih t
      simp only
      rcases hrun' : open_all b calls t with ⟨e | futures, u⟩
      · rw [hrun'] at hgrew'
        refine ⟨_, _, hgrew.trans hgrew', ?_⟩
        intro futures hf
        cases hf
      · rw [hrun'] at hgrew' hok'
        obtain ⟨hids, hsubs, hall⟩ := hok' futures rfl
        refine ⟨_, _, hgrew.trans hgrew', ?_⟩
        intro futures' hf
        cases hf
        refine ⟨by simp [hids], by simp [hid, hsubs], .cons ⟨hopened.trans hid.symm, ?_⟩ hall⟩
        exact hgrew'.keeps _ _ hcell

/-- Futures that are resolved are awaited without a wait. -/
theorem await_all_run {futures : List (String × Nat)} {subs : List Submission} {s : Session μ}
    (h : List.Forall₂ (fun opened sub => opened.1 = sub.tool_use_id ∧
      s.futures.cells[opened.2]? = some (.done (host.text_of sub))) futures subs) :
    await_all host futures s = (.ok (subs.map fun sub => (sub.tool_use_id, host.text_of sub)), s) := by
  induction h with
  | nil => rfl
  | @cons opened sub futures subs hfirst _ ih =>
    obtain ⟨id, fut⟩ := opened
    obtain ⟨rfl, hcell⟩ := hfirst
    have hawait : host.await_future fut s = (.ok (host.text_of sub), s) := by
      simp only [Host.await_future]
      rw [hcell]
    rw [await_all, bind_of_ok hawait, bind_of_ok ih]
    rfl

/-- The messages of a round whose results are those that were submitted: one assistant message, and its results. -/
theorem round_kept (hb : b.Lawful reads host id_of) {resp : ρ} {calls : List κ} (hcalls : b.calls resp = .ok calls)
    {messages : List μ} (hmessages : reads.Answered messages) {subs : List Submission}
    (hsubs : subs.map Submission.tool_use_id = calls.map id_of) :
    reads.Answered (messages ++ b.assistant resp ::
      b.tool_results (subs.map fun sub => (sub.tool_use_id, host.text_of sub))) := by
  apply Reads.answered_append (hb.is_assistant resp) hmessages
  refine ⟨?_, Reads.answered_of_no_calls (hb.no_calls _)⟩
  intro _
  have hall : (b.tool_results (subs.map fun sub => (sub.tool_use_id, host.text_of sub))).takeWhile
      (fun m => !reads.is_assistant m) = b.tool_results (subs.map fun sub => (sub.tool_use_id, host.text_of sub)) := by
    apply List.takeWhile_eq_self_iff.mpr
    intro m hm
    rw [hb.not_assistant _ m hm]
    rfl
  rw [Reads.next_results, hall, hb.results_read, hb.assistant_ids resp calls hcalls, ← hsubs]
  simp [Function.comp_def]

/-! ## A whole run -/

variable (reads host)

/-- What a computation adds to a session: the requests are well formed, and their results are the submissions in order,
`told` being those from before; where it returns, each event has one submission. -/
def In_step (told : List Submission) (s : Session μ) (r : Except Exn α × Session μ) : Prop :=
  ∃ requests subs ids, r.2.sent = s.sent ++ requests ∧ r.2.rt.submitted = s.rt.submitted ++ subs ∧
    r.2.yielded = s.yielded ++ ids ∧
    (∀ request ∈ requests, reads.Answered request ∧
      request.flatMap reads.results <+: (told ++ subs).map host.entry) ∧
    ∀ a, r.1 = .ok a → subs.map Submission.tool_use_id = ids

variable {reads host} {told : List Submission} {s t : Session μ}

theorem In_step.of_grew {r : Except Exn α × Session μ} {subs : List Submission} {ids : List String}
    (hgrew : Grew s r.2 subs ids) (hok : ∀ a, r.1 = .ok a → subs.map Submission.tool_use_id = ids) :
    In_step reads host told s r := by
  refine ⟨[], subs, ids, hgrew.sent.trans (List.append_nil _).symm, hgrew.submitted, hgrew.yielded, ?_, hok⟩
  intro request hr
  cases hr

theorem In_step.of_error {subs : List Submission} {ids : List String} (hgrew : Grew s t subs ids) (e : Exn) :
    In_step reads host told s ((.error e, t) : Except Exn α × Session μ) := by
  apply In_step.of_grew hgrew
  intro a ha
  cases ha

/-- Well-formed messages may be sent any number of times. -/
theorem In_step.ask {messages : List μ} (n : Nat) (hmessages : reads.Answered messages)
    (htold : messages.flatMap reads.results = told.map host.entry) {r : Except Exn α × Session μ}
    (h : In_step reads host told { s with sent := s.sent ++ List.replicate n messages } r) :
    In_step reads host told s r := by
  obtain ⟨requests, subs, ids, hsent, hsubmitted, hyielded, hrequests, hok⟩ := h
  refine ⟨List.replicate n messages ++ requests, subs, ids, by rw [hsent, List.append_assoc], hsubmitted, hyielded, ?_,
    hok⟩
  intro request hr
  rcases List.mem_append.mp hr with hr | hr
  · rw [List.eq_of_mem_replicate hr, htold, List.map_append]
    exact ⟨hmessages, List.prefix_append _ _⟩
  · exact hrequests request hr

/-- After a round, the submissions of the round have been told. -/
theorem In_step.round {subs : List Submission} {ids : List String} (hgrew : Grew s t subs ids)
    (hids : subs.map Submission.tool_use_id = ids) {r : Except Exn α × Session μ}
    (h : In_step reads host (told ++ subs) t r) : In_step reads host told s r := by
  obtain ⟨requests, subs', ids', hsent, hsubmitted, hyielded, hrequests, hok⟩ := h
  refine ⟨requests, subs ++ subs', ids ++ ids', by rw [hsent, hgrew.sent],
    by rw [hsubmitted, hgrew.submitted, List.append_assoc], by rw [hyielded, hgrew.yielded, List.append_assoc], ?_, ?_⟩
  · intro request hr
    rw [← List.append_assoc]
    exact hrequests request hr
  · intro a ha
    rw [List.map_append, hids, hok a ha]

/-- **The generator and its consumer keep in step**, by induction on the loops that are left. -/
theorem run_in_step (hb : b.Lawful reads host id_of) (loops : Nat) (messages : List μ) (told : List Submission)
    (s : Session μ) (hmessages : reads.Answered messages)
    (htold : messages.flatMap reads.results = told.map host.entry) :
    In_step reads host told s (b.run host loops messages s) := by
  induction loops generalizing messages told s with
  | zero =>
    apply In_step.of_grew (Grew.progress s _)
    intro _ _
    rfl
  | succ loops ih =>
    obtain ⟨n, hn⟩ := hb.ask messages s
    apply In_step.ask n hmessages htold
    rw [Bridge.run, bind_run]
    generalize ({ s with sent := s.sent ++ List.replicate n messages } : Session μ) = asked at hn ⊢
    rcases hask : b.ask messages s with ⟨e | resp, t⟩
    · rw [hask] at hn
      obtain rfl : t = asked := hn
      exact In_step.of_error (Grew.refl t) e
    rw [hask] at hn
    obtain rfl : t = asked := hn
    show In_step reads host told t ((Act.ofExcept (b.calls resp) >>= _) t)
    rcases hcalls : b.calls resp with e | calls
    · exact In_step.of_error (Grew.refl t) e
    show In_step reads host told t ((if calls.isEmpty then _ else _ : Act (Session μ) Exn Unit) t)
    split
    · apply In_step.of_grew (hb.finish resp t)
      intro _ _
      rfl
    obtain ⟨subs, ids, hgrew, hok⟩ := open_all_grew hb calls t
    rw [bind_run]
    rcases hopen : open_all b calls t with ⟨e | futures, u⟩
    · rw [hopen] at hgrew
      exact In_step.of_error hgrew e
    rw [hopen] at hgrew hok
    obtain ⟨hids, hsubs, hall⟩ := hok futures rfl
    show In_step reads host told t ((await_all host futures >>= _) u)
    rw [bind_of_ok (await_all_run hall)]
    apply In_step.round hgrew hsubs
    apply ih
    · exact round_kept hb hcalls hmessages (hsubs.trans hids)
    · rw [List.flatMap_append, List.flatMap_cons, hb.assistant_results, hb.results_read, htold, List.map_append]
      simp [Host.entry, Host.text_of, Function.comp_def]

end Round

/-! ## The two formats -/

namespace ChatClient

variable [LinearOrder α] [Zero α] (client : ChatClient α) (host : Host)

def reads : Reads ChatMessage where
  is_assistant
    | .plain role _ => role = "assistant"
    | .assistant _ _ => true
    | .tool _ _ => false
  call_ids
    | .plain _ _ => []
    | .assistant _ tool_calls => tool_calls.map FunctionCall.id
    | .tool _ _ => []
  results
    | .plain _ _ => []
    | .assistant _ _ => []
    | .tool tool_call_id content => [(tool_call_id, content)]

theorem lawful : (client.bridge host).Lawful reads host FunctionCall.id where
  ask messages s := by
    refine ⟨(chat_with_backoff client.sdk client.provider (fun attempt => client.create (s.sent.length + attempt))
      client.delays).slept.length, ?_⟩
    show (ChatClient.ask client host messages s).2 = _
    unfold ChatClient.ask
    dsimp only
    split
    · rfl
    · rfl
    · rfl
  finish resp s := by
    show Grew s (finish resp s).2 [] []
    rcases hchoices : resp.choices with _ | ⟨choice, rest⟩
    · rw [finish, hchoices]
      exact Grew.refl s
    · rw [finish, hchoices]
      dsimp only
      split
      · exact Grew.progress s _
      · exact Grew.progress s _
  open_call call := Opens.after host call.id fun args => opening_opens host call.id call.name (.ok args)
  is_assistant resp := by
    show reads.is_assistant (assistant resp) = true
    unfold assistant
    split
    · rfl
    · rfl
  assistant_ids resp calls hcalls := by
    show reads.call_ids (assistant resp) = _
    unfold assistant
    have hcalls : ChatClient.calls resp = .ok calls := hcalls
    unfold ChatClient.calls at hcalls
    split at hcalls
    · cases hcalls
    · cases hcalls
      rfl
  assistant_results resp := by
    show reads.results (assistant resp) = []
    unfold assistant
    split
    · rfl
    · rfl
  not_assistant results m hm := by
    obtain ⟨result, -, rfl⟩ := List.mem_map.mp hm
    rfl
  no_calls results m hm := by
    obtain ⟨result, -, rfl⟩ := List.mem_map.mp hm
    rfl
  results_read results := by
    show (results.map fun result => ChatMessage.tool result.1 result.2.content).flatMap reads.results = _
    rw [List.flatMap_map]
    exact List.map_eq_flatMap.symm

theorem run_in_step (system : String) (history : List WorkingItem) (s : Session ChatMessage) :
    In_step reads host [] s (client.run host system history s) := by
  have hplain : ∀ m ∈ (.plain "system" system :: to_openai_history history : List ChatMessage),
      reads.call_ids m = [] ∧ reads.results m = [] := by
    intro m hm
    rcases List.mem_cons.mp hm with rfl | hm
    · exact ⟨rfl, rfl⟩
    · obtain ⟨item, -, rfl⟩ := List.mem_map.mp hm
      exact ⟨rfl, rfl⟩
  apply Llm.run_in_step (lawful client host)
  · exact Reads.answered_of_no_calls fun m hm => (hplain m hm).1
  · exact List.flatMap_eq_nil_iff.mpr fun m hm => (hplain m hm).2

end ChatClient

namespace BlockClient

variable (client : BlockClient) (host : Host)

/-- The id and the content of a `tool_result` block. -/
def tool_result : Block → Option (String × String)
  | .tool_result tool_use_id content _ => some (tool_use_id, content)
  | .text _ => none
  | .tool_use _ _ _ => none
  | .other _ => none

def reads : Reads BlockMessage where
  is_assistant
    | .plain role _ => role = "assistant"
    | .blocks role _ => role = "assistant"
  call_ids
    | .plain _ _ => []
    | .blocks role content => if role = "assistant" then (content.filterMap tool_use).map Prod.fst else []
  results
    | .plain _ _ => []
    | .blocks _ content => content.filterMap tool_result

theorem open_call_eq (call : String × String × Json) : open_call host call = opening host call.1 call.2.1
    ((host.dict_of (if StaticRules.truthy call.2.2 then call.2.2 else .obj [])).map Json.obj) := by
  unfold open_call opening
  cases host.dict_of (if StaticRules.truthy call.2.2 then call.2.2 else .obj []) with
  | error e => rfl
  | ok fields => rfl

/-- What is recorded of an answer has all its calls, and no results. -/
theorem recorded (content : List Block) :
    (content.filter is_recorded).filterMap tool_use = content.filterMap tool_use ∧
      (content.filter is_recorded).filterMap tool_result = [] := by
  induction content with
  | nil => exact ⟨rfl, rfl⟩
  | cons block content ih =>
    cases block with
    | text text => exact ih
    | tool_use id name input => exact ⟨congrArg (List.cons _) ih.1, ih.2⟩
    | tool_result id text is_error => exact ih
    | other type => exact ih

theorem yield_texts_grew (content : List Block) (s : Session BlockMessage) : Grew s (yield_texts content s).2 [] [] := by
  induction content generalizing s with
  | nil => exact Grew.refl s
  | cons block content ih =>
    cases block with
    | text text =>
      unfold yield_texts
      split
      · exact ih s
      · exact (Grew.progress s _).trans (ih _)
    | tool_use id name input => exact ih s
    | tool_result id text is_error => exact ih s
    | other type => exact ih s

theorem finish_grew (resp : BlockResponse) (s : Session BlockMessage) : Grew s (finish resp s).2 [] [] := by
  have htexts := yield_texts_grew resp.content s
  unfold finish
  rw [bind_run]
  rcases hrun : yield_texts resp.content s with ⟨e | u, t⟩
  · rw [hrun] at htexts
    exact htexts
  · rw [hrun] at htexts
    exact htexts.trans (Grew.progress t _)

theorem lawful : (client.bridge host).Lawful reads host Prod.fst where
  ask messages s := by
    refine ⟨1, ?_⟩
    show (BlockClient.ask client host messages s).2 = _
    unfold BlockClient.ask
    dsimp only
    split
    · rfl
    · rfl
    · rfl
  finish := finish_grew
  open_call call := by
    show Opens host call.1 (open_call host call)
    rw [open_call_eq]
    exact opening_opens host call.1 call.2.1 _
  is_assistant resp := rfl
  assistant_ids resp calls hcalls := by
    cases hcalls
    show ((resp.content.filter is_recorded).filterMap tool_use).map Prod.fst = _
    rw [(recorded resp.content).1]
    rfl
  assistant_results resp := (recorded resp.content).2
  not_assistant results m hm := by
    rw [List.mem_singleton.mp hm]
    rfl
  no_calls results m hm := by
    rw [List.mem_singleton.mp hm]
    rfl
  results_read results := by
    show (tool_results results).flatMap reads.results = _
    simp [tool_results, reads, List.filterMap_map, Function.comp_def, tool_result]

theorem run_in_step (system : String) (history : List WorkingItem) (s : Session BlockMessage) :
    In_step reads host [] s (client.run host system history s) := by
  have hplain : ∀ m ∈ to_messages history, reads.call_ids m = [] ∧ reads.results m = [] := by
    intro m hm
    obtain ⟨item, -, rfl⟩ := List.mem_map.mp hm
    exact ⟨rfl, rfl⟩
  apply Llm.run_in_step (lawful client host)
  · exact Reads.answered_of_no_calls fun m hm => (hplain m hm).1
  · exact List.flatMap_eq_nil_iff.mpr fun m hm => (hplain m hm).2

end BlockClient

/-! ## The turn -/

theorem finish_turn_unsaid (env : TurnEnv) (agent_id : String) (msg : IncomingMessage) (p : Progress) :
    Unsaid (finish_turn env agent_id msg p) :=
  finish_turn_leaves (fun _ _ _ h => h) (fun _ _ _ hab hbc => hbc.trans hab) (fun _ _ => rfl) env msg p

theorem guard_stream_unsaid (ended : Except Exn α) : Unsaid (guard_stream (Act.ofExcept ended)) :=
  guard_stream_leaves (fun _ _ _ h => h) (fun _ _ _ hab hbc => hbc.trans hab) fun _ => rfl

/-- A stream that raises does not get past its handlers. -/
theorem guard_stream_ok {ended : Except Exn α} {rt : Runtime} {a : α}
    (h : (guard_stream (Act.ofExcept ended) rt).1 = .ok a) : ended = .ok a := by
  cases ended with
  | ok b => exact h
  | error e =>
    cases e with
    | _ => cases h

/-- Nothing is sent, submitted or yielded. -/
structure Level (s t : Session μ) : Prop where
  sent : t.sent = s.sent
  submitted : t.rt.submitted = s.rt.submitted
  yielded : t.yielded = s.yielded

theorem Level.refl (s : Session μ) : Level s s := ⟨rfl, rfl, rfl⟩

theorem Level.trans (s t u : Session μ) (h : Level s t) (h' : Level t u) : Level s u :=
  ⟨h'.sent.trans h.sent, h'.submitted.trans h.submitted, h'.yielded.trans h.yielded⟩

theorem on_runtime_level {m : Act Runtime Exn α} (hm : Unsaid m) : Moves (Level (μ := μ)) (on_runtime m) :=
  fun s => ⟨rfl, hm s.rt, rfl⟩

section Turn

variable {reads : Reads μ} {host : Host} {told : List Submission}

theorem In_step.level_before {m : Act (Session μ) Exn α} {f : α → Act (Session μ) Exn β} (hm : Moves Level m)
    (hf : ∀ a t, In_step reads host told t (f a t)) (s : Session μ) : In_step reads host told s ((m >>= f) s) := by
  have hlevel := hm s
  rw [bind_run]
  rcases hrun : m s with ⟨e | a, t⟩
  · rw [hrun] at hlevel
    refine ⟨[], [], [], ?_, ?_, ?_, ?_, ?_⟩
    · rw [List.append_nil, hlevel.sent]
    · rw [List.append_nil, hlevel.submitted]
    · rw [List.append_nil, hlevel.yielded]
    · intro request hr
      cases hr
    · intro b hb
      cases hb
  · rw [hrun] at hlevel
    have hrest := hf a t
    unfold In_step at hrest ⊢
    rwa [hlevel.sent, hlevel.submitted, hlevel.yielded] at hrest

theorem In_step.level_after {s t : Session μ} {r : Except Exn α} {r' : Except Exn β} {u : Session μ}
    (h : In_step reads host told s (r, t)) (hlevel : Level t u) (hok : ∀ b, r' = .ok b → ∃ a, r = .ok a) :
    In_step reads host told s (r', u) := by
  obtain ⟨requests, subs, ids, hsent, hsubmitted, hyielded, hrequests, hids⟩ := h
  refine ⟨requests, subs, ids, hlevel.sent.trans hsent, hlevel.submitted.trans hsubmitted, hlevel.yielded.trans hyielded,
    hrequests, ?_⟩
  intro b hb
  obtain ⟨a, ha⟩ := hok b hb
  exact hids a ha

theorem turn_in_step {stream : String → List WorkingItem → Act (Session μ) Exn Unit}
    (hstream : ∀ system history s, In_step reads host told s (stream system history s)) (s : Session μ) :
    In_step reads host told s (run_turn host stream s) := by
  unfold run_turn
  apply In_step.level_before (on_runtime_level (Unsaid.remember _ _))
  intro _ s
  apply In_step.level_before (on_runtime_level (Unsaid.append _))
  intro _ s
  apply In_step.level_before (fun s => Level.refl s)
  intro hits s
  apply In_step.level_before (fun s => Level.refl s)
  intro persona s
  apply In_step.level_before (fun s => Level.refl s)
  intro history s
  have hopen : Unsaid (open_client host) := by
    unfold open_client
    split
    · exact Unsaid.bind Unsaid.record_error fun _ => Unsaid.raise _
    · exact Unsaid.pure ()
  apply In_step.level_before (on_runtime_level hopen)
  intro _ s
  apply In_step.level_before (fun s => ⟨rfl, rfl, rfl⟩)
  intro _ s
  rw [attempt_bind]
  apply In_step.level_after (hstream _ history s)
  · -- what follows the stream
    apply Moves.bind (R := Level) Level.trans (on_runtime_level (guard_stream_unsaid _))
    intro _
    apply Moves.bind (R := Level) Level.trans (fun s => Level.refl s)
    intro progress
    exact on_runtime_level (finish_turn_unsaid _ _ _ _)
  · intro outcome ho
    obtain ⟨a, t, hguard, -⟩ := bind_eq_ok.mp (Prod.ext ho rfl)
    exact ⟨a, guard_stream_ok (congrArg Prod.fst hguard)⟩

end Turn

/-- **In a turn of either client, every request is well formed and its results are the submissions in order; in a turn
that returns, each tool-use event has one submission.** -/
theorem transcript_kept [LinearOrder α] [Zero α] (chat : ChatClient α) (blocks : BlockClient) (host : Host) :
    (∀ s, In_step ChatClient.reads host [] s (run_turn host (chat.run host) s)) ∧
      ∀ s, In_step BlockClient.reads host [] s (run_turn host (blocks.run host) s) :=
  ⟨turn_in_step (chat.run_in_step host), turn_in_step (blocks.run_in_step host)⟩

end Llm

end CompanyFactory
