import CompanyFactory.Orchestrator.Streams
import Mathlib.Data.List.Perm.Basic

/-!
# `AgentRuntime.Process` — the inbox, the status and the task of an agent

What other parts see of an `Agent`: the inbox that `deliver` fills, the status, and where the task of the run loop
is. A turn is one step, with what it ends in; the messages are the envelopes that the orchestrator dispatched.
Between two suspension points the loop does everything in one step: after a turn it is at its next `await`, and
that is the turn on the next message if the inbox has one.

`stop` waits twice, for the turn and for the task. Each wait ends when it is over or times out, so that in the
model it may end at any time.

* `contents` — what was delivered: it is in the inbox, in hand or handled.
* `Keeps` — no operation but a delivery changes the contents; what is handled stays so; and an agent with a message
  in hand is `WORKING`.
-/

namespace CompanyFactory

open Orchestrator

namespace AgentProcess

/-- Where the task of the run loop is. -/
inductive LoopTask where
  /-- `_task is None` -/
  | absent
  /-- created, and not run yet -/
  | starting
  /-- at `await self._queue.get()` -/
  | waiting
  /-- at `await asyncio.sleep(0.05)` -/
  | backing_off
  /-- in the turn on a message -/
  | handling (env : MessageEnvelope)
  | returned
  | raised
  deriving DecidableEq

/-- How a turn ends. -/
inductive TurnEnd where
  | returned
  /-- `LLMFailure` or `TurnTimeout` -/
  | failed
  /-- any other exception -/
  | raised
  deriving DecidableEq

/-- Where a call of `stop` waits. -/
inductive Stopping where
  | draining
  | joining
  deriving DecidableEq

end AgentProcess

open AgentProcess in
structure AgentProcess where
  status : AgentStatus := .STOPPED
  /-- `_queue`; `none` is the sentinel -/
  inbox : List (Option MessageEnvelope) := []
  task : LoopTask := .absent
  stop_event : Bool := false
  stops : List Stopping := []
  /-- the messages whose turn has ended -/
  handled : List MessageEnvelope := []
  deriving DecidableEq

namespace AgentProcess

/-- The message of the turn that is going on. -/
def hand (p : AgentProcess) : Option MessageEnvelope :=
  match p.task with
  | .handling env => some env
  | _ => none

/-- `self._task is not None and not self._task.done()` -/
def alive (p : AgentProcess) : Bool :=
  match p.task with
  | .absent | .returned | .raised => false
  | _ => true

/-- `deliver`: the queue has no bound, so that the `put` does not wait. -/
def deliver (env : MessageEnvelope) (p : AgentProcess) : AgentProcess := { p with inbox := p.inbox ++ [some env] }

/-! ## The run loop -/

/-- `await self._queue.get()`, and what follows it up to the next `await`. -/
def take (accepting : Bool) (p : AgentProcess) : AgentProcess :=
  match p.inbox with
  | [] => { p with task := .waiting }
  | none :: rest => { p with inbox := rest, task := .returned }
  | some env :: rest =>
    if accepting then { p with inbox := rest, status := .WORKING, task := .handling env }
    else { p with inbox := rest ++ [some env], task := .backing_off }

/-- `while not self._stop_event.is_set()` -/
def run_loop (accepting : Bool) (p : AgentProcess) : AgentProcess :=
  if p.stop_event then { p with task := .returned } else take accepting p

/-- The task goes on after a wait. -/
def wakes (accepting : Bool) (p : AgentProcess) : AgentProcess :=
  match p.task with
  | .starting | .backing_off => run_loop accepting p
  | .waiting => if p.inbox = [] then p else take accepting p
  | _ => p

/-- The rest of `_handle_message`, once its turn has ended, and of the loop. -/
def turn_ends (ending : TurnEnd) (accepting : Bool) (p : AgentProcess) : AgentProcess :=
  match p.task with
  | .handling env =>
    match ending with
    | .returned => run_loop accepting { p with handled := p.handled ++ [env], status := .IDLE }
    | .failed => { p with handled := p.handled ++ [env], status := .UNHEALTHY, task := .raised }
    | .raised => { p with handled := p.handled ++ [env], task := .raised }
  | _ => p

/-! ## Starting and stopping -/

/-- `start`; the status is set before the persona is loaded. -/
def start (persona_loads : Bool) (p : AgentProcess) : AgentProcess :=
  if p.alive then p
  else
    { p with
      stop_event := false, status := .IDLE, task := if persona_loads then .starting else p.task }

/-- The last two lines of `stop`. -/
def stopped (p : AgentProcess) : AgentProcess := { p with task := .absent, status := .STOPPED }

/-- `stop` after the wait for the turn. -/
def after_drain (p : AgentProcess) : AgentProcess :=
  if p.task = .absent then stopped p
  else { p with inbox := p.inbox ++ [none], stops := p.stops ++ [.joining] }

/-- `stop`, up to its first wait. -/
def stop (drain : Bool) (p : AgentProcess) : AgentProcess :=
  if drain && p.hand.isSome then { p with stop_event := true, stops := p.stops ++ [.draining] }
  else after_drain { p with stop_event := true }

/-- A turn that is cut off by the cancellation of the task. -/
def cut_off (p : AgentProcess) : AgentProcess := { p with handled := p.handled ++ p.hand.toList }

/-- `stop` after the wait for the task: what the task has raised is raised again. -/
def after_join (p : AgentProcess) : AgentProcess :=
  if p.task = .raised then p else stopped (cut_off p)

/-- A wait of a `stop` ends. -/
def stop_goes_on (k : Nat) (p : AgentProcess) : AgentProcess :=
  match p.stops[k]? with
  | none => p
  | some .draining => after_drain { p with stops := p.stops.eraseIdx k }
  | some .joining => after_join { p with stops := p.stops.eraseIdx k }

/-! ## What was delivered -/

/-- The messages in the inbox. -/
def waiting_messages (p : AgentProcess) : List MessageEnvelope := p.inbox.filterMap id

/-- Everything that was delivered. -/
def contents (p : AgentProcess) : List MessageEnvelope := p.handled ++ p.hand.toList ++ p.waiting_messages

/-- An agent with a message in hand is working. -/
def Honest (p : AgentProcess) : Prop := p.hand ≠ none → p.status = .WORKING

/-- What every operation but a delivery does: the messages stay the same, none of the handled ones is taken back, and
    the agent stays honest. -/
structure Keeps (p p' : AgentProcess) : Prop where
  contents : p'.contents.Perm p.contents
  handled : p.handled <+: p'.handled
  honest : Honest p → Honest p'

theorem Keeps.refl (p : AgentProcess) : Keeps p p := ⟨.refl _, List.prefix_rfl, id⟩

theorem Keeps.trans {p p' p'' : AgentProcess} (h : Keeps p p') (h' : Keeps p' p'') : Keeps p p'' :=
  ⟨h'.contents.trans h.contents, h.handled.trans h'.handled, h'.honest ∘ h.honest⟩

variable {p : AgentProcess}

theorem deliver_contents (env : MessageEnvelope) (p : AgentProcess) :
    (deliver env p).contents = p.contents ++ [env] := by
  show p.handled ++ p.hand.toList ++ (p.inbox ++ [some env]).filterMap id = _
  rw [List.filterMap_append, contents, List.append_assoc _ _ [env]]
  rfl

theorem Honest.of_none (h : p.hand = none) : Honest p := fun hne => absurd h hne

/-- An operation that leaves no message in hand. -/
theorem Keeps.of_none {p' : AgentProcess} (hhand : p'.hand = none)
    (hcontents : (p'.handled ++ p'.waiting_messages).Perm p.contents) (hhandled : p.handled <+: p'.handled) :
    Keeps p p' := by
  refine ⟨?_, hhandled, fun _ => .of_none hhand⟩
  rwa [AgentProcess.contents, hhand, Option.toList_none, List.append_nil]

theorem contents_of_none (hhand : p.hand = none) : p.contents = p.handled ++ p.waiting_messages := by
  rw [contents, hhand, Option.toList_none, List.append_nil]

/-- **Where the order changes**: a message that is put back goes to the end. -/
theorem take_contents (accepting : Bool) (hhand : p.hand = none) : (take accepting p).contents = p.contents ∨
    ∃ env rest, accepting = false ∧ p.inbox = some env :: rest ∧
      (take accepting p).contents = p.handled ++ (rest.filterMap id ++ [env]) := by
  have hcontents := contents_of_none hhand
  unfold take
  split
  · exact .inl ((contents_of_none rfl).trans hcontents.symm)
  · rename_i rest hinbox
    rw [waiting_messages, hinbox] at hcontents
    exact .inl ((contents_of_none rfl).trans hcontents.symm)
  · rename_i env rest hinbox
    rw [waiting_messages, hinbox] at hcontents
    split
    · left
      rw [hcontents]
      show p.handled ++ [env] ++ rest.filterMap id = p.handled ++ env :: rest.filterMap id
      rw [List.append_assoc, List.singleton_append]
    · rename_i hpaused
      refine .inr ⟨env, rest, by simpa using hpaused, hinbox, (contents_of_none rfl).trans ?_⟩
      show p.handled ++ (rest ++ [some env]).filterMap id = _
      rw [List.filterMap_append]
      rfl

/-- A loop without a message in hand takes one, or not. -/
theorem take_keeps (accepting : Bool) (hhand : p.hand = none) : Keeps p (take accepting p) := by
  refine ⟨?_, ?_, ?_⟩
  · rcases take_contents accepting hhand with heq | ⟨env, rest, -, hinbox, hback⟩
    · rw [heq]
    · rw [hback, contents_of_none hhand, waiting_messages, hinbox]
      exact (List.perm_append_singleton env _).append_left _
  · unfold take
    split
    · exact List.prefix_rfl
    · exact List.prefix_rfl
    · split <;> exact List.prefix_rfl
  · intro _
    unfold take
    split
    · exact .of_none rfl
    · exact .of_none rfl
    · split
      · exact fun _ => rfl
      · exact .of_none rfl

theorem run_loop_keeps (accepting : Bool) (hhand : p.hand = none) : Keeps p (run_loop accepting p) := by
  unfold run_loop
  split
  · exact .of_none rfl (.of_eq (contents_of_none hhand).symm) List.prefix_rfl
  · exact take_keeps accepting hhand

theorem wakes_keeps (accepting : Bool) (p : AgentProcess) : Keeps p (wakes accepting p) := by
  unfold wakes
  split
  · rename_i htask
    exact run_loop_keeps accepting (by rw [hand, htask])
  · rename_i htask
    exact run_loop_keeps accepting (by rw [hand, htask])
  · rename_i htask
    split
    · exact .refl p
    · exact take_keeps accepting (by rw [hand, htask])
  · exact .refl p

/-- The message in hand is handled, whatever the turn has ended in. -/
theorem turn_ends_keeps (ending : TurnEnd) (accepting : Bool) (p : AgentProcess) :
    Keeps p (turn_ends ending accepting p) := by
  unfold turn_ends
  split
  · rename_i env htask
    have hhand : p.hand = some env := by rw [hand, htask]
    have hgrows : p.handled <+: p.handled ++ [env] := List.prefix_append _ _
    have hcontents : (p.handled ++ [env] ++ p.waiting_messages).Perm p.contents := by
      rw [contents, hhand]
      rfl
    cases ending with
    | failed => exact .of_none rfl hcontents hgrows
    | raised => exact .of_none rfl hcontents hgrows
    | returned =>
        -- the loop does not look at the task that has just ended
        have hended : Keeps p { p with handled := p.handled ++ [env], status := .IDLE, task := .starting } :=
          .of_none rfl hcontents hgrows
        exact hended.trans (run_loop_keeps accepting rfl)
  · exact .refl p

theorem hand_of_not_alive (h : ¬ p.alive = true) : p.hand = none := by
  unfold alive at h
  unfold hand
  split
  · rename_i htask
    rw [htask] at h
    exact absurd rfl h
  · rfl

/-! ### Starting and stopping -/

theorem start_contents (persona_loads : Bool) (p : AgentProcess) :
    (start persona_loads p).contents = p.contents := by
  unfold start
  split
  · rfl
  · rename_i hdead
    rw [contents_of_none (hand_of_not_alive hdead)]
    cases persona_loads with
    | true => exact contents_of_none rfl
    | false => exact contents_of_none (hand_of_not_alive hdead)

theorem start_keeps (persona_loads : Bool) (p : AgentProcess) : Keeps p (start persona_loads p) := by
  refine ⟨.of_eq (start_contents persona_loads p), ?_, ?_⟩
  · unfold start
    split <;> exact List.prefix_rfl
  · intro hhonest
    unfold start
    split
    · exact hhonest
    · rename_i hdead
      refine .of_none ?_
      cases persona_loads with
      | true => rfl
      | false => exact hand_of_not_alive hdead

theorem stopped_contents (hhand : p.hand = none) : (stopped p).contents = p.contents :=
  (contents_of_none rfl).trans (contents_of_none hhand).symm

/-- The sentinel is no message. -/
theorem after_drain_contents (p : AgentProcess) : (after_drain p).contents = p.contents := by
  unfold after_drain
  split
  · rename_i htask
    exact stopped_contents (by rw [hand, htask])
  · show p.handled ++ p.hand.toList ++ (p.inbox ++ [none]).filterMap id = _
    rw [List.filterMap_append, contents]
    exact congrArg _ (List.append_nil _)

theorem after_drain_keeps (p : AgentProcess) : Keeps p (after_drain p) := by
  refine ⟨.of_eq (after_drain_contents p), ?_, ?_⟩
  · unfold after_drain
    split <;> exact List.prefix_rfl
  · intro hhonest
    unfold after_drain
    split
    · exact .of_none rfl
    · exact hhonest

theorem stop_contents (drain : Bool) (p : AgentProcess) : (stop drain p).contents = p.contents := by
  unfold stop
  split
  · rfl
  · exact after_drain_contents _

theorem stop_keeps (drain : Bool) (p : AgentProcess) : Keeps p (stop drain p) := by
  have hevent : Keeps p { p with stop_event := true } := ⟨.refl _, List.prefix_rfl, id⟩
  unfold stop
  split
  · exact ⟨.refl _, List.prefix_rfl, id⟩
  · exact hevent.trans (after_drain_keeps _)

/-- A turn that is cut off has ended. -/
theorem after_join_contents (p : AgentProcess) : (after_join p).contents = p.contents := by
  unfold after_join
  split
  · rfl
  · exact contents_of_none rfl

theorem after_join_keeps (p : AgentProcess) : Keeps p (after_join p) := by
  refine ⟨.of_eq (after_join_contents p), ?_, ?_⟩
  · unfold after_join
    split
    · exact List.prefix_rfl
    · exact List.prefix_append _ _
  · intro hhonest
    unfold after_join
    split
    · exact hhonest
    · exact .of_none rfl

theorem stop_goes_on_contents (k : Nat) (p : AgentProcess) : (stop_goes_on k p).contents = p.contents := by
  unfold stop_goes_on
  split
  · rfl
  · exact after_drain_contents _
  · exact after_join_contents _

theorem stop_goes_on_keeps (k : Nat) (p : AgentProcess) : Keeps p (stop_goes_on k p) := by
  have herase : Keeps p { p with stops := p.stops.eraseIdx k } := ⟨.refl _, List.prefix_rfl, id⟩
  unfold stop_goes_on
  split
  · exact .refl p
  · exact herase.trans (after_drain_keeps _)
  · exact herase.trans (after_join_keeps _)

end AgentProcess

end CompanyFactory
