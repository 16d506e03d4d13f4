import CompanyFactory.Lib.Run
import CompanyFactory.Orchestrator.Wakeups
import Mathlib.Data.Finset.Insert

/-!
# `Orchestrator.Deques` — the queue, dict by dict

`InMemoryMessageQueue` as it is written: a dict of deques, a dict of sets and a dict of events, each of which gets its
entry when it is first asked for. Everything else here speaks of one list of envelopes, one of correlation ids and one
flag for each agent; `deques_refine` says that nobody can tell the two apart, whatever is called in whatever order.
-/

namespace CompanyFactory

open Machine

namespace Orchestrator

/-- The attributes of `InMemoryMessageQueue`; a dict is a function to the value of a key, if it has one. -/
structure DequeQueue where
  queues : String → Option (List MessageEnvelope) := fun _ => none
  seen : String → Option (Finset String) := fun _ => none
  dlq : List DeadLetter := []
  available : Bool := true
  /-- is the event set? -/
  waiters : String → Option Bool := fun _ => none

namespace DequeQueue

/-- `self._queues.setdefault(agent_id, deque())` -/
def bucket (q : DequeQueue) (agent_id : String) : List MessageEnvelope × DequeQueue :=
  let deque := (q.queues agent_id).getD []
  (deque, { q with queues := Function.update q.queues agent_id (some deque) })

/-- `_waiter` -/
def waiter (q : DequeQueue) (agent_id : String) : Bool × DequeQueue :=
  match q.waiters agent_id with
  | some ev => (ev, q)
  | none => (false, { q with waiters := Function.update q.waiters agent_id (some false) })

/-- `self._waiter(agent_id).set()`, or `clear()` -/
def signal (q : DequeQueue) (agent_id : String) (value : Bool) : DequeQueue :=
  let (_, q) := q.waiter agent_id
  { q with waiters := Function.update q.waiters agent_id (some value) }

def set_deque (q : DequeQueue) (agent_id : String) (deque : List MessageEnvelope) : DequeQueue :=
  { q with queues := Function.update q.queues agent_id (some deque) }

/-- `self._seen.setdefault(to_agent, set()).add(correlation_id)`, if there is a correlation id -/
def see (q : DequeQueue) (env : MessageEnvelope) : DequeQueue :=
  match env.correlation_id with
  | none => q
  | some correlation =>
    if correlation = "" then q
    else { q with
      seen := Function.update q.seen env.to_agent (some (insert correlation ((q.seen env.to_agent).getD ∅))) }

def is_available (q : DequeQueue) : Bool := q.available

def set_available (q : DequeQueue) (value : Bool) : DequeQueue := { q with available := value }

def push (q : DequeQueue) (env : MessageEnvelope) : Except Exn Unit × DequeQueue :=
  if !q.available then (.error (.redisUnavailable "queue offline"), q)
  else
    let (deque, q) := q.bucket env.to_agent
    let q := (q.set_deque env.to_agent (deque ++ [env])).see env
    (.ok (), q.signal env.to_agent true)

def pop (q : DequeQueue) (agent_id : String) : Option MessageEnvelope × DequeQueue :=
  let (deque, q) := q.bucket agent_id
  match deque with
  | [] => (none, q)
  | env :: rest =>
    let q := q.set_deque agent_id rest
    (some env, if rest = [] then q.signal agent_id false else q)

def pending_count (q : DequeQueue) (agent_id : String) : Nat × DequeQueue :=
  let (deque, q) := q.bucket agent_id
  (deque.length, q)

def has_correlation (q : DequeQueue) (agent_id correlation_id : String) : Bool :=
  decide (correlation_id ∈ (q.seen agent_id).getD ∅)

def to_dlq (q : DequeQueue) (env : MessageEnvelope) (reason : String) (now : Time) : DequeQueue :=
  { q with dlq := q.dlq ++ [{ envelope := env, reason, moved_at := now }] }

end DequeQueue

/-! ## The calls -/

inductive QueueCall where
  | is_available
  | set_available (value : Bool)
  | push (env : MessageEnvelope)
  | pop (agent_id : String)
  | pending_count (agent_id : String)
  | has_correlation (agent_id correlation_id : String)
  | to_dlq (env : MessageEnvelope) (reason : String) (now : Time)
  | dlq
  /-- `aiter` looks at its event -/
  | wait (agent_id : String)

/-- What a caller sees. -/
inductive QueueReply where
  | done
  | raised (e : Exn)
  | flag (value : Bool)
  | count (n : Nat)
  | envelope (env : Option MessageEnvelope)
  | dead (letters : List DeadLetter)
  deriving DecidableEq

def QueueReply.of : Except Exn Unit → QueueReply
  | .ok () => .done
  | .error e => .raised e

/-- One call of the code. -/
def DequeQueue.call (q : DequeQueue) : QueueCall → QueueReply × DequeQueue
  | .is_available => (.flag q.is_available, q)
  | .set_available value => (.done, q.set_available value)
  | .push env => (.of (q.push env).1, (q.push env).2)
  | .pop agent_id => (.envelope (q.pop agent_id).1, (q.pop agent_id).2)
  | .pending_count agent_id => (.count (q.pending_count agent_id).1, (q.pending_count agent_id).2)
  | .has_correlation agent_id correlation_id => (.flag (q.has_correlation agent_id correlation_id), q)
  | .to_dlq env reason now => (.done, q.to_dlq env reason now)
  | .dlq => (.dead q.dlq, q)
  | .wait agent_id => (.flag (q.waiter agent_id).1, (q.waiter agent_id).2)

/-- One call of the queue that is one list. -/
def InMemoryMessageQueue.call (q : InMemoryMessageQueue) : QueueCall → QueueReply × InMemoryMessageQueue
  | .is_available => (.flag q.available, q)
  | .set_available value => (.done, { q with available := value })
  | .push env => (.of (q.push env).1, (q.push env).2)
  | .pop agent_id => (.envelope (q.pop agent_id).1, (q.pop agent_id).2)
  | .pending_count agent_id => (.count (q.bucket agent_id).length, q)
  | .has_correlation agent_id correlation_id => (.flag (q.has_correlation agent_id correlation_id), q)
  | .to_dlq env reason now => (.done, q.to_dlq env reason now)
  | .dlq => (.dead q.dlq, q)
  | .wait agent_id => (.flag (q.waiters agent_id), q)

namespace DequeQueue

/-! ## The refinement -/

/-- The dicts hold the parts of the lists; a key that is missing stands for an empty entry. -/
structure Refines (c : DequeQueue) (q : InMemoryMessageQueue) : Prop where
  deque : ∀ agent_id, (c.queues agent_id).getD [] = q.bucket agent_id
  seen : ∀ agent_id correlation, correlation ∈ (c.seen agent_id).getD ∅ ↔ (agent_id, correlation) ∈ q.seen
  dlq : c.dlq = q.dlq
  available : c.available = q.available
  waiter : ∀ agent_id, (c.waiters agent_id).getD false = q.waiters agent_id

variable {c : DequeQueue} {q : InMemoryMessageQueue} {agent_id : String}

theorem refines_empty : Refines {} {} where
  deque _ := rfl
  seen _ _ := iff_of_false (Finset.notMem_empty _) List.not_mem_nil
  dlq := rfl
  available := rfl
  waiter _ := rfl

theorem getD_update {α : Type} (dict : String → Option α) (key other : String) (a d : α) :
    (Function.update dict key (some a) other).getD d = if other = key then a else (dict other).getD d := by
  by_cases h : other = key
  · rw [if_pos h, h, Function.update_self]
    rfl
  · rw [if_neg h, Function.update_of_ne h]

/-- Asking for a bucket changes nothing that can be seen. -/
theorem Refines.bucket (h : Refines c q) (agent_id : String) :
    (c.bucket agent_id).1 = q.bucket agent_id ∧ Refines (c.bucket agent_id).2 q := by
  refine ⟨h.deque agent_id, { h with deque := fun other => ?_ }⟩
  show (Function.update c.queues agent_id _ other).getD [] = _
  rw [getD_update]
  split
  · rename_i hsame
    rw [hsame]
    exact h.deque agent_id
  · exact h.deque other

theorem Refines.wait (h : Refines c q) (agent_id : String) :
    (c.waiter agent_id).1 = q.waiters agent_id ∧ Refines (c.waiter agent_id).2 q := by
  have hflag := h.waiter agent_id
  unfold DequeQueue.waiter
  cases hev : c.waiters agent_id with
  | some ev =>
      rw [hev] at hflag
      exact ⟨hflag, h⟩
  | none =>
      rw [hev] at hflag
      refine ⟨hflag, { h with waiter := fun other => ?_ }⟩
      show (Function.update c.waiters agent_id _ other).getD false = _
      rw [getD_update]
      split
      · rename_i hsame
        rw [hsame]
        exact hflag
      · exact h.waiter other

theorem Refines.signal (h : Refines c q) (agent_id : String) (value : Bool) :
    Refines (c.signal agent_id value) { q with waiters := Function.update q.waiters agent_id value } := by
  have hwait := (h.wait agent_id).2
  refine { hwait with waiter := fun other => ?_ }
  show (Function.update (c.waiter agent_id).2.waiters agent_id _ other).getD false = _
  show _ = Function.update q.waiters agent_id value other
  rw [getD_update, Function.update_apply, hwait.waiter other]

theorem Refines.set_deque (h : Refines c q) {agent_id : String} {deque queues : List MessageEnvelope}
    (hown : deque = queues.filter fun env => env.to_agent = agent_id)
    (hother : ∀ other, other ≠ agent_id → (queues.filter fun env => env.to_agent = other) = q.bucket other) :
    Refines (c.set_deque agent_id deque) { q with queues } := by
  refine { h with deque := fun other => ?_ }
  show (Function.update c.queues agent_id _ other).getD [] = queues.filter _
  rw [getD_update]
  split
  · rename_i hsame
    rw [hsame]
    exact hown
  · rename_i hne
    rw [h.deque other, hother other hne]

theorem Refines.see (h : Refines c q) (env : MessageEnvelope) :
    Refines (c.see env) { q with seen := q.seen ++ InMemoryMessageQueue.correlation_of env } := by
  unfold DequeQueue.see InMemoryMessageQueue.correlation_of
  cases env.correlation_id with
  | none => exact { h with seen := fun agent_id correlation => by rw [List.append_nil]; exact h.seen agent_id correlation }
  | some sent =>
      by_cases hempty : sent = ""
      · simp only [if_pos hempty]
        exact { h with seen := fun agent_id correlation => by rw [List.append_nil]; exact h.seen agent_id correlation }
      · simp only [if_neg hempty]
        refine { h with seen := fun agent_id correlation => ?_ }
        show correlation ∈ (Function.update c.seen env.to_agent _ agent_id).getD ∅ ↔ _
        rw [getD_update]
        by_cases hto : agent_id = env.to_agent
        · subst hto
          simp [h.seen, or_comm]
        · simp [h.seen, hto]

theorem Refines.push (h : Refines c q) (env : MessageEnvelope) :
    (c.push env).1 = (q.push env).1 ∧ Refines (c.push env).2 (q.push env).2 := by
  unfold DequeQueue.push InMemoryMessageQueue.push
  rw [h.available]
  cases q.available with
  | false => exact ⟨rfl, h⟩
  | true =>
      obtain ⟨hdeque, hbucket⟩ := h.bucket env.to_agent
      refine ⟨rfl, ?_⟩
      have happended : Refines ((c.bucket env.to_agent).2.set_deque env.to_agent ((c.bucket env.to_agent).1 ++ [env]))
          { q with queues := q.queues ++ [env] } := by
        apply hbucket.set_deque
        · rw [hdeque, List.filter_append]
          simp [InMemoryMessageQueue.bucket]
        · intro other hne
          rw [List.filter_append]
          simp [InMemoryMessageQueue.bucket, Ne.symm hne]
      exact (happended.see env).signal env.to_agent true

theorem Refines.pop (h : Refines c q) (agent_id : String) :
    (c.pop agent_id).1 = (q.pop agent_id).1 ∧ Refines (c.pop agent_id).2 (q.pop agent_id).2 := by
  obtain ⟨hdeque, hbucket⟩ := h.bucket agent_id
  have hpopped := InMemoryMessageQueue.bucket_popped q agent_id
  unfold InMemoryMessageQueue.bucket at hpopped
  rw [InMemoryMessageQueue.popped_queues] at hpopped
  rw [InMemoryMessageQueue.pop_eq]
  unfold DequeQueue.pop
  cases hq : q.bucket agent_id with
  | nil =>
      rw [hq] at hdeque
      simp only [hdeque]
      exact ⟨trivial, hbucket⟩
  | cons env rest =>
      rw [hq] at hdeque
      unfold InMemoryMessageQueue.bucket at hq
      rw [hq, List.tail_cons] at hpopped
      have htaken : Refines ((c.bucket agent_id).2.set_deque agent_id rest)
          { q with queues := q.queues.eraseP fun env => env.to_agent = agent_id } := by
        apply hbucket.set_deque hpopped.symm
        intro other hne
        have hother := @InMemoryMessageQueue.bucket_popped_ne q agent_id other hne
        unfold InMemoryMessageQueue.bucket at hother
        rw [InMemoryMessageQueue.popped_queues] at hother
        exact hother
      simp only [hdeque]
      refine ⟨trivial, ?_⟩
      unfold InMemoryMessageQueue.popped InMemoryMessageQueue.bucket
      dsimp only
      rw [hpopped]
      by_cases hlast : rest = []
      · rw [if_pos hlast, if_pos hlast]
        exact htaken.signal agent_id false
      · rw [if_neg hlast, if_neg hlast]
        exact htaken

/-- One call: the same reply, and related states. -/
theorem Refines.call (h : Refines c q) (call : QueueCall) :
    (c.call call).1 = (q.call call).1 ∧ Refines (c.call call).2 (q.call call).2 := by
  cases call with
  | is_available => exact ⟨congrArg QueueReply.flag h.available, h⟩
  | set_available value => exact ⟨rfl, { h with available := rfl }⟩
  | push env => exact ⟨congrArg QueueReply.of (h.push env).1, (h.push env).2⟩
  | pop agent_id => exact ⟨congrArg QueueReply.envelope (h.pop agent_id).1, (h.pop agent_id).2⟩
  | pending_count agent_id =>
      obtain ⟨hdeque, hbucket⟩ := h.bucket agent_id
      exact ⟨congrArg (fun deque => QueueReply.count (List.length deque)) hdeque, hbucket⟩
  | has_correlation agent_id correlation_id =>
      refine ⟨?_, h⟩
      have hseen := h.seen agent_id correlation_id
      apply congrArg QueueReply.flag
      rw [DequeQueue.has_correlation, InMemoryMessageQueue.has_correlation, decide_eq_decide.mpr hseen,
        List.contains_eq_mem]
  | to_dlq env reason now =>
      refine ⟨rfl, { h with dlq := ?_ }⟩
      show c.dlq ++ _ = q.dlq ++ _
      rw [h.dlq]
  | dlq => exact ⟨congrArg QueueReply.dead h.dlq, h⟩
  | wait agent_id => exact ⟨congrArg QueueReply.flag (h.wait agent_id).1, (h.wait agent_id).2⟩

/-- **The dicts cannot be told from the lists.** Every sequence of calls of the queue, from a new one, gets the same
    replies from the dicts of deques, sets and events as from the one list, and ends in related states. -/
theorem deques_refine (calls : List QueueCall) :
    output (fun c call => (DequeQueue.call c call).2) (fun c call => [(c.call call).1]) {} calls =
        output (fun q call => (InMemoryMessageQueue.call q call).2) (fun q call => [(q.call call).1]) {} calls ∧
      Refines (calls.foldl (fun c call => (c.call call).2) {}) (calls.foldl (fun q call => (q.call call).2) {}) := by
  apply output_of_simulates _ _ calls refines_empty
  · intro c q call h
    exact (h.call call).2
  · intro c q call h
    rw [(h.call call).1]

end DequeQueue

end Orchestrator

end CompanyFactory
