import CompanyFactory.AgentRuntime.Models
import CompanyFactory.EventStore.Store
import Mathlib.Logic.Function.Basic

/-!
# `Orchestrator.Streams` — envelopes and the in-memory queue

The buckets of the queue are kept as one list in the order of the pushes: the bucket of an agent is the list
of the envelopes addressed to it (`bucket`), and `pop` takes the first one of them. A push raises while the
backend is offline; a pop and a move to the dead-letter queue never do.

The random id of an envelope is, in the model, the number of envelopes accepted before it.
-/

namespace CompanyFactory

namespace Orchestrator

structure MessageEnvelope where
  msg_id : Nat
  from_agent : Option String
  to_agent : String
  content : String
  kind : MessageKind
  correlation_id : Option String
  enqueued_at : Time
  attempts : Nat := 0
  deriving DecidableEq

/-- The envelope without its counter of attempts: what a retry leaves alone. -/
def MessageEnvelope.message (env : MessageEnvelope) : MessageEnvelope := { env with attempts := 0 }

structure DeadLetter where
  envelope : MessageEnvelope
  reason : String
  moved_at : Time
  deriving DecidableEq

structure InMemoryMessageQueue where
  /-- every queued envelope, in the order of the pushes -/
  queues : List MessageEnvelope := []
  /-- recipient and correlation id of every push -/
  seen : List (String × String) := []
  dlq : List DeadLetter := []
  available : Bool := true
  /-- is the waiter of the agent set? -/
  waiters : String → Bool := fun _ => false

namespace InMemoryMessageQueue

def bucket (q : InMemoryMessageQueue) (agent_id : String) : List MessageEnvelope :=
  q.queues.filter (fun env => env.to_agent = agent_id)

/-- What `push` adds to the correlation ids that were seen. -/
def correlation_of (env : MessageEnvelope) : List (String × String) :=
  match env.correlation_id with
  | none => []
  | some correlation => if correlation = "" then [] else [(env.to_agent, correlation)]

/-- `push`, while the backend is there. -/
def pushed (q : InMemoryMessageQueue) (env : MessageEnvelope) : InMemoryMessageQueue :=
  { q with
    queues := q.queues ++ [env], seen := q.seen ++ correlation_of env,
    waiters := Function.update q.waiters env.to_agent true }

def push (env : MessageEnvelope) : Act InMemoryMessageQueue Exn Unit := fun q =>
  if q.available then (.ok (), q.pushed env)
  else (.error (.redisUnavailable "queue offline"), q)

/-- The queue after the first envelope of the agent has been taken. -/
def popped (q : InMemoryMessageQueue) (agent_id : String) : InMemoryMessageQueue :=
  let q := { q with queues := q.queues.eraseP (fun env => env.to_agent = agent_id) }
  if q.bucket agent_id = [] then { q with waiters := Function.update q.waiters agent_id false }
  else q

def pop (q : InMemoryMessageQueue) (agent_id : String) :
    Option MessageEnvelope × InMemoryMessageQueue :=
  match q.queues.find? (fun env => env.to_agent = agent_id) with
  | none => (none, q)
  | some env => (some env, q.popped agent_id)

def has_correlation (q : InMemoryMessageQueue) (agent_id correlation_id : String) : Bool :=
  q.seen.contains (agent_id, correlation_id)

def to_dlq (q : InMemoryMessageQueue) (env : MessageEnvelope) (reason : String) (now : Time) :
    InMemoryMessageQueue :=
  { q with dlq := q.dlq ++ [{ envelope := env, reason, moved_at := now }] }

/-! ## Buckets and waiters -/

@[simp] theorem popped_dlq (q : InMemoryMessageQueue) (agent_id : String) :
    (q.popped agent_id).dlq = q.dlq := by
  unfold popped
  dsimp only
  split <;> rfl

@[simp] theorem popped_available (q : InMemoryMessageQueue) (agent_id : String) :
    (q.popped agent_id).available = q.available := by
  unfold popped
  dsimp only
  split <;> rfl

@[simp] theorem popped_queues (q : InMemoryMessageQueue) (agent_id : String) :
    (q.popped agent_id).queues = q.queues.eraseP (fun env => env.to_agent = agent_id) := by
  unfold popped
  dsimp only
  split <;> rfl

/-- `pop` takes the head of the bucket. -/
theorem pop_head (q : InMemoryMessageQueue) (agent_id : String) :
    (q.pop agent_id).1 = (q.bucket agent_id).head? := by
  have hhead : (q.bucket agent_id).head? =
      q.queues.find? (fun env => env.to_agent = agent_id) := List.head?_filter
  rw [hhead]
  unfold pop
  split
  · rename_i hnone
    exact hnone.symm
  · rename_i henv
    exact henv.symm

/-- An envelope that `pop` returns is the first one for the agent, and is taken out. -/
theorem pop_some {q q' : InMemoryMessageQueue} {agent_id : String} {env : MessageEnvelope}
    (h : q.pop agent_id = (some env, q')) :
    q.queues.find? (fun env => env.to_agent = agent_id) = some env ∧ q' = q.popped agent_id := by
  unfold pop at h
  split at h
  · cases h
  · rename_i env' hfind
    cases h
    exact ⟨hfind, rfl⟩

theorem bucket_of_pop {q q' : InMemoryMessageQueue} {agent_id : String} {env : MessageEnvelope}
    (h : q.pop agent_id = (some env, q')) : q.bucket agent_id ≠ [] := by
  have hhead := q.pop_head agent_id
  rw [h] at hhead
  intro hnil
  rw [hnil] at hhead
  cases hhead

theorem available_of_pop {q q' : InMemoryMessageQueue} {agent_id : String} {env : MessageEnvelope}
    (h : q.pop agent_id = (some env, q')) : q'.available = q.available := by
  rw [(pop_some h).2, popped_available]

/-- A non-empty bucket has its waiter set: a consumer that waits on it is woken. -/
def Awake (q : InMemoryMessageQueue) : Prop :=
  ∀ agent_id, q.bucket agent_id ≠ [] → q.waiters agent_id = true

theorem Awake.pushed {q : InMemoryMessageQueue} (h : q.Awake) (env : MessageEnvelope) :
    (q.pushed env).Awake := by
  intro agent_id hne
  show Function.update q.waiters env.to_agent true agent_id = true
  by_cases heq : agent_id = env.to_agent
  · rw [heq, Function.update_self]
  · rw [Function.update_of_ne heq]
    refine h agent_id fun hnil => hne ?_
    have hother : ¬ env.to_agent = agent_id := fun h => heq h.symm
    show (q.queues ++ [env]).filter _ = []
    rw [List.filter_append, List.append_eq_nil_iff]
    exact ⟨hnil, by simp [hother]⟩

/-- Taking an envelope of one agent leaves the other buckets alone. -/
theorem bucket_popped_ne {q : InMemoryMessageQueue} {agent_id other : String}
    (hne : other ≠ agent_id) : (q.popped agent_id).bucket other = q.bucket other := by
  unfold bucket
  rw [popped_queues]
  induction q.queues with
  | nil => rfl
  | cons env rest ih =>
      by_cases htaken : env.to_agent = agent_id
      · have hother : env.to_agent ≠ other := fun h => hne (h.symm.trans htaken)
        rw [List.eraseP_cons_of_pos (by simpa using htaken),
          List.filter_cons_of_neg (by simpa using hother)]
      · rw [List.eraseP_cons_of_neg (by simpa using htaken)]
        simp only [List.filter_cons, ih]

theorem Awake.popped {q : InMemoryMessageQueue} (h : q.Awake) (agent_id : String) :
    (q.popped agent_id).Awake := by
  intro other hne
  by_cases heq : other = agent_id
  · subst heq
    have hqueues : (q.popped other).bucket other =
        { q with queues := q.queues.eraseP (fun env => env.to_agent = other) }.bucket other := by
      unfold bucket
      rw [popped_queues]
    rw [hqueues] at hne
    have hbucket : q.bucket other ≠ [] := by
      intro hnil
      refine hne (List.eq_nil_of_sublist_nil ?_)
      rw [← hnil]
      exact List.Sublist.filter _ List.eraseP_sublist
    unfold InMemoryMessageQueue.popped
    dsimp only
    rw [if_neg hne]
    exact h other hbucket
  · rw [bucket_popped_ne heq] at hne
    have hset := h other hne
    unfold InMemoryMessageQueue.popped
    dsimp only
    split
    · show Function.update q.waiters agent_id false other = true
      rw [Function.update_of_ne heq]
      exact hset
    · exact hset

end InMemoryMessageQueue

end Orchestrator

end CompanyFactory
