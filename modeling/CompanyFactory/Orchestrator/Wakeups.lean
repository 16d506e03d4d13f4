import CompanyFactory.Lib.Run
import CompanyFactory.Orchestrator.Streams

/-!
# `Orchestrator.Wakeups` — who waits at the queue

`aiter` is a generator: it pops, yields what it has got, and waits for the flag of its agent where the bucket is empty.
A flag is an `asyncio.Event`: `set` ends the wait of everybody who waits for it (they go on later, and do not look at the
flag again), and `wait` returns at once while it is set. Between a `pop` that finds nothing and the wait nothing else
runs.

* `Attended` — **a flag is set exactly while its bucket holds a message**, and nobody waits at a set flag;
  `attended_run` says what follows over any interleaving of pushes, pops and generators.
* `woken_too_late` — the message that woke a generator may be gone when it goes on; then it waits again (`iterate_eq`).
-/

namespace CompanyFactory

open Act Machine

namespace Orchestrator

namespace InMemoryMessageQueue

/-! ## One bucket and its flag -/

theorem bucket_pushed (q : InMemoryMessageQueue) (env : MessageEnvelope) (agent_id : String) :
    (q.pushed env).bucket agent_id = if env.to_agent = agent_id then q.bucket agent_id ++ [env] else q.bucket agent_id := by
  show (q.queues ++ [env]).filter _ = _
  rw [List.filter_append]
  split
  · rename_i h
    simp [bucket, h]
  · rename_i h
    simp [bucket, h]

theorem bucket_popped (q : InMemoryMessageQueue) (agent_id : String) :
    (q.popped agent_id).bucket agent_id = (q.bucket agent_id).tail := by
  unfold bucket
  rw [popped_queues]
  induction q.queues with
  | nil => rfl
  | cons env rest ih =>
    by_cases htaken : env.to_agent = agent_id
    · rw [List.eraseP_cons_of_pos (by simpa using htaken), List.filter_cons_of_pos (by simpa using htaken),
        List.tail_cons]
    · rw [List.eraseP_cons_of_neg (by simpa using htaken), List.filter_cons_of_neg (by simpa using htaken),
        List.filter_cons_of_neg (by simpa using htaken), ih]

theorem waiters_popped (q : InMemoryMessageQueue) (agent_id : String) : (q.popped agent_id).waiters =
    if (q.bucket agent_id).tail = [] then Function.update q.waiters agent_id false else q.waiters := by
  have hbucket : { q with queues := q.queues.eraseP (fun env => env.to_agent = agent_id) }.bucket agent_id =
      (q.bucket agent_id).tail := by
    rw [← bucket_popped]
    unfold bucket
    rw [popped_queues]
  unfold popped
  dsimp only
  rw [hbucket]
  split <;> rfl

/-- What `pop` does: nothing, or it takes the head of the bucket. -/
theorem pop_eq (q : InMemoryMessageQueue) (agent_id : String) : q.pop agent_id =
    match q.bucket agent_id with
    | [] => (none, q)
    | env :: _ => (some env, q.popped agent_id) := by
  have hhead : q.queues.find? (fun env => env.to_agent = agent_id) = (q.bucket agent_id).head? := List.head?_filter.symm
  unfold pop
  rw [hhead]
  cases q.bucket agent_id <;> rfl

/-- A flag is set exactly while its bucket holds a message. -/
def Signalled (q : InMemoryMessageQueue) : Prop := ∀ agent_id, q.waiters agent_id = true ↔ q.bucket agent_id ≠ []

theorem Signalled.unset {q : InMemoryMessageQueue} (h : q.Signalled) {agent_id : String} (hempty : q.bucket agent_id = []) :
    q.waiters agent_id = false := by
  rw [← Bool.not_eq_true]
  exact fun hset => (h agent_id).mp hset hempty

theorem Signalled.pushed {q : InMemoryMessageQueue} (h : q.Signalled) (env : MessageEnvelope) : (q.pushed env).Signalled := by
  intro agent_id
  rw [bucket_pushed]
  show Function.update q.waiters env.to_agent true agent_id = true ↔ _
  by_cases heq : env.to_agent = agent_id
  · rw [if_pos heq, heq, Function.update_self]
    exact iff_of_true rfl (List.concat_ne_nil _ _)
  · rw [if_neg heq, Function.update_of_ne (Ne.symm heq)]
    exact h agent_id

theorem Signalled.popped {q : InMemoryMessageQueue} (h : q.Signalled) (agent_id : String) :
    (q.popped agent_id).Signalled := by
  intro other
  rw [waiters_popped]
  by_cases heq : other = agent_id
  · subst heq
    rw [bucket_popped]
    split
    · rename_i hlast
      rw [Function.update_self]
      exact iff_of_false Bool.false_ne_true (fun hne => hne hlast)
    · rename_i hmore
      refine iff_of_true ((h other).mpr ?_) hmore
      intro hnil
      rw [hnil] at hmore
      exact hmore rfl
  · rw [bucket_popped_ne heq]
    split
    · rw [Function.update_of_ne heq]
      exact h other
    · exact h other

theorem Signalled.pop {q : InMemoryMessageQueue} (h : q.Signalled) (agent_id : String) : (q.pop agent_id).2.Signalled := by
  rw [pop_eq]
  split
  · exact h
  · exact h.popped agent_id

end InMemoryMessageQueue

/-! ## Generators -/

/-- Where a generator of `aiter` is. -/
inductive Place where
  /-- at the head of its loop -/
  | looking
  /-- in `wait`, and nothing has ended the wait yet -/
  | waiting
  /-- its wait is over; it will go on at the head of the loop -/
  | woken
  | yielded (env : MessageEnvelope)
  | closed
  deriving DecidableEq

structure Iterator where
  agent_id : String
  place : Place
  /-- how often its wait has ended -/
  wakes : Nat
  /-- how often it has found its bucket empty -/
  misses : Nat
  deriving DecidableEq

namespace Iterator

/-- `wait` is over. -/
def wake (agent_id : String) (it : Iterator) : Iterator :=
  if it.agent_id = agent_id ∧ it.place = .waiting then { it with place := .woken, wakes := it.wakes + 1 } else it

/-- One pass of the loop; while the flag is set, `wait` returns at once. -/
def look (it : Iterator) (q : InMemoryMessageQueue) : Iterator × InMemoryMessageQueue :=
  match q.pop it.agent_id with
  | (some env, q) => ({ it with place := .yielded env }, q)
  | (none, q) =>
    ({ it with place := if q.waiters it.agent_id then .looking else .waiting, misses := it.misses + 1 }, q)

/-- Is it the generator's turn? One that has yielded is asked for the next message. -/
def goes (it : Iterator) : Bool :=
  match it.place with
  | .looking | .woken | .yielded _ => true
  | .waiting | .closed => false

end Iterator

/-- A queue, the generators over it, and every message that was pushed. -/
structure Watch where
  queue : InMemoryMessageQueue
  iterators : List Iterator
  pushed : List MessageEnvelope

namespace Watch

def new : Watch := { queue := {}, iterators := [], pushed := [] }

inductive Label where
  | push (env : MessageEnvelope)
  | pop (agent_id : String)
  | aiter (agent_id : String)
  | iterate (n : Nat)
  | close (n : Nat)
  | set_available (value : Bool)

/-- `push`; a flag that was set already ends no wait. -/
def push (env : MessageEnvelope) (w : Watch) : Watch :=
  match InMemoryMessageQueue.push env w.queue with
  | (.ok (), queue) =>
    { queue
      iterators := if w.queue.waiters env.to_agent then w.iterators else w.iterators.map (Iterator.wake env.to_agent)
      pushed := w.pushed ++ [env] }
  | (.error _, queue) => { w with queue }

def iterate (n : Nat) (w : Watch) : Watch :=
  match w.iterators[n]? with
  | none => w
  | some it =>
    if it.goes then { w with queue := (it.look w.queue).2, iterators := w.iterators.set n (it.look w.queue).1 } else w

def close (n : Nat) (w : Watch) : Watch :=
  match w.iterators[n]? with
  | none => w
  | some it => { w with iterators := w.iterators.set n { it with place := .closed } }

def step (w : Watch) : Label → Watch
  | .push env => push env w
  | .pop agent_id => { w with queue := (w.queue.pop agent_id).2 }
  | .aiter agent_id => { w with iterators := w.iterators ++ [{ agent_id, place := .looking, wakes := 0, misses := 0 }] }
  | .iterate n => iterate n w
  | .close n => close n w
  | .set_available value => { w with queue := { w.queue with available := value } }

/-! ## The invariant -/

/-- The generator does not wait at a set flag, its wake-ups are paid for by pushes, and its misses by wake-ups. -/
structure Fair (q : InMemoryMessageQueue) (pushed : List MessageEnvelope) (it : Iterator) : Prop where
  waiting : it.place = .waiting → q.waiters it.agent_id = false
  wakes : it.wakes ≤ pushed.countP fun env => env.to_agent = it.agent_id
  misses : it.misses ≤ it.wakes + 1
  goes : it.goes = true → it.misses ≤ it.wakes

structure Attended (w : Watch) : Prop where
  signalled : w.queue.Signalled
  fair : ∀ it ∈ w.iterators, Fair w.queue w.pushed it

theorem new_attended : Attended new where
  signalled := fun _ => iff_of_false Bool.false_ne_true fun h => h rfl
  fair := by
    intro it hit
    cases hit

theorem fair_new (q : InMemoryMessageQueue) (pushed : List MessageEnvelope) (agent_id : String) :
    Fair q pushed { agent_id, place := .looking, wakes := 0, misses := 0 } where
  waiting := by
    intro h
    cases h
  wakes := Nat.zero_le _
  misses := Nat.zero_le _
  goes := fun _ => Nat.zero_le _

/-- With a flag that tells the truth, one pass of the loop yields a message or waits. -/
theorem look_eq {q : InMemoryMessageQueue} (h : q.Signalled) (it : Iterator) : it.look q =
    match q.bucket it.agent_id with
    | [] => ({ it with place := .waiting, misses := it.misses + 1 }, q)
    | env :: _ => ({ it with place := .yielded env }, q.popped it.agent_id) := by
  unfold Iterator.look
  rw [InMemoryMessageQueue.pop_eq]
  cases hbucket : q.bucket it.agent_id with
  | nil =>
    simp [h.unset hbucket]
  | cons env rest => rfl

/-- A pop sets no flag. -/
theorem waiters_popped_false {q : InMemoryMessageQueue} (agent_id : String) {other : String}
    (h : q.waiters other = false) : (q.popped agent_id).waiters other = false := by
  rw [InMemoryMessageQueue.waiters_popped]
  split
  · by_cases heq : other = agent_id
    · rw [heq, Function.update_self]
    · rw [Function.update_of_ne heq]
      exact h
  · exact h

theorem waiters_pop {q : InMemoryMessageQueue} (agent_id : String) {other : String} (h : q.waiters other = false) :
    (q.pop agent_id).2.waiters other = false := by
  rw [InMemoryMessageQueue.pop_eq]
  split
  · exact h
  · exact waiters_popped_false agent_id h

/-- What a push that goes through does to each generator. -/
theorem push_iterators {env : MessageEnvelope} {w : Watch} (h : w.queue.available = true) : push env w =
    { queue := w.queue.pushed env
      iterators := w.iterators.map fun it => if w.queue.waiters env.to_agent then it else it.wake env.to_agent
      pushed := w.pushed ++ [env] } := by
  unfold push InMemoryMessageQueue.push
  rw [if_pos h]
  dsimp only
  split
  · rw [List.map_id']
  · rfl

theorem push_offline {env : MessageEnvelope} {w : Watch} (h : w.queue.available = false) : push env w = w := by
  unfold push InMemoryMessageQueue.push
  rw [h]
  rfl

/-- A push that sets the flag ends the wait of everybody who waits for it. -/
theorem fair_push {q : InMemoryMessageQueue} {pushed : List MessageEnvelope} {it : Iterator} (h : Fair q pushed it)
    (env : MessageEnvelope) :
    Fair (q.pushed env) (pushed ++ [env]) (if q.waiters env.to_agent then it else it.wake env.to_agent) := by
  have hcount : (pushed ++ [env]).countP (fun env => env.to_agent = it.agent_id) =
      pushed.countP (fun env => env.to_agent = it.agent_id) + if env.to_agent = it.agent_id then 1 else 0 := by
    simp [List.countP_append, List.countP_singleton]
  have hwakes := h.wakes
  by_cases hwoken : q.waiters env.to_agent = false ∧ it.agent_id = env.to_agent ∧ it.place = .waiting
  · obtain ⟨hflag, hagent, hplace⟩ := hwoken
    have hit : (if q.waiters env.to_agent then it else it.wake env.to_agent) =
        { it with place := .woken, wakes := it.wakes + 1 } := by
      rw [hflag, if_neg Bool.false_ne_true, Iterator.wake, if_pos ⟨hagent, hplace⟩]
    rw [hit]
    refine ⟨nofun, ?_, Nat.le_succ_of_le h.misses, fun _ => h.misses⟩
    rw [hcount, if_pos hagent.symm]
    exact Nat.succ_le_succ hwakes
  · have hit : (if q.waiters env.to_agent then it else it.wake env.to_agent) = it := by
      split
      · rfl
      · rename_i hflag
        exact if_neg fun hwait => hwoken ⟨by simpa using hflag, hwait⟩
    rw [hit]
    refine ⟨fun hwait => ?_, ?_, h.misses, h.goes⟩
    · have hother : it.agent_id ≠ env.to_agent := fun hagent =>
        hwoken ⟨hagent ▸ h.waiting hwait, hagent, hwait⟩
      exact (Function.update_of_ne hother true q.waiters).trans (h.waiting hwait)
    · rw [hcount]
      exact Nat.le_add_right_of_le hwakes

theorem push_attended (env : MessageEnvelope) {w : Watch} (h : Attended w) : Attended (push env w) := by
  cases havailable : w.queue.available with
  | false => rw [push_offline havailable]; exact h
  | true =>
    rw [push_iterators havailable]
    refine ⟨h.signalled.pushed env, ?_⟩
    intro it' hit'
    obtain ⟨it, hit, rfl⟩ := List.mem_map.mp hit'
    exact fair_push (h.fair it hit) env

/-- A generator that is not touched by a step that sets no flag. -/
theorem Fair.of_pop {q q' : InMemoryMessageQueue} {pushed : List MessageEnvelope} {it : Iterator} (h : Fair q pushed it)
    (hflag : q.waiters it.agent_id = false → q'.waiters it.agent_id = false) : Fair q' pushed it :=
  ⟨fun hwait => hflag (h.waiting hwait), h.wakes, h.misses, h.goes⟩

/-- One generator has moved. -/
theorem fair_set {q : InMemoryMessageQueue} {pushed : List MessageEnvelope} {iterators : List Iterator} {it : Iterator}
    (hothers : ∀ other ∈ iterators, Fair q pushed other) (hit : Fair q pushed it) (n : Nat) :
    ∀ other ∈ iterators.set n it, Fair q pushed other := by
  intro other hother
  rcases List.mem_or_eq_of_mem_set hother with hold | rfl
  · exact hothers other hold
  · exact hit

theorem iterate_attended (n : Nat) {w : Watch} (h : Attended w) : Attended (iterate n w) := by
  unfold iterate
  split
  · exact h
  · rename_i it hn
    have hit := h.fair it (List.mem_of_getElem? hn)
    split
    · rename_i hgoes
      have hmisses := hit.goes hgoes
      rw [look_eq h.signalled]
      cases hbucket : w.queue.bucket it.agent_id with
      | nil =>
        refine ⟨h.signalled, fair_set h.fair ?_ n⟩
        -- the bucket is empty, so its flag is not set
        exact ⟨fun _ => h.signalled.unset hbucket, hit.wakes, Nat.succ_le_succ hmisses, nofun⟩
      | cons env rest =>
        refine ⟨h.signalled.popped it.agent_id, fair_set ?_ ?_ n⟩
        · exact fun other hother => (h.fair other hother).of_pop (waiters_popped_false it.agent_id)
        · exact ⟨nofun, hit.wakes, hit.misses, fun _ => hmisses⟩
    · exact h

theorem close_attended (n : Nat) {w : Watch} (h : Attended w) : Attended (close n w) := by
  unfold close
  split
  · exact h
  · rename_i it hn
    have hit := h.fair it (List.mem_of_getElem? hn)
    refine ⟨h.signalled, fair_set h.fair ?_ n⟩
    exact ⟨nofun, hit.wakes, hit.misses, nofun⟩

theorem attended_step (w : Watch) (label : Label) (h : Attended w) : Attended (step w label) := by
  cases label with
  | push env => exact push_attended env h
  | iterate n => exact iterate_attended n h
  | close n => exact close_attended n h
  | set_available value => exact ⟨h.signalled, fun it hit => (h.fair it hit).of_pop id⟩
  | pop agent_id =>
    exact ⟨h.signalled.pop agent_id, fun it hit => (h.fair it hit).of_pop (waiters_pop agent_id)⟩
  | aiter agent_id =>
    refine ⟨h.signalled, fun it hit => ?_⟩
    rcases List.mem_append.mp hit with hold | hnew
    · exact h.fair it hold
    · rw [List.mem_singleton.mp hnew]
      exact fair_new w.queue w.pushed agent_id

/-! ## Runs -/

theorem attended_exec (labels : List Label) : Attended (exec step new labels) :=
  exec_invariant attended_step new_attended labels

/-- Nobody waits while there is a message. -/
theorem Attended.bucket_of_waiting {w : Watch} (h : Attended w) {it : Iterator} (hit : it ∈ w.iterators)
    (hwait : it.place = .waiting) : w.queue.bucket it.agent_id = [] := by
  have hflag := (h.fair it hit).waiting hwait
  by_contra hne
  have hset := (h.signalled it.agent_id).mpr hne
  rw [hflag] at hset
  cases hset

/-- What can end a wait: the generator is closed, or a push puts a message into its bucket. -/
theorem waiting_step {w : Watch} (h : Attended w) {n : Nat} {it : Iterator} (hn : w.iterators[n]? = some it)
    (hwait : it.place = .waiting) (label : Label) :
    (step w label).iterators[n]? = some it ∨
      (label = .close n ∧ (step w label).iterators[n]? = some { it with place := .closed }) ∨
      ∃ env, label = .push env ∧ env.to_agent = it.agent_id ∧ env ∈ (step w label).queue.bucket it.agent_id ∧
        (step w label).iterators[n]? = some { it with place := .woken, wakes := it.wakes + 1 } := by
  cases label with
  | set_available value => exact .inl hn
  | pop agent_id => exact .inl hn
  | aiter agent_id => exact .inl ((List.getElem?_append_left (List.getElem?_eq_some_iff.mp hn).1).trans hn)
  | iterate m =>
    refine .inl ?_
    show (iterate m w).iterators[n]? = some it
    unfold iterate
    split
    · exact hn
    · rename_i other hm
      split
      · rename_i hgoes
        -- a generator that waits does not go on
        have hne : m ≠ n := by
          rintro rfl
          obtain rfl : it = other := Option.some.inj (hn.symm.trans hm)
          rw [Iterator.goes, hwait] at hgoes
          cases hgoes
        exact (List.getElem?_set_ne hne).trans hn
      · exact hn
  | close m =>
    show (close m w).iterators[n]? = some it ∨ (_ ∧ (close m w).iterators[n]? = _) ∨ _
    by_cases hm : m = n
    · subst hm
      refine .inr (.inl ⟨rfl, ?_⟩)
      unfold close
      rw [hn]
      exact List.getElem?_set_self (List.getElem?_eq_some_iff.mp hn).1
    · refine .inl ?_
      unfold close
      split
      · exact hn
      · exact (List.getElem?_set_ne hm).trans hn
  | push env =>
    cases havailable : w.queue.available with
    | false => exact .inl ((congrArg (·.iterators[n]?) (push_offline havailable)).trans hn)
    | true =>
      have hflag := (h.fair it (List.mem_of_getElem? hn)).waiting hwait
      show (push env w).iterators[n]? = some it ∨ _ ∨
        ∃ env', _ ∧ _ ∧ env' ∈ (push env w).queue.bucket it.agent_id ∧ (push env w).iterators[n]? = _
      rw [push_iterators havailable]
      dsimp only
      rw [List.getElem?_map, hn, Option.map_some]
      by_cases hagent : env.to_agent = it.agent_id
      · refine .inr (.inr ⟨env, rfl, hagent, ?_, ?_⟩)
        · rw [InMemoryMessageQueue.bucket_pushed, if_pos hagent]
          exact List.mem_concat_self
        · rw [hagent, hflag, if_neg Bool.false_ne_true, Iterator.wake, if_pos ⟨rfl, hwait⟩]
      · refine .inl ?_
        split
        · rfl
        · rw [Iterator.wake, if_neg fun hwake => hagent hwake.1.symm]

/-- A generator that goes on takes the head of its bucket, or waits. -/
theorem iterate_eq {w : Watch} (h : Attended w) {n : Nat} {it : Iterator} (hn : w.iterators[n]? = some it)
    (hgoes : it.goes = true) : iterate n w =
      match w.queue.bucket it.agent_id with
      | [] => { w with iterators := w.iterators.set n { it with place := .waiting, misses := it.misses + 1 } }
      | env :: _ =>
        { w with
          queue := w.queue.popped it.agent_id
          iterators := w.iterators.set n { it with place := .yielded env } } := by
  unfold iterate
  rw [hn]
  dsimp only
  rw [if_pos hgoes, look_eq h.signalled]
  cases w.queue.bucket it.agent_id <;> rfl

/-- **No lost wake-up, and no spinning.** Over any interleaving a flag is set exactly while its bucket holds a message.
    A generator that waits has an empty bucket, and only a push that puts a message there wakes it. When a generator
    goes on it takes the head of its bucket, or waits where there is none; so it finds its bucket empty at most once
    more than messages were pushed for it. -/
theorem attended_run (labels : List Label) :
    (∀ agent_id, (exec step new labels).queue.waiters agent_id = true ↔
      (exec step new labels).queue.bucket agent_id ≠ []) ∧
    ∀ (n : Nat) (it : Iterator), (exec step new labels).iterators[n]? = some it →
      (it.place = .waiting → (exec step new labels).queue.bucket it.agent_id = [] ∧
        ∀ label, (exec step new (labels ++ [label])).iterators[n]? = some it ∨
          (label = .close n ∧
            (exec step new (labels ++ [label])).iterators[n]? = some { it with place := .closed }) ∨
          ∃ env, label = .push env ∧ env.to_agent = it.agent_id ∧
            env ∈ (exec step new (labels ++ [label])).queue.bucket it.agent_id ∧
            (exec step new (labels ++ [label])).iterators[n]? =
              some { it with place := .woken, wakes := it.wakes + 1 }) ∧
      (it.goes = true → exec step new (labels ++ [.iterate n]) =
        match (exec step new labels).queue.bucket it.agent_id with
        | [] =>
          { exec step new labels with
            iterators := (exec step new labels).iterators.set n
              { it with place := .waiting, misses := it.misses + 1 } }
        | env :: _ =>
          { exec step new labels with
            queue := (exec step new labels).queue.popped it.agent_id
            iterators := (exec step new labels).iterators.set n { it with place := .yielded env } }) ∧
      it.misses ≤ (exec step new labels).pushed.countP (fun env => env.to_agent = it.agent_id) + 1 := by
  have h := attended_exec labels
  refine ⟨h.signalled, fun n it hn => ⟨fun hwait => ⟨?_, fun label => ?_⟩, fun hgoes => ?_, ?_⟩⟩
  · exact h.bucket_of_waiting (List.mem_of_getElem? hn) hwait
  · rw [exec_snoc]
    exact waiting_step h hn hwait label
  · rw [exec_snoc]
    exact iterate_eq h hn hgoes
  · have hit := h.fair it (List.mem_of_getElem? hn)
    calc it.misses ≤ it.wakes + 1 := hit.misses
      _ ≤ _ := Nat.succ_le_succ hit.wakes

/-- The message that woke a generator is gone when somebody else has popped it first. -/
theorem woken_too_late : ¬ ∀ labels : List Label,
    (∀ agent_id, (exec step new labels).queue.waiters agent_id = true ↔
      (exec step new labels).queue.bucket agent_id ≠ []) ∧
    ∀ it ∈ (exec step new labels).iterators,
      (it.place = .waiting → (exec step new labels).queue.bucket it.agent_id = []) ∧
      (it.place = .woken → (exec step new labels).queue.bucket it.agent_id ≠ []) := by
  intro h
  let env : MessageEnvelope :=
    { msg_id := 0, from_agent := none, to_agent := "a", content := "", kind := .USER_REQUEST, correlation_id := none,
      enqueued_at := 0 }
  have hlate := (h [.aiter "a", .iterate 0, .push env, .pop "a"]).2
    { agent_id := "a", place := .woken, wakes := 1, misses := 1 } (by decide)
  exact hlate.2 rfl (by decide)

end Watch

end Orchestrator

end CompanyFactory
