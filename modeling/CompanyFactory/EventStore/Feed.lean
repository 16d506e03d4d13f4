import CompanyFactory.EventStore.Store
import CompanyFactory.Lib.Run
import CompanyFactory.Lib.Tail

/-!
# `EventStore.Feed` — reading the log, and following it

`append` commits the row first and broadcasts it afterwards, outside of the transaction: `_broadcast` takes a
snapshot of the subscribers, and hands the event over with `call_soon_threadsafe`, which runs a callback on the
event loop later. Appends run in any thread (and a subscriber may append, too), so several events can be in
each of these stages at once, and overtake each other between them.

`Feed` is one subscription of one log; its labels are the moves of the appending threads and of the event loop.
With what the subscriber holds it is a `Tail` (`Feed.tail`), and its steps are harmless moves if no event passes
the subscription by and events are handed over in order (`feed_step`).
-/

namespace CompanyFactory

namespace EventStore

/-- The filters of `read`. -/
structure ReadFilter where
  since : Option Int := none
  until_id : Option Int := none
  kinds : List EventKind := []
  actor : Option String := none
  correlation : Option String := none

/-- The `WHERE` clause. -/
def ReadFilter.matches (filter : ReadFilter) (e : Event) : Bool :=
  filter.since.all (fun since => decide (since < (e.id : Int))) &&
    filter.until_id.all (fun until_id => decide ((e.id : Int) ≤ until_id)) &&
    (filter.kinds.isEmpty || filter.kinds.contains e.kind) &&
    filter.actor.all (fun actor => decide (e.actor_agent_id = some actor)) &&
    filter.correlation.all (fun correlation => decide (e.correlation_id = some correlation))

def read (filter : ReadFilter) (limit : Int) (st : EventStore) : Except Exn (List Event) :=
  if limit ≤ 0 then .error (.valueError "limit must be positive")
  else .ok ((st.log.filter filter.matches).take limit.toNat)

/-- The limit that both streams read their backlog with. -/
def BACKLOG_LIMIT : Nat := 10000

/-- `read(since=since, limit=10_000)` -/
def backlog (since : Int) (st : EventStore) : List Event :=
  (st.log.filter (fun e => decide (since < e.id))).take BACKLOG_LIMIT

theorem read_backlog (since : Int) (st : EventStore) :
    st.read { since := some since } BACKLOG_LIMIT = .ok (st.backlog since) := by
  have hmatches : ReadFilter.matches { since := some since } = fun e => decide (since < e.id) := by
    funext e
    simp [ReadFilter.matches]
  rw [read, hmatches]
  rfl

/-- The ids of the rows are 1, 2, 3 and so on. -/
def Numbered (st : EventStore) : Prop := st.log.map Event.id = List.range' 1 st.log.length

instance (st : EventStore) : Decidable st.Numbered :=
  inferInstanceAs (Decidable (st.log.map Event.id = List.range' 1 st.log.length))

theorem Numbered.sorted {st : EventStore} (h : st.Numbered) :
    st.log.Pairwise (fun x y => (x.id : Int) < y.id) := by
  have hids : (st.log.map Event.id).Pairwise (· < ·) := by
    rw [show st.log.map Event.id = _ from h]
    exact List.pairwise_lt_range'
  exact (List.pairwise_map.mp hids).imp fun hlt => by exact_mod_cast hlt

theorem Numbered.le_length {st : EventStore} (h : st.Numbered) {e : Event} (he : e ∈ st.log) :
    e.id ≤ st.log.length := by
  have hid : e.id ∈ st.log.map Event.id := List.mem_map_of_mem he
  rw [show st.log.map Event.id = _ from h, List.mem_range'_1] at hid
  omega

/-- What an append does to the log: nothing, or one row with the next id. -/
theorem append_log (post : Post) (st : EventStore) :
    (∃ e, (append post st).1 = .error e ∧ (append post st).2.log = st.log) ∨
      ∃ event, (append post st).1 = .ok event ∧ event.id = st.log.length + 1 ∧
        (append post st).2.log = st.log ++ [event] := by
  unfold append
  cases validate_payload post.kind post.payload with
  | error e => exact .inl ⟨e, rfl, rfl⟩
  | ok validated =>
      cases st.refuses st.attempts post with
      | some refusal => exact .inl ⟨_, rfl, rfl⟩
      | none => exact .inr ⟨_, rfl, rfl, rfl⟩

theorem Numbered.append {st : EventStore} (h : st.Numbered) (post : Post) :
    (EventStore.append post st).2.Numbered := by
  unfold Numbered
  rcases append_log post st with ⟨e, -, hlog⟩ | ⟨event, -, hid, hlog⟩
  · rw [hlog]
    exact h
  · rw [hlog, List.map_append, show st.log.map Event.id = _ from h, List.length_append]
    simp [hid, List.range'_concat, Nat.add_comm]

/-! ## What calls add to a log -/

/-- Rows of certain kinds have been added to the log, and nothing else has happened to it. -/
structure Appends (K : EventKind → Bool) (st st' : EventStore) : Prop where
  numbered : st.Numbered → st'.Numbered
  log : ∃ rows, st'.log = st.log ++ rows ∧ ∀ e ∈ rows, K e.kind = true

section Appends

variable {K : EventKind → Bool}

theorem Appends.refl (st : EventStore) : Appends K st st :=
  ⟨id, [], (List.append_nil _).symm, fun _ h => absurd h List.not_mem_nil⟩

theorem Appends.trans (a b c : EventStore) (hab : Appends K a b) (hbc : Appends K b c) : Appends K a c := by
  obtain ⟨hab, rows, hrows, hkinds⟩ := hab
  obtain ⟨hbc, more, hmore, hkinds'⟩ := hbc
  refine ⟨fun h => hbc (hab h), rows ++ more, ?_, List.forall_mem_append.mpr ⟨hkinds, hkinds'⟩⟩
  rw [hmore, hrows, List.append_assoc]

theorem Appends.mono {K' : EventKind → Bool} {st st' : EventStore} (h : Appends K st st')
    (hK : ∀ k, K k = true → K' k = true) : Appends K' st st' := by
  obtain ⟨hnum, rows, hrows, hkinds⟩ := h
  exact ⟨hnum, rows, hrows, fun e he => hK _ (hkinds e he)⟩

theorem append_appends {post : Post} (h : K post.kind = true) : Act.Moves (Appends K) (append post) := by
  intro st
  refine ⟨fun hnum => hnum.append post, ?_⟩
  rcases append_cases post st with ⟨e, -, -, hlog⟩ | ⟨event, -, hlog, hkind⟩
  · exact ⟨[], hlog.trans (List.append_nil _).symm, fun _ h => absurd h List.not_mem_nil⟩
  · refine ⟨[event], hlog, List.forall_mem_singleton.mpr ?_⟩
    rw [hkind]
    exact h

theorem appendAll_appends {posts : List Post} (h : ∀ p ∈ posts, K p.kind = true) :
    Act.Moves (Appends K) (appendAll posts) := by
  induction posts with
  | nil => exact .pure Appends.refl _
  | cons post posts ih =>
      refine .bind Appends.trans (append_appends (h post List.mem_cons_self)) fun _ => ?_
      exact ih fun p hp => h p (List.mem_cons_of_mem _ hp)

end Appends

end EventStore

/-! ## One subscription -/

/-- A log and one subscription of it. -/
structure Feed where
  store : EventStore
  /-- appended, and `_broadcast` has not taken its snapshot of the subscribers -/
  committed : List Event
  /-- the snapshot holds this subscription, and `call_soon_threadsafe` has not been called -/
  snapshots : List Event
  /-- the callbacks that wait for the event loop -/
  callbacks : List Event
  queue : List Event
  maxsize : Int
  subscribed : Bool

/-- `queue.full()`; a size that is not positive is no limit. -/
def is_full (maxsize : Int) (queue : List Event) : Bool :=
  decide (0 < maxsize) && decide (maxsize ≤ queue.length)

/-- `_enqueue`, and `_safe_put`: a full queue drops its oldest event first. -/
def put_dropping_oldest (maxsize : Int) (queue : List Event) (event : Event) : List Event :=
  let queue := if is_full maxsize queue then queue.tail else queue
  if is_full maxsize queue then queue else queue ++ [event]

inductive FeedLabel where
  /-- a thread commits an event -/
  | append (post : Post)
  /-- its thread looks at the subscribers -/
  | broadcast (event : Event)
  /-- its thread schedules the callback -/
  | deliver (event : Event)
  /-- the event loop runs the next callback -/
  | enqueue

namespace Feed

def append (post : Post) (f : Feed) : Feed :=
  match EventStore.append post f.store with
  | (.ok event, st) => { f with store := st, committed := f.committed ++ [event] }
  | (.error _, st) => { f with store := st }

def broadcast (event : Event) (f : Feed) : Feed :=
  if event ∈ f.committed then
    { f with
      committed := f.committed.erase event
      snapshots := if f.subscribed then f.snapshots ++ [event] else f.snapshots }
  else f

def deliver (event : Event) (f : Feed) : Feed :=
  if event ∈ f.snapshots then
    { f with snapshots := f.snapshots.erase event, callbacks := f.callbacks ++ [event] }
  else f

def enqueue (f : Feed) : Feed :=
  match f.callbacks with
  | [] => f
  | event :: rest =>
    { f with callbacks := rest, queue := put_dropping_oldest f.maxsize f.queue event }

def step (f : Feed) : FeedLabel → Feed
  | .append post => append post f
  | .broadcast event => broadcast event f
  | .deliver event => deliver event f
  | .enqueue => enqueue f

/-- A subscription that nothing has happened to. -/
def opened (store : EventStore) (maxsize : Int) : Feed :=
  { store, committed := [], snapshots := [], callbacks := [], queue := [], maxsize, subscribed := false }

/-- Nothing is on its way to the subscriber. -/
def Idle (f : Feed) : Prop :=
  f.committed = [] ∧ f.snapshots = [] ∧ f.callbacks = [] ∧ f.queue = []

/-- The buffer does not overflow. -/
def Fits (f : Feed) : FeedLabel → Prop
  | .enqueue => f.callbacks ≠ [] → is_full f.maxsize f.queue = false
  | _ => True

/-- The event is not asked for, or the subscriber has it already. -/
def Seen (since : Int) (held : List Event) (event : Event) : Prop :=
  (event.id : Int) ≤ since ∨ event ∈ held

/-- **The condition on a step.** Once the backlog has been read, no event passes the subscription by that is
    not in it, and an event is handed over only if the subscriber has it already or if it is newer than all
    that he has or that was handed over before. -/
def Careful (since : Int) (started : Bool) (held : List Event) (f : Feed) : FeedLabel → Prop
  | .broadcast event => f.subscribed = true ∨ started = false ∨ Seen since held event
  | .deliver event => started = false ∨ Seen since held event ∨
      ∀ x ∈ held ++ (f.queue ++ f.callbacks), x.id < event.id
  | _ => True

/-- The subscription and what its subscriber holds. -/
def tail (f : Feed) (started : Bool) (held yielded : List Event) : Tail Event :=
  { log := f.store.log, fresh := f.committed, flying := f.snapshots, inbox := f.queue ++ f.callbacks
    started, held, yielded }

/-- The order that events are kept in. -/
def key (event : Event) : Int := event.id

section

variable {f : Feed} {since : Int} {started : Bool} {held yielded : List Event}

theorem put_of_fits {maxsize : Int} {queue : List Event} (h : is_full maxsize queue = false)
    (event : Event) : put_dropping_oldest maxsize queue event = queue ++ [event] := by
  simp [put_dropping_oldest, h]

/-- **A careful step of the feed is harmless.** -/
theorem feed_step {l : FeedLabel} (hnum : f.store.Numbered) (hfits : f.Fits l)
    (hcareful : f.Careful since started held l) :
    Tail.Step key since (f.tail started held yielded) ((f.step l).tail started held yielded) := by
  cases l with
  | append post =>
      show Tail.Step key since _ ((append post f).tail started held yielded)
      unfold append
      rcases happ : EventStore.append post f.store with ⟨r, st⟩
      rcases EventStore.append_log post f.store with ⟨e, herr, hlog⟩ | ⟨event, hok, hid, hlog⟩
      · rw [happ] at herr hlog
        obtain rfl : r = .error e := herr
        have hsame : ({ f with store := st } : Feed).tail started held yielded =
            f.tail started held yielded := by simp only [tail, show st.log = _ from hlog]
        exact hsame ▸ .stays _
      · rw [happ] at hok hlog
        obtain rfl : r = .ok event := hok
        have hnewer : Tail.Newer key f.store.log event := by
          intro x hx
          have hle := hnum.le_length hx
          show (x.id : Int) < event.id
          omega
        have hstep : Tail.Step key since (f.tail started held yielded) _ := .logs _ event hnewer
        rw [show (f.tail started held yielded).log ++ [event] = st.log from hlog.symm] at hstep
        exact hstep
  | broadcast event =>
      show Tail.Step key since _ ((broadcast event f).tail started held yielded)
      unfold broadcast
      by_cases hmem : event ∈ f.committed
      · rw [if_pos hmem]
        by_cases hsub : f.subscribed = true
        · rw [if_pos hsub]
          exact .announces _ event hmem
        · rw [if_neg hsub]
          refine .misses _ event fun hstarted => ?_
          rcases hcareful with hsub' | hnot | hseen
          · exact absurd hsub' hsub
          · rw [show started = true from hstarted] at hnot
            cases hnot
          · exact hseen
      · rw [if_neg hmem]
        exact .stays _
  | deliver event =>
      show Tail.Step key since _ ((deliver event f).tail started held yielded)
      unfold deliver
      by_cases hmem : event ∈ f.snapshots
      · rw [if_pos hmem]
        have horder : started = true →
            Tail.Settled key since (f.tail started held yielded) event ∨
              Tail.Newer key (held ++ (f.queue ++ f.callbacks)) event := by
          intro hstarted
          rcases hcareful with hnot | hseen | hnewer
          · rw [hstarted] at hnot
            cases hnot
          · exact .inl hseen
          · refine .inr fun x hx => ?_
            show (x.id : Int) < event.id
            exact_mod_cast hnewer x hx
        have hstep := Tail.Step.hands (f.tail started held yielded) event hmem horder
        rw [show (f.tail started held yielded).inbox ++ [event] =
          f.queue ++ (f.callbacks ++ [event]) from List.append_assoc _ _ _] at hstep
        exact hstep
      · rw [if_neg hmem]
        exact .stays _
  | enqueue =>
      show Tail.Step key since _ ((enqueue f).tail started held yielded)
      unfold enqueue
      cases hcall : f.callbacks with
      | nil => exact .stays _
      | cons event rest =>
          have hfits' : is_full f.maxsize f.queue = false := hfits (by rw [hcall]; simp)
          have hsame : ({ f with
              callbacks := rest
              queue := put_dropping_oldest f.maxsize f.queue event } : Feed).tail started held yielded =
              f.tail started held yielded := by
            simp only [tail, put_of_fits hfits', hcall, List.append_assoc, List.singleton_append]
          dsimp only
          exact hsame ▸ .stays _

theorem step_numbered (hnum : f.store.Numbered) (l : FeedLabel) : (f.step l).store.Numbered := by
  cases l with
  | append post =>
      have h := hnum.append post
      show (append post f).store.Numbered
      unfold append
      rcases happ : EventStore.append post f.store with ⟨_ | _, st⟩ <;> rw [happ] at h <;> exact h
  | broadcast event =>
      show (broadcast event f).store.Numbered
      unfold broadcast
      split <;> exact hnum
  | deliver event =>
      show (deliver event f).store.Numbered
      unfold deliver
      split <;> exact hnum
  | enqueue =>
      show (enqueue f).store.Numbered
      unfold enqueue
      split <;> exact hnum

theorem step_subscribed (f : Feed) (l : FeedLabel) : (f.step l).subscribed = f.subscribed := by
  cases l with
  | append post =>
      show (append post f).subscribed = _
      unfold append
      rcases EventStore.append post f.store with ⟨_ | _, st⟩ <;> rfl
  | broadcast event =>
      show (broadcast event f).subscribed = _
      unfold broadcast
      split <;> rfl
  | deliver event =>
      show (deliver event f).subscribed = _
      unfold deliver
      split <;> rfl
  | enqueue =>
      show (enqueue f).subscribed = _
      unfold enqueue
      split <;> rfl

/-- Before anything has happened, nothing is lost. -/
theorem opened_joined {store : EventStore} (hnum : store.Numbered) (since maxsize : Int) :
    ((opened store maxsize).tail false [] []).Joined key since where
  log_sorted := hnum.sorted
  held_sorted := List.Pairwise.nil
  held_wanted := fun _ hheld => absurd hheld List.not_mem_nil
  yielded_prefix := List.prefix_refl _
  unread := fun _ => rfl
  known := by rintro e (h | h | h) <;> cases h
  complete := fun hstarted => Bool.noConfusion hstarted
  inbox_sorted := fun hstarted => Bool.noConfusion hstarted
  inbox_newer := fun hstarted => Bool.noConfusion hstarted

/-- When the feed is idle, a subscriber that has passed on all that he holds has passed on all that he asked
    for. -/
theorem idle_complete {events : List Event} (h : (f.tail true events events).Joined key since)
    (hidle : f.Idle) : events = f.store.log.filter (fun e => decide (since < e.id)) := by
  obtain ⟨hcomm, hsnap, hcall, hqueue⟩ := hidle
  refine h.at_rest rfl rfl ?_
  rintro e (he | he | he)
  · rw [show (f.tail true events events).fresh = [] from hcomm] at he
    cases he
  · rw [show (f.tail true events events).flying = [] from hsnap] at he
    cases he
  · rw [show (f.tail true events events).inbox = f.queue ++ f.callbacks from rfl, hqueue, hcall] at he
    cases he

/-! ### Coming to rest -/

/-- The work that is left between the log and the queue. -/
def work (f : Feed) : Nat :=
  4 * f.committed.length + 3 * f.snapshots.length + 2 * f.callbacks.length + f.queue.length

/-- The label is no append, and does not overflow the buffer. -/
def Internal (f : Feed) (l : FeedLabel) : Prop := (∀ post, l ≠ .append post) ∧ f.Fits l

/-- If the queue is empty and the feed is not idle, some internal step brings an event closer. -/
theorem exists_internal (hqueue : f.queue = []) (hidle : ¬ f.Idle) :
    ∃ l, f.Internal l ∧ (f.step l).work < f.work ∧ (f.step l).store = f.store := by
  have hfree : is_full f.maxsize f.queue = false := by
    rw [hqueue]
    simp [is_full]
  cases hcall : f.callbacks with
  | cons event rest =>
      refine ⟨.enqueue, ⟨fun _ => by simp, fun _ => hfree⟩, ?_, ?_⟩
      · simp [step, enqueue, hcall, work, put_of_fits hfree]
        omega
      · simp [step, enqueue, hcall]
  | nil =>
      cases hsnap : f.snapshots with
      | cons event rest =>
          refine ⟨.deliver event, ⟨fun _ => by simp, trivial⟩, ?_, ?_⟩
          · simp [step, deliver, hsnap, hcall, work]
            omega
          · simp [step, deliver, hsnap]
      | nil =>
          cases hcomm : f.committed with
          | cons event rest =>
              refine ⟨.broadcast event, ⟨fun _ => by simp, trivial⟩, ?_, ?_⟩
              · by_cases hsub : f.subscribed = true
                · simp [step, broadcast, hsnap, hcall, hcomm, hsub, work]
                  omega
                · simp [step, broadcast, hsnap, hcall, hcomm, hsub, work]
              · simp [step, broadcast, hcomm]
          | nil => exact absurd ⟨hcomm, hsnap, hcall, hqueue⟩ hidle

end

end Feed

end CompanyFactory
