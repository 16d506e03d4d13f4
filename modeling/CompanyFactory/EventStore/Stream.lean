import CompanyFactory.EventStore.Feed

/-!
# `EventStore.Stream` — the live tail of the log

`stream` is an asynchronous generator: it reads a backlog of at most 10 000 events, yields it one by one,
registers its subscription **after that**, and then yields what comes through the queue and is newer than the
last it has yielded. Between any two of these steps other threads append and broadcast, and the event loop runs
callbacks; a run is any list of labels.

Three things can lose an event: it comes after the 10 000 of the backlog, its broadcast looks at the
subscriptions between the read and the registration, or it is handed over after a newer one. In a run without
any of them the stream is complete (`stream_complete`).
-/

namespace CompanyFactory

open Machine

/-- Where the generator stands. -/
inductive StreamReader where
  /-- not started -/
  | created
  /-- in `for evt in backlog` -/
  | draining (backlog rest : List Event)
  /-- registered, in `while True` -/
  | live (last_id : Int)

structure EventStream where
  feed : Feed
  since : Int
  reader : StreamReader
  yielded : List Event

inductive StreamLabel where
  | feed (label : FeedLabel)
  /-- the generator goes on to its next suspension point -/
  | pull

namespace EventStream

/-- `last_id = backlog[-1].id if backlog else since` -/
def last_of (since : Int) (backlog : List Event) : Int :=
  match backlog.getLast? with
  | some event => event.id
  | none => since

def pull (s : EventStream) : EventStream :=
  match s.reader with
  | .created =>
    let backlog := s.feed.store.backlog s.since
    { s with reader := .draining backlog backlog }
  | .draining backlog (event :: rest) =>
    { s with reader := .draining backlog rest, yielded := s.yielded ++ [event] }
  | .draining backlog [] =>
    { s with reader := .live (last_of s.since backlog), feed := { s.feed with subscribed := true } }
  | .live last_id =>
    match s.feed.queue with
    | [] => s
    | event :: queue =>
      let s := { s with feed := { s.feed with queue } }
      if (event.id : Int) ≤ last_id then s
      else { s with reader := .live event.id, yielded := s.yielded ++ [event] }

def step (s : EventStream) : StreamLabel → EventStream
  | .feed label => { s with feed := s.feed.step label }
  | .pull => pull s

/-- `stream(since)` before its first step; a size of `maxsize` slots for the queue. -/
def opened (store : EventStore) (since maxsize : Int) : EventStream :=
  { feed := .opened store maxsize, since, reader := .created, yielded := [] }

/-- Has the backlog been read? -/
def started (s : EventStream) : Bool :=
  match s.reader with
  | .created => false
  | _ => true

/-- What the stream has taken: the backlog first, and then what it has yielded. -/
def held (s : EventStream) : List Event :=
  match s.reader with
  | .created => []
  | .draining backlog _ => backlog
  | .live _ => s.yielded

/-- The stream waits for an event, and none is on its way. -/
def AtRest (s : EventStream) : Prop := (∃ last_id, s.reader = .live last_id) ∧ s.feed.Idle

/-- The live buffer does not overflow. -/
def Fits (s : EventStream) : StreamLabel → Prop
  | .feed label => s.feed.Fits label
  | .pull => True

/-- **The condition on a step.** The backlog is read while it has at most 10 000 events; no later event passes
    the stream by before it has registered; and events are handed over in order. -/
def Careful (s : EventStream) : StreamLabel → Prop
  | .feed label => s.feed.Careful s.since s.started s.held label
  | .pull => s.started = false →
      (s.feed.store.log.filter (fun e => decide (s.since < e.id))).length ≤ EventStore.BACKLOG_LIMIT

/-- What the stream yields is asked for and in order, and everything that is has been yielded when the stream
    is at rest. -/
structure Complete (s : EventStream) : Prop where
  in_order : s.yielded.Pairwise (fun x y => x.id < y.id)
  wanted : ∀ e ∈ s.yielded, e ∈ s.feed.store.log ∧ s.since < e.id
  caught_up : s.AtRest → s.yielded = s.feed.store.log.filter (fun e => decide (s.since < e.id))

def tail (s : EventStream) : Tail Event := s.feed.tail s.started s.held s.yielded

/-- What the position of the generator says about the rest of its state. -/
def Position (s : EventStream) : Prop :=
  match s.reader with
  | .created => s.feed.subscribed = false ∧ s.yielded = []
  | .draining backlog rest => s.feed.subscribed = false ∧ backlog = s.yielded ++ rest
  | .live last_id => s.feed.subscribed = true ∧
      ∀ n, last_id < n ↔ s.since < n ∧ ∀ x ∈ s.yielded, (x.id : Int) < n

/-- The invariant of the runs whose steps meet the condition. -/
structure Inv (s : EventStream) : Prop where
  numbered : s.feed.store.Numbered
  position : s.Position
  joined : s.tail.Joined Feed.key s.since

/-- The last id of a sorted backlog is above all others. -/
theorem lt_last_of {since : Int} {backlog : List Event}
    (hsorted : backlog.Pairwise (fun x y => (x.id : Int) < y.id))
    (habove : ∀ e ∈ backlog, since < (e.id : Int)) (n : Int) :
    last_of since backlog < n ↔ since < n ∧ ∀ x ∈ backlog, (x.id : Int) < n := by
  unfold last_of
  rcases List.eq_nil_or_concat' backlog with rfl | ⟨init, last, rfl⟩
  · simp
  · have hlast : (init ++ [last]).getLast? = some last := by simp
    rw [hlast]
    dsimp only
    obtain ⟨-, -, hinit⟩ := List.pairwise_append.mp hsorted
    constructor
    · intro hn
      refine ⟨(habove last (by simp)).trans hn, fun x hx => ?_⟩
      rcases Tail.mem_snoc.mp hx with hx | rfl
      · exact (hinit x hx last (by simp)).trans hn
      · exact hn
    · exact fun h => h.2 last (by simp)

theorem feed_tail {s : EventStream} {label : FeedLabel} (hinv : s.Inv) (hfits : s.feed.Fits label)
    (hcareful : s.feed.Careful s.since s.started s.held label) :
    Tail.Step Feed.key s.since s.tail (s.step (.feed label)).tail :=
  Feed.feed_step hinv.numbered hfits hcareful

theorem feed_position {s : EventStream} (label : FeedLabel) (h : s.Position) :
    (s.step (.feed label)).Position := by
  show match s.reader with
    | .created => (s.feed.step label).subscribed = false ∧ s.yielded = []
    | .draining backlog rest => (s.feed.step label).subscribed = false ∧ backlog = s.yielded ++ rest
    | .live last_id => (s.feed.step label).subscribed = true ∧
        ∀ n, last_id < n ↔ s.since < n ∧ ∀ x ∈ s.yielded, (x.id : Int) < n
  rw [Feed.step_subscribed]
  exact h

/-- What one step of the generator establishes. -/
structure PullSpec (s : EventStream) : Prop where
  moves : Tail.Step Feed.key s.since s.tail s.pull.tail
  position : s.pull.Position
  since : s.pull.since = s.since
  store : s.pull.feed.store = s.feed.store

section

variable {feed : Feed} {since : Int} {yielded backlog : List Event}

theorem pull_created (hinv : Inv { feed, since, reader := .created, yielded })
    (hfew : (feed.store.log.filter (fun e => decide (since < e.id))).length ≤
      EventStore.BACKLOG_LIMIT) : PullSpec { feed, since, reader := .created, yielded } := by
  obtain ⟨hsub, hnil⟩ := hinv.position
  have hbacklog : feed.store.backlog since = Tail.wanted Feed.key since feed.store.log :=
    List.take_of_length_le hfew
  refine ⟨?_, ⟨hsub, ?_⟩, rfl, rfl⟩
  · have hstep : Tail.Step Feed.key since (tail { feed, since, reader := .created, yielded }) _ :=
      .starts _ rfl
    show Tail.Step Feed.key since _ (feed.tail true (feed.store.backlog since) yielded)
    rw [hbacklog]
    exact hstep
  · rw [show yielded = [] from hnil]
    rfl

theorem pull_draining {rest : List Event}
    (hinv : Inv { feed, since, reader := .draining backlog rest, yielded }) :
    PullSpec { feed, since, reader := .draining backlog rest, yielded } := by
  obtain ⟨hsub, hback⟩ := hinv.position
  cases rest with
  | cons event rest =>
      refine ⟨.pulls _ event rest hback, ⟨hsub, ?_⟩, rfl, rfl⟩
      show backlog = (yielded ++ [event]) ++ rest
      rw [show backlog = yielded ++ event :: rest from hback, List.append_assoc]
      rfl
  | nil =>
      have hyielded : backlog = yielded := by
        rw [show backlog = _ from hback, List.append_nil]
      subst hyielded
      have hjoined := hinv.joined
      refine ⟨.stays _, ⟨rfl, ?_⟩, rfl, rfl⟩
      exact lt_last_of hjoined.held_sorted fun e he => (hjoined.held_wanted e he).2

/-- The head of the queue is dropped if it is not newer than the last event yielded, and yielded if it is. -/
theorem pull_live {last_id : Int} (hinv : Inv { feed, since, reader := .live last_id, yielded }) :
    PullSpec { feed, since, reader := .live last_id, yielded } := by
  obtain ⟨hsub, hlast⟩ := hinv.position
  cases hqueue : feed.queue with
  | nil =>
      have hsame : pull { feed, since, reader := .live last_id, yielded } =
          { feed, since, reader := .live last_id, yielded } := by simp only [pull, hqueue]
      constructor <;> rw [hsame]
      · exact .stays _
      · exact ⟨hsub, hlast⟩
  | cons event queue =>
      have hinbox : (feed.tail true yielded yielded).inbox = event :: (queue ++ feed.callbacks) := by
        show feed.queue ++ feed.callbacks = _
        rw [hqueue]
        rfl
      by_cases hold : (event.id : Int) ≤ last_id
      · have hskip : pull { feed, since, reader := .live last_id, yielded } =
            { feed := { feed with queue }, since, reader := .live last_id, yielded } := by
          simp only [pull, hqueue, if_pos hold]
        constructor <;> rw [hskip]
        · refine .skips _ event _ rfl hinbox ?_
          intro hnewer
          exact absurd ((hlast event.id).mpr hnewer) (not_lt.mpr hold)
        · exact ⟨hsub, hlast⟩
      · have htake : pull { feed, since, reader := .live last_id, yielded } =
            { feed := { feed with queue }, since, reader := .live event.id
              yielded := yielded ++ [event] } := by
          simp only [pull, hqueue, if_neg hold]
        obtain ⟨hwanted, hnewer⟩ := (hlast event.id).mp (not_le.mp hold)
        constructor <;> rw [htake]
        · exact .takes _ event _ rfl rfl hinbox hwanted hnewer
        · refine ⟨hsub, fun n => ?_⟩
          constructor
          · intro hn
            refine ⟨hwanted.trans hn, fun x hx => ?_⟩
            rcases Tail.mem_snoc.mp hx with hx | rfl
            · exact (hnewer x hx).trans hn
            · exact hn
          · exact fun h => h.2 event (Tail.mem_snoc.mpr (.inr rfl))

end

/-- **One step of the generator** is a harmless move, and leaves it at its next position. -/
theorem pull_spec {s : EventStream} (hinv : s.Inv) (hcareful : s.Careful .pull) : s.PullSpec := by
  obtain ⟨feed, since, reader, yielded⟩ := s
  cases reader with
  | created => exact pull_created hinv (hcareful rfl)
  | draining backlog rest => exact pull_draining hinv
  | live last_id => exact pull_live hinv

theorem step_inv {s : EventStream} {l : StreamLabel} (hinv : s.Inv) (hfits : s.Fits l)
    (hcareful : s.Careful l) : (s.step l).Inv := by
  cases l with
  | feed label =>
      exact ⟨Feed.step_numbered hinv.numbered label, feed_position label hinv.position,
        hinv.joined.step (feed_tail hinv hfits hcareful)⟩
  | pull =>
      have hspec := pull_spec hinv hcareful
      have hjoined := hinv.joined.step hspec.moves
      refine ⟨?_, hspec.position, ?_⟩
      · show s.pull.feed.store.Numbered
        rw [hspec.store]
        exact hinv.numbered
      · show s.pull.tail.Joined Feed.key s.pull.since
        rw [hspec.since]
        exact hjoined

theorem opened_inv {store : EventStore} (hnum : store.Numbered) (since maxsize : Int) :
    (opened store since maxsize).Inv where
  numbered := hnum
  position := ⟨rfl, rfl⟩
  joined := Feed.opened_joined hnum since maxsize

theorem Inv.complete {s : EventStream} (hinv : s.Inv) : s.Complete := by
  obtain ⟨hsorted, hwanted⟩ := hinv.joined.yields
  refine ⟨hsorted.imp fun hlt => Int.ofNat_lt.mp hlt, hwanted, ?_⟩
  rintro ⟨⟨last_id, hlive⟩, hidle⟩
  have htail : s.tail = s.feed.tail true s.yielded s.yielded := by
    simp only [tail, started, held, hlive]
  have hjoined := hinv.joined
  rw [htail] at hjoined
  exact Feed.idle_complete hjoined hidle

/-! ## Coming to rest -/

/-- How many steps the generator has before it is live. -/
def lead (s : EventStream) : Nat :=
  match s.reader with
  | .created => s.feed.store.log.length + 3
  | .draining _ rest => rest.length + 1
  | .live _ => 0

/-- No append, and no overflow. -/
def Internal (s : EventStream) : StreamLabel → Prop
  | .feed label => s.feed.Internal label
  | .pull => True

theorem exists_internal (s : EventStream) (hrest : ¬ s.AtRest) :
    ∃ l, s.Internal l ∧ (s.step l).lead + (s.step l).feed.work < s.lead + s.feed.work := by
  obtain ⟨feed, since, reader, yielded⟩ := s
  cases reader with
  | created =>
      have hle : (feed.store.backlog since).length ≤ feed.store.log.length :=
        ((List.take_sublist _ _).trans List.filter_sublist).length_le
      refine ⟨.pull, trivial, ?_⟩
      show (feed.store.backlog since).length + 1 + feed.work < feed.store.log.length + 3 + feed.work
      omega
  | draining backlog rest =>
      refine ⟨.pull, trivial, ?_⟩
      cases rest with
      | nil =>
          show 0 + feed.work < 1 + feed.work
          omega
      | cons event rest =>
          show rest.length + 1 + feed.work < rest.length + 1 + 1 + feed.work
          omega
  | live last_id =>
      cases hqueue : feed.queue with
      | cons event queue =>
          refine ⟨.pull, trivial, ?_⟩
          by_cases hold : (event.id : Int) ≤ last_id
          · simp [step, pull, hqueue, hold, lead, Feed.work]
          · simp [step, pull, hqueue, hold, lead, Feed.work]
      | nil =>
          have hidle : ¬ feed.Idle := fun hidle => hrest ⟨⟨last_id, rfl⟩, hidle⟩
          obtain ⟨l, hinternal, hwork, -⟩ := Feed.exists_internal hqueue hidle
          refine ⟨.feed l, hinternal, ?_⟩
          show 0 + (feed.step l).work < 0 + feed.work
          omega

/-- From every state, the generator and the event loop come to rest if nothing is appended any more. -/
theorem comes_to_rest (s : EventStream) :
    ∃ is, Along step Internal s is ∧ (exec step s is).AtRest :=
  exec_comes_to_rest (fun s => s.lead + s.feed.work) exists_internal s

/-! ## Live stream completeness -/

/-- **The stream is complete in every careful run**: for every log, every starting id and every interleaving
    in which no step overflows the buffer and every step meets the condition. -/
theorem stream_complete (store : EventStore) (hnum : store.Numbered) (since maxsize : Int)
    (labels : List StreamLabel) (hfits : Along step Fits (opened store since maxsize) labels)
    (hcareful : Along step Careful (opened store since maxsize) labels) :
    (exec step (opened store since maxsize) labels).Complete ∧
      ∃ is, Along step Internal (exec step (opened store since maxsize) labels) is ∧
        (exec step (exec step (opened store since maxsize) labels) is).AtRest :=
  ⟨(exec_invariant_along (fun _ _ hinv hC => step_inv hinv hC.1 hC.2)
      (opened_inv hnum since maxsize) (along_and hfits hcareful)).complete, comes_to_rest _⟩

/-- A note that someone appends. -/
def note (content : String) : Post :=
  { kind := .MESSAGE_SENT
    payload := [("from_agent", .str "a"), ("to_agent", .str "b"), ("content", .str content)] }

/-- The event that the note becomes as the first row of a quiet store. -/
def first_event : Event :=
  ((EventStore.append (note "1") .quiet).2.log.head?).getD
    { id := 0, kind := .MESSAGE_SENT, payload := [], actor_agent_id := none, correlation_id := none
      ts_company := 0, ts_real := 0 }

/-- An event that is appended after the registration is yielded. -/
def live_labels : List StreamLabel :=
  [.pull, .pull, .feed (.append (note "1")), .feed (.broadcast first_event),
    .feed (.deliver first_event), .feed .enqueue, .pull]

theorem stream_complete_live :
    (exec step (opened .quiet 0 8) live_labels).Complete ∧
      ∃ is, Along step Internal (exec step (opened .quiet 0 8) live_labels) is ∧
        (exec step (exec step (opened .quiet 0 8) live_labels) is).AtRest :=
  stream_complete .quiet (by decide) 0 8 live_labels
    ⟨trivial, trivial, trivial, trivial, trivial, fun _ => by decide, trivial, trivial⟩
    ⟨fun _ => by decide, nofun, trivial, .inl rfl, .inr (.inr fun _ hmem => absurd hmem List.not_mem_nil), trivial,
      nofun, trivial⟩

/-- The broadcast looks at the subscriptions before the stream has registered. -/
def missed_labels : List StreamLabel :=
  [.pull, .feed (.append (note "1")), .feed (.broadcast first_event), .pull]

/-- **An event in the gap is lost**: it is appended after the backlog was read, and nobody is told. -/
theorem gap_loses :
    ∃ labels : List StreamLabel, Along step Fits (opened .quiet 0 8) labels ∧
      (exec step (opened .quiet 0 8) labels).AtRest ∧
      first_event ∈ (exec step (opened .quiet 0 8) labels).feed.store.log ∧ 0 < first_event.id ∧
      first_event ∉ (exec step (opened .quiet 0 8) labels).yielded :=
  ⟨missed_labels, ⟨trivial, trivial, trivial, trivial, trivial⟩,
    ⟨⟨0, rfl⟩, rfl, rfl, rfl, rfl⟩, by decide, by decide, by decide⟩

end EventStream

end CompanyFactory
