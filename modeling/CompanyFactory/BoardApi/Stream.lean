import CompanyFactory.EventStore.Feed

/-!
# `BoardApi.Stream` — the server-sent events of one company

`_company_stream` registers its callback **first**, then reads a backlog of at most 10 000 events and sends
it, and then sends what comes through its queue and is newer than the last event sent. Nothing passes it by,
so two causes of a loss are left: a backlog that is longer than the limit, and a callback that is scheduled
after the one of a newer event (`company_stream_complete`).

The client stays connected: a disconnect ends the generator.
-/

namespace CompanyFactory

open Machine

/-- What is sent to the client; an event stands for `_format_sse(event)`. -/
inductive Chunk where
  | ready
  | keepalive
  | data (event : Event)
  deriving DecidableEq

/-- The events among the chunks. -/
def sent (chunks : List Chunk) : List Event :=
  chunks.filterMap fun chunk =>
    match chunk with
    | .data event => some event
    | _ => none

/-- Where the generator stands. -/
inductive SseReader where
  /-- not started -/
  | created
  /-- subscribed, and `: ready` is sent -/
  | primed
  /-- in `for evt in backlog`, and in `while True` once the rest is empty -/
  | sending (rest : List Event) (last_id : Int)

structure CompanyStream where
  feed : Feed
  since : Int
  reader : SseReader
  chunks : List Chunk

inductive SseLabel where
  | feed (label : FeedLabel)
  /-- the generator goes on to its next suspension point -/
  | pull
  /-- the heartbeat of `wait_for` is over -/
  | timeout

namespace CompanyStream

/-- `_QUEUE_BUFFER` -/
def QUEUE_BUFFER : Int := 1024

def pull (s : CompanyStream) : CompanyStream :=
  match s.reader with
  | .created =>
    { s with feed := { s.feed with subscribed := true }, reader := .primed
             chunks := s.chunks ++ [.ready] }
  | .primed => { s with reader := .sending (s.feed.store.backlog s.since) s.since }
  | .sending (event :: rest) last_id =>
    { s with reader := .sending rest (max last_id event.id), chunks := s.chunks ++ [.data event] }
  | .sending [] last_id =>
    match s.feed.queue with
    | [] => s
    | event :: queue =>
      let s := { s with feed := { s.feed with queue } }
      if (event.id : Int) ≤ last_id then s
      else { s with reader := .sending [] event.id, chunks := s.chunks ++ [.data event] }

/-- `wait_for` times out only while the queue is empty. -/
def timeout (s : CompanyStream) : CompanyStream :=
  match s.reader, s.feed.queue with
  | .sending [] _, [] => { s with chunks := s.chunks ++ [.keepalive] }
  | _, _ => s

def step (s : CompanyStream) : SseLabel → CompanyStream
  | .feed label => { s with feed := s.feed.step label }
  | .pull => pull s
  | .timeout => timeout s

def opened (store : EventStore) (since : Int) : CompanyStream :=
  { feed := .opened store QUEUE_BUFFER, since, reader := .created, chunks := [] }

/-- The events that have been sent. -/
def emitted (s : CompanyStream) : List Event := sent s.chunks

/-- Has the backlog been read? -/
def started (s : CompanyStream) : Bool :=
  match s.reader with
  | .sending _ _ => true
  | _ => false

/-- What has been sent, and what is left of the backlog. -/
def held (s : CompanyStream) : List Event :=
  match s.reader with
  | .sending rest _ => s.emitted ++ rest
  | _ => []

/-- The stream waits for an event, and none is on its way. -/
def AtRest (s : CompanyStream) : Prop := (∃ last_id, s.reader = .sending [] last_id) ∧ s.feed.Idle

/-- The subscriber queue does not overflow. -/
def Fits (s : CompanyStream) : SseLabel → Prop
  | .feed label => s.feed.Fits label
  | _ => True

/-- **The condition on a step.** The backlog is read while it has at most 10 000 events, and from then on the
    callback of an event that is not in it is scheduled after those of older events only. -/
def Careful (s : CompanyStream) : SseLabel → Prop
  | .feed (.deliver event) => s.feed.Careful s.since s.started s.held (.deliver event)
  | .pull => s.reader = .primed →
      (s.feed.store.log.filter (fun e => decide (s.since < e.id))).length ≤ EventStore.BACKLOG_LIMIT
  | _ => True

/-- What is sent is asked for and in order, and everything that is has been sent when the stream is at rest. -/
structure Complete (s : CompanyStream) : Prop where
  in_order : s.emitted.Pairwise (fun x y => x.id < y.id)
  wanted : ∀ e ∈ s.emitted, e ∈ s.feed.store.log ∧ s.since < e.id
  caught_up : s.AtRest → s.emitted = s.feed.store.log.filter (fun e => decide (s.since < e.id))

def tail (s : CompanyStream) : Tail Event := s.feed.tail s.started s.held s.emitted

/-- What the position of the generator says about the rest of its state. -/
def Position (s : CompanyStream) : Prop :=
  match s.reader with
  | .created => s.emitted = []
  | .primed => s.feed.subscribed = true ∧ s.emitted = []
  | .sending _ last_id => s.feed.subscribed = true ∧
      ∀ n, last_id < n ↔ s.since < n ∧ ∀ x ∈ s.emitted, (x.id : Int) < n

/-- The invariant of the runs whose steps meet the condition. -/
structure Inv (s : CompanyStream) : Prop where
  numbered : s.feed.store.Numbered
  position : s.Position
  joined : s.tail.Joined Feed.key s.since

theorem sent_data (chunks : List Chunk) (event : Event) :
    sent (chunks ++ [.data event]) = sent chunks ++ [event] := by
  unfold sent
  rw [List.filterMap_append]
  rfl

theorem sent_ready (chunks : List Chunk) : sent (chunks ++ [.ready]) = sent chunks := by simp [sent]

theorem sent_keepalive (chunks : List Chunk) : sent (chunks ++ [.keepalive]) = sent chunks := by
  simp [sent]

/-- Once the backlog is read the stream is subscribed, so that no broadcast passes it by. -/
theorem feed_careful {s : CompanyStream} (hpos : s.Position) {label : FeedLabel}
    (h : s.Careful (.feed label)) : s.feed.Careful s.since s.started s.held label := by
  cases label with
  | broadcast event =>
      obtain ⟨feed, since, reader, chunks⟩ := s
      cases reader with
      | created | primed => exact .inr (.inl rfl)
      | sending rest last_id => exact .inl hpos.1
  | deliver event => exact h
  | append | enqueue => trivial

theorem feed_position {s : CompanyStream} (label : FeedLabel) (h : s.Position) :
    (s.step (.feed label)).Position := by
  show match s.reader with
    | .created => s.emitted = []
    | .primed => (s.feed.step label).subscribed = true ∧ s.emitted = []
    | .sending _ last_id => (s.feed.step label).subscribed = true ∧
        ∀ n, last_id < n ↔ s.since < n ∧ ∀ x ∈ s.emitted, (x.id : Int) < n
  rw [Feed.step_subscribed]
  exact h

/-- The bound on what has been sent, after one more event. -/
theorem bound_snoc {since last_id bound : Int} {events : List Event} {event : Event}
    (h : ∀ n, last_id < n ↔ since < n ∧ ∀ x ∈ events, (x.id : Int) < n)
    (hbound : bound = max last_id event.id) (n : Int) :
    bound < n ↔ since < n ∧ ∀ x ∈ events ++ [event], (x.id : Int) < n := by
  have hmax : bound < n ↔ last_id < n ∧ (event.id : Int) < n := by omega
  rw [hmax, h n]
  constructor
  · rintro ⟨⟨hsince, hsent⟩, hevent⟩
    refine ⟨hsince, fun x hx => ?_⟩
    rcases Tail.mem_snoc.mp hx with hx | rfl
    · exact hsent x hx
    · exact hevent
  · rintro ⟨hsince, hall⟩
    exact ⟨⟨hsince, fun x hx => hall x (Tail.mem_snoc.mpr (.inl hx))⟩,
      hall event (Tail.mem_snoc.mpr (.inr rfl))⟩

/-- What one step of the generator establishes. -/
structure PullSpec (s : CompanyStream) : Prop where
  moves : Tail.Step Feed.key s.since s.tail s.pull.tail
  position : s.pull.Position
  since : s.pull.since = s.since
  store : s.pull.feed.store = s.feed.store

section

variable {feed : Feed} {since last_id : Int} {chunks : List Chunk} {rest : List Event}

theorem pull_created (hinv : Inv { feed, since, reader := .created, chunks }) :
    PullSpec { feed, since, reader := .created, chunks } := by
  have hnil : sent chunks = [] := hinv.position
  refine ⟨?_, ⟨rfl, (sent_ready chunks).trans hnil⟩, rfl, rfl⟩
  have htail : (pull { feed, since, reader := .created, chunks }).tail =
      tail { feed, since, reader := .created, chunks } := by
    simp only [tail, emitted, pull, sent_ready]
    rfl
  rw [htail]
  exact .stays _

theorem pull_primed (hinv : Inv { feed, since, reader := .primed, chunks })
    (hfew : (feed.store.log.filter (fun e => decide (since < e.id))).length ≤
      EventStore.BACKLOG_LIMIT) : PullSpec { feed, since, reader := .primed, chunks } := by
  obtain ⟨hsub, hnil⟩ := hinv.position
  have hbacklog : feed.store.backlog since = Tail.wanted Feed.key since feed.store.log :=
    List.take_of_length_le hfew
  have hnone : sent chunks = [] := hnil
  refine ⟨?_, ⟨hsub, fun n => ?_⟩, rfl, rfl⟩
  · have htail : (pull { feed, since, reader := .primed, chunks }).tail =
        { tail { feed, since, reader := .primed, chunks } with
          started := true, held := Tail.wanted Feed.key since feed.store.log } := by
      simp only [tail, Feed.tail, started, held, emitted, pull, hnone, hbacklog, List.nil_append]
    rw [htail]
    exact .starts _ rfl
  · show since < n ↔ since < n ∧ ∀ x ∈ sent chunks, (x.id : Int) < n
    rw [hnone]
    simp

theorem pull_backlog {event : Event}
    (hinv : Inv { feed, since, reader := .sending (event :: rest) last_id, chunks }) :
    PullSpec { feed, since, reader := .sending (event :: rest) last_id, chunks } := by
  obtain ⟨hsub, hlast⟩ := hinv.position
  refine ⟨?_, ⟨hsub, fun n => ?_⟩, rfl, rfl⟩
  · have htail : (pull { feed, since, reader := .sending (event :: rest) last_id, chunks }).tail =
        { tail { feed, since, reader := .sending (event :: rest) last_id, chunks } with
          yielded := sent chunks ++ [event] } := by
      simp only [tail, Feed.tail, started, held, emitted, pull, sent_data, List.append_assoc,
        List.singleton_append]
    rw [htail]
    exact .pulls _ event rest rfl
  · show max last_id event.id < n ↔ since < n ∧ ∀ x ∈ sent (chunks ++ [.data event]), (x.id : Int) < n
    rw [sent_data]
    exact bound_snoc hlast rfl n

/-- The head of the queue is dropped if it is not newer than the last event sent, and sent if it is. -/
theorem pull_live (hinv : Inv { feed, since, reader := .sending [] last_id, chunks }) :
    PullSpec { feed, since, reader := .sending [] last_id, chunks } := by
  obtain ⟨hsub, hlast⟩ := hinv.position
  cases hqueue : feed.queue with
  | nil =>
      have hsame : pull { feed, since, reader := .sending [] last_id, chunks } =
          { feed, since, reader := .sending [] last_id, chunks } := by simp only [pull, hqueue]
      constructor <;> rw [hsame]
      · exact .stays _
      · exact ⟨hsub, hlast⟩
  | cons event queue =>
      have hinbox : (tail { feed, since, reader := .sending [] last_id, chunks }).inbox =
          event :: (queue ++ feed.callbacks) := by
        show feed.queue ++ feed.callbacks = _
        rw [hqueue]
        rfl
      have hheld : (tail { feed, since, reader := .sending [] last_id, chunks }).held = sent chunks :=
        List.append_nil _
      by_cases hold : (event.id : Int) ≤ last_id
      · have hskip : pull { feed, since, reader := .sending [] last_id, chunks } =
            { feed := { feed with queue }, since, reader := .sending [] last_id, chunks } := by
          simp only [pull, hqueue, if_pos hold]
        constructor <;> rw [hskip]
        · refine .skips _ event _ rfl hinbox ?_
          rintro ⟨hwanted, hnewer⟩
          rw [hheld] at hnewer
          exact absurd ((hlast event.id).mpr ⟨hwanted, hnewer⟩) (not_lt.mpr hold)
        · exact ⟨hsub, hlast⟩
      · have htake : pull { feed, since, reader := .sending [] last_id, chunks } =
            { feed := { feed with queue }, since, reader := .sending [] event.id
              chunks := chunks ++ [.data event] } := by
          simp only [pull, hqueue, if_neg hold]
        have hlt := not_le.mp hold
        obtain ⟨hwanted, hnewer⟩ := (hlast event.id).mp hlt
        constructor <;> rw [htake]
        · have htail : tail { feed := { feed with queue }, since, reader := .sending [] event.id
                              chunks := chunks ++ [.data event] } =
              { tail { feed, since, reader := .sending [] last_id, chunks } with
                inbox := queue ++ feed.callbacks
                held := (tail { feed, since, reader := .sending [] last_id, chunks }).held ++ [event]
                yielded := (tail { feed, since, reader := .sending [] last_id, chunks }).held ++
                  [event] } := by
            simp only [tail, Feed.tail, started, held, emitted, sent_data, List.append_nil]
          rw [htail]
          refine .takes _ event _ rfl hheld.symm hinbox hwanted ?_
          rw [hheld]
          exact hnewer
        · refine ⟨hsub, fun n => ?_⟩
          show (event.id : Int) < n ↔ since < n ∧ ∀ x ∈ sent (chunks ++ [.data event]), (x.id : Int) < n
          rw [sent_data]
          exact bound_snoc hlast (max_eq_right hlt.le).symm n

end

/-- **One step of the generator** is a harmless move, and leaves it at its next position. -/
theorem pull_spec {s : CompanyStream} (hinv : s.Inv) (hcareful : s.Careful .pull) : s.PullSpec := by
  obtain ⟨feed, since, reader, chunks⟩ := s
  cases reader with
  | created => exact pull_created hinv
  | primed => exact pull_primed hinv (hcareful rfl)
  | sending rest last_id =>
      cases rest with
      | cons event rest => exact pull_backlog hinv
      | nil => exact pull_live hinv

/-- A timeout sends no event. -/
theorem timeout_spec (s : CompanyStream) :
    s.timeout.tail = s.tail ∧ s.timeout.since = s.since ∧ s.timeout.feed = s.feed ∧
      s.timeout.reader = s.reader ∧ s.timeout.emitted = s.emitted := by
  obtain ⟨feed, since, reader, chunks⟩ := s
  unfold timeout
  dsimp only
  split
  · refine ⟨?_, rfl, rfl, rfl, sent_keepalive chunks⟩
    simp only [tail, started, held, emitted, sent_keepalive]
  · exact ⟨rfl, rfl, rfl, rfl, rfl⟩

theorem step_inv {s : CompanyStream} {l : SseLabel} (hinv : s.Inv) (hfits : s.Fits l)
    (hcareful : s.Careful l) : (s.step l).Inv := by
  cases l with
  | feed label =>
      have hstep : Tail.Step Feed.key _ (s.feed.tail _ _ s.emitted) _ :=
        Feed.feed_step hinv.numbered hfits (feed_careful hinv.position hcareful)
      exact ⟨Feed.step_numbered hinv.numbered label, feed_position label hinv.position,
        hinv.joined.step hstep⟩
  | pull =>
      have hspec := pull_spec hinv hcareful
      have hjoined := hinv.joined.step hspec.moves
      refine ⟨?_, hspec.position, ?_⟩
      · show s.pull.feed.store.Numbered
        rw [hspec.store]
        exact hinv.numbered
      · show s.pull.tail.Joined Feed.key s.pull.since
        rw [hspec.since]
        exact hjoined
  | timeout =>
      obtain ⟨htail, hsince, hfeed, hreader, hsent⟩ := timeout_spec s
      refine ⟨?_, ?_, ?_⟩
      · show s.timeout.feed.store.Numbered
        rw [hfeed]
        exact hinv.numbered
      · have hpos := hinv.position
        show s.timeout.Position
        unfold Position at hpos ⊢
        rw [hfeed, hreader, hsent, hsince]
        exact hpos
      · show s.timeout.tail.Joined Feed.key s.timeout.since
        rw [htail, hsince]
        exact hinv.joined

theorem opened_inv {store : EventStore} (hnum : store.Numbered) (since : Int) :
    (opened store since).Inv where
  numbered := hnum
  position := rfl
  joined := Feed.opened_joined hnum since QUEUE_BUFFER

theorem Inv.complete {s : CompanyStream} (hinv : s.Inv) : s.Complete := by
  obtain ⟨hsorted, hwanted⟩ := hinv.joined.yields
  refine ⟨hsorted.imp fun hlt => Int.ofNat_lt.mp hlt, hwanted, ?_⟩
  rintro ⟨⟨last_id, hsending⟩, hidle⟩
  have htail : s.tail = s.feed.tail true s.emitted s.emitted := by
    simp only [tail, started, held, hsending, List.append_nil]
  have hjoined := hinv.joined
  rw [htail] at hjoined
  exact Feed.idle_complete hjoined hidle

/-! ## Coming to rest -/

/-- How many steps the generator has before it waits for its queue. -/
def lead (s : CompanyStream) : Nat :=
  match s.reader with
  | .created => s.feed.store.log.length + 2
  | .primed => s.feed.store.log.length + 1
  | .sending rest _ => rest.length

/-- No append, and no overflow. -/
def Internal (s : CompanyStream) : SseLabel → Prop
  | .feed label => s.feed.Internal label
  | _ => True

theorem exists_internal (s : CompanyStream) (hrest : ¬ s.AtRest) :
    ∃ l, s.Internal l ∧ (s.step l).lead + (s.step l).feed.work < s.lead + s.feed.work := by
  obtain ⟨feed, since, reader, chunks⟩ := s
  cases reader with
  | created =>
      refine ⟨.pull, trivial, ?_⟩
      show feed.store.log.length + 1 + feed.work < feed.store.log.length + 2 + feed.work
      omega
  | primed =>
      have hle : (feed.store.backlog since).length ≤ feed.store.log.length :=
        ((List.take_sublist _ _).trans List.filter_sublist).length_le
      refine ⟨.pull, trivial, ?_⟩
      show (feed.store.backlog since).length + feed.work < feed.store.log.length + 1 + feed.work
      omega
  | sending rest last_id =>
      cases rest with
      | cons event rest =>
          refine ⟨.pull, trivial, ?_⟩
          show rest.length + feed.work < rest.length + 1 + feed.work
          omega
      | nil =>
          cases hqueue : feed.queue with
          | cons event queue =>
              refine ⟨.pull, trivial, ?_⟩
              by_cases hold : (event.id : Int) ≤ last_id
              · simp [step, pull, hqueue, hold, lead, Feed.work]
              · simp [step, pull, hqueue, hold, lead, Feed.work]
          | nil =>
              have hidle : ¬ feed.Idle := fun hidle => hrest ⟨⟨last_id, rfl⟩, hidle⟩
              obtain ⟨l, hinternal, hwork, -⟩ := Feed.exists_internal hqueue hidle
              refine ⟨.feed l, hinternal, ?_⟩
              show 0 + (feed.step l).work < 0 + feed.work
              omega

theorem comes_to_rest (s : CompanyStream) :
    ∃ is, Along step Internal s is ∧ (exec step s is).AtRest :=
  exec_comes_to_rest (fun s => s.lead + s.feed.work) exists_internal s

/-! ## Completeness -/

/-- **The stream of a company is complete in every careful run**: for every log, every starting id and every
    interleaving in which no step overflows the queue and every step meets the condition. -/
theorem company_stream_complete (store : EventStore) (hnum : store.Numbered) (since : Int)
    (labels : List SseLabel) (hfits : Along step Fits (opened store since) labels)
    (hcareful : Along step Careful (opened store since) labels) :
    (exec step (opened store since) labels).Complete ∧
      ∃ is, Along step Internal (exec step (opened store since) labels) is ∧
        (exec step (exec step (opened store since) labels) is).AtRest :=
  ⟨(exec_invariant_along (fun _ _ hinv hC => step_inv hinv hC.1 hC.2)
      (opened_inv hnum since) (along_and hfits hcareful)).complete, comes_to_rest _⟩

/-- What someone appends. -/
def tick (note : String) : Post :=
  { kind := .MESSAGE_SENT
    payload := [("from_agent", .str "a"), ("to_agent", .str "b"), ("content", .str note)] }

/-- The two events that two such posts become in a quiet store. -/
def two_events : List Event :=
  (EventStore.append (tick "2") (EventStore.append (tick "1") .quiet).2).2.log

/-- An event that is appended during the backlog read. -/
def overlap_labels : List SseLabel :=
  [.pull, .feed (.append (tick "1")), .pull] ++ (two_events.take 1).flatMap (fun event =>
    [.feed (.broadcast event), .feed (.deliver event), .feed .enqueue, .pull, .pull, .timeout])

theorem company_stream_complete_overlap :
    (exec step (opened .quiet 0) overlap_labels).Complete ∧
      ∃ is, Along step Internal (exec step (opened .quiet 0) overlap_labels) is ∧
        (exec step (exec step (opened .quiet 0) overlap_labels) is).AtRest :=
  company_stream_complete .quiet (by decide) 0 overlap_labels
    ⟨trivial, trivial, trivial, trivial, trivial, fun _ => by decide, trivial, trivial, trivial, trivial⟩
    ⟨nofun, trivial, fun _ => by decide, trivial, .inr (.inl (.inr (by decide))), trivial, nofun, nofun,
      trivial, trivial⟩

/-- Two threads append, and the second is faster with its callback. -/
def overtaking_labels : List SseLabel :=
  [.pull, .pull, .feed (.append (tick "1")), .feed (.append (tick "2"))] ++
    (two_events.map (fun event => .feed (.broadcast event)) ++
      two_events.reverse.map (fun event => .feed (.deliver event))) ++
    [.feed .enqueue, .feed .enqueue, .pull, .pull]

/-- **An event that is overtaken is lost**: its callback comes second, and is taken for a duplicate. -/
theorem overtaken_is_lost :
    ∃ (labels : List SseLabel) (e : Event), Along step Fits (opened .quiet 0) labels ∧
      (exec step (opened .quiet 0) labels).AtRest ∧
      e ∈ (exec step (opened .quiet 0) labels).feed.store.log ∧ 0 < e.id ∧
      e ∉ (exec step (opened .quiet 0) labels).emitted :=
  ⟨overtaking_labels, two_events.head (by decide),
    ⟨trivial, trivial, trivial, trivial, trivial, trivial, trivial, trivial, fun _ => by decide,
      fun _ => by decide, trivial, trivial, trivial⟩,
    ⟨⟨2, rfl⟩, rfl, rfl, rfl, rfl⟩, by decide, by decide, by decide⟩

end CompanyStream

end CompanyFactory
