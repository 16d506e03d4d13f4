import CompanyFactory.BoardApi.Stream

/-!
# `BoardApi.MultiStream` — the server-sent events of all companies

`_multi_stream` has one queue for all companies. It registers a callback with the event store of each, **reads no
backlog**, and sends what comes through the queue, company by company only what is newer than the last event sent. Stores
append in any thread, and each event is handed over as in `Feed`.

* `multi_stream_sorted` — whatever the threads do, and whatever the queue has dropped: the events of a company are sent in
  the order of their ids, none twice, and all of them come from its log.
* `multi_stream_complete` — without an overflow, an event that is appended after the connection **is lost exactly if a
  newer one of its company overtakes it** on its way.
-/

namespace CompanyFactory

open Machine

/-- An event, with the company from whose store it comes. -/
structure Notice where
  company_id : String
  event : Event
  deriving DecidableEq

/-- What is sent to the client; a notice stands for `_format_sse(event)`. -/
inductive Frame where
  | ready
  | keepalive
  | data (notice : Notice)
  deriving DecidableEq

/-- The event in a frame. -/
def Frame.notice : Frame → Option Notice
  | .data notice => some notice
  | _ => none

inductive MultiReader where
  /-- not started -/
  | created
  /-- before `request.is_disconnected()` -/
  | checking
  /-- in `wait_for(queue.get())` -/
  | waiting
  /-- the generator has returned -/
  | closed
  deriving DecidableEq

structure MultiStream where
  stores : String → EventStore
  /-- the companies that have a handle when the client connects -/
  handles : List String
  /-- the stores that hold a callback of this stream -/
  subscribers : List String
  /-- appended, and `_broadcast` has not taken its snapshot of the subscribers -/
  committed : List Notice
  /-- the snapshot holds the callback, and `call_soon_threadsafe` has not been called -/
  snapshots : List Notice
  /-- the callbacks that wait for the event loop -/
  callbacks : List Notice
  queue : List Notice
  connected : Bool
  reader : MultiReader
  last_seen : String → Nat
  frames : List Frame

inductive MultiLabel where
  /-- a thread commits an event -/
  | append (company_id : String) (post : Post)
  /-- its thread looks at the subscribers -/
  | broadcast (notice : Notice)
  /-- its thread schedules the callback -/
  | deliver (notice : Notice)
  /-- the event loop runs the next callback -/
  | enqueue
  /-- the client goes away -/
  | disconnect
  /-- the generator goes on to its next suspension point -/
  | pull
  /-- the heartbeat of `wait_for` is over -/
  | timeout

namespace MultiStream

/-- `_QUEUE_BUFFER * 4` -/
def QUEUE_BUFFER : Nat := 1024 * 4

/-- `_safe_put` drops the oldest of a full queue. -/
def safe_put (queue : List Notice) (notice : Notice) : List Notice :=
  if QUEUE_BUFFER ≤ queue.length then queue.tail ++ [notice] else queue ++ [notice]

/-- What an append to the store of a company commits. -/
def stored (company_id : String) (post : Post) (s : MultiStream) : List Notice :=
  match (EventStore.append post (s.stores company_id)).1 with
  | .ok event => [{ company_id, event }]
  | .error _ => []

def append (company_id : String) (post : Post) (s : MultiStream) : MultiStream :=
  { s with
    stores := Function.update s.stores company_id (EventStore.append post (s.stores company_id)).2
    committed := s.committed ++ s.stored company_id post }

def broadcast (notice : Notice) (s : MultiStream) : MultiStream :=
  if notice ∈ s.committed then
    { s with
      committed := s.committed.erase notice
      snapshots := s.snapshots ++ List.replicate (s.subscribers.count notice.company_id) notice }
  else s

def deliver (notice : Notice) (s : MultiStream) : MultiStream :=
  if notice ∈ s.snapshots then
    { s with snapshots := s.snapshots.erase notice, callbacks := s.callbacks ++ [notice] }
  else s

def enqueue (s : MultiStream) : MultiStream :=
  match s.callbacks with
  | [] => s
  | notice :: rest => { s with callbacks := rest, queue := safe_put s.queue notice }

def pull (s : MultiStream) : MultiStream :=
  match s.reader with
  | .created => { s with subscribers := s.handles, frames := s.frames ++ [.ready], reader := .checking }
  | .checking => if s.connected then { s with reader := .waiting } else { s with reader := .closed, subscribers := [] }
  | .waiting =>
    match s.queue with
    | [] => s
    | notice :: queue =>
      let s := { s with queue, reader := .checking }
      if notice.event.id ≤ s.last_seen notice.company_id then s
      else
        { s with
          last_seen := Function.update s.last_seen notice.company_id notice.event.id
          frames := s.frames ++ [.data notice] }
  | .closed => s

/-- `wait_for` times out only while the queue is empty. -/
def timeout (s : MultiStream) : MultiStream :=
  if s.reader = .waiting ∧ s.queue = [] then { s with frames := s.frames ++ [.keepalive], reader := .checking } else s

def step (s : MultiStream) : MultiLabel → MultiStream
  | .append company_id post => s.append company_id post
  | .broadcast notice => s.broadcast notice
  | .deliver notice => s.deliver notice
  | .enqueue => s.enqueue
  | .disconnect => { s with connected := false }
  | .pull => s.pull
  | .timeout => s.timeout

/-- A client connects; the generator has not started, and nothing is on its way. -/
def opened (stores : String → EventStore) (handles : List String) : MultiStream :=
  { stores, handles, subscribers := [], committed := [], snapshots := [], callbacks := [], queue := [], connected := true
    reader := .created, last_seen := fun _ => 0, frames := [] }

/-- The events that have been sent. -/
def emitted (s : MultiStream) : List Notice := s.frames.filterMap Frame.notice

/-! ## What a step does -/

/-- What a step schedules on the event loop. -/
def hands (s : MultiStream) : MultiLabel → List Notice
  | .deliver notice => if notice ∈ s.snapshots then [notice] else []
  | _ => []

/-- What a step appends, once the stream is subscribed. -/
def appends (s : MultiStream) : MultiLabel → List Notice
  | .append company_id post => if s.reader = .created then [] else s.stored company_id post
  | _ => []

/-- What a step takes from the queue. -/
def takes (s : MultiStream) : MultiLabel → List Notice
  | .pull => if s.reader = .waiting then s.queue.take 1 else []
  | _ => []

theorem broadcast_cases (notice : Notice) (s : MultiStream) : s.broadcast notice = s ∨
    notice ∈ s.committed ∧ s.broadcast notice = { s with
      committed := s.committed.erase notice
      snapshots := s.snapshots ++ List.replicate (s.subscribers.count notice.company_id) notice } := by
  unfold broadcast
  split
  · rename_i h
    exact .inr ⟨h, rfl⟩
  · exact .inl rfl

theorem deliver_cases (notice : Notice) (s : MultiStream) :
    s.deliver notice = s ∧ hands s (.deliver notice) = [] ∨
      notice ∈ s.snapshots ∧ hands s (.deliver notice) = [notice] ∧ s.deliver notice =
        { s with snapshots := s.snapshots.erase notice, callbacks := s.callbacks ++ [notice] } := by
  rw [deliver, hands]
  by_cases h : notice ∈ s.snapshots
  · rw [if_pos h, if_pos h]
    exact .inr ⟨h, rfl, rfl⟩
  · rw [if_neg h, if_neg h]
    exact .inl ⟨rfl, rfl⟩

theorem enqueue_cases (s : MultiStream) : s.callbacks = [] ∧ s.enqueue = s ∨
    ∃ notice rest, s.callbacks = notice :: rest ∧
      s.enqueue = { s with callbacks := rest, queue := safe_put s.queue notice } := by
  unfold enqueue
  split
  · rename_i h
    exact .inl ⟨h, rfl⟩
  · rename_i notice rest h
    exact .inr ⟨notice, rest, h, rfl⟩

/-- A timeout changes the frames and the position of the generator only. -/
theorem timeout_cases (s : MultiStream) : s.timeout = s ∨ s.reader = .waiting ∧
    s.timeout = { s with frames := s.frames ++ [.keepalive], reader := .checking } := by
  unfold timeout
  split
  · rename_i h
    exact .inr ⟨h.1, rfl⟩
  · exact .inl rfl

/-- What is sent of the events that are taken from the queue. -/
def passed (taken : List Notice) : List Notice :=
  Watermark.newest Notice.company_id (fun notice => notice.event.id) (fun _ => 0) taken

/-- The stream has sent what passes of the events that it has taken. -/
structure Kept (taken : List Notice) (s : MultiStream) : Prop where
  emitted : s.emitted = passed taken
  last_seen : s.last_seen =
    Watermark.marked Notice.company_id (fun notice => notice.event.id) (fun _ => 0) taken

theorem Kept.of_same {taken : List Notice} {s s' : MultiStream} (h : Kept taken s) (hemitted : s'.emitted = s.emitted)
    (hseen : s'.last_seen = s.last_seen) : Kept (taken ++ []) s' := by
  rw [List.append_nil]
  exact ⟨hemitted.trans h.emitted, hseen.trans h.last_seen⟩

theorem emitted_snoc {s s' : MultiStream} {frame : Frame} (h : s'.frames = s.frames ++ [frame]) :
    s'.emitted = s.emitted ++ frame.notice.toList := by
  unfold emitted
  rw [h, List.filterMap_append]
  cases frame <;> rfl

/-- **The head of the queue** is sent if it is newer than all that was sent of its company. -/
theorem pull_waiting {taken queue : List Notice} {notice : Notice} {s : MultiStream} (h : Kept taken s)
    (hreader : s.reader = .waiting) (hqueue : s.queue = notice :: queue) :
    Kept (taken ++ [notice]) s.pull := by
  obtain ⟨hemitted, hseen⟩ := h
  have hpull : s.pull = if notice.event.id ≤ s.last_seen notice.company_id then { s with queue, reader := .checking }
      else { s with
        queue, reader := .checking
        last_seen := Function.update s.last_seen notice.company_id notice.event.id
        frames := s.frames ++ [.data notice] } := by
    unfold pull
    rw [hreader, hqueue]
  rw [hpull]
  constructor
  · rw [passed, Watermark.newest_append, Watermark.newest_singleton, ← hseen]
    by_cases hold : notice.event.id ≤ s.last_seen notice.company_id
    · rw [if_pos hold, if_pos hold, List.append_nil]
      exact hemitted
    · rw [if_neg hold, if_neg hold]
      refine (emitted_snoc rfl).trans ?_
      rw [hemitted]
      rfl
  · rw [Watermark.marked_append, ← hseen]
    show _ = if notice.event.id ≤ s.last_seen notice.company_id then s.last_seen else _
    by_cases hold : notice.event.id ≤ s.last_seen notice.company_id
    · rw [if_pos hold, if_pos hold]
    · rw [if_neg hold, if_neg hold]
      rfl

theorem pull_kept {taken : List Notice} {s : MultiStream} (h : Kept taken s) :
    Kept (taken ++ takes s .pull) s.pull := by
  cases hreader : s.reader with
  | created =>
      rw [takes, hreader, if_neg nofun, pull, hreader]
      refine h.of_same ?_ rfl
      exact (emitted_snoc rfl).trans (List.append_nil _)
  | checking =>
      rw [takes, hreader, if_neg nofun, pull, hreader]
      dsimp only
      split
      · exact h.of_same rfl rfl
      · exact h.of_same rfl rfl
  | closed =>
      rw [takes, hreader, if_neg nofun, pull, hreader]
      exact h.of_same rfl rfl
  | waiting =>
      rw [takes, hreader, if_pos rfl]
      cases hqueue : s.queue with
      | nil =>
          have hpull : s.pull = s := by rw [pull, hreader, hqueue]
          rw [hpull]
          exact h.of_same rfl rfl
      | cons notice queue => exact pull_waiting h hreader hqueue

/-- **What one step sends.** -/
theorem step_kept {taken : List Notice} {s : MultiStream} (h : Kept taken s) (label : MultiLabel) :
    Kept (taken ++ takes s label) (s.step label) := by
  cases label with
  | pull => exact pull_kept h
  | append company_id post => exact h.of_same rfl rfl
  | disconnect => exact h.of_same rfl rfl
  | broadcast notice =>
      obtain hsame | ⟨-, hsame⟩ := broadcast_cases notice s
      · rw [step, hsame]
        exact h.of_same rfl rfl
      · rw [step, hsame]
        exact h.of_same rfl rfl
  | deliver notice =>
      obtain ⟨hsame, -⟩ | ⟨-, -, hsame⟩ := deliver_cases notice s
      · rw [step, hsame]
        exact h.of_same rfl rfl
      · rw [step, hsame]
        exact h.of_same rfl rfl
  | enqueue =>
      obtain ⟨-, hsame⟩ | ⟨_, _, -, hsame⟩ := enqueue_cases s
      · rw [step, hsame]
        exact h.of_same rfl rfl
      · rw [step, hsame]
        exact h.of_same rfl rfl
  | timeout =>
      obtain hsame | ⟨-, hsame⟩ := timeout_cases s
      · rw [step, hsame]
        exact h.of_same rfl rfl
      · rw [step, hsame]
        refine h.of_same ?_ rfl
        exact (emitted_snoc rfl).trans (List.append_nil _)

/-! ## Where the events are -/

/-- The events that are on their way to the generator. -/
def places (s : MultiStream) : List Notice := s.committed ++ (s.snapshots ++ (s.callbacks ++ s.queue))

/-- The event has its row in the log of its company. -/
def Logged (s : MultiStream) (notice : Notice) : Prop :=
  notice.event ∈ (s.stores notice.company_id).log ∧ 0 < notice.event.id

theorem mem_places {s : MultiStream} {notice : Notice} : notice ∈ s.places ↔
    notice ∈ s.committed ∨ notice ∈ s.snapshots ∨ notice ∈ s.callbacks ∨ notice ∈ s.queue := by
  simp [places]

theorem mem_safe_put {queue : List Notice} {notice x : Notice} (h : x ∈ safe_put queue notice) :
    x ∈ queue ∨ x = notice := by
  unfold safe_put at h
  split at h
  · rcases List.mem_append.mp h with h | h
    · exact .inl (List.mem_of_mem_tail h)
    · exact .inr (List.mem_singleton.mp h)
  · rcases List.mem_append.mp h with h | h
    · exact .inl h
    · exact .inr (List.mem_singleton.mp h)

theorem append_logged {company_id : String} {post : Post} {s : MultiStream} :
    (∀ notice, s.Logged notice → (s.append company_id post).Logged notice) ∧
      ∀ notice ∈ s.stored company_id post, (s.append company_id post).Logged notice := by
  have hlog := EventStore.append_log post (s.stores company_id)
  constructor
  · rintro notice ⟨hmem, hid⟩
    refine ⟨?_, hid⟩
    show notice.event ∈ (Function.update s.stores company_id _ notice.company_id).log
    by_cases hcompany : notice.company_id = company_id
    · rw [hcompany, Function.update_self]
      rw [hcompany] at hmem
      obtain ⟨e, -, hsame⟩ | ⟨event, -, -, hnew⟩ := hlog
      · rw [hsame]
        exact hmem
      · rw [hnew]
        exact List.mem_append_left _ hmem
    · rw [Function.update_of_ne hcompany]
      exact hmem
  · intro notice hstored
    unfold stored at hstored
    obtain ⟨e, herror, -⟩ | ⟨event, hok, hid, hnew⟩ := hlog
    · rw [herror] at hstored
      cases hstored
    · rw [hok] at hstored
      obtain rfl := List.mem_singleton.mp hstored
      refine ⟨?_, by rw [hid]; exact Nat.succ_pos _⟩
      show event ∈ (Function.update s.stores company_id _ company_id).log
      rw [Function.update_self, hnew]
      exact List.mem_append_right _ List.mem_cons_self

/-- What the generator leaves alone, and what becomes of the queue. -/
structure PullSpec (s : MultiStream) : Prop where
  stores : s.pull.stores = s.stores
  handles : s.pull.handles = s.handles
  committed : s.pull.committed = s.committed
  snapshots : s.pull.snapshots = s.snapshots
  callbacks : s.pull.callbacks = s.callbacks
  queue : s.queue = takes s .pull ++ s.pull.queue
  /-- it starts once, and it subscribes to all handles when it starts -/
  reader : s.pull.reader ≠ .created
  subscribers : s.pull.reader = .closed ∨
    s.pull.subscribers = if s.reader = .created then s.handles else s.subscribers
  /-- it does not come back -/
  closed : s.reader = .closed → s.pull.reader = .closed

theorem pull_spec (s : MultiStream) : s.PullSpec := by
  cases hreader : s.reader with
  | created =>
      constructor <;> simp [pull, takes, hreader]
  | checking =>
      cases hconnected : s.connected <;> constructor <;> simp [pull, takes, hreader, hconnected]
  | closed => constructor <;> simp [pull, takes, hreader]
  | waiting =>
      cases hqueue : s.queue with
      | nil => constructor <;> simp [pull, takes, hreader, hqueue]
      | cons notice queue =>
          by_cases hold : notice.event.id ≤ s.last_seen notice.company_id
          · constructor <;> simp [pull, takes, hreader, hqueue, hold]
          · constructor <;> simp [pull, takes, hreader, hqueue, hold]

/-- An event gets on its way by an append. -/
theorem step_places {s : MultiStream} {label : MultiLabel} {x : Notice} (hx : x ∈ (s.step label).places) :
    x ∈ s.places ∨ ∃ company_id post, label = .append company_id post ∧ x ∈ s.stored company_id post := by
  rw [mem_places] at hx ⊢
  cases label with
  | append company_id post =>
      rcases hx with hx | hx
      · rcases List.mem_append.mp hx with hx | hx
        · exact .inl (.inl hx)
        · exact .inr ⟨company_id, post, rfl, hx⟩
      · exact .inl (.inr hx)
  | disconnect => exact .inl hx
  | broadcast notice =>
      left
      obtain hsame | ⟨hmem, hsame⟩ := broadcast_cases notice s
      · rw [step, hsame] at hx
        exact hx
      · rw [step, hsame] at hx
        rcases hx with hx | hx | hx
        · exact .inl (List.mem_of_mem_erase hx)
        · rcases List.mem_append.mp hx with hx | hx
          · exact .inr (.inl hx)
          · exact .inl (List.eq_of_mem_replicate hx ▸ hmem)
        · exact .inr (.inr hx)
  | deliver notice =>
      left
      obtain ⟨hsame, -⟩ | ⟨hmem, -, hsame⟩ := deliver_cases notice s
      · rw [step, hsame] at hx
        exact hx
      · rw [step, hsame] at hx
        rcases hx with hx | hx | hx | hx
        · exact .inl hx
        · exact .inr (.inl (List.mem_of_mem_erase hx))
        · rcases List.mem_append.mp hx with hx | hx
          · exact .inr (.inr (.inl hx))
          · exact .inr (.inl (List.mem_singleton.mp hx ▸ hmem))
        · exact .inr (.inr (.inr hx))
  | enqueue =>
      left
      obtain ⟨-, hsame⟩ | ⟨notice, rest, hcallbacks, hsame⟩ := enqueue_cases s
      · rw [step, hsame] at hx
        exact hx
      · rw [step, hsame] at hx
        rw [hcallbacks]
        rcases hx with hx | hx | hx | hx
        · exact .inl hx
        · exact .inr (.inl hx)
        · exact .inr (.inr (.inl (List.mem_cons_of_mem _ hx)))
        · rcases mem_safe_put hx with hx | rfl
          · exact .inr (.inr (.inr hx))
          · exact .inr (.inr (.inl List.mem_cons_self))
  | pull =>
      left
      have hspec := pull_spec s
      rw [step, hspec.committed, hspec.snapshots, hspec.callbacks] at hx
      rcases hx with hx | hx | hx | hx
      · exact .inl hx
      · exact .inr (.inl hx)
      · exact .inr (.inr (.inl hx))
      · exact .inr (.inr (.inr (hspec.queue ▸ List.mem_append_right _ hx)))
  | timeout =>
      left
      obtain hsame | ⟨-, hsame⟩ := timeout_cases s
      · rw [step, hsame] at hx
        exact hx
      · rw [step, hsame] at hx
        exact hx

/-- A row stays. -/
theorem step_logged {s : MultiStream} (label : MultiLabel) {notice : Notice} (h : s.Logged notice) :
    (s.step label).Logged notice := by
  cases label with
  | append company_id post => exact append_logged.1 notice h
  | disconnect => exact h
  | broadcast other =>
      obtain hsame | ⟨-, hsame⟩ := broadcast_cases other s
      · rwa [step, hsame]
      · rw [step, hsame]
        exact h
  | deliver other =>
      obtain ⟨hsame, -⟩ | ⟨-, -, hsame⟩ := deliver_cases other s
      · rwa [step, hsame]
      · rw [step, hsame]
        exact h
  | enqueue =>
      obtain ⟨-, hsame⟩ | ⟨_, _, -, hsame⟩ := enqueue_cases s
      · rwa [step, hsame]
      · rw [step, hsame]
        exact h
  | pull => rwa [step, Logged, (pull_spec s).stores]
  | timeout =>
      obtain hsame | ⟨-, hsame⟩ := timeout_cases s
      · rwa [step, hsame]
      · rw [step, hsame]
        exact h

theorem mem_places_of_takes {s : MultiStream} {label : MultiLabel} {notice : Notice} (h : notice ∈ takes s label) :
    notice ∈ s.places := by
  cases label with
  | pull =>
      rw [mem_places, (pull_spec s).queue]
      exact .inr (.inr (.inr (List.mem_append_left _ h)))
  | append | broadcast | deliver | enqueue | disconnect | timeout => cases h

/-! ## Every run -/

section Runs

variable {stores : String → EventStore} {handles : List String}

/-- What the generator has taken, in a run from the connection on. -/
def taken (stores : String → EventStore) (handles : List String) (run : List MultiLabel) : List Notice :=
  output step takes (opened stores handles) run

/-- What was scheduled on the event loop. -/
def handed (stores : String → EventStore) (handles : List String) (run : List MultiLabel) : List Notice :=
  output step hands (opened stores handles) run

/-- What was appended once the stream was subscribed. -/
def appended (stores : String → EventStore) (handles : List String) (run : List MultiLabel) : List Notice :=
  output step appends (opened stores handles) run

theorem run_kept (run : List MultiLabel) :
    Kept (taken stores handles run) (exec step (opened stores handles) run) := by
  induction run using List.reverseRecOn with
  | nil => exact ⟨rfl, rfl⟩
  | append_singleton run label ih =>
      rw [taken, output_snoc, exec_snoc]
      exact step_kept ih label

/-- What is on its way, and what the generator has taken, has its row. -/
theorem run_logged (run : List MultiLabel) (notice : Notice)
    (h : notice ∈ (exec step (opened stores handles) run).places ∨ notice ∈ taken stores handles run) :
    (exec step (opened stores handles) run).Logged notice := by
  induction run using List.reverseRecOn generalizing notice with
  | nil =>
      rcases h with h | h
      · cases h
      · cases h
  | append_singleton run label ih =>
      rw [taken, output_snoc, List.mem_append, exec_snoc] at h
      rw [exec_snoc]
      rcases h with h | h | h
      · obtain hbefore | ⟨company_id, post, rfl, hnew⟩ := step_places h
        · exact step_logged label (ih notice (.inl hbefore))
        · exact append_logged.2 notice hnew
      · exact step_logged label (ih notice (.inr h))
      · exact step_logged label (ih notice (.inl (mem_places_of_takes h)))

/-- **In every run**, whatever overtakes what and whatever is dropped: no event is sent twice, the events of a company are
sent in the order of their ids, and all that is sent has its row in the log of its company. -/
theorem multi_stream_sorted (stores : String → EventStore) (handles : List String) (run : List MultiLabel) :
    (exec step (opened stores handles) run).emitted.Nodup ∧
      (exec step (opened stores handles) run).emitted.Pairwise
        (fun x y => x.company_id = y.company_id → x.event.id < y.event.id) ∧
      ∀ notice ∈ (exec step (opened stores handles) run).emitted,
        notice.event ∈ ((exec step (opened stores handles) run).stores notice.company_id).log := by
  have hkept : Kept (taken stores handles run) (exec step (opened stores handles) run) := run_kept run
  have hsorted : (passed (taken stores handles run)).Pairwise
      fun x y => x.company_id = y.company_id → x.event.id < y.event.id := (Watermark.newest_sorted _ _).2
  rw [hkept.emitted]
  refine ⟨hsorted.imp fun hlt heq => ?_, hsorted, fun notice hn => ?_⟩
  · subst heq
    exact lt_irrefl _ (hlt rfl)
  · exact (run_logged run notice (.inr ((Watermark.newest_sublist _ _).subset hn))).1

/-! ## Without an overflow -/

/-- The queue does not overflow. -/
def Fits (s : MultiStream) : MultiLabel → Prop
  | .enqueue => s.callbacks ≠ [] → s.queue.length < QUEUE_BUFFER
  | _ => True

/-- The stream waits for an event, and none is on its way. -/
def AtRest (s : MultiStream) : Prop := s.reader = .waiting ∧ s.places = []

/-- What is taken from the queue was scheduled, in this order, and so was what comes next. -/
theorem step_handed {s : MultiStream} {label : MultiLabel} (hfits : s.Fits label) :
    takes s label ++ ((s.step label).queue ++ (s.step label).callbacks) = s.queue ++ s.callbacks ++ hands s label := by
  cases label with
  | append | disconnect => exact (List.append_nil _).symm
  | broadcast notice =>
      obtain hsame | ⟨-, hsame⟩ := broadcast_cases notice s
      · rw [step, hsame]
        exact (List.append_nil _).symm
      · rw [step, hsame]
        exact (List.append_nil _).symm
  | deliver notice =>
      obtain ⟨hsame, hhands⟩ | ⟨-, hhands, hsame⟩ := deliver_cases notice s
      · rw [step, hsame, hhands, List.append_nil]
        rfl
      · rw [step, hsame, hhands, List.append_assoc]
        rfl
  | enqueue =>
      obtain ⟨-, hsame⟩ | ⟨notice, rest, hcallbacks, hsame⟩ := enqueue_cases s
      · rw [step, hsame]
        exact (List.append_nil _).symm
      · have hroom : ¬ QUEUE_BUFFER ≤ s.queue.length := Nat.not_le.mpr (hfits (hcallbacks ▸ List.cons_ne_nil _ _))
        rw [step, hsame, hcallbacks, safe_put, if_neg hroom]
        simp [takes, hands]
  | pull =>
      have hspec := pull_spec s
      rw [step, hspec.callbacks, ← List.append_assoc, ← hspec.queue]
      exact (List.append_nil _).symm
  | timeout =>
      obtain hsame | ⟨-, hsame⟩ := timeout_cases s
      · rw [step, hsame]
        exact (List.append_nil _).symm
      · rw [step, hsame]
        exact (List.append_nil _).symm

theorem run_handed (run : List MultiLabel) (hfits : Along step Fits (opened stores handles) run) :
    handed stores handles run = taken stores handles run ++
      ((exec step (opened stores handles) run).queue ++ (exec step (opened stores handles) run).callbacks) := by
  induction run using List.reverseRecOn with
  | nil => rfl
  | append_singleton run label ih =>
      obtain ⟨hrun, hlabel⟩ := along_snoc.mp hfits
      have hhanded : handed stores handles (run ++ [label]) = handed stores handles run ++ hands _ label :=
        output_snoc run label _
      have htaken : taken stores handles (run ++ [label]) = taken stores handles run ++ takes _ label :=
        output_snoc run label _
      rw [hhanded, htaken, ih hrun, exec_snoc, List.append_assoc, ← step_handed hlabel, List.append_assoc]

/-- What is appended by a company with a handle does not pass the stream by. -/
structure Followed (handles : List String) (appended handed : List Notice) (s : MultiStream) : Prop where
  same_handles : s.handles = handles
  early : s.reader = .created → appended = []
  subscribed : s.reader ≠ .created → s.reader ≠ .closed → s.subscribers = handles
  followed : s.reader ≠ .closed → ∀ notice ∈ appended, notice.company_id ∈ handles →
    notice ∈ s.committed ∨ notice ∈ s.snapshots ∨ notice ∈ handed

section Steps

variable {handles : List String} {appended handed : List Notice} {s : MultiStream}

theorem Followed.of_same {s' : MultiStream} (h : Followed handles appended handed s) (hhandles : s'.handles = s.handles)
    (hreader : s'.reader = s.reader) (hsubscribers : s'.subscribers = s.subscribers)
    (hcommitted : s'.committed = s.committed) (hsnapshots : s'.snapshots = s.snapshots) :
    Followed handles (appended ++ []) (handed ++ []) s' := by
  rw [List.append_nil, List.append_nil]
  refine ⟨hhandles.trans h.same_handles, fun hr => h.early (hreader ▸ hr), ?_, ?_⟩
  · rw [hreader, hsubscribers]
    exact h.subscribed
  · rw [hreader, hcommitted, hsnapshots]
    exact h.followed

theorem append_followed (h : Followed handles appended handed s) (company_id : String) (post : Post) :
    Followed handles (appended ++ appends s (.append company_id post)) (handed ++ []) (s.append company_id post) := by
  rw [List.append_nil]
  by_cases hcreated : s.reader = .created
  · rw [appends, if_pos hcreated, List.append_nil]
    refine ⟨h.same_handles, h.early, h.subscribed, fun hclosed notice hn hhandle => ?_⟩
    rw [h.early hcreated] at hn
    cases hn
  · rw [appends, if_neg hcreated]
    refine ⟨h.same_handles, fun hc => absurd hc hcreated, h.subscribed, fun hclosed notice hn hhandle => ?_⟩
    rcases List.mem_append.mp hn with hn | hn
    · exact (h.followed hclosed notice hn hhandle).imp (List.mem_append_left _) id
    · exact .inl (List.mem_append_right _ hn)

/-- The snapshot of a store with a callback holds it. -/
theorem broadcast_followed (h : Followed handles appended handed s) (notice : Notice) :
    Followed handles (appended ++ []) (handed ++ []) (s.broadcast notice) := by
  obtain hsame | ⟨hmem, hsame⟩ := broadcast_cases notice s
  · rw [hsame]
    exact h.of_same rfl rfl rfl rfl rfl
  · rw [hsame, List.append_nil, List.append_nil]
    refine ⟨h.same_handles, h.early, h.subscribed, fun hclosed x hx hhandle => ?_⟩
    rcases h.followed hclosed x hx hhandle with hx' | hx' | hx'
    · by_cases heq : x = notice
      · right; left
        -- the store of the event has a callback of the stream
        have hcreated : s.reader ≠ .created := fun hc => by
          rw [h.early hc] at hx
          cases hx
        have hcount : s.subscribers.count notice.company_id ≠ 0 := by
          rw [h.subscribed hcreated hclosed, ← heq]
          exact Nat.pos_iff_ne_zero.mp (List.count_pos_iff.mpr hhandle)
        exact List.mem_append_right _ (List.mem_replicate.mpr ⟨hcount, heq⟩)
      · exact .inl ((List.mem_erase_of_ne heq).mpr hx')
    · exact .inr (.inl (List.mem_append_left _ hx'))
    · exact .inr (.inr hx')

theorem deliver_followed (h : Followed handles appended handed s) (notice : Notice) :
    Followed handles (appended ++ []) (handed ++ hands s (.deliver notice)) (s.deliver notice) := by
  obtain ⟨hsame, hhands⟩ | ⟨-, hhands, hsame⟩ := deliver_cases notice s
  · rw [hsame, hhands]
    exact h.of_same rfl rfl rfl rfl rfl
  · rw [hsame, hhands, List.append_nil]
    refine ⟨h.same_handles, h.early, h.subscribed, fun hclosed x hx hhandle => ?_⟩
    rcases h.followed hclosed x hx hhandle with hx' | hx' | hx'
    · exact .inl hx'
    · by_cases heq : x = notice
      · exact .inr (.inr (List.mem_append_right _ (List.mem_singleton.mpr heq)))
      · exact .inr (.inl ((List.mem_erase_of_ne heq).mpr hx'))
    · exact .inr (.inr (List.mem_append_left _ hx'))

theorem pull_followed (h : Followed handles appended handed s) :
    Followed handles (appended ++ []) (handed ++ []) s.pull := by
  have hspec := pull_spec s
  rw [List.append_nil, List.append_nil]
  refine ⟨hspec.handles.trans h.same_handles, fun hc => absurd hc hspec.reader, fun _ hclosed => ?_, fun hclosed => ?_⟩
  · rcases hspec.subscribers with hend | hsubscribers
    · exact absurd hend hclosed
    · rw [hsubscribers]
      split
      · exact h.same_handles
      · rename_i hcreated
        exact h.subscribed hcreated fun hend => hclosed (hspec.closed hend)
  · rw [hspec.committed, hspec.snapshots]
    exact h.followed fun hend => hclosed (hspec.closed hend)

theorem timeout_followed (h : Followed handles appended handed s) :
    Followed handles (appended ++ []) (handed ++ []) s.timeout := by
  obtain hsame | ⟨hreader, hsame⟩ := timeout_cases s
  · rw [hsame]
    exact h.of_same rfl rfl rfl rfl rfl
  · rw [hsame, List.append_nil, List.append_nil]
    have hopen : s.reader ≠ .created ∧ s.reader ≠ .closed := by
      rw [hreader]
      exact ⟨nofun, nofun⟩
    exact ⟨h.same_handles, nofun, fun _ _ => h.subscribed hopen.1 hopen.2, fun _ => h.followed hopen.2⟩

/-- **No event passes by**, step for step. -/
theorem step_followed (h : Followed handles appended handed s) (label : MultiLabel) :
    Followed handles (appended ++ appends s label) (handed ++ hands s label) (s.step label) := by
  cases label with
  | append company_id post => exact append_followed h company_id post
  | broadcast notice => exact broadcast_followed h notice
  | deliver notice => exact deliver_followed h notice
  | disconnect => exact h.of_same rfl rfl rfl rfl rfl
  | pull => exact pull_followed h
  | timeout => exact timeout_followed h
  | enqueue =>
      obtain ⟨-, hsame⟩ | ⟨_, _, -, hsame⟩ := enqueue_cases s
      · rw [step, hsame]
        exact h.of_same rfl rfl rfl rfl rfl
      · rw [step, hsame]
        exact h.of_same rfl rfl rfl rfl rfl

end Steps

theorem run_followed (run : List MultiLabel) : Followed handles (appended stores handles run)
    (handed stores handles run) (exec step (opened stores handles) run) := by
  induction run using List.reverseRecOn with
  | nil => exact ⟨rfl, fun _ => rfl, fun h => absurd rfl h, nofun⟩
  | append_singleton run label ih =>
      rw [appended, handed, output_snoc, output_snoc, exec_snoc]
      exact step_followed ih label

/-- What was scheduled has its row, while the queue does not overflow. -/
theorem handed_logged {run : List MultiLabel} (hfits : Along step Fits (opened stores handles) run) {notice : Notice}
    (h : notice ∈ handed stores handles run) : (exec step (opened stores handles) run).Logged notice := by
  rw [run_handed run hfits] at h
  rcases List.mem_append.mp h with h | h
  · exact run_logged run notice (.inr h)
  · refine run_logged run notice (.inl (mem_places.mpr ?_))
    rcases List.mem_append.mp h with h | h
    · exact .inr (.inr (.inr h))
    · exact .inr (.inr (.inl h))

/-- **Without an overflow, once nothing is on its way**: what is appended after the connection, by a company that has a
handle then, is handed over. Of that an event is sent exactly if no event of its company that is as new was handed over
before it, and everything is sent exactly if the events of every company are handed over in the order of their ids. -/
theorem multi_stream_complete (stores : String → EventStore) (handles : List String) (run : List MultiLabel)
    (hfits : Along step Fits (opened stores handles) run) (hrest : AtRest (exec step (opened stores handles) run)) :
    (∀ notice ∈ appended stores handles run, notice.company_id ∈ handles → notice ∈ handed stores handles run) ∧
      (∀ notice, notice ∈ (exec step (opened stores handles) run).emitted ↔
        ∃ before after, handed stores handles run = before ++ notice :: after ∧
          ∀ other ∈ before, other.company_id = notice.company_id → other.event.id < notice.event.id) ∧
      ((exec step (opened stores handles) run).emitted = handed stores handles run ↔
        (handed stores handles run).Pairwise
          fun x y => x.company_id = y.company_id → x.event.id < y.event.id) := by
  obtain ⟨hwaiting, hplaces⟩ := hrest
  have hnowhere : ∀ notice, notice ∉ (exec step (opened stores handles) run).places := by
    rw [hplaces]
    exact fun _ => List.not_mem_nil
  -- nothing is left in the queue, so that all that was scheduled has been taken
  have htaken : handed stores handles run = taken stores handles run := by
    have hleft : (exec step (opened stores handles) run).queue ++ (exec step (opened stores handles) run).callbacks = [] := by
      apply List.eq_nil_iff_forall_not_mem.mpr
      intro notice hn
      rcases List.mem_append.mp hn with hn | hn
      · exact hnowhere notice (mem_places.mpr (.inr (.inr (.inr hn))))
      · exact hnowhere notice (mem_places.mpr (.inr (.inr (.inl hn))))
    rw [run_handed run hfits, hleft, List.append_nil]
  have hpositive : ∀ notice ∈ handed stores handles run, 0 < notice.event.id := fun notice hn =>
    (handed_logged hfits hn).2
  have hemitted : (exec step (opened stores handles) run).emitted = passed (handed stores handles run) := by
    rw [htaken]
    exact (run_kept run).emitted
  refine ⟨fun notice hn hhandle => ?_, fun notice => ?_, ?_⟩
  · have hopen : (exec step (opened stores handles) run).reader ≠ .closed := by
      rw [hwaiting]
      exact nofun
    rcases (run_followed run).followed hopen notice hn hhandle with h | h | h
    · exact absurd (mem_places.mpr (.inl h)) (hnowhere notice)
    · exact absurd (mem_places.mpr (.inr (.inl h))) (hnowhere notice)
    · exact h
  · rw [hemitted]
    refine (Watermark.mem_newest_iff _ _).trans ⟨?_, ?_⟩
    · rintro ⟨before, after, heq, -, hbefore⟩
      exact ⟨before, after, heq, hbefore⟩
    · rintro ⟨before, after, heq, hbefore⟩
      exact ⟨before, after, heq, hpositive notice (by rw [heq]; simp), hbefore⟩
  · rw [hemitted]
    exact (Watermark.newest_eq_self_iff _ _).trans (and_iff_right hpositive)

end Runs

/-- Two companies append; the second event of the first one is faster than its first, and than that of the other. -/
def crossing : List MultiLabel :=
  [.pull, .pull, .append "acme" (CompanyStream.tick "1"), .append "acme" (CompanyStream.tick "2"),
    .append "umbrella" (CompanyStream.tick "1")] ++
  (CompanyStream.two_events.reverse.map (Notice.mk "acme") ++
    (CompanyStream.two_events.take 1).map (Notice.mk "umbrella")).flatMap (fun notice =>
      [.broadcast notice, .deliver notice, .enqueue, .pull, .pull])

instance (s : MultiStream) (label : MultiLabel) : Decidable (s.Fits label) :=
  match label with
  | .enqueue => inferInstanceAs (Decidable (s.callbacks ≠ [] → s.queue.length < QUEUE_BUFFER))
  | .append _ _ | .broadcast _ | .deliver _ | .disconnect | .pull | .timeout => isTrue trivial

/-- The first event is lost, and the other company does not matter for that. -/
theorem crossing_loses :
    ∃ notice ∈ appended (fun _ => .quiet) ["acme", "umbrella"] crossing, notice.company_id ∈ ["acme", "umbrella"] ∧
      notice ∈ handed (fun _ => .quiet) ["acme", "umbrella"] crossing ∧
      (exec step (opened (fun _ => .quiet) ["acme", "umbrella"]) crossing).emitted ≠
        handed (fun _ => .quiet) ["acme", "umbrella"] crossing := by
  obtain ⟨hhanded, -, hall⟩ := multi_stream_complete (fun _ => .quiet) ["acme", "umbrella"] crossing
    (by decide +kernel) ⟨by decide +kernel, by decide +kernel⟩
  refine ⟨⟨"acme", CompanyStream.two_events.head (by decide)⟩, by decide +kernel, by decide, ?_, fun heq => ?_⟩
  · exact hhanded _ (by decide +kernel) (by decide)
  · exact absurd (hall.mp heq) (by decide +kernel)

end MultiStream

end CompanyFactory
