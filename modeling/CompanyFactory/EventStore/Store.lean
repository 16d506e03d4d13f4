import CompanyFactory.EventStore.Payloads
import CompanyFactory.Exceptions
import CompanyFactory.Lib.Effect

/-!
# `EventStore.Store` — the append-only event log

`EventStore.append` validates the payload, refuses one that serialises to more than
`max_payload_bytes`, and inserts one row. Whether the insert goes through depends on the byte size of the
JSON text, on the company clock and on the database; the model leaves that open: `refuses n post` says whether
(and why) the `n`-th attempt is refused. Statements quantify over `refuses`, that is over every choice of the
appends that raise.

A refused append leaves the log as it was, and what it raises is an error of the store (`append_cases`).
-/

namespace CompanyFactory

/-- A `datetime`, in microseconds. -/
abbrev Time := Int

/-- One row of the `events` table. -/
structure Event where
  id : Nat
  kind : EventKind
  payload : Fields
  actor_agent_id : Option String
  correlation_id : Option String
  ts_company : Time
  ts_real : Time
  deriving DecidableEq, Repr

/-- What a caller passes to `append`. -/
structure Post where
  kind : EventKind
  payload : Fields
  actor : Option String := none
  correlation : Option String := none
  deriving DecidableEq, Repr

/-- Why an append with a valid payload is refused. -/
inductive Refusal where
  | PayloadTooLarge (message : String)
  /-- `sqlite3.Error`, from the insert or from reading the company clock -/
  | database (message : String)
  deriving DecidableEq, Repr

def Refusal.exn : Refusal → Exn
  | .PayloadTooLarge message => .payloadTooLarge message
  | .database message => .database message

/-- The event store of one company. -/
structure EventStore where
  log : List Event
  /-- appends that got past validation so far -/
  attempts : Nat
  refuses : Nat → Post → Option Refusal
  /-- the company clock, if one was passed to the constructor -/
  company_now : Option (Nat → Time)
  utcnow : Nat → Time

namespace EventStore

/-- An empty store that refuses the `n`-th valid append as too large. -/
def refusing (n : Nat) : EventStore :=
  { log := [], attempts := 0
    refuses := fun k _ => if k = n then some (.PayloadTooLarge "65537 > 65536") else none
    company_now := none, utcnow := fun k => k }

/-- An empty store that takes every valid append. -/
def quiet : EventStore :=
  { log := [], attempts := 0, refuses := fun _ _ => none, company_now := none, utcnow := fun n => n }

/-- `_validate_payload` -/
def validate_payload (kind : EventKind) (payload : Fields) : Except Exn Fields :=
  match model_for kind with
  | none => .error (.unknownEventKind kind.value)
  | some specs =>
    match validateFields specs payload with
    | none => .error (.payloadValidation kind.value)
    | some validated => .ok validated

/-- The row that an accepted post becomes. -/
def row (st : EventStore) (post : Post) (validated : Fields) : Event :=
  { id := st.log.length + 1, kind := post.kind, payload := validated,
    actor_agent_id := post.actor, correlation_id := post.correlation,
    ts_company := st.company_now.getD st.utcnow st.attempts, ts_real := st.utcnow st.attempts }

def append (post : Post) : Act EventStore Exn Event := fun st =>
  match validate_payload post.kind post.payload with
  | .error e => (.error e, st)
  | .ok validated =>
    match st.refuses st.attempts post with
    | some refusal => (.error refusal.exn, { st with attempts := st.attempts + 1 })
    | none =>
      let event := st.row post validated
      (.ok event, { st with log := st.log ++ [event], attempts := st.attempts + 1 })

/-- Append one event after the other; the first refusal raises. -/
def appendAll : List Post → Act EventStore Exn Unit
  | [] => pure ()
  | post :: posts => do
      let _ ← append post
      appendAll posts

/-- Would the store take these posts, in this order? -/
def accepts (st : EventStore) (posts : List Post) : Bool := (appendAll posts).returns st

theorem validate_error {kind : EventKind} {payload : Fields} {e : Exn}
    (h : validate_payload kind payload = .error e) : e.isStoreError = true := by
  unfold validate_payload at h
  split at h
  · cases h; rfl
  · split at h <;> cases h
    rfl

/-- **What one append can do**: raise an error of the store and leave the log alone, or add one row of
    the kind asked for. -/
theorem append_cases (post : Post) (st : EventStore) :
    (∃ e, (append post st).1 = .error e ∧ e.isStoreError = true ∧
      (append post st).2.log = st.log) ∨
    (∃ event, (append post st).1 = .ok event ∧ (append post st).2.log = st.log ++ [event] ∧
      event.kind = post.kind) := by
  unfold append
  cases hval : validate_payload post.kind post.payload with
  | error e => exact .inl ⟨e, rfl, validate_error hval, rfl⟩
  | ok validated =>
      cases st.refuses st.attempts post with
      | some refusal => exact .inl ⟨refusal.exn, by simp, by cases refusal <;> rfl, by simp⟩
      | none => exact .inr ⟨st.row post validated, by simp, by simp, rfl⟩

/-- An append that raises leaves the log alone. -/
theorem append_error_log {post : Post} {st : EventStore} {e : Exn} (h : (append post st).1 = .error e) :
    (append post st).2.log = st.log := by
  obtain ⟨-, -, -, hlog⟩ | ⟨event, hok, -, -⟩ := append_cases post st
  · exact hlog
  · rw [hok] at h
    cases h

theorem appendAll_cons (post : Post) (posts : List Post) (st : EventStore) :
    appendAll (post :: posts) st = match append post st with
      | (.ok _, st') => appendAll posts st'
      | (.error e, st') => (.error e, st') := by
  rw [appendAll, Act.bind_run]
  rcases append post st with ⟨_ | _, _⟩ <;> rfl

theorem appendAll_append (ps qs : List Post) (st : EventStore) :
    appendAll (ps ++ qs) st = match appendAll ps st with
      | (.ok _, st') => appendAll qs st'
      | (.error e, st') => (.error e, st') := by
  induction ps generalizing st with
  | nil => rfl
  | cons p ps ih =>
      rw [List.cons_append, appendAll_cons, appendAll_cons]
      rcases append p st with ⟨r, st'⟩
      cases r with
      | ok ev => exact ih st'
      | error e => rfl

/-- A list of posts that raises, raises an error of the store. -/
theorem appendAll_error {posts : List Post} {st : EventStore} {e : Exn}
    (h : (appendAll posts st).1 = .error e) : e.isStoreError = true := by
  induction posts generalizing st with
  | nil => cases h
  | cons p ps ih =>
      rw [appendAll_cons] at h
      obtain ⟨e', he', hstore, _⟩ | ⟨event, hok, _⟩ := append_cases p st
      · rcases happ : append p st with ⟨r, st'⟩
        rw [happ] at he' h
        cases he'
        cases h
        exact hstore
      · rcases happ : append p st with ⟨r, st'⟩
        rw [happ] at hok h
        cases hok
        exact ih h

/-- The event is the row of the post. -/
structure Logged (post : Post) (event : Event) : Prop where
  kind : event.kind = post.kind
  correlation : event.correlation_id = post.correlation
  payload : validate_payload post.kind post.payload = .ok event.payload

/-- An append that returns has added the row of the post. -/
theorem append_logged {post : Post} {st st' : EventStore} {event : Event}
    (h : append post st = (.ok event, st')) :
    st'.log = st.log ++ [event] ∧ Logged post event := by
  unfold append at h
  cases hval : validate_payload post.kind post.payload with
  | error e =>
      rw [hval] at h
      cases h
  | ok validated =>
      rw [hval] at h
      dsimp only at h
      split at h
      · cases h
      · cases h
        exact ⟨rfl, rfl, rfl, hval⟩

theorem append_actor {post : Post} {st st' : EventStore} {event : Event} (h : append post st = (.ok event, st')) :
    event.actor_agent_id = post.actor := by
  unfold append at h
  split at h
  · cases h
  · dsimp only at h
    split at h
    · cases h
    · cases h
      rfl

theorem appendAll_singleton (post : Post) (st : EventStore) :
    appendAll [post] st = ((append post st).1.map fun _ => (), (append post st).2) := by
  rw [appendAll_cons]
  rcases append post st with ⟨_ | _, _⟩ <;> rfl

/-- A single post is taken if its append returns. -/
theorem accepts_singleton (post : Post) (st : EventStore) : st.accepts [post] = (append post st).1.isOk := by
  unfold accepts Act.returns
  rw [appendAll_singleton]
  cases (append post st).1 <;> rfl

/-- The log takes an event and then others. -/
theorem accepts_cons (post : Post) (posts : List Post) (st : EventStore) : st.accepts (post :: posts) = true ↔
    (append post st).1.isOk = true ∧ (append post st).2.accepts posts = true := by
  unfold accepts Act.returns
  rw [appendAll_cons]
  rcases append post st with ⟨_ | event, st'⟩
  · exact ⟨nofun, nofun⟩
  · exact ⟨fun h => ⟨rfl, h⟩, fun h => h.2⟩

/-- **What a list of posts adds**: the rows of the first ones, up to a refusal; no row exactly if the first post is
    refused. -/
theorem appendAll_rows (posts : List Post) : ∀ st : EventStore, ∃ done rest rows, posts = done ++ rest ∧
    (appendAll posts st).2.log = st.log ++ rows ∧ List.Forall₂ Logged done rows ∧
    ((appendAll posts st).1 = .ok () → rest = []) ∧
    (rows = [] ↔ posts.head?.any (fun post => st.accepts [post]) = false) := by
  induction posts with
  | nil =>
      intro st
      exact ⟨[], [], [], rfl, (List.append_nil _).symm, .nil, fun _ => rfl, iff_of_true rfl rfl⟩
  | cons post posts ih =>
      intro st
      rw [appendAll_cons, List.head?_cons, Option.any_some, accepts_singleton]
      rcases happ : append post st with ⟨r, u⟩
      cases r with
      | error e =>
          have hlog := append_error_log (congrArg Prod.fst happ)
          rw [happ] at hlog
          exact ⟨[], post :: posts, [], rfl, hlog.trans (List.append_nil _).symm, .nil, nofun, iff_of_true rfl rfl⟩
      | ok event =>
          obtain ⟨hlog, hlogged⟩ := append_logged happ
          obtain ⟨done, rest, rows, rfl, hrows, hall, hrest, -⟩ := ih u
          refine ⟨post :: done, rest, event :: rows, rfl, ?_, .cons hlogged hall, hrest,
            iff_of_false (List.cons_ne_nil _ _) Bool.noConfusion⟩
          rw [hrows, hlog, List.append_assoc]
          rfl

/-- Appends that all return have added one row for each post. -/
theorem appendAll_logged {posts : List Post} {st st' : EventStore} (h : appendAll posts st = (.ok (), st')) :
    ∃ events, st'.log = st.log ++ events ∧ List.Forall₂ Logged posts events := by
  obtain ⟨done, rest, rows, hposts, hlog, hall, hrest, -⟩ := appendAll_rows posts st
  rw [h] at hlog hrest
  rw [hrest rfl, List.append_nil] at hposts
  exact ⟨rows, hlog, hposts ▸ hall⟩

theorem appendAll_of_accepts {posts : List Post} {st : EventStore} (h : st.accepts posts = true) :
    (appendAll posts st).1 = .ok () := by
  unfold accepts Act.returns at h
  rcases happ : (appendAll posts st).1 with e | u
  · simp [happ, Except.isOk, Except.toBool] at h
  · rfl

theorem appendAll_of_refused {posts : List Post} {st : EventStore} (h : st.accepts posts = false) :
    ∃ e, (appendAll posts st).1 = .error e := by
  unfold accepts Act.returns at h
  rcases happ : (appendAll posts st).1 with e | u
  · exact ⟨e, rfl⟩
  · simp [happ, Except.isOk, Except.toBool] at h

@[simp] theorem accepts_nil (st : EventStore) : st.accepts [] = true := rfl

/-- A store is asked for a list of posts in two parts. -/
theorem accepts_append (ps qs : List Post) (st : EventStore) :
    st.accepts (ps ++ qs) = (st.accepts ps && ((appendAll ps).after st).accepts qs) := by
  unfold accepts Act.returns Act.after
  rw [appendAll_append]
  rcases appendAll ps st with ⟨r, st'⟩
  cases r with
  | ok _ => simp [Except.isOk, Except.toBool]
  | error e => simp [Except.isOk, Except.toBool]

end EventStore

end CompanyFactory
