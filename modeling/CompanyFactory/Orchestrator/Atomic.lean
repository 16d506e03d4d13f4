import CompanyFactory.Orchestrator.Course
import Mathlib.Data.String.Basic

/-!
# `Orchestrator.Atomic` — a send does both of its writes, or none

A send that goes through writes twice: it pushes the envelope and it appends a `MESSAGE_SENT` event. The push comes
first, and **nothing takes it back** if the log refuses the event. A text may be as long as the log allows for a whole
payload, which is the text and more.

* `atomic_iff` — a send is atomic exactly if the log takes the event of a message that the queue takes.
-/

namespace CompanyFactory

open Act

namespace Orchestrator

/-- The envelopes that the queue has more. -/
def gained_envelopes (o o' : Orchestrator) : List MessageEnvelope := o'.queue.queues.drop o.queue.queues.length

/-- The events that the log has more. -/
def gained_events (o o' : Orchestrator) : List Event := o'.events.log.drop o.events.log.length

/-- The event says that the message of the request was sent. -/
def IsFor (req : SendRequest) (event : Event) : Prop :=
  EventStore.Logged (message_sent req) event ∧ event.actor_agent_id = req.from_agent

/-- **A send is atomic**: it returns `QUEUED` exactly if the recipient's queue gained this envelope and nothing else,
    and the log one `MESSAGE_SENT` event, which is for it; and otherwise neither of the two happened. -/
structure Atomic (o : Orchestrator) (req : SendRequest) : Prop where
  queued : (send req o).1 = .ok .QUEUED ↔
    (gained_envelopes o (send req o).2).filter (fun env => env.to_agent = req.to_agent) = [new_envelope o req] ∧
      ∃ event, IsFor req event ∧ (gained_events o (send req o).2).filter (fun e => e.kind = .MESSAGE_SENT) = [event]
  neither : (send req o).1 ≠ .ok .QUEUED →
    new_envelope o req ∉ gained_envelopes o (send req o).2 ∧ ∀ event ∈ gained_events o (send req o).2, ¬ IsFor req event

/-- The two ways to call `_send`: `send` has a sender, `system_send` has none. -/
def Called (req : SendRequest) : Prop := req.system = req.from_agent.isNone

/-! ## What a computation adds -/

/-- Whatever is added to the queue and to the log is of these kinds. -/
def Adds (P : MessageEnvelope → Prop) (E : Event → Prop) (o o' : Orchestrator) : Prop :=
  ∃ envs events, o'.queue.queues = o.queue.queues ++ envs ∧ o'.events.log = o.events.log ++ events ∧
    (∀ env ∈ envs, P env) ∧ ∀ event ∈ events, E event

section Adds

variable {P : MessageEnvelope → Prop} {E : Event → Prop} {o o' : Orchestrator}

theorem Adds.of_same (hqueue : o'.queue = o.queue) (hevents : o'.events = o.events) : Adds P E o o' :=
  ⟨[], [], by rw [hqueue, List.append_nil], by rw [hevents, List.append_nil],
    List.forall_mem_nil _, List.forall_mem_nil _⟩

theorem Adds.refl (o : Orchestrator) : Adds P E o o := .of_same rfl rfl

theorem Adds.trans (a b c : Orchestrator) (h : Adds P E a b) (h' : Adds P E b c) : Adds P E a c := by
  obtain ⟨envs, events, hqueue, hlog, hP, hE⟩ := h
  obtain ⟨envs', events', hqueue', hlog', hP', hE'⟩ := h'
  refine ⟨envs ++ envs', events ++ events', ?_, ?_, ?_, ?_⟩
  · rw [hqueue', hqueue, List.append_assoc]
  · rw [hlog', hlog, List.append_assoc]
  · exact fun env hmem => (List.mem_append.mp hmem).elim (hP env) (hP' env)
  · exact fun event hmem => (List.mem_append.mp hmem).elim (hE event) (hE' event)

/-- An append adds the row of its post, or nothing. -/
theorem noted_adds {post : Post} (h : ∀ event, event.kind = post.kind → event.actor_agent_id = post.actor → E event)
    (o : Orchestrator) : Adds P E o (noted post o) := by
  cases happend : EventStore.append post o.events with
  | mk r events =>
      have hevents : (noted post o).events = events := by rw [noted, happend]
      cases r with
      | error e =>
          have hlog := EventStore.append_error_log (congrArg Prod.fst happend)
          rw [happend] at hlog
          exact ⟨[], [], (List.append_nil _).symm, by rw [hevents, hlog, List.append_nil], List.forall_mem_nil _,
            List.forall_mem_nil _⟩
      | ok event =>
          obtain ⟨hlog, hlogged⟩ := EventStore.append_logged happend
          refine ⟨[], [event], (List.append_nil _).symm, by rw [hevents, hlog], List.forall_mem_nil _, ?_⟩
          intro event' hmem
          obtain rfl := List.mem_singleton.mp hmem
          exact h _ hlogged.kind (EventStore.append_actor happend)

theorem append_adds {post : Post} (h : ∀ event, event.kind = post.kind → event.actor_agent_id = post.actor → E event) :
    Moves (Adds P E) (append post) := by
  intro o
  rw [append_run]
  exact noted_adds h o

/-- The handling of a loop raises alarms only. -/
theorem handle_loop_adds (hE : ∀ event : Event, event.kind = .AGENT_HEALTH_ALERT → E event) (agent_id kind : String) :
    Moves (Adds P E) (handle_loop agent_id kind) := by
  have halert : ∀ agent_id severity issue actor,
      Moves (Adds P E) (append (health_alert agent_id severity issue actor)) :=
    fun _ _ _ _ => append_adds fun event hkind _ => hE event hkind
  refine .bind Adds.trans (.write fun _ => .of_same rfl rfl) fun _ => ?_
  refine .bind Adds.trans (halert _ _ _ _) fun _ => ?_
  refine .bind Adds.trans (.read Adds.refl _) fun strikes => .ite ?_ (.pure Adds.refl _)
  refine .bind Adds.trans (.write fun _ => .of_same rfl rfl) fun _ => ?_
  refine .bind Adds.trans (.read Adds.refl _) fun manager => ?_
  cases manager with
  | none => exact .pure Adds.refl _
  | some _ => exact halert _ _ _ _

/-- A system message adds itself, the event about it, and alarms. -/
theorem system_send_adds {req : SendRequest} (hsystem : req.system = true) (hsender : req.from_agent = none)
    (hP : ∀ env : MessageEnvelope, env.from_agent = none → P env)
    (hE : ∀ event : Event, event.kind = .AGENT_HEALTH_ALERT ∨ event.actor_agent_id = none → E event)
    (o : Orchestrator) : Adds P E o (system_send req o).2 := by
  obtain ⟨-, result, -, hrun⟩ | ⟨-, hrun⟩ := system_send_run o _ hsystem hsender
  · rw [hrun]
    exact Adds.refl o
  · rw [hrun]
    cases hduplicate : is_duplicate req o with
    | true =>
        rw [deliver_to_queue_of_duplicate hduplicate]
        exact Adds.refl o
    | false =>
        cases havailable : o.queue.available with
        | false =>
            obtain ⟨e, hoffline⟩ := deliver_to_queue_of_offline hduplicate havailable
            rw [hoffline]
            exact noted_adds (fun event hkind _ => hE event (.inl hkind)) o
        | true =>
            rw [deliver_to_queue_of_available hduplicate havailable]
            -- the push, and then the event
            have hpush : Adds P E o (enqueued o req) := by
              refine ⟨[new_envelope o req], [], rfl, (List.append_nil _).symm, ?_, List.forall_mem_nil _⟩
              intro env hmem
              obtain rfl := List.mem_singleton.mp hmem
              exact hP _ hsender
            refine hpush.trans _ _ _ (noted_adds (fun event _ hactor => hE event (.inr ?_)) _)
            exact hactor.trans hsender

end Adds

/-! ## The two writes -/

variable {o : Orchestrator} {req : SendRequest}

theorem past_fields (o : Orchestrator) (req : SendRequest) :
    (past o req).queue = o.queue ∧ (past o req).events = o.events ∧ (past o req).sent = o.sent := by
  unfold past
  split <;> exact ⟨rfl, rfl, rfl⟩

theorem is_duplicate_past : is_duplicate req (past o req) = is_duplicate req o := by
  unfold is_duplicate
  rw [(past_fields o req).1]

theorem new_envelope_past : new_envelope (past o req) req = new_envelope o req := by
  unfold new_envelope
  rw [(past_fields o req).2.2]

/-- Does the queue take the message? In terms of the ways through a send. -/
theorem accepts_eq : accepts o req =
    (gates o req && past_limits o req && !is_duplicate req o && o.queue.available) := by
  unfold accepts takes gates
  cases admits o req <;> cases past_limits o req <;> cases is_duplicate req o <;> cases o.queue.available <;> simp

/-- A message that the queue takes: it is pushed, and then its event is appended. -/
theorem send_accepted (h : accepts o req = true) :
    send req o = ((EventStore.append (message_sent req) o.events).1.map fun _ => .QUEUED,
      noted (message_sent req) (enqueued (past o req) req)) := by
  have hcourse := send_course o req
  rw [accepts_eq] at h
  simp only [Bool.and_eq_true, Bool.not_eq_true'] at h
  obtain ⟨⟨⟨hgates, hlimits⟩, hnew⟩, havailable⟩ := h
  rcases hrun : send req o with ⟨r, o'⟩
  rw [hrun] at hcourse
  cases hcourse with
  | stopped _ _ hno _ => exact absurd hgates (by rw [hno]; exact Bool.false_ne_true)
  | refused _ _ _ hno _ => exact absurd hgates (by rw [hno]; exact Bool.false_ne_true)
  | limited _ _ _ hsystem htaken => simp [past_limits, hsystem, htaken] at hlimits
  | looped _ _ _ _ hsystem _ hlooped => simp [past_limits, hsystem, hlooped] at hlimits
  | delivered _ _ =>
      have hpast_new : is_duplicate req (past o req) = false := by rw [is_duplicate_past, hnew]
      have hpast_available : (past o req).queue.available = true := by rw [(past_fields o req).1, havailable]
      have hdeliver := deliver_to_queue_of_available hpast_new hpast_available
      rw [(past_fields o req).2.1] at hdeliver
      exact hdeliver

/-- An envelope of nobody's, when the message has a sender. -/
def IsNotice (req : SendRequest) (env : MessageEnvelope) : Prop := env.from_agent = none ∧ req.from_agent ≠ none

/-- An alarm, or an event about such an envelope. -/
def IsAside (req : SendRequest) (event : Event) : Prop :=
  event.kind = .AGENT_HEALTH_ALERT ∨ (event.actor_agent_id = none ∧ req.from_agent ≠ none)

/-- A message that the queue does not take: the send does not return `QUEUED`, and adds notifications and alarms
    only. -/
theorem send_not_accepted (hcalled : Called req) (h : accepts o req = false) :
    (send req o).1 ≠ .ok .QUEUED ∧ Adds (IsNotice req) (IsAside req) o (send req o).2 := by
  have hnotice : ∀ {notice : SendRequest} (o : Orchestrator), req.from_agent ≠ none → notice.system = true →
      notice.from_agent = none → Adds (IsNotice req) (IsAside req) o (system_send notice o).2 := by
    intro notice o hsender hsystem hnobody
    exact system_send_adds hsystem hnobody (fun env henv => ⟨henv, hsender⟩)
      (fun event hevent => hevent.imp id fun hactor => ⟨hactor, hsender⟩) o
  -- a message that is not from the system has a sender
  have hsender : req.system = false → req.from_agent ≠ none := by
    intro hsystem hnone
    rw [Called, hsystem, hnone] at hcalled
    cases hcalled
  have hcourse := send_course o req
  rcases hrun : send req o with ⟨r, o'⟩
  rw [hrun] at hcourse
  cases hcourse with
  | stopped result hresult _ _ => exact ⟨fun heq => hresult (Except.ok.inj heq), Adds.refl _⟩
  | refused notice _ hr _ hundeliverable =>
      refine ⟨hr, ?_⟩
      unfold undeliverable at hundeliverable
      split at hundeliverable
      · obtain ⟨sender, hfrom, rfl⟩ := Option.map_eq_some_iff.mp hundeliverable
        exact hnotice o (by rw [hfrom]; exact Option.some_ne_none sender) rfl rfl
      · cases hundeliverable
  | limited _ hr _ hsystem _ =>
      have hcharged : Adds (IsNotice req) (IsAside req) o (charged o req) := .of_same rfl rfl
      exact ⟨hr, hcharged.trans _ _ _ (hnotice (charged o req) (hsender hsystem) rfl rfl)⟩
  | looped kind _ hr _ _ _ _ =>
      have hchecked : Adds (IsNotice req) (IsAside req) o (checked o req) := .of_same rfl rfl
      exact ⟨hr, hchecked.trans _ _ _ (handle_loop_adds (fun event hkind => .inl hkind) _ _ _)⟩
  | delivered hgates hlimits =>
      have hpast : Adds (IsNotice req) (IsAside req) o (past o req) :=
        .of_same (past_fields o req).1 (past_fields o req).2.1
      cases hduplicate : is_duplicate req o with
      | true =>
          rw [deliver_to_queue_of_duplicate (by rw [is_duplicate_past, hduplicate])]
          exact ⟨nofun, hpast⟩
      | false =>
          have hoffline : (past o req).queue.available = false := by
            rw [accepts_eq, hgates, hlimits, hduplicate] at h
            rw [(past_fields o req).1]
            simpa using h
          have hnew : is_duplicate req (past o req) = false := by rw [is_duplicate_past, hduplicate]
          obtain ⟨e, hdeliver⟩ := deliver_to_queue_of_offline hnew hoffline
          rw [hdeliver]
          exact ⟨nofun, hpast.trans _ _ _ (noted_adds (fun event hkind _ => .inl hkind) _)⟩

/-! ## When a send is atomic -/

/-- What was added is what the lists have more. -/
theorem Adds.gained {P : MessageEnvelope → Prop} {E : Event → Prop} {o' : Orchestrator} (h : Adds P E o o') :
    (∀ env ∈ gained_envelopes o o', P env) ∧ ∀ event ∈ gained_events o o', E event := by
  obtain ⟨envs, events, hqueue, hlog, hP, hE⟩ := h
  unfold gained_envelopes gained_events
  rw [hqueue, hlog, List.drop_left, List.drop_left]
  exact ⟨hP, hE⟩

/-- A message that the queue does not take leaves neither of the two. -/
theorem atomic_of_not_accepted (hcalled : Called req) (h : accepts o req = false) : Atomic o req := by
  obtain ⟨hne, hadds⟩ := send_not_accepted hcalled h
  obtain ⟨hnotices, hasides⟩ := hadds.gained
  have hnot : new_envelope o req ∉ gained_envelopes o (send req o).2 := by
    intro hmem
    obtain ⟨hnobody, hsender⟩ := hnotices _ hmem
    exact hsender hnobody
  have hnone : ∀ event ∈ gained_events o (send req o).2, ¬ IsFor req event := by
    rintro event hmem ⟨hlogged, hactor⟩
    rcases hasides event hmem with halert | ⟨hnobody, hsender⟩
    · rw [hlogged.kind] at halert
      cases halert
    · exact hsender (hactor.symm.trans hnobody)
  refine ⟨iff_of_false hne ?_, fun _ => ⟨hnot, hnone⟩⟩
  rintro ⟨henvelopes, -⟩
  have hmem : new_envelope o req ∈ [new_envelope o req] := List.mem_singleton_self _
  rw [← henvelopes] at hmem
  exact hnot (List.mem_filter.mp hmem).1

/-- The queue takes the message: it has gained this envelope. -/
theorem gained_of_accepted (h : accepts o req = true) :
    gained_envelopes o (send req o).2 = [new_envelope o req] := by
  have hqueue : (send req o).2.queue.queues = o.queue.queues ++ [new_envelope o req] := by
    rw [send_accepted h]
    show (past o req).queue.queues ++ [new_envelope (past o req) req] = _
    rw [(past_fields o req).1, new_envelope_past]
  rw [gained_envelopes, hqueue, List.drop_left]

theorem send_of_appended {r : Except Exn Event} {events : EventStore} (h : accepts o req = true)
    (happend : EventStore.append (message_sent req) o.events = (r, events)) :
    send req o = (r.map fun _ => .QUEUED, { enqueued (past o req) req with events }) := by
  have hevents : (enqueued (past o req) req).events = o.events := (past_fields o req).2.1
  rw [send_accepted h, happend, noted, hevents, happend]

/-- Both writes go through. -/
theorem atomic_of_logged (h : accepts o req = true) (hlogs : o.events.accepts [message_sent req] = true) :
    Atomic o req := by
  rw [EventStore.accepts_singleton] at hlogs
  rcases happend : EventStore.append (message_sent req) o.events with ⟨r, events⟩
  have hsent := send_of_appended h happend
  cases r with
  | error e =>
      rw [happend] at hlogs
      cases hlogs
  | ok event =>
      obtain ⟨hlog, hlogged⟩ := EventStore.append_logged happend
      -- what the log gained is the one row
      have hgained : gained_events o (send req o).2 = [event] := by
        rw [gained_events, hsent]
        show events.log.drop _ = _
        rw [hlog, List.drop_left]
      have hresult : (send req o).1 = .ok .QUEUED := by
        rw [hsent]
        rfl
      refine ⟨iff_of_true hresult ⟨?_, event, ?_, ?_⟩, fun hne => absurd hresult hne⟩
      · rw [gained_of_accepted h]
        simp [new_envelope]
      · exact ⟨hlogged, EventStore.append_actor happend⟩
      · rw [hgained]
        simp [hlogged.kind, message_sent]

/-- The envelope is in the queue, and the caller is told that the send failed. -/
theorem not_atomic_of_refused (h : accepts o req = true) (hno : o.events.accepts [message_sent req] = false) :
    ¬ Atomic o req := by
  rw [EventStore.accepts_singleton] at hno
  rcases happend : EventStore.append (message_sent req) o.events with ⟨r, events⟩
  have hsent := send_of_appended h happend
  cases r with
  | ok event =>
      rw [happend] at hno
      cases hno
  | error e =>
      have hresult : (send req o).1 ≠ .ok .QUEUED := by
        rw [hsent]
        exact nofun
      intro hatomic
      refine (hatomic.neither hresult).1 ?_
      rw [gained_of_accepted h]
      exact List.mem_singleton_self _

/-- **When a send is atomic**: exactly if the log takes the event of a message that the queue takes. -/
theorem atomic_iff (hcalled : Called req) :
    Atomic o req ↔ (accepts o req = true → o.events.accepts [message_sent req] = true) := by
  cases haccepts : accepts o req with
  | false => exact iff_of_true (atomic_of_not_accepted hcalled haccepts) nofun
  | true =>
      cases hlogs : o.events.accepts [message_sent req] with
      | true => exact iff_of_true (atomic_of_logged haccepts hlogs) fun _ => rfl
      | false =>
          exact iff_of_false (not_atomic_of_refused haccepts hlogs) fun hall => absurd (hall rfl) Bool.false_ne_true

/-! ### A message of the greatest size -/

/-- The cap of a payload as JSON; that of a message's text is the same. -/
def _DEFAULT_MAX_PAYLOAD_BYTES : Nat := 256 * 1024

/-- An empty log that refuses an event whose text, in its quotes, is over the cap of a payload already. -/
def capped : EventStore :=
  { EventStore.quiet with
    refuses := fun _ post =>
      match post.payload.lookup "content" with
      | some (.str text) =>
        if _DEFAULT_MAX_PAYLOAD_BYTES < text.utf8ByteSize + 2 then some (.PayloadTooLarge "message.sent") else none
      | _ => none }

/-- One agent, with such a log. -/
def one_agent : Orchestrator :=
  { fresh [⟨"b", true, none⟩] capped {} {} id with agents := [⟨"b", 0⟩] }

/-- A system message of so many bytes. -/
def bytes (n : Nat) : SendRequest :=
  { from_agent := none, to_agent := "b", content := String.ofList (List.replicate n 'x'), kind := .NOTIFY
    correlation_id := none, system := true, now := 0, monotonic := 0 }

theorem bytes_size (n : Nat) : (bytes n).content.utf8ByteSize = n := by
  show (String.ofList (List.replicate n 'x')).utf8ByteSize = n
  rw [String.utf8ByteSize_ofList]
  induction n with
  | zero => rfl
  | succ n ih =>
      rw [List.replicate_succ, String.utf8Len_cons, ih]
      rfl

theorem bytes_accepted {n : Nat} (h : n ≤ _MAX_CONTENT_BYTES) : accepts one_agent (bytes n) = true := by
  have hsize : (bytes n).content.utf8ByteSize ≤ _MAX_CONTENT_BYTES := by
    rw [bytes_size]
    exact h
  have hactive : is_active one_agent "b" = true := by decide
  have hfree : is_suspended one_agent "b" = false := by decide
  have hknown : (one_agent.registered "b").isSome = true := by decide
  have hto : (bytes n).to_agent = "b" := rfl
  simp only [accepts, takes, admits, hsize, hto, hactive, hfree, hknown]
  rfl

theorem bytes_refused {n : Nat} (h : _DEFAULT_MAX_PAYLOAD_BYTES < n + 2) :
    one_agent.events.accepts [message_sent (bytes n)] = false := by
  have hrefuses : capped.refuses 0 (message_sent (bytes n)) = some (.PayloadTooLarge "message.sent") := by
    show (if _DEFAULT_MAX_PAYLOAD_BYTES < (bytes n).content.utf8ByteSize + 2 then _ else _) = _
    rw [bytes_size, if_pos h]
  have hstore : one_agent.events.refuses one_agent.events.attempts = capped.refuses 0 := rfl
  rw [EventStore.accepts_singleton]
  unfold EventStore.append
  split
  · rfl
  · rw [hstore, hrefuses]
    rfl

theorem small_message_atomic :
    Atomic one_agent (bytes 2) ↔
      (accepts one_agent (bytes 2) = true → one_agent.events.accepts [message_sent (bytes 2)] = true) :=
  atomic_iff rfl

/-- A message of 256 KiB is within the size cap of a message, and its event is not within that of a payload. -/
theorem large_message_not_atomic :
    ¬ ∀ (o : Orchestrator) (req : SendRequest), Called req → req.content.utf8ByteSize ≤ _MAX_CONTENT_BYTES →
      Atomic o req := by
  intro h
  have hover : _DEFAULT_MAX_PAYLOAD_BYTES < _MAX_CONTENT_BYTES + 2 := by decide
  refine not_atomic_of_refused (bytes_accepted le_rfl) (bytes_refused hover) ?_
  exact h one_agent (bytes _MAX_CONTENT_BYTES) rfl (by rw [bytes_size])

end Orchestrator

end CompanyFactory
