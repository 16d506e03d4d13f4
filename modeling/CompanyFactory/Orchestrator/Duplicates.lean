import CompanyFactory.Orchestrator.Course

/-!
# `Orchestrator.Duplicates` — what a repeated message does

A message whose correlation id the recipient has accepted is not queued again. But `_send` asks for duplicates last: the
rate limit and the loop detector come before, and both remember every message that they see.

* `no_effect_iff` — which duplicates leave everything as it is: above all the system messages, which pass neither of
  the two.
-/

namespace CompanyFactory

open Act

namespace Orchestrator

/-- The guards, the queue and the log are the same. -/
structure SameGuards (o o' : Orchestrator) : Prop where
  buckets : o'.rate.buckets = o.rate.buckets
  windows : o'.loops = o.loops
  strikes : o'.loop_strikes = o.loop_strikes
  suspended : o'.suspended = o.suspended
  queue : o'.queue = o.queue
  log : o'.events.log = o.events.log

/-- The send has no effect, and says that the message was not queued. -/
def NoEffect (o : Orchestrator) (req : SendRequest) : Prop :=
  (send req o).1 ≠ .ok .QUEUED ∧ SameGuards o (send req o).2

/-- A notification leaves no trace: a gate stops it, or the queue is offline and the log refuses the alarm. -/
def Silent (o : Orchestrator) (notice : SendRequest) : Prop :=
  gates o notice = false ∨ (o.queue.available = false ∧ o.events.accepts [queue_alert notice] = false)

/-- The bucket of the sender has just been counted, and holds less than a token. -/
def Drained (o : Orchestrator) (req : SendRequest) : Prop :=
  let agent_id := or_else req.from_agent "?"
  o.rate.refilled agent_id req.monotonic < 1 ∧
    o.rate.buckets agent_id = some ⟨o.rate.refilled agent_id req.monotonic, req.monotonic⟩

/-- The duplicates that leave no trace: those that a gate stops, with at most a silent notification; system messages;
    and those of a sender whose bucket is drained, if its notification is silent. -/
def Spared (o : Orchestrator) (req : SendRequest) : Prop :=
  if gates o req then req.system = true ∨ (Drained o req ∧ Silent o (slow_down req))
  else ∀ notice, undeliverable o req = some notice → Silent o notice

variable {o o' : Orchestrator} {req : SendRequest}

theorem SameGuards.refl (o : Orchestrator) : SameGuards o o := ⟨rfl, rfl, rfl, rfl, rfl, rfl⟩

/-! ## The bucket of the sender -/

/-- An attempt leaves the buckets as they are exactly if it fails, in a bucket that was counted just now. -/
theorem charged_buckets_iff : (charged o req).rate.buckets = o.rate.buckets ↔ Drained o req := by
  unfold charged Drained RateLimiter.try_consume
  dsimp only
  generalize or_else req.from_agent "?" = agent_id
  by_cases hone : 1 ≤ o.rate.refilled agent_id req.monotonic
  · rw [if_pos hone]
    refine iff_of_false (fun hsame => ?_) fun hdrained => absurd hone (not_le.mpr hdrained.1)
    -- a bucket that holds what it held less one token has not more than that now
    have hbucket : o.rate.buckets agent_id = some ⟨o.rate.refilled agent_id req.monotonic - 1, req.monotonic⟩ := by
      rw [← hsame]
      exact Function.update_self _ _ _
    have hle : o.rate.refilled agent_id req.monotonic ≤ o.rate.refilled agent_id req.monotonic - 1 := by
      conv_lhs => rw [RateLimiter.refilled, hbucket]
      simp
    linarith
  · rw [if_neg hone]
    constructor
    · intro hsame
      refine ⟨not_le.mp hone, ?_⟩
      conv_lhs => rw [← hsame]
      exact Function.update_self _ _ _
    · rintro ⟨-, hbucket⟩
      show Function.update o.rate.buckets agent_id _ = o.rate.buckets
      rw [← hbucket, Function.update_eq_self]

/-- If a token was taken, the bucket is not drained. -/
theorem not_drained_of_taken (h : (o.rate.try_consume (or_else req.from_agent "?") req.monotonic).1 = true) :
    ¬ Drained o req := by
  rintro ⟨hlt, -⟩
  unfold RateLimiter.try_consume at h
  dsimp only at h
  rw [if_neg (not_le.mpr hlt)] at h
  cases h

/-! ## Notifications -/

/-- A notification leaves the guards alone, exactly if it is silent. -/
theorem notice_same_iff {notice : SendRequest} (hsystem : notice.system = true) (hsender : notice.from_agent = none)
    (hid : notice.correlation_id = none) : SameGuards o (system_send notice o).2 ↔ Silent o notice := by
  obtain ⟨hgates, result, -, hrun⟩ | ⟨hgates, hrun⟩ := system_send_run o _ hsystem hsender
  · rw [hrun]
    exact iff_of_true (.refl o) (.inl hgates)
  · have hnew : is_duplicate notice o = false := by rw [is_duplicate, hid]
    unfold Silent
    rw [hrun, hgates]
    -- a notification that is queued is seen in the queue; one that is not, in the log
    cases havailable : o.queue.available with
    | true =>
        rw [deliver_to_queue_of_available hnew havailable]
        refine iff_of_false (fun hsame => ?_) (by simp)
        have hlonger : (o.queue.queues ++ [new_envelope o notice]).length = o.queue.queues.length :=
          congrArg (fun queue => queue.queues.length) hsame.queue
        simp at hlonger
    | false =>
        obtain ⟨e, hoffline⟩ := deliver_to_queue_of_offline hnew havailable
        rw [hoffline, EventStore.accepts_singleton]
        have hsame : SameGuards o (noted (queue_alert notice) o) ↔
            (EventStore.append (queue_alert notice) o.events).2.log = o.events.log :=
          ⟨fun h => h.log, fun h => ⟨rfl, rfl, rfl, rfl, rfl, h⟩⟩
        rw [hsame]
        rcases happend : EventStore.append (queue_alert notice) o.events with ⟨_ | event, events⟩
        · have hlog := EventStore.append_error_log (congrArg Prod.fst happend)
          rw [happend] at hlog
          exact iff_of_true hlog (.inr ⟨rfl, rfl⟩)
        · obtain ⟨hlog, -⟩ := EventStore.append_logged happend
          refine iff_of_false (fun h => ?_) (by simp [Except.isOk, Except.toBool])
          have hlonger := congrArg List.length (hlog.symm.trans h)
          simp at hlonger

/-- The bucket of no sender is touched. -/
def SameRate (o o' : Orchestrator) : Prop := o'.rate = o.rate

theorem SameRate.refl (o : Orchestrator) : SameRate o o := rfl

theorem SameRate.trans (a b c : Orchestrator) (h : SameRate a b) (h' : SameRate b c) : SameRate a c :=
  Eq.trans h' h

theorem deliver_to_queue_rate (o : Orchestrator) : SameRate o (deliver_to_queue req o).2 := by
  cases hduplicate : is_duplicate req o with
  | true =>
      rw [deliver_to_queue_of_duplicate hduplicate]
      exact SameRate.refl o
  | false =>
      cases havailable : o.queue.available with
      | true =>
          rw [deliver_to_queue_of_available hduplicate havailable]
          exact SameRate.refl o
      | false =>
          obtain ⟨e, hoffline⟩ := deliver_to_queue_of_offline hduplicate havailable
          rw [hoffline]
          exact SameRate.refl o

theorem system_send_rate {notice : SendRequest} (hsystem : notice.system = true) (hsender : notice.from_agent = none)
    (o : Orchestrator) : SameRate o (system_send notice o).2 := by
  obtain ⟨-, result, -, hrun⟩ | ⟨-, hrun⟩ := system_send_run o _ hsystem hsender
  · rw [hrun]
    exact SameRate.refl o
  · rw [hrun]
    exact deliver_to_queue_rate o

theorem handle_loop_rate (agent_id kind : String) : Moves SameRate (handle_loop agent_id kind) := by
  have halert : ∀ post, Moves SameRate (append post) := fun post o => by
    rw [append_run]
    exact SameRate.refl o
  refine .bind SameRate.trans (.write fun _ => rfl) fun _ => .bind SameRate.trans (halert _) fun _ => ?_
  refine .bind SameRate.trans (.read SameRate.refl _) fun strikes => .ite ?_ (.pure SameRate.refl _)
  refine .bind SameRate.trans (.write fun _ => rfl) fun _ => ?_
  refine .bind SameRate.trans (.read SameRate.refl _) fun manager => ?_
  cases manager with
  | none => exact .pure SameRate.refl _
  | some _ => exact halert _

/-! ## Duplicates -/

/-- A send that took a token, or counted the bucket, has left its trace there. -/
theorem not_same_of_charged (hrate : SameRate (charged o req) o') (h : ¬ Drained o req) : ¬ SameGuards o o' := by
  intro hsame
  have hbuckets := hsame.buckets
  rw [show o'.rate = (charged o req).rate from hrate] at hbuckets
  exact h (charged_buckets_iff.mp hbuckets)

/-- The guards are the same from before the rate limit, if the bucket is drained. -/
theorem same_charged_iff (h : Drained o req) : SameGuards o o' ↔ SameGuards (charged o req) o' := by
  have hbuckets : (charged o req).rate.buckets = o.rate.buckets := charged_buckets_iff.mpr h
  constructor
  · intro hsame
    exact ⟨by rw [hbuckets, hsame.buckets], hsame.windows, hsame.strikes, hsame.suspended, hsame.queue, hsame.log⟩
  · intro hsame
    exact ⟨by rw [← hbuckets, hsame.buckets], hsame.windows, hsame.strikes, hsame.suspended, hsame.queue, hsame.log⟩

/-- **Which duplicates have no effect.** -/
theorem no_effect_iff (hduplicate : is_duplicate req o = true) : NoEffect o req ↔ Spared o req := by
  have hcourse := send_course o req
  unfold NoEffect Spared
  rcases hrun : send req o with ⟨r, o'⟩
  rw [hrun] at hcourse
  cases hcourse with
  | stopped result hresult hgates hnotice =>
      rw [hgates, hnotice]
      refine iff_of_true ⟨fun heq => hresult (Except.ok.inj heq), .refl _⟩ ?_
      intro notice heq
      cases heq
  | refused notice _ hr hgates hnotice =>
      have hshape : notice.system = true ∧ notice.from_agent = none ∧ notice.correlation_id = none := by
        unfold undeliverable at hnotice
        split at hnotice
        · obtain ⟨sender, -, rfl⟩ := Option.map_eq_some_iff.mp hnotice
          exact ⟨rfl, rfl, rfl⟩
        · cases hnotice
      rw [hgates, if_neg Bool.false_ne_true, and_iff_right hr, notice_same_iff hshape.1 hshape.2.1 hshape.2.2]
      constructor
      · intro hsilent notice' hnotice'
        obtain rfl := Option.some.inj (hnotice.symm.trans hnotice')
        exact hsilent
      · exact fun hall => hall notice hnotice
  | limited _ hr hgates hsystem htaken =>
      rw [hgates, if_pos rfl, and_iff_right hr, hsystem]
      by_cases hdrained : Drained o req
      · have hsilent : Silent (charged o req) (slow_down req) ↔ Silent o (slow_down req) := Iff.rfl
        rw [same_charged_iff hdrained, notice_same_iff rfl rfl rfl, hsilent]
        simp [hdrained]
      · refine iff_of_false (not_same_of_charged (system_send_rate rfl rfl _) hdrained) ?_
        simp [hdrained]
  -- whoever gets this far has paid a token
  | looped kind _ hr hgates hsystem htaken hlooped =>
      rw [hgates, if_pos rfl, hsystem]
      have hdrained : ¬ Drained o req := not_drained_of_taken htaken
      have hrate : SameRate (charged o req) (handle_loop req.to_agent kind (checked o req)).2 :=
        handle_loop_rate req.to_agent kind (checked o req)
      refine iff_of_false (fun h => not_same_of_charged hrate hdrained h.2) ?_
      simp [hdrained]
  | delivered hgates hlimits =>
      have hpast : is_duplicate req (past o req) = true := by
        unfold past
        split <;> exact hduplicate
      rw [deliver_to_queue_of_duplicate hpast, hgates, if_pos rfl]
      cases hsystem : req.system with
      | true =>
          have hsame : past o req = o := by rw [past, if_pos hsystem]
          rw [hsame]
          refine iff_of_true ⟨?_, .refl o⟩ (.inl rfl)
          intro heq
          cases heq
      | false =>
          have htaken : (o.rate.try_consume (or_else req.from_agent "?") req.monotonic).1 = true := by
            rw [past_limits, hsystem, Bool.false_or, Bool.and_eq_true] at hlimits
            exact hlimits.1
          have hdrained : ¬ Drained o req := not_drained_of_taken htaken
          have hrate : SameRate (charged o req) (past o req) := by
            rw [past, hsystem, if_neg Bool.false_ne_true]
            exact SameRate.refl _
          refine iff_of_false (fun h => not_same_of_charged hrate hdrained h.2) ?_
          simp [hdrained]

/-- Two agents, one message from `a` to `b` in the queue. -/
def asked_once : Orchestrator :=
  (send { from_agent := some "a", to_agent := "b", content := "price?", kind := .AGENT_MESSAGE
          correlation_id := some "c1", system := false, now := 0, monotonic := 0 }
    { fresh [⟨"a", true, none⟩, ⟨"b", true, none⟩] .quiet {} {} id with agents := [⟨"b", 0⟩] }).2

/-- The same message again, from the sender or from the system. -/
def ask_again (system : Bool) : SendRequest :=
  { from_agent := if system then none else some "a", to_agent := "b", content := "price?", kind := .AGENT_MESSAGE
    correlation_id := some "c1", system, now := 1, monotonic := 0 }

theorem system_duplicate_iff : NoEffect asked_once (ask_again true) ↔ Spared asked_once (ask_again true) :=
  no_effect_iff (by decide +kernel)

/-- The sender pays a token for a duplicate. -/
theorem duplicate_costs_a_token :
    ¬ ∀ (o : Orchestrator) (req : SendRequest), is_duplicate req o = true → NoEffect o req := by
  intro h
  have hsame := (h asked_once (ask_again false) (by decide +kernel)).2.buckets
  have hbucket := congrFun hsame "a"
  exact absurd hbucket (by decide +kernel)

end Orchestrator

end CompanyFactory
