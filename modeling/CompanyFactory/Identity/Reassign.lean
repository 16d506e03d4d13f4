import CompanyFactory.Identity.Tree

/-!
# `Identity.Reassign` — what a reassignment leaves

`reassign` checks, commits the new manager, and appends `AGENT_REASSIGNED` afterwards. That kind has no payload
model, so the append raises whatever the payload, and the commit stays.

* `check_reassign_cases` — the ways through the checks.
* `reassign_of_checked` — a move that passes them is written and raises.
* `reassign_audited_iff` — the table and the log agree exactly when nothing is moved.
-/

namespace CompanyFactory

open Act Identity Bootstrap

namespace Org

/-- All the checks of a move pass: nothing keeps the target from being written under its new manager, unless the
walk up from there has no end. -/
structure Passes (agents : List Agent) (r : Reassignment) (target new_mgr : Agent) : Prop where
  reason : _MIN_FIRE_REASON_CHARS ≤ (squeezed r.reason).length
  other : r.target_id ≠ r.new_reports_to
  target_row : movable agents r.target_id = .ok target
  manager_row : active_manager agents r.new_reports_to = .ok new_mgr
  elsewhere : target.reports_to ≠ some r.new_reports_to
  allowed : may_move agents r.actor_id target = .ok ()
  place : has_place agents new_mgr target = .ok ()
  above : meets agents target.id (rounds agents) new_mgr.reports_to ≠ some true

/-- The call raises, and nothing is written. -/
def Refused (o : Org) (r : Reassignment) : Prop :=
  (∃ e, (reassign r o).1 = .error (.raises e)) ∧ (reassign r o).2.agents = o.agents ∧
    (reassign r o).2.events.log = o.events.log

/-- The target reports to the new manager already, and nothing is written. -/
def Stays (o : Org) (r : Reassignment) : Prop :=
  (∃ row, (reassign r o).1 = .ok row) ∧ manager o.agents r.target_id = some r.new_reports_to ∧
    (reassign r o).2.agents = o.agents ∧ (reassign r o).2.events.log = o.events.log

/-- The target has the new manager, and one event says so. -/
def MovesAudited (o : Org) (r : Reassignment) : Prop :=
  (∃ row, (reassign r o).1 = .ok row) ∧
    (reassign r o).2.agents = set_manager r.target_id r.new_reports_to o.agents ∧
    ∃ event, (reassign r o).2.events.log = o.events.log ++ [event] ∧ event.kind = .AGENT_REASSIGNED

/-- What a reassignment may do. -/
def Audited (o : Org) (r : Reassignment) : Prop := Refused o r ∨ Stays o r ∨ MovesAudited o r

variable {agents : List Agent} {r : Reassignment} {target new_mgr : Agent}

/-! ## The checks -/

/-- Whoever fails the check gets an exception. -/
def Refuses {α : Type} (check : Except Halt α) : Prop := ∀ e, check = .error e → ∃ exn, e = .raises exn

theorem Refuses.ok {α : Type} (a : α) : Refuses (.ok a) := nofun

theorem Refuses.denied {α : Type} (cls message : String) : Refuses (.error (denied cls message) : Except Halt α) := by
  intro e he
  cases he
  exact ⟨_, rfl⟩

theorem Refuses.ite {α : Type} {c : Prop} [Decidable c] {check check' : Except Halt α} (h : Refuses check)
    (h' : Refuses check') : Refuses (if c then check else check') := by
  split
  · exact h
  · exact h'

theorem movable_refuses (x : String) : Refuses (movable agents x) := by
  unfold movable
  split
  · exact .denied _ _
  · exact .ite (.denied _ _) (.ite (.denied _ _) (.ok _))

theorem active_manager_refuses (x : String) : Refuses (active_manager agents x) := by
  unfold active_manager
  split
  · exact .denied _ _
  · exact .ite (.denied _ _) (.ok _)

theorem may_move_refuses (x : String) : Refuses (may_move agents x target) := by
  unfold may_move
  split
  · exact .denied _ _
  · exact .ite (.denied _ _) (.ok _)

theorem has_place_refuses : Refuses (has_place agents new_mgr target) := by
  unfold has_place
  exact .ite (.denied _ _) (.ite (.denied _ _) (.ok _))

/-- **The ways through the checks**: one raises, the target is where it shall be, or all pass. -/
theorem check_reassign_cases (agents : List Agent) (r : Reassignment) :
    (∃ e, check_reassign agents r = .error (.raises e)) ∨
      (∃ target, check_reassign agents r = .ok (target, false) ∧
        manager agents r.target_id = some r.new_reports_to) ∨
      ∃ target new_mgr, Passes agents r target new_mgr := by
  unfold check_reassign
  split
  · exact .inl ⟨_, rfl⟩
  rename_i hreason
  split
  · exact .inl ⟨_, rfl⟩
  rename_i hother
  cases htarget : movable agents r.target_id with
  | error e =>
      obtain ⟨exn, rfl⟩ := movable_refuses _ _ htarget
      exact .inl ⟨exn, rfl⟩
  | ok target =>
      cases hmanager : active_manager agents r.new_reports_to with
      | error e =>
          obtain ⟨exn, rfl⟩ := active_manager_refuses _ _ hmanager
          exact .inl ⟨exn, rfl⟩
      | ok new_mgr =>
          -- a target that is there already passes without the last three checks
          by_cases hthere : target.reports_to = some r.new_reports_to
          · right; left
            refine ⟨target, ?_, ?_⟩
            · show (if target.reports_to = some r.new_reports_to then _ else _) = _
              rw [if_pos hthere]
              rfl
            · rw [manager_of_find (movable_ok htarget).1, hthere]
          show (∃ e, (if target.reports_to = some r.new_reports_to then _ else _) = _) ∨ _
          rw [if_neg hthere]
          cases hmay : may_move agents r.actor_id target with
          | error e =>
              obtain ⟨exn, rfl⟩ := may_move_refuses _ _ hmay
              exact .inl ⟨exn, rfl⟩
          | ok _ =>
              cases hplace : has_place agents new_mgr target with
              | error e =>
                  obtain ⟨exn, rfl⟩ := has_place_refuses _ hplace
                  exact .inl ⟨exn, rfl⟩
              | ok _ =>
                  -- the loop over the managers of the new manager: it meets the target, or it does not
                  by_cases habove : meets agents target.id (rounds agents) new_mgr.reports_to = some true
                  · left
                    refine ⟨.other "CycleDetected" ("cycle:" ++ target.id ++ "->" ++ new_mgr.id), ?_⟩
                    show (not_below agents target new_mgr >>= fun _ => pure (target, true)) = _
                    unfold not_below
                    rw [habove]
                    rfl
                  · exact .inr (.inr ⟨target, new_mgr, Nat.le_of_not_lt hreason, hother, htarget, hmanager, hthere, hmay,
                      hplace, habove⟩)

/-- A move that passes is checked as one, unless the walk has no end. -/
theorem Passes.checked (h : Passes agents r target new_mgr) :
    check_reassign agents r = .error .never ∨ check_reassign agents r = .ok (target, true) := by
  have hwalk : check_reassign agents r = (not_below agents target new_mgr >>= fun _ => pure (target, true)) := by
    unfold check_reassign
    rw [if_neg (Nat.not_lt.mpr h.reason), if_neg h.other, h.target_row, h.manager_row]
    show (if target.reports_to = some r.new_reports_to then _ else _) = _
    rw [if_neg h.elsewhere, h.allowed, h.place]
    rfl
  rw [hwalk]
  unfold not_below
  cases hmeets : meets agents target.id (rounds agents) new_mgr.reports_to with
  | none => exact .inl rfl
  | some below =>
      cases below with
      | true => exact absurd hmeets h.above
      | false => exact .inr rfl

/-! ## The call -/

variable {o : Org}

theorem reassign_of_error {e : Halt} (h : check_reassign o.agents r = .error e) :
    reassign r o = (.error e, o) := by
  rw [reassign, read_bind, h]
  rfl

theorem reassign_of_there (h : check_reassign o.agents r = .ok (target, false)) :
    reassign r o = (.ok target, o) := by
  rw [reassign, read_bind, h]
  rfl

/-- **A move is committed, and its event is refused**: the kind has no payload model. -/
theorem reassign_of_checked (h : check_reassign o.agents r = .ok (target, true)) :
    reassign r o = (.error (.raises (.unknownEventKind "agent.reassigned")),
      { o with agents := set_manager r.target_id r.new_reports_to o.agents }) := by
  rw [reassign, read_bind, h]
  rfl

/-- The `UPDATE` changes the table, if the target reports to somebody else. -/
theorem set_manager_ne (hrow : find agents r.target_id = some target)
    (helse : target.reports_to ≠ some r.new_reports_to) :
    set_manager r.target_id r.new_reports_to agents ≠ agents := by
  intro hsame
  have hfind : find (set_manager r.target_id r.new_reports_to agents) r.target_id =
      some { target with reports_to := some r.new_reports_to } := by
    unfold find set_manager
    have hkeep : ∀ a : Agent, ({ a with reports_to := some r.new_reports_to } : Agent).id = a.id := fun _ => rfl
    rw [Table.find_update_key hkeep agents, if_pos rfl]
    exact congrArg (Option.map _) hrow
  rw [hsame, hrow] at hfind
  exact helse (congrArg Agent.reports_to (Option.some.inj hfind))

/-- A move that passes the checks is not audited: it is written and raises, or has no end. -/
theorem Passes.not_audited (h : Passes o.agents r target new_mgr) : ¬ Audited o r := by
  rcases h.checked with hnever | hmoved
  · rw [Audited, Refused, Stays, MovesAudited, reassign_of_error hnever]
    rintro (⟨⟨e, he⟩, -⟩ | ⟨⟨row, hrow⟩, -⟩ | ⟨⟨row, hrow⟩, -⟩)
    · cases he
    · cases hrow
    · cases hrow
  · rw [Audited, Refused, Stays, MovesAudited, reassign_of_checked hmoved]
    rintro (⟨-, hagents, -⟩ | ⟨⟨row, hrow⟩, -⟩ | ⟨⟨row, hrow⟩, -⟩)
    · exact set_manager_ne (movable_ok h.target_row).1 h.elsewhere hagents
    · cases hrow
    · cases hrow

/-- **When a reassignment is atomic and audited**: exactly when it is no move that passes its checks. -/
theorem reassign_audited_iff (o : Org) (r : Reassignment) :
    Audited o r ↔ ¬ ∃ target new_mgr, Passes o.agents r target new_mgr := by
  constructor
  · rintro haudited ⟨target, new_mgr, hpasses⟩
    exact hpasses.not_audited haudited
  · intro hno
    rcases check_reassign_cases o.agents r with ⟨e, he⟩ | ⟨target, hthere, hmanager⟩ | hpasses
    · left
      rw [Refused, reassign_of_error he]
      exact ⟨⟨e, rfl⟩, rfl, rfl⟩
    · right; left
      rw [Stays, reassign_of_there hthere]
      exact ⟨⟨target, rfl⟩, hmanager, rfl, rfl⟩
    · exact absurd hpasses hno

/-- The CEO moves one of two members under the other. -/
def second_under_first : Reassignment :=
  { actor_id := "c1", target_id := "m2", new_reports_to := "m1", reason := "closer to the product" }

/-- The move is in the table, and the call raises `UnknownEventKind`. -/
theorem second_under_first_raises :
    ¬ Audited (Machine.exec step small_company
      [.add_agent "m1" 20 (member_under "c1"), .add_agent "m2" 30 (member_under "c1")]) second_under_first := by
  have hraises : (reassign second_under_first (Machine.exec step small_company
      [.add_agent "m1" 20 (member_under "c1"), .add_agent "m2" 30 (member_under "c1")])).1 =
        .error (.raises (.unknownEventKind "agent.reassigned")) := by decide +kernel
  have hmoved : (reassign second_under_first (Machine.exec step small_company
      [.add_agent "m1" 20 (member_under "c1"), .add_agent "m2" 30 (member_under "c1")])).2.agents ≠
        (Machine.exec step small_company
          [.add_agent "m1" 20 (member_under "c1"), .add_agent "m2" 30 (member_under "c1")]).agents := by
    decide +kernel
  rintro (⟨-, hagents, -⟩ | ⟨⟨row, hrow⟩, -⟩ | ⟨⟨row, hrow⟩, -⟩)
  · exact hmoved hagents
  · rw [hraises] at hrow
    cases hrow
  · rw [hraises] at hrow
    cases hrow

end Org

end CompanyFactory
