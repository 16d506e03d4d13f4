import CompanyFactory.Lib.Effect

/-!
# `Lib.Transaction` — a connection whose calls may fail, be interrupted, or be the last

A connection has the committed data and, while a transaction is open, the data that the transaction sees. A call on it
has a `Fate`: it goes through, it raises, an interruption comes in that no handler for ordinary errors sees, or the
process dies; an interruption or a death comes before the call took effect or after. When the process dies, the open
transaction is lost with the connection.

`Triple P m Q E` is a Hoare triple with a crash condition: from a connection in `P`, the computation returns in `Q`, or
it stops and the **committed** data are in `E`. A handler that rolls back and raises again keeps every crash condition
(`Triple.guarded`), as it does not touch what is committed. Without any fate a computation is a function of the
connection (`calm`).
-/

namespace Transaction

/-- A connection to a database. -/
structure Conn (α : Type) where
  committed : α
  /-- what the open transaction sees -/
  pending : Option α

/-- What becomes of one call. -/
inductive Fate where
  | ok
  /-- an ordinary error; `ended`: the database has rolled the transaction back -/
  | raises (ended : Bool)
  /-- an interruption, before or after the call took effect -/
  | interrupted (done : Bool)
  /-- the process dies, likewise -/
  | dies (done : Bool)
  deriving DecidableEq, Repr

/-- How a computation stops that does not return. -/
inductive Stop where
  | raised (message : String)
  | interrupted
  | died
  deriving DecidableEq, Repr

/-- A connection and the fates of the next calls; all later calls go through. -/
structure Session (α : Type) where
  conn : Conn α
  fates : List Fate

namespace Conn

variable {α : Type}

/-- What a statement reads. -/
def view (c : Conn α) : α := c.pending.getD c.committed

/-- One statement, inside the transaction if one is open. -/
def statement (f : α → Except String α) (c : Conn α) : Except String (Conn α) :=
  match c.pending with
  | some data => (f data).map fun data => { c with pending := some data }
  | none => (f c.committed).map fun data => { c with committed := data }

/-- `BEGIN` -/
def begin_tx (c : Conn α) : Except String (Conn α) :=
  match c.pending with
  | some _ => .error "cannot start a transaction within a transaction"
  | none => .ok { c with pending := some c.committed }

/-- `COMMIT` -/
def commit (c : Conn α) : Except String (Conn α) :=
  match c.pending with
  | some data => .ok { committed := data, pending := none }
  | none => .error "cannot commit - no transaction is active"

/-- `ROLLBACK` -/
def rollback (c : Conn α) : Except String (Conn α) :=
  match c.pending with
  | some _ => .ok { c with pending := none }
  | none => .error "cannot rollback - no transaction is active"

/-- A new connection in the place of this one. -/
def reopen (c : Conn α) : Conn α := { c with pending := none }

/-- The connection after a call that took effect, if it could. -/
def after (f : Conn α → Except String (Conn α)) (c : Conn α) : Conn α :=
  match f c with
  | .ok c' => c'
  | .error _ => c

end Conn

namespace Session

variable {α β γ : Type}

/-- One call on the connection. -/
def execute (f : Conn α → Except String (Conn α)) : Act (Session α) Stop Unit := fun s =>
  let rest := s.fates.tail
  match s.fates.headD .ok with
  | .ok => match f s.conn with
    | .ok c => (.ok (), { conn := c, fates := rest })
    | .error message => (.error (.raised message), { conn := s.conn, fates := rest })
  | .raises ended =>
      (.error (.raised "database error"), { conn := if ended then s.conn.reopen else s.conn, fates := rest })
  | .interrupted done => (.error .interrupted, { conn := if done then s.conn.after f else s.conn, fates := rest })
  | .dies done => (.error .died, { conn := (if done then s.conn.after f else s.conn).reopen, fates := rest })

/-- What the connection shows. -/
def read (f : Conn α → β) : Act (Session α) Stop β := Act.read fun s => f s.conn

/-- One call after the other. -/
def execute_all {ι : Type} (f : ι → Conn α → Except String (Conn α)) : List ι → Act (Session α) Stop Unit
  | [] => pure ()
  | i :: is => do
      execute (f i)
      execute_all f is

/-- `try: body; except Exception: ROLLBACK; raise` -/
def guarded (body : Act (Session α) Stop β) : Act (Session α) Stop β := do
  match ← Act.attempt body with
  | .ok b => return b
  | .error (.raised message) => do
      execute Conn.rollback
      Act.raise (.raised message)
  | .error stop => Act.raise stop

/-! ## Triples with a crash condition -/

/-- From `P` the computation returns in `Q`, or stops with the committed data in `E`. -/
def Triple (P : Conn α → Prop) (m : Act (Session α) Stop β) (Q : β → Conn α → Prop) (E : α → Prop) : Prop :=
  ∀ s, P s.conn → (∀ b, (m s).1 = .ok b → Q b (m s).2.conn) ∧
    ∀ stop, (m s).1 = .error stop → E (m s).2.conn.committed

variable {P : Conn α → Prop} {Q : β → Conn α → Prop} {R : γ → Conn α → Prop} {E : α → Prop}

theorem Triple.pure {b : β} (h : ∀ c, P c → Q b c) : Triple P (Pure.pure b) Q E := by
  intro s hP
  refine ⟨?_, ?_⟩
  · intro b' hb
    cases hb
    exact h _ hP
  · intro stop hstop
    cases hstop

theorem Triple.raise {stop : Stop} (h : ∀ c, P c → E c.committed) : Triple P (Act.raise stop) Q E := by
  intro s hP
  refine ⟨?_, ?_⟩
  · intro b hb
    cases hb
  · intro stop' _
    exact h _ hP

theorem Triple.read {f : Conn α → β} (h : ∀ c, P c → Q (f c) c) :
    Triple P (Session.read f) Q E := by
  intro s hP
  refine ⟨?_, ?_⟩
  · intro b hb
    cases hb
    exact h _ hP
  · intro stop hstop
    cases hstop

theorem Triple.bind {m : Act (Session α) Stop β} {f : β → Act (Session α) Stop γ} (hm : Triple P m Q E)
    (hf : ∀ b, Triple (Q b) (f b) R E) : Triple P (m >>= f) R E := by
  intro s hP
  obtain ⟨hok, herror⟩ := hm s hP
  rw [Act.bind_run]
  rcases hms : m s with ⟨stop | b, s'⟩
  · rw [hms] at herror
    refine ⟨?_, ?_⟩
    · intro c hc
      cases hc
    · intro stop' _
      exact herror stop rfl
  · rw [hms] at hok
    exact hf b s' (hok b rfl)

/-- A call: `Q` and `E` if it takes effect, and `E` if it does not. -/
theorem Triple.execute {f : Conn α → Except String (Conn α)} {Q : Conn α → Prop}
    (hdone : ∀ c c', P c → f c = .ok c' → Q c' ∧ E c'.committed) (hkept : ∀ c, P c → E c.committed) :
    Triple P (Session.execute f) (fun _ => Q) E := by
  intro s hP
  have hE := hkept _ hP
  have hafter : E (s.conn.after f).committed := by
    unfold Conn.after
    cases hf : f s.conn with
    | ok c => exact (hdone _ _ hP hf).2
    | error message => exact hE
  unfold Session.execute
  simp only
  cases s.fates.headD .ok with
  | ok =>
      cases hf : f s.conn with
      | ok c =>
          refine ⟨fun b _ => (hdone _ _ hP hf).1, ?_⟩
          intro stop hstop
          cases hstop
      | error message =>
          refine ⟨?_, fun _ _ => hE⟩
          intro b hb
          cases hb
  | raises ended =>
      refine ⟨?_, fun _ _ => ?_⟩
      · intro b hb
        cases hb
      · cases ended <;> exact hE
  | interrupted done =>
      refine ⟨?_, fun _ _ => ?_⟩
      · intro b hb
        cases hb
      · cases done
        · exact hE
        · exact hafter
  | dies done =>
      refine ⟨?_, fun _ _ => ?_⟩
      · intro b hb
        cases hb
      · cases done
        · exact hE
        · exact hafter

/-- A sequence of calls that each keep `P`. -/
theorem Triple.execute_all {ι : Type} {f : ι → Conn α → Except String (Conn α)} {P : List ι → Conn α → Prop}
    (hstep : ∀ i is c c', P (i :: is) c → f i c = .ok c' → P is c') (hE : ∀ is c, P is c → E c.committed)
    (is : List ι) : Triple (P is) (Session.execute_all f is) (fun _ => P []) E := by
  induction is with
  | nil =>
      apply Triple.pure
      intro c hc
      exact hc
  | cons i is ih =>
      apply Triple.bind (Q := fun _ => P is) _ fun _ => ih
      apply Triple.execute
      · intro c c' hP hf
        exact ⟨hstep i is c c' hP hf, hE is c' (hstep i is c c' hP hf)⟩
      · exact fun c hP => hE _ c hP

/-- **The handler keeps the crash condition**: a rollback does not touch what is committed. -/
theorem Triple.guarded {m : Act (Session α) Stop β} (hm : Triple P m Q E) : Triple P (guarded m) Q E := by
  intro s hP
  obtain ⟨hok, herror⟩ := hm s hP
  have hrollback : Triple (fun c : Conn α => E c.committed) (Session.execute Conn.rollback)
      (fun _ c => E c.committed) E := by
    apply Triple.execute
    · intro c c' hE hc
      unfold Conn.rollback at hc
      split at hc <;> cases hc
      exact ⟨hE, hE⟩
    · exact fun c hE => hE
  rw [Session.guarded, Act.attempt_bind]
  cases hresult : (m s).1 with
  | ok b =>
      refine ⟨fun b' hb => ?_, ?_⟩
      · cases hb
        exact hok b hresult
      · intro stop hstop
        cases hstop
  | error stop =>
      have hE := herror stop hresult
      cases stop with
      | raised message =>
          have hboth : Triple (fun c : Conn α => E c.committed)
              (do Session.execute Conn.rollback; Act.raise (.raised message)) Q E :=
            hrollback.bind fun _ => Triple.raise fun c hc => hc
          exact hboth _ hE
      | interrupted | died =>
          refine ⟨?_, fun _ _ => hE⟩
          intro b hb
          cases hb

/-! ## Without interruption -/

/-- No fate stands against the calls. -/
def calm (c : Conn α) : Session α := { conn := c, fates := [] }

theorem execute_calm (f : Conn α → Except String (Conn α)) (c : Conn α) :
    execute f (calm c) = match f c with
      | .ok c' => (.ok (), calm c')
      | .error message => (.error (.raised message), calm c) := rfl

theorem execute_calm_ok {f : Conn α → Except String (Conn α)} {c c' : Conn α} (h : f c = .ok c') :
    execute f (calm c) = (.ok (), calm c') := by rw [execute_calm, h]

end Session

end Transaction
