import CompanyFactory.EventStore.Store

/-!
# `Memory.Service` — what a turn writes into an agent's memory

Working memory is a table of items in the order in which they were appended; an episode is a summary with
its metadata. Whether a write goes through depends on the byte size of the content, on the embedder and on
the database: `refuses n` says whether the `n`-th write is refused, and with which exception.
-/

namespace CompanyFactory

structure WorkingItem where
  /-- `"user"`, `"agent"`, `"tool"` or `"system"` -/
  role : String
  content : String
  ts_company : Time
  metadata : Fields := []
  deriving DecidableEq

structure RecallHit where
  kind : String
  /-- the score with two decimals, as `_format_recall` prints it -/
  score : String
  content : String
  deriving DecidableEq

/-- One row of the episodes: the agent, the summary and the metadata. -/
structure Episode where
  agent_id : String
  summary : String
  metadata : Fields
  deriving DecidableEq

structure Memory where
  working : List (String × WorkingItem)
  episodes : List Episode
  attempts : Nat
  refuses : Nat → Option Exn

namespace Memory

/-- An empty memory that takes every write. -/
def quiet : Memory := { working := [], episodes := [], attempts := 0, refuses := fun _ => none }

/-- One write, or its refusal. -/
def attempt_write (f : Memory → Memory) : Act Memory Exn Unit := fun m =>
  match m.refuses m.attempts with
  | some e => (.error e, { m with attempts := m.attempts + 1 })
  | none => (.ok (), f { m with attempts := m.attempts + 1 })

def append_working (agent_id : String) (item : WorkingItem) : Act Memory Exn Unit :=
  attempt_write fun m => { m with working := m.working ++ [(agent_id, item)] }

/-- The last `n` items of the agent, oldest first. -/
def working_window (m : Memory) (agent_id : String) (n : Nat) : List WorkingItem :=
  let items := (m.working.filter (fun row => row.1 = agent_id)).map Prod.snd
  items.drop (items.length - n)

def remember_episode (agent_id summary : String) (metadata : Fields) : Act Memory Exn Unit :=
  attempt_write fun m => { m with episodes := m.episodes ++ [{ agent_id, summary, metadata }] }

end Memory

end CompanyFactory
