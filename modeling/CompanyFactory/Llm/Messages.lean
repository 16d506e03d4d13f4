import CompanyFactory.Memory.Service

/-!
# `Llm.Messages` — what is sent to a provider and what it answers

The two formats: the chat completions of GitHub Models and OpenAI, and the Messages API of Anthropic. A history of working
memory is translated item by item; **each format knows fewer roles than working memory has**.
-/

namespace CompanyFactory

namespace Llm

/-- A result of a tool, as a future holds it. -/
structure ToolText where
  ok : Bool
  content : String
  deriving DecidableEq

/-! ## Chat completions -/

/-- An entry of `tool_calls`. -/
structure FunctionCall where
  id : String
  name : String
  arguments : Option String
  deriving DecidableEq

inductive ChatMessage where
  | plain (role content : String)
  | assistant (content : String) (tool_calls : List FunctionCall)
  | tool (tool_call_id content : String)
  deriving DecidableEq

structure Choice where
  content : Option String
  /-- `getattr(msg, "tool_calls", None) or []` -/
  tool_calls : List FunctionCall
  finish_reason : Option String
  deriving DecidableEq

structure ChatResponse where
  choices : List Choice
  deriving DecidableEq

/-- The role of an item in a chat. -/
def chat_role (role : String) : String :=
  if role = "user" ∨ role = "assistant" ∨ role = "system" then role else "user"

/-- `_to_openai_history` -/
def to_openai_history (history : List WorkingItem) : List ChatMessage :=
  history.map fun item => .plain (chat_role item.role) item.content

/-! ## The Messages API -/

/-- A block of a message. -/
inductive Block where
  | text (text : String)
  | tool_use (id name : String) (input : Json)
  | tool_result (tool_use_id content : String) (is_error : Bool)
  /-- a block of another type -/
  | other (type : String)
  deriving DecidableEq

inductive BlockMessage where
  | plain (role content : String)
  | blocks (role : String) (content : List Block)
  deriving DecidableEq

structure BlockResponse where
  content : List Block
  stop_reason : Option String
  deriving DecidableEq

/-- The role of an item in a message of the Messages API. -/
def block_role (role : String) : String := if role = "assistant" then "assistant" else "user"

/-- `_to_messages` -/
def to_messages (history : List WorkingItem) : List BlockMessage :=
  history.map fun item => .plain (block_role item.role) item.content

end Llm

end CompanyFactory
