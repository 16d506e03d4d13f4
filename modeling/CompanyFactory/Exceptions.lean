import Mathlib.Tactic.Basic

/-!
# `Exceptions` — the exception classes the services raise

One type for all of them, because an exception crosses module boundaries: an `EventStore.append` that
raises ends a `Budget.reserve`, which ends a `Tools.invoke`. What a handler can tell apart is kept: the
class, the `code` a class carries, and the message. `Exn.cancelled` is `asyncio.CancelledError`, the one
`BaseException` here that is no `Exception`; `except Exception` does not catch it.
-/

namespace CompanyFactory

/-- The hierarchy of `tools/exceptions.py`. -/
inductive ToolErrorClass where
  | ToolError | UnknownTool | RoleNotAllowed | ArgsValidationError | OverBudget | PendingApproval
  | ApprovalDenied | ToolPermissionDenied | ExecutorFailure
  deriving Repr, DecidableEq

/-- The `code` attribute of a tool error class. -/
def ToolErrorClass.code : ToolErrorClass → String
  | .ToolError => "tool_error"
  | .UnknownTool => "unknown_tool"
  | .RoleNotAllowed => "role_not_allowed"
  | .ArgsValidationError => "args_validation_error"
  | .OverBudget => "over_budget"
  | .PendingApproval => "pending_approval"
  | .ApprovalDenied => "approval_denied"
  | .ToolPermissionDenied => "permission_denied"
  | .ExecutorFailure => "executor_failure"

/-- The hierarchy of `connector/exceptions.py`. -/
inductive ConnectorErrorClass where
  | ConnectorError | ServiceNotAllowed | UnknownService | UnknownAction | RateLimited
  | ExternalServiceFailure | ApprovalDeniedError
  deriving Repr, DecidableEq

/-- The `code` attribute of a connector error class. -/
def ConnectorErrorClass.code : ConnectorErrorClass → String
  | .ConnectorError => "connector_error"
  | .ServiceNotAllowed => "not_allowed"
  | .UnknownService => "unknown_service"
  | .UnknownAction => "unknown_action"
  | .RateLimited => "rate_limited"
  | .ExternalServiceFailure => "external_failure"
  | .ApprovalDeniedError => "approval_denied"

inductive Exn where
  /-- `PayloadTooLarge` -/
  | payloadTooLarge (message : String)
  /-- `PayloadValidationError` -/
  | payloadValidation (message : String)
  /-- `UnknownEventKind` -/
  | unknownEventKind (kind : String)
  /-- `sqlite3.Error` -/
  | database (message : String)
  /-- the cost engine's `OverBudget` -/
  | overBudget (message : String)
  | unknownReservation (id : Nat)
  | reservationAlreadyClosed (id : Nat)
  | approvalNotFound (request_id : String)
  | approvalConflict (message : String)
  | invalidTransition (message : String)
  | keyError (key : String)
  | valueError (message : String)
  | tool (cls : ToolErrorClass) (message : String)
  | connector (cls : ConnectorErrorClass) (message : String)
  | redisUnavailable (message : String)
  | memoryTooLarge (message : String)
  | personaLoad (message : String)
  | llmFailure (message : String)
  | turnTimeout (message : String)
  /-- the built-in `TimeoutError` -/
  | timeout
  /-- any other `Exception` -/
  | other (cls message : String)
  | cancelled
  deriving Repr, DecidableEq

/-- Is it an `Exception`, so that `except Exception` catches it? -/
def Exn.isException : Exn → Bool
  | .cancelled => false
  | _ => true

/-- Does the computation end by a `BaseException` that no `except Exception` catches? -/
def abandoned {α : Type} : Except Exn α → Bool
  | .error e => !e.isException
  | .ok _ => false

/-- Is it one of the exceptions that `EventStore.append` raises? -/
def Exn.isStoreError : Exn → Bool
  | .payloadTooLarge _ | .payloadValidation _ | .unknownEventKind _ | .database _ => true
  | _ => false

/-- `str(exc)` -/
def Exn.str : Exn → String
  | .payloadTooLarge m | .payloadValidation m | .unknownEventKind m | .database m | .overBudget m
  | .approvalNotFound m | .approvalConflict m | .invalidTransition m | .valueError m
  | .tool _ m | .connector _ m | .redisUnavailable m | .memoryTooLarge m | .personaLoad m
  | .llmFailure m | .turnTimeout m | .other _ m => m
  | .unknownReservation id | .reservationAlreadyClosed id => toString id
  | .keyError k => "'" ++ k ++ "'"
  | .timeout | .cancelled => ""

end CompanyFactory
