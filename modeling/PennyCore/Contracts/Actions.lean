import PennyCore.Contracts.Value

/-!
# Action, policy, approval and audit contracts

The records the orchestrator stores (`src/contracts/actions.py`, `policies.py`, `audit.py`), with
the enumerations and their wire values. `model_copy(update=...)` is Lean's record update: it keeps
every field it does not name and validates nothing.
-/

namespace PennyCore

open Lib

/-! ## Actions -/

inductive ActionType where
  | sendBorrowerMessage | notifyLoanOfficer | scheduleCall | requestDocument | updateStatus | noOp
  deriving DecidableEq, Repr

def ActionType.value : ActionType → String
  | .sendBorrowerMessage => "send_borrower_message"
  | .notifyLoanOfficer => "notify_loan_officer"
  | .scheduleCall => "schedule_call"
  | .requestDocument => "request_document"
  | .updateStatus => "update_status"
  | .noOp => "no_op"

inductive ActionStatus where
  | pendingPolicy | pendingApproval | pendingExec | executed | executionFailed | rejected
  deriving DecidableEq, Repr

def ActionStatus.value : ActionStatus → String
  | .pendingPolicy => "pending_policy"
  | .pendingApproval => "pending_approval"
  | .pendingExec => "pending_exec"
  | .executed => "executed"
  | .executionFailed => "execution_failed"
  | .rejected => "rejected"

inductive ProposedBy where
  | llm | fallback
  deriving DecidableEq, Repr

def ProposedBy.value : ProposedBy → String
  | .llm => "llm"
  | .fallback => "fallback"

/-- The planner's proposal. -/
structure ActionProposal where
  id : Str 1 64
  tenantId : Str 1 64
  eventId : Str 1 64
  customerId : Option (Str 0 64)
  actionType : ActionType
  proposedBy : ProposedBy
  payload : Payload

structure Action where
  id : Str 1 64
  tenantId : Str 1 64
  proposalId : Str 1 64
  eventId : Str 1 64
  customerId : Option (Str 0 64)
  actionType : ActionType
  status : ActionStatus
  payload : Payload
  createdAt : Time
  updatedAt : Time
  executedAt : Option Time

/-! ## Policies -/

inductive PolicyDecision where
  | auto | approvalRequired | reject
  deriving DecidableEq, Repr

def PolicyDecision.value : PolicyDecision → String
  | .auto => "auto"
  | .approvalRequired => "approval_required"
  | .reject => "reject"

/-- `PolicyDecision(value)`, with `none` for the `ValueError`. -/
def PolicyDecision.ofValue? (value : String) : Option PolicyDecision :=
  [PolicyDecision.auto, .approvalRequired, .reject].find? fun d => d.value == value

/-- The state of an approval-queue row. -/
inductive ApprovalState where
  | pending | approved | rejected | expired
  deriving DecidableEq, Repr

def ApprovalState.value : ApprovalState → String
  | .pending => "pending"
  | .approved => "approved"
  | .rejected => "rejected"
  | .expired => "expired"

/-- A row of the approval queue. -/
structure ApprovalRule where
  id : Str 1 64
  tenantId : Str 1 64
  actionId : Str 1 64
  state : ApprovalState
  assignedTo : Option (Str 0 128)
  requiredApprovals : Int
  requiredApprovals_ge : 1 ≤ requiredApprovals
  eligibleApprovers : Option (List String)
  approvals : List String
  enqueuedAt : Time
  decidedAt : Option Time
  decidedBy : Option String
  decisionNote : Option String
  rowVersion : Nat
  deriving DecidableEq

/-! ## Audit -/

inductive AuditKind where
  | proposal | decision | approval | rejection | execution | executionFailed | policyChange
  deriving DecidableEq, Repr

inductive AuditActorKind where
  | system | llm | human | fallback
  deriving DecidableEq, Repr

/-- A row of the audit log. -/
structure AuditLogEntry where
  id : Option Nat
  tenantId : Str 1 64
  ts : Time
  kind : AuditKind
  actionId : Option (Str 0 64)
  causedByEventId : Option (Str 0 64)
  actorKind : AuditActorKind
  actorId : Option (Str 0 128)
  payload : Payload

/-- A required field as an optional one. -/
def Str.opt {hi : Nat} (s : Str 1 hi) : Option (Str 0 hi) := some ⟨s.1, Nat.zero_le _, s.2.2⟩

end PennyCore
