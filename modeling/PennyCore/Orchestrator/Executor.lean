import PennyCore.Contracts.Actions

/-!
# Executors

`src/orchestrator/executor.py`: a table from action types to handlers, and `ActionExecutor.execute`,
which calls the handler of an action and turns its result into the executed action.

* A handler is any function of the action: it returns any value or raises anything (`Raised`).
  `Raised.isException` tells the subclasses of `Exception`, which the pipeline catches, from the
  others (`SystemExit`, `KeyboardInterrupt`), which it does not; `Raised.Caught` says that the
  pipeline also gets the text of what it has caught.
* `ActionExecutor.outcome` is what one call comes to; `execute_eq` reads `execute` off it.
* `Catchable`: what a handler raises is `Caught`. `Blind`: no outcome depends on the action's
  id, its timestamps or its status. The default executors are both
  (`defaultExecutors_catchable`, `defaultExecutors_blind`).
-/

namespace PennyCore

open Lib

/-- An exception: the name of its type, its text, and whether it is an `Exception`. There is no text
where `str(exc)` raises, as a `__str__` of the handler's own may. -/
structure Raised where
  kind : String
  message : Option String
  isException : Bool
  deriving DecidableEq, Repr

/-- An `Exception` with a text. -/
def Raised.Caught (e : Raised) : Prop := e.isException ∧ e.message.isSome

inductive HandlerResult where
  | returned (v : PyVal)
  | raised (e : Raised)

abbrev ExecutorFn : Type := Action → HandlerResult

structure ActionExecutor where
  table : Dict ActionType ExecutorFn

/-! ## The default executors -/

section Default

-- `str(v)`, for the one text that formats a payload value
variable (str : PyVal → String)

/-- `d.get(key)`. -/
def Payload.lookup (p : Payload) (key : String) : PyVal := (p.get? key).getD .none

/-- `a or b`. -/
def PyVal.orElse (a b : PyVal) : PyVal := if a.truthy then a else b

/-- A `dict` with string keys. -/
def PyVal.record (items : List (String × PyVal)) : PyVal :=
  .dict (items.map fun p => (.str p.1, p.2))

def mockSendBorrowerMessage (action : Action) : HandlerResult :=
  let loanId := str ((action.payload.get? "loan_id").getD (.str "(unknown)"))
  let message := (Payload.lookup action.payload "message").orElse
    (PyVal.str s!"Acknowledged: we received your message for loan {loanId}.")
  .returned (.record [("channel", .str "chat"), ("recipient", .str "borrower"),
    ("message", message)])

def mockNotifyLoanOfficer (action : Action) : HandlerResult :=
  let reason := (Payload.lookup action.payload "reason").orElse
    ((action.payload.get? "_planner_reasoning").getD
      (.str "Event flagged for loan-officer review."))
  .returned (.record [("channel", .str "internal"), ("recipient", .str "loan_officer"),
    ("reason", reason)])

def mockScheduleCall (action : Action) : HandlerResult :=
  let scheduledFor := (action.payload.get? "scheduled_for").getD (.str "next available slot")
  .returned (.record [("channel", .str "voice"), ("scheduled_for", scheduledFor)])

def mockRequestDocument (action : Action) : HandlerResult :=
  let documentType := (action.payload.get? "document_type").getD (.str "missing document")
  .returned (.record [("channel", .str "email"), ("recipient", .str "borrower"),
    ("document_type", documentType)])

def mockUpdateStatus (action : Action) : HandlerResult :=
  let newStatus := (action.payload.get? "new_status").getD (.str "in_review")
  .returned (.record [("channel", .str "internal"), ("new_status", newStatus)])

def mockNoOp (_ : Action) : HandlerResult := .returned (.record [("channel", .str "noop")])

/-- `DEFAULT_EXECUTORS`. -/
def defaultExecutors : Dict ActionType ExecutorFn where
  entries := [(.sendBorrowerMessage, mockSendBorrowerMessage str),
    (.notifyLoanOfficer, mockNotifyLoanOfficer), (.scheduleCall, mockScheduleCall),
    (.requestDocument, mockRequestDocument), (.updateStatus, mockUpdateStatus), (.noOp, mockNoOp)]
  nodup := by
    show [ActionType.sendBorrowerMessage, .notifyLoanOfficer, .scheduleCall, .requestDocument,
      .updateStatus, .noOp].Nodup
    decide

end Default

namespace ActionExecutor

/-- `ActionExecutor(executor_table)`: an empty or missing table is the default one. -/
def new (str : PyVal → String) (executorTable : Option (Dict ActionType ExecutorFn)) :
    ActionExecutor :=
  match executorTable with
  | none => ⟨defaultExecutors str⟩
  | some t => if t.entries.isEmpty then ⟨defaultExecutors str⟩ else ⟨t⟩

/-! ## Execution -/

/-- `ExecutionError`. -/
def executionError (message : String) : Raised := ⟨"ExecutionError", some message, true⟩

def execute (ex : ActionExecutor) (now : Time) (action : Action) : Except Raised Action :=
  let type := action.actionType.value
  match ex.table.get? action.actionType with
  | none => .error (executionError s!"no executor registered for action_type='{type}'")
  | some handler =>
    match handler action with
    | .raised e => .error e
    | .returned (.dict result) =>
      .ok { action with
        status := .executed, executedAt := some now, updatedAt := now
        payload := action.payload.set "_executed_payload" (.dict result) }
    | .returned v =>
      let got := v.typeName
      .error (executionError s!"executor for '{type}' returned {got}, expected dict")

/-- `execute` calls a handler. -/
def Invokes (ex : ActionExecutor) (action : Action) : Prop :=
  (ex.table.get? action.actionType).isSome

instance (ex : ActionExecutor) (action : Action) : Decidable (ex.Invokes action) := by
  unfold Invokes; infer_instance

end ActionExecutor

/-- What an execution comes to. -/
inductive Outcome where
  | done (result : List (PyVal × PyVal))
  | raised (e : Raised)

namespace ActionExecutor

def outcome (ex : ActionExecutor) (action : Action) : Outcome :=
  let type := action.actionType.value
  match ex.table.get? action.actionType with
  | none => .raised (executionError s!"no executor registered for action_type='{type}'")
  | some handler =>
    match handler action with
    | .raised e => .raised e
    | .returned (.dict result) => .done result
    | .returned v =>
      let got := v.typeName
      .raised (executionError s!"executor for '{type}' returned {got}, expected dict")

/-- The action after a successful execution. -/
def executed (now : Time) (action : Action) (result : List (PyVal × PyVal)) : Action :=
  { action with
    status := .executed, executedAt := some now, updatedAt := now
    payload := action.payload.set "_executed_payload" (.dict result) }

theorem execute_eq (ex : ActionExecutor) (now : Time) (action : Action) :
    ex.execute now action =
      match ex.outcome action with
      | .done result => .ok (executed now action result)
      | .raised e => .error e := by
  unfold execute outcome
  cases ex.table.get? action.actionType with
  | none => rfl
  | some handler =>
    simp only
    rcases handler action with v | e
    · cases v <;> rfl
    · rfl

/-- What a handler raises is caught. -/
def Catchable (ex : ActionExecutor) : Prop :=
  ∀ ty handler action e, ex.table.get? ty = some handler → handler action = .raised e → e.Caught

theorem Catchable.outcome {ex : ActionExecutor} (h : ex.Catchable) {action : Action} {e : Raised}
    (ho : ex.outcome action = .raised e) : e.Caught := by
  unfold ActionExecutor.outcome at ho
  cases hg : ex.table.get? action.actionType with
  | none =>
    rw [hg] at ho
    cases ho
    exact ⟨rfl, rfl⟩
  | some handler =>
    rw [hg] at ho
    simp only at ho
    cases hr : handler action with
    | raised e' =>
      rw [hr] at ho
      cases ho
      exact h _ handler action e hg hr
    | returned v =>
      rw [hr] at ho
      cases v <;> cases ho <;> exact ⟨rfl, rfl⟩

/-- The outcome depends on what the action is for, not on its id, timestamps or status. -/
def Blind (ex : ActionExecutor) : Prop :=
  ∀ a b : Action, a.tenantId = b.tenantId → a.proposalId = b.proposalId → a.eventId = b.eventId →
    a.customerId = b.customerId → a.actionType = b.actionType → a.payload = b.payload →
    ex.outcome a = ex.outcome b

theorem defaultExecutors_catchable (str : PyVal → String) :
    (⟨defaultExecutors str⟩ : ActionExecutor).Catchable := by
  intro ty handler action e hg hr
  cases ty <;> cases hg <;> cases hr

theorem defaultExecutors_blind (str : PyVal → String) :
    (⟨defaultExecutors str⟩ : ActionExecutor).Blind := by
  intro a b _ _ _ _ hty hp
  unfold outcome
  rw [← hty]
  cases a.actionType <;> simp only [defaultExecutors, Dict.get?, Dict.getEntries, reduceCtorEq,
    ↓reduceIte, mockSendBorrowerMessage, mockNotifyLoanOfficer, mockScheduleCall,
    mockRequestDocument, mockUpdateStatus, mockNoOp, hp]

end ActionExecutor
end PennyCore
