import PennyCore.Contracts.Actions
import PennyCore.Lib.Py

/-!
# Declarative policies and quorum rules

* `DeclarativePolicyEngine` (`src/orchestrator/policy/declarative.py`): one table per tenant from
  action types, `"default"` and `"*"` to decisions. `setPolicies` replaces a tenant's table or
  raises and changes nothing; `decide` resolves exact match, default, wildcard, safe fallback.
* `QuorumPolicy` (`src/orchestrator/quorum.py`): N-of-M rules per tenant and action type. A
  `QuorumRule` carries the facts its `__post_init__` checks, so every rule in the store is one that
  the approval queue can arm.
-/

namespace PennyCore

open Lib

/-! ## The policy engine -/

def DEFAULT_KEY : String := "default"

def WILDCARD_KEY : String := "*"

/-- What `set_policies` raises. -/
inductive PolicyError where
  | valueError (msg : String)
  /-- `UnknownPolicyDecisionError` for a string that is no decision. -/
  | unknownDecision (value : String)
  /-- `UnknownPolicyDecisionError` for a value that is no string. -/
  | decisionNotString (typeName key : String)
  deriving DecidableEq, Repr

/-- `_normalize_decision`. -/
def normalizeDecision (value : String) : Except PolicyError PolicyDecision :=
  match PolicyDecision.ofValue? value with
  | some d => .ok d
  | none => .error (.unknownDecision value)

/-- `_normalize_action_type`: an enum member or a plain string. -/
def normalizeActionType : ActionType ⊕ String → String
  | .inl t => t.value
  | .inr s => s

structure DeclarativePolicyEngine where
  byTenant : Dict String (Dict String PolicyDecision) := ∅

namespace DeclarativePolicyEngine

/-- The loop of `set_policies` over `policies.items()`. -/
def normalizeAll (normalized : Dict String PolicyDecision) :
    List (String × PyVal) → Except PolicyError (Dict String PolicyDecision)
  | [] => .ok normalized
  | (key, value) :: rest =>
    match value with
    | .str v => do
      let d ← normalizeDecision v
      normalizeAll (normalized.set key d) rest
    | v => .error (.decisionNotString v.typeName key)

def setPolicies (tenantId : String) (policies : Dict String PyVal) :
    Py PolicyError DeclarativePolicyEngine Unit := do
  if tenantId = "" then Py.raise (.valueError "tenant_id must be non-empty")
  else do
    let normalized ← Py.ofExcept (normalizeAll ∅ policies.entries)
    Py.modify fun e => { e with byTenant := e.byTenant.set tenantId normalized }

def decide (e : DeclarativePolicyEngine) (tenantId : String) (actionType : ActionType ⊕ String) :
    PolicyDecision :=
  let key := normalizeActionType actionType
  match e.byTenant.get? tenantId with
  | none => .approvalRequired
  | some table =>
    match table.get? key with
    | some d => d
    | none =>
      match table.get? DEFAULT_KEY with
      | some d => d
      | none =>
        match table.get? WILDCARD_KEY with
        | some d => d
        | none => .approvalRequired

/-- A call for `tenantId` leaves every other tenant's table as it is. -/
theorem setPolicies_frame {tenantId t : String} (policies : Dict String PyVal)
    (e : DeclarativePolicyEngine) (h : t ≠ tenantId) :
    (((setPolicies tenantId policies).run e).2.byTenant).get? t = e.byTenant.get? t := by
  unfold setPolicies
  rw [Py.run_ite]
  split
  · rfl
  · rw [Py.run_ofExcept_bind]
    split
    · exact Dict.get?_set_ne _ _ h
    · rfl

/-- The decision for a tenant depends on that tenant's table only. -/
theorem decide_congr {e e' : DeclarativePolicyEngine} {tenantId : String}
    (h : e.byTenant.get? tenantId = e'.byTenant.get? tenantId) (actionType : ActionType ⊕ String) :
    e.decide tenantId actionType = e'.decide tenantId actionType := by
  simp only [decide, h]

end DeclarativePolicyEngine

/-! ## Quorum rules -/

/-- `QuorumRule`: how many distinct approvals an action needs, and who may vote. The last three
fields are what `__post_init__` checks. -/
structure QuorumRule where
  requiredApprovals : Int
  eligibleApprovers : Option (List String)
  required_ge : 1 ≤ requiredApprovals
  pool_nodup : ∀ pool ∈ eligibleApprovers, pool.Nodup
  pool_fits : ∀ pool ∈ eligibleApprovers, requiredApprovals ≤ pool.length

namespace QuorumRule

/-- The checks of `QuorumRule.__post_init__`, in order, with their texts. -/
def new (requiredApprovals : Int) (eligibleApprovers : Option (List String)) :
    Except String QuorumRule :=
  if h₁ : 1 ≤ requiredApprovals then
    if h₂ : ∀ pool ∈ eligibleApprovers, pool.Nodup then
      if h₃ : ∀ pool ∈ eligibleApprovers, requiredApprovals ≤ pool.length then
        .ok ⟨requiredApprovals, eligibleApprovers, h₁, h₂, h₃⟩
      else
        let size := (eligibleApprovers.getD []).length
        .error s!"required_approvals={requiredApprovals} exceeds eligible pool size {size}"
    else .error "eligible_approvers must not contain duplicates"
  else .error "required_approvals must be >= 1"

/-- `_SINGLE_APPROVER`. -/
def single : QuorumRule where
  requiredApprovals := 1
  eligibleApprovers := none
  required_ge := Int.le_refl 1
  pool_nodup := fun _ h => by cases h
  pool_fits := fun _ h => by cases h

end QuorumRule

structure QuorumPolicy where
  rules : Dict (String × ActionType) QuorumRule := ∅

namespace QuorumPolicy

/-- `set_rule`; what it raises is a `ValueError` with the given text. -/
def setRule (tenantId : String) (actionType : ActionType) (requiredApprovals : Int)
    (eligibleApprovers : Option (List String)) : Py String QuorumPolicy QuorumRule := do
  if tenantId = "" then Py.raise "tenant_id must be non-empty"
  else do
    let rule ← Py.ofExcept (QuorumRule.new requiredApprovals eligibleApprovers)
    Py.modify fun q => { q with rules := q.rules.set (tenantId, actionType) rule }
    return rule

def resolve (q : QuorumPolicy) (tenantId : String) (actionType : ActionType) : QuorumRule :=
  (q.rules.get? (tenantId, actionType)).getD QuorumRule.single

def clear (_ : QuorumPolicy) : QuorumPolicy := {}

/-- A rule of `tenantId` leaves the rules of every other tenant as they are. -/
theorem setRule_frame {tenantId t : String} (actionType : ActionType) (n : Int)
    (pool : Option (List String)) (q : QuorumPolicy) (h : t ≠ tenantId) (ty : ActionType) :
    (((setRule tenantId actionType n pool).run q).2.rules).get? (t, ty) = q.rules.get? (t, ty) := by
  unfold setRule
  rw [Py.run_ite]
  split
  · rfl
  · rw [Py.run_ofExcept_bind]
    split
    · exact Dict.get?_set_ne _ _ fun e => h (congrArg Prod.fst e)
    · rfl

end QuorumPolicy
end PennyCore
