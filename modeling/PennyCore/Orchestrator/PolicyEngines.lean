import PennyCore.Lib.Text
import PennyCore.Orchestrator.Policy

/-!
# The other policy engines, and their agreement

* `PythonRulesPolicyEngine` (`src/orchestrator/policy/python_rules.py`): a table is compiled into a
  handler of the tenant.
* `LLMJudgePolicyEngine` (`src/orchestrator/policy/llm_judge.py`): the table goes to a language model
  as JSON; a mock client reads the table instead. The client, `json.dumps` and `json.loads` are the
  parameter `JudgeClient`.

`Engines` is one engine of each kind, set alike. `Aligned` relates their tables; each `set_policies`
keeps it (`Aligned.set`), and on aligned tables the decisions are equal (`Aligned.decide`).
-/

namespace PennyCore

open Lib

/-! ## Tables -/

/-- What `set_policies` of the two engines raises. -/
inductive TableError where
  | emptyTenant
  /-- `UnknownPolicyDecisionError`. -/
  | unknownDecision (value : String)
  /-- A plain `ValueError`. -/
  | notString (typeName key : String)
  deriving DecidableEq, Repr

/-- The loop over `policies.items()`, which both engines have. -/
def normalizeTable (normalized : Dict String PolicyDecision) :
    List (String × PyVal) → Except TableError (Dict String PolicyDecision)
  | [] => .ok normalized
  | (key, .str value) :: rest =>
    match PolicyDecision.ofValue? value with
    | some d => normalizeTable (normalized.set key d) rest
    | none => .error (.unknownDecision value)
  | (key, value) :: _ => .error (.notString value.typeName key)

/-! ## The Python rules engine -/

/-- A handler of a tenant: from an action type to the decision. -/
abbrev TenantHandler : Type := String → PolicyDecision

structure PythonRulesPolicyEngine where
  handlers : Dict String TenantHandler := ∅
  rawTables : Dict String (Dict String PolicyDecision) := ∅

namespace PythonRulesPolicyEngine

/-- The closure over the table. -/
def handler (normalized : Dict String PolicyDecision) : TenantHandler := fun actionType =>
  match normalized.get? actionType with
  | some d => d
  | none =>
    match normalized.get? DEFAULT_KEY with
    | some d => d
    | none =>
      match normalized.get? WILDCARD_KEY with
      | some d => d
      | none => .approvalRequired

def setPolicies (tenantId : String) (policies : Dict String PyVal) :
    Py TableError PythonRulesPolicyEngine Unit := do
  if tenantId = "" then Py.raise .emptyTenant
  else do
    let normalized ← Py.ofExcept (normalizeTable ∅ policies.entries)
    Py.modify fun e => {
      handlers := e.handlers.set tenantId (handler normalized)
      rawTables := e.rawTables.set tenantId normalized }

def decide (e : PythonRulesPolicyEngine) (tenantId : String) (actionType : ActionType ⊕ String) :
    PolicyDecision :=
  let key := normalizeActionType actionType
  match e.handlers.get? tenantId with
  | none => .approvalRequired
  | some handler => handler key

end PythonRulesPolicyEngine

/-! ## The judge -/

/-- What `json.loads` raises. -/
inductive JsonError where
  /-- `JSONDecodeError`. -/
  | decode
  | other (kind : String)
  deriving DecidableEq, Repr

/-- The client of the judge, and the `json` module. -/
structure JudgeClient where
  name : String
  /-- `complete(prompt, system)`; `none` if it raises. -/
  complete : String → String → Option String
  /-- `json.dumps(table, sort_keys=True)`. -/
  dumps : Dict String String → String
  /-- `json.loads(text)`. -/
  loads : String → Except JsonError PyVal

structure LLMJudgePolicyEngine where
  client : JudgeClient
  tables : Dict String (Dict String PolicyDecision) := ∅
  llmCallCount : Nat := 0
  llmInputTokensEstimate : Nat := 0
  llmOutputTokensEstimate : Nat := 0

def JUDGE_SYSTEM_PROMPT : String :=
  "You are a strict policy evaluator for a customer-service AI system.

You will receive a tenant's policy as a JSON object mapping action
types to decisions, plus a proposed action. Look up the exact
action_type in the policy table. If absent, use the \"default\" key. If
\"default\" is absent, return \"approval_required\" (the safe default).

Respond with EXACTLY a JSON object of the shape:
  \x7b\"decision\": \"<auto|approval_required|reject>\", \"reasoning\": \"<short>\"\x7d

No prose, no markdown fences, no preamble."

namespace LLMJudgePolicyEngine

def setPolicies (tenantId : String) (policies : Dict String PyVal) :
    Py TableError LLMJudgePolicyEngine Unit := do
  if tenantId = "" then Py.raise .emptyTenant
  else do
    let normalized ← Py.ofExcept (normalizeTable ∅ policies.entries)
    Py.modify fun e => { e with tables := e.tables.set tenantId normalized }

/-- `_resolve_from_table`. -/
def resolveFromTable (table : Dict String PolicyDecision) (actionStr : String) : PolicyDecision :=
  if table.entries.isEmpty then .approvalRequired
  else
    match table.get? actionStr with
    | some d => d
    | none =>
      match table.get? DEFAULT_KEY with
      | some d => d
      | none =>
        match table.get? WILDCARD_KEY with
        | some d => d
        | none => .approvalRequired

/-- The text between the first code fence, which opens the answer, and the next one. -/
def unfence (cleaned : String) : String :=
  if "```".isPrefixOf cleaned then
    strip ("\n".intercalate ((splitlines cleaned).tail.takeWhile fun line =>
      !("```".isPrefixOf (strip line))))
  else cleaned

/-- The decision that an object carries. -/
def decisionOf (obj : List (PyVal × PyVal)) : PolicyDecision :=
  match obj.findSome? fun | (.str "decision", .str d) => some d | _ => none with
  | some d => (PolicyDecision.ofValue? d).getD .approvalRequired
  | none => .approvalRequired

/-- `_parse_judge_response`. -/
def parseJudgeResponse (loads : String → Except JsonError PyVal) (raw : String) :
    Except JsonError PolicyDecision :=
  if raw = "" then .ok .approvalRequired
  else
    match loads (unfence (strip raw)) with
    | .error .decode => .ok .approvalRequired
    | .error e => .error e
    | .ok (.dict obj) => .ok (decisionOf obj)
    | .ok _ => .ok .approvalRequired

def userPrompt (dumps : Dict String String → String) (table : Dict String PolicyDecision)
    (actionStr : String) : String :=
  let policyJson := dumps (table.mapValues PolicyDecision.value)
  s!"Tenant policy table (JSON):\n{policyJson}\n\nProposed action_type: {actionStr}\n\nReturn ONLY the JSON object as instructed."

def decide (tenantId : String) (actionType : ActionType ⊕ String) :
    Py JsonError LLMJudgePolicyEngine PolicyDecision := do
  let e ← Py.get
  let actionStr := normalizeActionType actionType
  let table := (e.tables.get? tenantId).getD ∅
  let prompt := userPrompt e.client.dumps table actionStr
  Py.modify fun e => { e with
    llmCallCount := e.llmCallCount + 1
    llmInputTokensEstimate :=
      e.llmInputTokensEstimate + (JUDGE_SYSTEM_PROMPT.length + prompt.length) / 4 }
  if e.client.name = "mock" then do
    Py.modify fun e => { e with llmOutputTokensEstimate := e.llmOutputTokensEstimate + 32 }
    return resolveFromTable table actionStr
  else
    match e.client.complete prompt JUDGE_SYSTEM_PROMPT with
    | none => return .approvalRequired
    | some response => do
      Py.modify fun e => { e with
        llmOutputTokensEstimate := e.llmOutputTokensEstimate + response.length / 4 }
      Py.ofExcept (parseJudgeResponse e.client.loads response)

end LLMJudgePolicyEngine

/-! ## The three engines -/

/-- One engine of each kind. -/
structure Engines where
  declarative : DeclarativePolicyEngine
  pythonRules : PythonRulesPolicyEngine
  llmJudge : LLMJudgePolicyEngine

namespace Engines

def new (client : JudgeClient) : Engines := ⟨{}, {}, { client }⟩

/-- Which engines accept a table. -/
def accepts (e : Engines) (tenantId : String) (policies : Dict String PyVal) : Bool × Bool × Bool :=
  (((DeclarativePolicyEngine.setPolicies tenantId policies).run e.declarative).1.isOk,
    ((PythonRulesPolicyEngine.setPolicies tenantId policies).run e.pythonRules).1.isOk,
    ((LLMJudgePolicyEngine.setPolicies tenantId policies).run e.llmJudge).1.isOk)

/-- `set_policies` on each engine; what an engine raises is caught. -/
def set (e : Engines) (call : String × Dict String PyVal) : Engines :=
  ⟨((DeclarativePolicyEngine.setPolicies call.1 call.2).run e.declarative).2,
    ((PythonRulesPolicyEngine.setPolicies call.1 call.2).run e.pythonRules).2,
    ((LLMJudgePolicyEngine.setPolicies call.1 call.2).run e.llmJudge).2⟩

/-- The decisions of the three engines. -/
def decide (e : Engines) (tenantId : String) (actionType : ActionType ⊕ String) :
    PolicyDecision × PolicyDecision × Except JsonError PolicyDecision :=
  (e.declarative.decide tenantId actionType, e.pythonRules.decide tenantId actionType,
    ((LLMJudgePolicyEngine.decide tenantId actionType).run e.llmJudge).1)

/-- The engines have the same tables, and the judge's client is the mock one. -/
structure Aligned (e : Engines) : Prop where
  handlers : ∀ t, e.pythonRules.handlers.get? t =
    (e.declarative.byTenant.get? t).map PythonRulesPolicyEngine.handler
  tables : ∀ t, e.llmJudge.tables.get? t = e.declarative.byTenant.get? t
  mock : e.llmJudge.client.name = "mock"

end Engines

/-- The two loops accept the same tables, and normalize them alike. -/
theorem normalizeTable_eq (items : List (String × PyVal)) (normalized : Dict String PolicyDecision) :
    (normalizeTable normalized items).toOption =
      (DeclarativePolicyEngine.normalizeAll normalized items).toOption := by
  induction items generalizing normalized with
  | nil => rfl
  | cons item items ih =>
    obtain ⟨key, value⟩ := item
    cases value with
    | str v =>
      unfold normalizeTable DeclarativePolicyEngine.normalizeAll normalizeDecision
      simp only
      cases PolicyDecision.ofValue? v with
      | none => rfl
      | some d => exact ih (normalized.set key d)
    | _ => rfl

section Alignment

variable {e : Engines} {call : String × Dict String PyVal}

/-- A call that is rejected by one engine is rejected by all and changes nothing; else each engine has
the same new table. -/
theorem Engines.set_cases (e : Engines) (call : String × Dict String PyVal) :
    (e.accepts call.1 call.2 = (false, false, false) ∧ e.set call = e) ∨
    ∃ table, e.accepts call.1 call.2 = (true, true, true) ∧ e.set call =
      ⟨⟨e.declarative.byTenant.set call.1 table⟩,
        ⟨e.pythonRules.handlers.set call.1 (PythonRulesPolicyEngine.handler table),
          e.pythonRules.rawTables.set call.1 table⟩,
        { e.llmJudge with tables := e.llmJudge.tables.set call.1 table }⟩ := by
  unfold Engines.accepts Engines.set DeclarativePolicyEngine.setPolicies
    PythonRulesPolicyEngine.setPolicies LLMJudgePolicyEngine.setPolicies
  by_cases ht : call.1 = ""
  · simp only [if_pos ht]
    exact .inl ⟨rfl, rfl⟩
  simp only [if_neg ht, Py.run_ofExcept_bind]
  have hloops := normalizeTable_eq call.2.entries ∅
  cases htable : normalizeTable ∅ call.2.entries with
  | error err =>
    rw [htable] at hloops
    cases hdecl : DeclarativePolicyEngine.normalizeAll ∅ call.2.entries with
    | error err' => exact .inl ⟨rfl, rfl⟩
    | ok table =>
      rw [hdecl] at hloops
      cases hloops
  | ok table =>
    rw [htable] at hloops
    cases hdecl : DeclarativePolicyEngine.normalizeAll ∅ call.2.entries with
    | error err =>
      rw [hdecl] at hloops
      cases hloops
    | ok table' =>
      rw [hdecl] at hloops
      obtain rfl : table = table' := Option.some.inj hloops
      exact .inr ⟨table, rfl, rfl⟩

theorem Engines.Aligned.new {client : JudgeClient} (hmock : client.name = "mock") :
    (Engines.new client).Aligned :=
  ⟨fun _ => rfl, fun _ => rfl, hmock⟩

theorem Engines.Aligned.set (h : e.Aligned) (call : String × Dict String PyVal) :
    (e.set call).Aligned := by
  rcases e.set_cases call with ⟨-, heq⟩ | ⟨table, -, heq⟩
  · rwa [heq]
  rw [heq]
  refine ⟨fun t => ?_, fun t => ?_, h.mock⟩
  · simp only [Dict.get?_set]
    split
    · rfl
    · exact h.handlers t
  · simp only [Dict.get?_set]
    split
    · rfl
    · exact h.tables t

/-- The judge's table lookup is the compiled handler. -/
theorem resolveFromTable_eq (table : Dict String PolicyDecision) (actionStr : String) :
    LLMJudgePolicyEngine.resolveFromTable table actionStr =
      PythonRulesPolicyEngine.handler table actionStr := by
  unfold LLMJudgePolicyEngine.resolveFromTable
  split
  · rename_i hempty
    have hnone : ∀ k, table.get? k = none := fun k => by
      rw [Dict.get?_eq_none]
      unfold Dict.keys
      simp [List.isEmpty_iff.mp hempty]
    unfold PythonRulesPolicyEngine.handler
    simp only [hnone]
  · rfl

/-- Aligned engines decide alike. -/
theorem Engines.Aligned.decide (h : e.Aligned) (t : String) (actionType : ActionType ⊕ String) :
    e.decide t actionType = (e.declarative.decide t actionType,
      e.declarative.decide t actionType, .ok (e.declarative.decide t actionType)) := by
  have hpython : e.pythonRules.decide t actionType = e.declarative.decide t actionType := by
    unfold PythonRulesPolicyEngine.decide DeclarativePolicyEngine.decide
    rw [h.handlers]
    cases e.declarative.byTenant.get? t <;> rfl
  have hjudge : ((LLMJudgePolicyEngine.decide t actionType).run e.llmJudge).1 =
      .ok (e.declarative.decide t actionType) := by
    unfold LLMJudgePolicyEngine.decide
    rw [Py.run_bind_ok (Py.run_get _), Py.run_bind_ok (Py.run_modify _ _), if_pos h.mock,
      Py.run_bind_ok (Py.run_modify _ _), Py.run_pure, resolveFromTable_eq, h.tables]
    unfold DeclarativePolicyEngine.decide
    cases e.declarative.byTenant.get? t <;> rfl
  unfold Engines.decide
  rw [hpython, hjudge]

theorem Engines.Aligned.foldl {client : JudgeClient} (hmock : client.name = "mock")
    (calls : List (String × Dict String PyVal)) :
    (calls.foldl Engines.set (Engines.new client)).Aligned := by
  suffices h : ∀ e : Engines, e.Aligned → (calls.foldl Engines.set e).Aligned from
    h _ (Engines.Aligned.new hmock)
  induction calls with
  | nil => exact fun e he => he
  | cons call calls ih => exact fun e he => ih (e.set call) (he.set call)

end Alignment

/-- After any `set_policies` calls the three engines decide alike, accept the same tables, and keep all
decisions at a rejected one and those of the other tenants at every one. -/
theorem policyEngines_agree {client : JudgeClient} (hmock : client.name = "mock")
    (calls : List (String × Dict String PyVal)) :
    let e := calls.foldl Engines.set (Engines.new client)
    (∀ t a, ∃ d, e.decide t a = (d, d, .ok d)) ∧
    (∀ call : String × Dict String PyVal, e.accepts call.1 call.2 = (true, true, true) ∨
      (e.accepts call.1 call.2 = (false, false, false) ∧
        ∀ t a, (e.set call).decide t a = e.decide t a)) ∧
    (∀ (call : String × Dict String PyVal) (t : String) (a : ActionType ⊕ String), t ≠ call.1 →
      (e.set call).decide t a = e.decide t a) := by
  intro e
  have he : e.Aligned := Engines.Aligned.foldl hmock calls
  refine ⟨fun t a => ⟨_, he.decide t a⟩, fun call => ?_, fun call t a ht => ?_⟩
  · rcases e.set_cases call with ⟨hno, heq⟩ | ⟨table, hyes, -⟩
    · exact .inr ⟨hno, fun t a => by rw [heq]⟩
    · exact .inl hyes
  · have hframe : (e.set call).declarative.decide t a = e.declarative.decide t a :=
      DeclarativePolicyEngine.decide_congr
        (DeclarativePolicyEngine.setPolicies_frame call.2 e.declarative ht) a
    rw [(he.set call).decide, he.decide, hframe]

/-- A mock client that echoes its prompt. -/
def mockJudge : JudgeClient where
  name := "mock"
  complete prompt _ := some prompt
  dumps _ := "\x7b\x7d"
  loads _ := .error .decode

/-- A default, and then a table that is rejected. -/
theorem policyEngines_agree_twoCalls :
    let e := [("t", Payload.of [("default", .str "auto")])].foldl Engines.set (Engines.new mockJudge)
    e.accepts "t" (Payload.of [("default", .int 1)]) = (false, false, false) ∧
      (e.set ("t", Payload.of [("default", .int 1)])).decide "t" (.inl .noOp) =
        e.decide "t" (.inl .noOp) := by
  have hmock : mockJudge.name = "mock" := rfl
  refine ⟨rfl, ?_⟩
  rcases (policyEngines_agree hmock [("t", Payload.of [("default", .str "auto")])]).2.1
    ("t", Payload.of [("default", .int 1)]) with hyes | ⟨-, hsame⟩
  · exact absurd hyes (by decide)
  · exact hsame "t" (.inl .noOp)

end PennyCore
