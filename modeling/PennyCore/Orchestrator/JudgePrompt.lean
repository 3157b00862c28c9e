import PennyCore.Orchestrator.ResponseGrammar

/-!
# What the judge's prompt says

The judge engine is measured with a mock client that reads the table itself. A real model sees the
prompt only: `literalJudge` is one that does what `JUDGE_SYSTEM_PROMPT` says, to the letter, on the
table JSON that it is given.

* `readPrompt`: the table JSON and the action type, read back from the prompt (`readPrompt_userPrompt`).
* `literalJudge_decide`: what the engine decides with this model behind it.
* `literalJudge_agrees`: it decides as the declarative engine does, except where the wildcard speaks,
  of which the prompt says nothing.
-/

namespace PennyCore

open Lib LLMJudgePolicyEngine

/-! ## Reading the prompt -/

def judgeHead : String := "Tenant policy table (JSON):\n"

def judgeMiddle : String := "\n\nProposed action_type: "

def judgeTail : String := "\n\nReturn ONLY the JSON object as instructed."

/-- The table JSON, which is one line, and the action type. -/
def readPrompt (prompt : String) : String × String :=
  let rest := prompt.toList.drop judgeHead.toList.length
  let json := rest.takeWhile (· != '\n')
  let rest := rest.drop (json.length + judgeMiddle.toList.length)
  (String.ofList json, String.ofList (rest.take (rest.length - judgeTail.toList.length)))

theorem toList_userPrompt (dumps : Dict String String → String) (table : Dict String PolicyDecision)
    (actionStr : String) :
    (userPrompt dumps table actionStr).toList =
      judgeHead.toList ++ ((dumps (table.mapValues PolicyDecision.value)).toList ++
        (judgeMiddle.toList ++ (actionStr.toList ++ judgeTail.toList))) := by
  unfold userPrompt
  simp [judgeHead, judgeMiddle, judgeTail, toString]

/-- What was put into the prompt is read back. -/
theorem readPrompt_userPrompt {dumps : Dict String String → String}
    {table : Dict String PolicyDecision} {actionStr : String}
    (h : '\n' ∉ (dumps (table.mapValues PolicyDecision.value)).toList) :
    readPrompt (userPrompt dumps table actionStr) =
      (dumps (table.mapValues PolicyDecision.value), actionStr) := by
  unfold readPrompt
  rw [toList_userPrompt]
  simp only [List.drop_left]
  generalize hjson : dumps (table.mapValues PolicyDecision.value) = json at h ⊢
  have hall : ∀ c ∈ json.toList, (c != '\n') = true := fun c hc => by
    simp only [bne_iff_ne, ne_eq]
    rintro rfl
    exact h hc
  have hmiddle : judgeMiddle.toList = '\n' :: judgeMiddle.toList.tail := by decide
  have htake : (json.toList ++ (judgeMiddle.toList ++ (actionStr.toList ++
      judgeTail.toList))).takeWhile (· != '\n') = json.toList := by
    rw [List.takeWhile_append_of_pos hall, hmiddle]
    simp
  rw [htake, ← List.drop_drop, List.drop_left, List.drop_left]
  simp

/-! ## The literal model -/

/-- The rule of the prompt on the object that the table JSON is: the exact action type, else the
`"default"` key, else `"approval_required"`. -/
def literalDecision (obj : List (PyVal × PyVal)) (actionStr : String) : String :=
  match objGet obj actionStr with
  | some (.str d) => d
  | _ =>
    match objGet obj DEFAULT_KEY with
    | some (.str d) => d
    | _ => "approval_required"

/-- An answer in the shape that the prompt asks for. -/
def literalAnswer (decision : String) : String :=
  s!"\x7b\"decision\": \"{decision}\", \"reasoning\": \"policy table\"\x7d"

/-- A model that follows the prompt, and knows no other instruction. -/
def literalJudge (loads : String → Except JsonError PyVal) (prompt system : String) : Option String :=
  if system = JUDGE_SYSTEM_PROMPT then
    match loads (readPrompt prompt).1 with
    | .ok (.dict obj) => some (literalAnswer (literalDecision obj (readPrompt prompt).2))
    | _ => none
  else none

/-- What is used of the `json` module on a table and on the answers: a dump is one line and loads as
the object that was dumped, and an answer loads as the object that it is the text of. -/
structure JudgeClient.JsonOn (client : JudgeClient) (table : Dict String PolicyDecision) : Prop where
  oneLine : '\n' ∉ (client.dumps (table.mapValues PolicyDecision.value)).toList
  readsTable : ∃ obj, client.loads (client.dumps (table.mapValues PolicyDecision.value)) =
    .ok (.dict obj) ∧ ∀ k, objGet obj k = (table.get? k).map fun d => .str d.value
  readsAnswer : ∀ d : PolicyDecision, ∃ obj, client.loads (literalAnswer d.value) =
    .ok (.dict obj) ∧ objGet obj "decision" = some (.str d.value)

/-- The rule of the prompt on the table itself. -/
def promptDecision (table : Dict String PolicyDecision) (actionStr : String) : PolicyDecision :=
  ((table.get? actionStr).or (table.get? DEFAULT_KEY)).getD .approvalRequired

theorem literalDecision_eq {obj : List (PyVal × PyVal)} {table : Dict String PolicyDecision}
    (h : ∀ k, objGet obj k = (table.get? k).map fun d => .str d.value) (actionStr : String) :
    literalDecision obj actionStr = (promptDecision table actionStr).value := by
  unfold literalDecision promptDecision
  rw [h, h]
  cases table.get? actionStr with
  | some d => rfl
  | none =>
    cases table.get? DEFAULT_KEY with
    | some d => rfl
    | none => rfl

/-- An answer is its own text: it is not fenced and has no white space at its ends. -/
theorem answerText_literalAnswer (d : PolicyDecision) :
    unfence (strip (literalAnswer d.value)) = literalAnswer d.value := by
  cases d <;> decide +kernel

theorem literalAnswer_ne (d : PolicyDecision) : literalAnswer d.value ≠ "" := by
  cases d <;> decide

/-- The decision of an object whose `"decision"` is one. -/
theorem decisionOf_eq {obj : List (PyVal × PyVal)} {d : PolicyDecision}
    (h : objGet obj "decision" = some (.str d.value)) : decisionOf obj = d := by
  unfold objGet at h
  unfold decisionOf
  induction obj with
  | nil => nomatch h
  | cons item obj ih =>
    obtain ⟨k, v⟩ := item
    rw [List.findSome?_cons] at h ⊢
    cases k with
    | str k =>
      by_cases hk : k = "decision"
      · subst hk
        simp only [if_true] at h
        cases h
        cases d <;> rfl
      · simp only [if_neg hk] at h
        -- the scan goes over an entry with another key
        convert ih h using 2
        split
        · next hfound =>
          split at hfound
          · next heq =>
            cases heq
            exact absurd rfl hk
          · nomatch hfound
        · rfl
    | _ => exact ih h

theorem parseJudgeResponse_decision {loads : String → Except JsonError PyVal} {raw : String}
    {obj : List (PyVal × PyVal)} {d : PolicyDecision} (hraw : raw ≠ "")
    (hloads : loads (answerText raw) = .ok (.dict obj))
    (hobj : objGet obj "decision" = some (.str d.value)) : parseJudgeResponse loads raw = .ok d := by
  rw [(parsers_object hraw hloads).2, decisionOf_eq hobj]

/-! ## The engine with the literal model -/

/-- The judge's tables are the declarative engine's, whatever the client. -/
theorem Engines.tables_foldl (client : JudgeClient) (calls : List (String × Dict String PyVal)) :
    (∀ t, (calls.foldl Engines.set (Engines.new client)).llmJudge.tables.get? t =
        (calls.foldl Engines.set (Engines.new client)).declarative.byTenant.get? t) ∧
      (calls.foldl Engines.set (Engines.new client)).llmJudge.client = client := by
  suffices h : ∀ e : Engines,
      ((∀ t, e.llmJudge.tables.get? t = e.declarative.byTenant.get? t) ∧ e.llmJudge.client = client) →
      (∀ t, (calls.foldl Engines.set e).llmJudge.tables.get? t =
        (calls.foldl Engines.set e).declarative.byTenant.get? t) ∧
        (calls.foldl Engines.set e).llmJudge.client = client from
    h (Engines.new client) ⟨fun _ => rfl, rfl⟩
  induction calls with
  | nil => exact fun e he => he
  | cons call calls ih =>
    intro e ⟨htables, hclient⟩
    apply ih
    rcases e.set_cases call with ⟨-, heq⟩ | ⟨table, -, heq⟩
    · rw [heq]
      exact ⟨htables, hclient⟩
    · rw [heq]
      refine ⟨fun t => ?_, hclient⟩
      simp only [Dict.get?_set, htables]

/-- What the engine decides with a model that follows the prompt. -/
theorem literalJudge_decide {e : LLMJudgePolicyEngine} {t : String} {a : ActionType ⊕ String}
    (hname : e.client.name ≠ "mock")
    (hliteral : e.client.complete = literalJudge e.client.loads)
    (hjson : e.client.JsonOn ((e.tables.get? t).getD ∅)) :
    ((LLMJudgePolicyEngine.decide t a).run e).1 =
      .ok (promptDecision ((e.tables.get? t).getD ∅) (normalizeActionType a)) := by
  obtain ⟨obj, hloads, hobj⟩ := hjson.readsTable
  obtain ⟨answer, hanswer, hdecision⟩ :=
    hjson.readsAnswer (promptDecision ((e.tables.get? t).getD ∅) (normalizeActionType a))
  have hcomplete : e.client.complete (userPrompt e.client.dumps ((e.tables.get? t).getD ∅)
      (normalizeActionType a)) JUDGE_SYSTEM_PROMPT =
      some (literalAnswer (promptDecision ((e.tables.get? t).getD ∅) (normalizeActionType a)).value) := by
    rw [hliteral, literalJudge, if_pos rfl, readPrompt_userPrompt hjson.oneLine]
    simp only [hloads, literalDecision_eq hobj]
  have hparse : parseJudgeResponse e.client.loads
      (literalAnswer (promptDecision ((e.tables.get? t).getD ∅) (normalizeActionType a)).value) =
      .ok (promptDecision ((e.tables.get? t).getD ∅) (normalizeActionType a)) := by
    apply parseJudgeResponse_decision ?_ ?_ hdecision
    · exact literalAnswer_ne _
    · rw [answerText, answerText_literalAnswer]
      exact hanswer
  unfold LLMJudgePolicyEngine.decide
  rw [Py.run_bind_ok (Py.run_get _), Py.run_bind_ok (Py.run_modify _ _), if_neg hname, hcomplete]
  simp only [Py.run_bind_ok (Py.run_modify _ _), hparse]
  rfl

/-- The wildcard says nothing that the prompt does not say: it is not reached, or it is the safe
default. -/
def WildcardSilent (table : Dict String PolicyDecision) (actionStr : String) : Prop :=
  table.get? actionStr ≠ none ∨ table.get? DEFAULT_KEY ≠ none ∨
    ∀ d, table.get? WILDCARD_KEY = some d → d = .approvalRequired

theorem promptDecision_eq_iff (table : Dict String PolicyDecision) (actionStr : String) :
    promptDecision table actionStr = PythonRulesPolicyEngine.handler table actionStr ↔
      WildcardSilent table actionStr := by
  unfold promptDecision PythonRulesPolicyEngine.handler WildcardSilent
  cases table.get? actionStr with
  | some d => simp
  | none =>
    cases table.get? DEFAULT_KEY with
    | some d => simp
    | none =>
      cases table.get? WILDCARD_KEY with
      | some d => simp [eq_comm]
      | none => simp

theorem DeclarativePolicyEngine.decide_table (e : DeclarativePolicyEngine) (t : String)
    (a : ActionType ⊕ String) :
    e.decide t a =
      PythonRulesPolicyEngine.handler ((e.byTenant.get? t).getD ∅) (normalizeActionType a) := by
  unfold DeclarativePolicyEngine.decide
  cases e.byTenant.get? t <;> rfl

/-- After any `set_policies` calls, on any table and action type, the engine with a model that follows
the prompt decides as the declarative engine if and only if the wildcard says nothing more. -/
theorem literalJudge_agrees {client : JudgeClient} {calls : List (String × Dict String PyVal)}
    {t : String} (hname : client.name ≠ "mock")
    (hliteral : client.complete = literalJudge client.loads)
    (hjson : client.JsonOn
      (((calls.foldl Engines.set (Engines.new client)).declarative.byTenant.get? t).getD ∅))
    (a : ActionType ⊕ String) :
    let e := calls.foldl Engines.set (Engines.new client)
    ((LLMJudgePolicyEngine.decide t a).run e.llmJudge).1 = .ok (e.declarative.decide t a) ↔
      WildcardSilent ((e.declarative.byTenant.get? t).getD ∅) (normalizeActionType a) := by
  intro e
  obtain ⟨htables, hclient⟩ := Engines.tables_foldl client calls
  have hjudge : ((LLMJudgePolicyEngine.decide t a).run e.llmJudge).1 =
      .ok (promptDecision ((e.llmJudge.tables.get? t).getD ∅) (normalizeActionType a)) := by
    apply literalJudge_decide
    · rw [hclient]
      exact hname
    · rw [hclient]
      exact hliteral
    · rw [hclient, htables]
      exact hjson
  rw [hjudge, htables, DeclarativePolicyEngine.decide_table, Except.ok.injEq]
  exact promptDecision_eq_iff _ _

/-! ## Two tables -/

/-- `json.dumps` on tables whose texts need no escapes. -/
def plainDumps (table : Dict String String) : String :=
  "\x7b" ++ ", ".intercalate (table.entries.map fun p => s!"\"{p.1}\": \"{p.2}\"") ++ "\x7d"

/-- `json.loads` on the texts below. -/
def plainLoads (text : String) : Except JsonError PyVal :=
  if text = "\x7b\"*\": \"reject\"\x7d" then .ok (.dict [(.str "*", .str "reject")])
  else if text = "\x7b\"default\": \"reject\"\x7d" then .ok (.dict [(.str "default", .str "reject")])
  else
    match [PolicyDecision.auto, .approvalRequired, .reject].find? fun d =>
      literalAnswer d.value = text with
    | some d => .ok (.dict [(.str "decision", .str d.value), (.str "reasoning", .str "policy table")])
    | none => .error .decode

/-- A client with the literal model behind it. -/
def plainJudge : JudgeClient where
  name := "literal"
  complete := literalJudge plainLoads
  dumps := plainDumps
  loads := plainLoads

theorem plainJudge_complete : plainJudge.complete = literalJudge plainJudge.loads := by
  simp only [plainJudge]

/-- The engines after one tenant has set one key. -/
def oneKeyEngines (key : String) : Engines :=
  [("t", Payload.of [(key, .str "reject")])].foldl Engines.set (Engines.new plainJudge)

theorem objGet_singleton (key v k : String) :
    objGet [(.str key, .str v)] k = if key = k then some (.str v) else none := by
  unfold objGet
  simp only [List.findSome?_cons, List.findSome?_nil]
  split <;> simp_all

/-- The client is right about the tables of one key that need no escapes. -/
theorem plainJudge_jsonOn {key text : String}
    (hdumps : plainDumps (Dict.mapValues PolicyDecision.value
      ⟨[(key, .reject)], List.nodup_singleton _⟩) = text)
    (hline : text.toList.contains '\n' = false)
    (hloads : plainLoads text = .ok (.dict [(.str key, .str "reject")])) :
    plainJudge.JsonOn ⟨[(key, .reject)], List.nodup_singleton _⟩ where
  oneLine := by
    have hno : '\n' ∉ text.toList := by
      rw [List.contains_eq_mem] at hline
      exact of_decide_eq_false hline
    rw [← hdumps] at hno
    exact hno
  readsTable := by
    rw [← hdumps] at hloads
    refine ⟨_, hloads, fun k => ?_⟩
    rw [objGet_singleton]
    unfold Dict.get? Dict.getEntries
    split <;> rfl
  readsAnswer := by
    intro d
    refine ⟨[(.str "decision", .str d.value), (.str "reasoning", .str "policy table")], ?_, rfl⟩
    have hfind : [PolicyDecision.auto, .approvalRequired, .reject].find?
        (fun d' => literalAnswer d'.value = literalAnswer d.value) = some d := by
      cases d <;> decide +kernel
    unfold plainJudge plainLoads
    simp only
    rw [if_neg (by cases d <;> decide +kernel), if_neg (by cases d <;> decide +kernel), hfind]

theorem oneKeyEngines_table (key : String) :
    ((oneKeyEngines key).declarative.byTenant.get? "t").getD ∅ =
      ⟨[(key, .reject)], List.nodup_singleton _⟩ := rfl

/-- The default is in the prompt: both engines reject. -/
theorem literalJudge_default :
    ((LLMJudgePolicyEngine.decide "t" (.inl .noOp)).run (oneKeyEngines "default").llmJudge).1 =
      .ok ((oneKeyEngines "default").declarative.decide "t" (.inl .noOp)) := by
  have hsilent : WildcardSilent (((oneKeyEngines "default").declarative.byTenant.get? "t").getD ∅)
      (normalizeActionType (.inl .noOp)) := .inr (.inl (by rw [oneKeyEngines_table]; decide))
  have hname : plainJudge.name ≠ "mock" := by decide
  have hjson : plainJudge.JsonOn (((oneKeyEngines "default").declarative.byTenant.get? "t").getD ∅) := by
    rw [oneKeyEngines_table]
    apply plainJudge_jsonOn (show _ = "\x7b\"default\": \"reject\"\x7d" from rfl) (by decide)
    rw [plainLoads, if_neg (by decide), if_pos rfl]
  exact (literalJudge_agrees hname plainJudge_complete hjson (.inl .noOp)).mpr hsilent

/-- A tenant that rejects everything by the wildcard: the prompt makes the model ask for approval. -/
theorem wildcard_unsaid :
    ((LLMJudgePolicyEngine.decide "t" (.inl .noOp)).run (oneKeyEngines "*").llmJudge).1 =
        .ok .approvalRequired ∧
      (oneKeyEngines "*").declarative.decide "t" (.inl .noOp) = .reject := by
  have hclient : (oneKeyEngines "*").llmJudge.client = plainJudge := (Engines.tables_foldl ..).2
  have hjson : plainJudge.JsonOn (((oneKeyEngines "*").llmJudge.tables.get? "t").getD ∅) := by
    apply plainJudge_jsonOn (show _ = "\x7b\"*\": \"reject\"\x7d" from rfl) (by decide)
    rw [plainLoads, if_pos rfl]
  refine ⟨?_, by decide⟩
  rw [literalJudge_decide]
  · decide
  · rw [hclient]
    decide
  · rw [hclient]
    exact plainJudge_complete
  · rw [hclient]
    exact hjson

end PennyCore
