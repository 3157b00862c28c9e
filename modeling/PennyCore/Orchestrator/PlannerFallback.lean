import PennyCore.Orchestrator.Planner

/-!
# The planner's fallback

Every failure of the model is to end in the rule table. Two failures do not: `json.loads` raises more
than `JSONDecodeError`, and the rule table is looked up with a key that may have no hash.
`proposes_iff` says exactly when `propose_action` returns a proposal.
-/

namespace PennyCore

open Lib

/-- The ids of the envelope fit the contract. -/
structure Addressed (envelope : Payload) : Prop where
  tenant : ∃ s : Str 1 64, envGet envelope "tenant_id" = .str s.1
  event : ∃ s : Str 1 64, envGet envelope "event_id" = .str s.1
  customer : envGet envelope "customer_id" = .none ∨
    ∃ s : Str 0 64, envGet envelope "customer_id" = .str s.1

/-- The model is asked and answers with `raw`. -/
def Responds (rt : PlannerRuntime) (client : LLMClient) (request : PlanRequest) (raw : String) : Prop :=
  client.name ≠ "mock" ∧
    client.complete (plannerPrompt rt request) PLANNER_SYSTEM_PROMPT = some raw

/-- The text of an answer that is given to `json.loads`. -/
def answerText (raw : String) : String := LLMJudgePolicyEngine.unfence (strip raw)

/-- The payload of an answer: the reasoning is added where the payload has none. -/
def answerPayload (obj items : List (PyVal × PyVal)) : Payload :=
  match objGet obj "reasoning" with
  | some (.str reasoning) =>
    if reasoning ≠ "" ∧ (objPayload items).get? "_planner_reasoning" = none then
      (objPayload items).set "_planner_reasoning" (.str reasoning)
    else objPayload items
  | _ => objPayload items

/-- The object has a known action type and a payload that is a dictionary, or none. -/
def ProposalObject (obj : List (PyVal × PyVal)) (actionType : ActionType) (payload : Payload) : Prop :=
  ∃ actionStr items, objGet obj "action_type" = some (.str actionStr) ∧
    ActionType.ofValue? actionStr = some actionType ∧
    (objGet obj "payload").getD (.dict []) = .dict items ∧ payload = answerPayload obj items

/-- The answer parses to such an object. -/
def Understood (rt : PlannerRuntime) (raw : String) (actionType : ActionType) (payload : Payload) :
    Prop :=
  raw ≠ "" ∧ ∃ obj, rt.loads (answerText raw) = .ok (.dict obj) ∧ ProposalObject obj actionType payload

/-- The model answers with an understood proposal. -/
def Proposed (rt : PlannerRuntime) (client : LLMClient) (request : PlanRequest)
    (actionType : ActionType) (payload : Payload) : Prop :=
  ∃ raw, Responds rt client request raw ∧ Understood rt raw actionType payload

/-- The payload with the flags of the sanitiser, if it raised any. -/
def stamped (flags : List InjectionFlag) (payload : Payload) : Payload :=
  if flags = [] then payload else payload.set "_injection_flags" (flagValues flags)

/-- The flags that the sanitiser raises on the brief. -/
def briefFlags (rt : PlannerRuntime) (request : PlanRequest) : List InjectionFlag :=
  (sanitizeForPrompt rt.words request.briefText true).flags

/-- One proposal is returned: the model's when the model proposes one, else that of the rule table. -/
def AlwaysProposes (rt : PlannerRuntime) (client : LLMClient) (u : Uuid) (request : PlanRequest) :
    Prop :=
  ∃ proposal, proposeAction rt client u request = .ok proposal ∧
    (∀ actionType payload, Proposed rt client request actionType payload →
      proposal.proposedBy = .llm ∧ proposal.actionType = actionType ∧
        proposal.payload = stamped (briefFlags rt request) payload) ∧
    ((¬ ∃ actionType payload, Proposed rt client request actionType payload) →
      proposal.proposedBy = .fallback ∧
        fallbackProposal rt u request (briefFlags rt request) = .ok proposal)

/-- The value has a hash. -/
def HasHash : PyVal → Prop
  | .list _ => False
  | .dict _ => False
  | _ => True

/-- `envelope.get("event_type", "")`. -/
def eventTypeOf (envelope : Payload) : PyVal := (envelope.get? "event_type").getD (.str "")

/-- Nothing that is not caught is raised: `json.loads` raises no more than `JSONDecodeError` on the
answer, and where the rule table is needed, the event type has a hash. -/
structure Caught (rt : PlannerRuntime) (client : LLMClient) (request : PlanRequest) : Prop where
  json : ∀ raw, Responds rt client request raw → raw ≠ "" →
    ∀ kind, rt.loads (answerText raw) ≠ .error (.other kind)
  hash : (¬ ∃ actionType payload, Proposed rt client request actionType payload) →
    HasHash (eventTypeOf request.envelope)

section

variable {rt : PlannerRuntime} {client : LLMClient} {u : Uuid} {request : PlanRequest}

/-! ## The answer -/

theorem ProposalObject.unique {obj : List (PyVal × PyVal)} {a a' : ActionType} {p p' : Payload}
    (h : ProposalObject obj a p) (h' : ProposalObject obj a' p') : a = a' ∧ p = p' := by
  obtain ⟨s, items, hs, ha, hitems, hp⟩ := h
  obtain ⟨s', items', hs', ha', hitems', hp'⟩ := h'
  rw [hs] at hs'
  cases hs'
  rw [ha] at ha'
  cases ha'
  rw [hitems] at hitems'
  cases hitems'
  exact ⟨rfl, hp.trans hp'.symm⟩

theorem Understood.unique {raw : String} {a a' : ActionType} {p p' : Payload}
    (h : Understood rt raw a p) (h' : Understood rt raw a' p') : a = a' ∧ p = p' := by
  obtain ⟨_, obj, hobj, h⟩ := h
  obtain ⟨_, obj', hobj', h'⟩ := h'
  rw [hobj] at hobj'
  cases hobj'
  exact h.unique h'

/-- What the parser does with an object. -/
theorem parse_object {raw : String} {obj : List (PyVal × PyVal)} (hne : raw ≠ "")
    (hobj : rt.loads (answerText raw) = .ok (.dict obj)) :
    (∃ a p, ProposalObject obj a p ∧ parseLLMResponse rt.loads raw = .ok (some (a, p))) ∨
      ((¬ ∃ a p, ProposalObject obj a p) ∧ parseLLMResponse rt.loads raw = .ok none) := by
  unfold answerText at hobj
  unfold parseLLMResponse
  rw [if_neg hne, hobj]
  simp only
  split
  · rename_i actionStr hstr
    split
    · rename_i a items ha hitems
      refine .inl ⟨a, answerPayload obj items, ⟨actionStr, items, hstr, ha, hitems, rfl⟩, ?_⟩
      unfold answerPayload
      generalize objGet obj "reasoning" = reasoning
      cases reasoning with
      | none => rfl
      | some v =>
        cases v with
        | str reasoning => simp only; split <;> rfl
        | none | bool _ | int _ | list _ | dict _ | obj _ _ => rfl
    · rename_i hno
      refine .inr ⟨?_, rfl⟩
      rintro ⟨a, p, s, items, hs, ha, hitems, _⟩
      rw [hstr] at hs
      cases hs
      exact hno a items ha hitems
  · rename_i hno
    refine .inr ⟨?_, rfl⟩
    rintro ⟨a, p, s, items, hs, _⟩
    exact hno s hs

/-- The parser: an understood answer, an answer that is not, or what `json.loads` raises. -/
theorem parse_cases (rt : PlannerRuntime) (raw : String) :
    (∃ a p, Understood rt raw a p ∧ parseLLMResponse rt.loads raw = .ok (some (a, p))) ∨
      ((¬ ∃ a p, Understood rt raw a p) ∧ parseLLMResponse rt.loads raw = .ok none ∧
        (raw ≠ "" → ∀ kind, rt.loads (answerText raw) ≠ .error (.other kind))) ∨
      ((¬ ∃ a p, Understood rt raw a p) ∧ raw ≠ "" ∧ ∃ kind,
        rt.loads (answerText raw) = .error (.other kind) ∧
          parseLLMResponse rt.loads raw = .error (.json (.other kind))) := by
  by_cases hne : raw = ""
  · refine .inr (.inl ⟨fun ⟨_, _, h⟩ => h.1 hne, if_pos hne, fun h => absurd hne h⟩)
  -- what is not a dictionary is not understood
  have hnot : ∀ r, rt.loads (answerText raw) = r → (∀ obj, r ≠ .ok (.dict obj)) →
      ¬ ∃ a p, Understood rt raw a p := by
    rintro r hr hdict ⟨a, p, _, obj, hobj, _⟩
    exact hdict obj (hr.symm.trans hobj)
  cases hloads : rt.loads (answerText raw) with
  | error e =>
    have hno := hnot _ hloads fun obj h => nomatch h
    cases e with
    | decode =>
      refine .inr (.inl ⟨hno, ?_, fun _ kind h => nomatch h⟩)
      unfold answerText at hloads
      rw [parseLLMResponse, if_neg hne, hloads]
    | other kind =>
      refine .inr (.inr ⟨hno, hne, kind, rfl, ?_⟩)
      unfold answerText at hloads
      rw [parseLLMResponse, if_neg hne, hloads]
  | ok v =>
    by_cases hdict : ∃ obj, v = .dict obj
    · obtain ⟨obj, rfl⟩ := hdict
      rcases parse_object hne hloads with ⟨a, p, hobj, hparse⟩ | ⟨hno, hparse⟩
      · exact .inl ⟨a, p, ⟨hne, obj, hloads, hobj⟩, hparse⟩
      · refine .inr (.inl ⟨?_, hparse, fun _ kind h => nomatch h⟩)
        rintro ⟨a, p, _, obj', hobj', h⟩
        rw [hloads] at hobj'
        cases hobj'
        exact hno ⟨a, p, h⟩
    · have hno := hnot _ hloads fun obj h => hdict ⟨obj, Except.ok.inj h⟩
      refine .inr (.inl ⟨hno, ?_, fun _ kind h => nomatch h⟩)
      unfold answerText at hloads
      rw [parseLLMResponse, if_neg hne, hloads]
      cases v with
      | dict obj => exact absurd ⟨obj, rfl⟩ hdict
      | none | bool _ | int _ | str _ | list _ | obj _ _ => rfl

/-! ## The proposal -/

theorem proposalField_ok (field : String) (s : Str 1 64) : proposalField field (.str s.1) = .ok s := by
  change (Str.check 1 64 "ActionProposal" field s.1).mapError _ = _
  rw [Str.check_ok s.2]
  rfl

theorem truthy_str (s : Str 1 64) : (PyVal.str s.1).truthy = true := by
  have hne : s.1 ≠ "" := fun h => by simpa [h] using s.2.1
  simpa [PyVal.truthy] using hne

/-- An addressed envelope passes the contract. -/
theorem Addressed.build {envelope : Payload} (h : Addressed envelope) (u : Uuid)
    (actionType : ActionType) (proposedBy : ProposedBy) (payload : Payload) :
    ∃ proposal, buildProposal u envelope actionType proposedBy payload = .ok proposal ∧
      proposal.proposedBy = proposedBy ∧ proposal.actionType = actionType ∧
      proposal.payload = payload := by
  obtain ⟨t, ht⟩ := h.tenant
  obtain ⟨e, he⟩ := h.event
  have hcustomer : ∃ c, proposalCustomer (envGet envelope "customer_id") = .ok c := by
    rcases h.customer with hc | ⟨c, hc⟩
    · rw [hc]
      exact ⟨none, rfl⟩
    · refine ⟨some ⟨c.1, Nat.zero_le _, c.2.2⟩, ?_⟩
      rw [hc]
      change (Str.checkOpt 64 "ActionProposal" "customer_id" (some c.1)).mapError _ = _
      rw [Str.checkOpt_ok c.2.2]
      rfl
  obtain ⟨c, hc⟩ := hcustomer
  unfold buildProposal
  rw [ht, he, hc, proposalField_ok, proposalField_ok]
  exact ⟨_, rfl, rfl, rfl, rfl⟩

/-- The envelope has the two ids that the planner asks for. -/
def Present (envelope : Payload) : Prop :=
  ¬ (¬ (envGet envelope "tenant_id").truthy ∨ ¬ (envGet envelope "event_id").truthy)

theorem Addressed.present (h : Addressed request.envelope) : Present request.envelope := by
  obtain ⟨t, ht⟩ := h.tenant
  obtain ⟨e, he⟩ := h.event
  rw [Present, ht, he, truthy_str, truthy_str]
  simp

theorem fallbackRule_ok {v : PyVal} : (∃ rule, fallbackRule v = .ok rule) ↔ HasHash v := by
  cases v with
  | list xs => exact ⟨fun ⟨_, h⟩ => (nomatch h), fun h => h.elim⟩
  | dict xs => exact ⟨fun ⟨_, h⟩ => (nomatch h), fun h => h.elim⟩
  | none | bool _ | int _ | str _ | obj _ _ => exact ⟨fun _ => trivial, fun _ => ⟨_, rfl⟩⟩

/-- The reasoning of a fallback proposal. -/
def fallbackReason (rt : PlannerRuntime) (eventType : PyVal) : Option ActionType → String
  | some _ => "rule-table fallback for event_type=" ++ rt.repr eventType
  | none => "rule-table default (unknown event_type=" ++ rt.repr eventType ++ ", escalating)"

/-- The payload of a fallback proposal. -/
def fallbackPayload (rt : PlannerRuntime) (eventType : PyVal) (flags : List InjectionFlag)
    (rule : Option ActionType) : Payload :=
  stamped flags (.of [("_planner_reasoning", .str (fallbackReason rt eventType rule))])

theorem fallbackProposal_eq (rt : PlannerRuntime) (u : Uuid) (request : PlanRequest)
    (flags : List InjectionFlag) :
    (∃ e, fallbackRule (eventTypeOf request.envelope) = .error e ∧
        fallbackProposal rt u request flags = .error e) ∨
      ∃ rule, fallbackRule (eventTypeOf request.envelope) = .ok rule ∧
        fallbackProposal rt u request flags =
          buildProposal u request.envelope (rule.getD FALLBACK_DEFAULT) .fallback
            (fallbackPayload rt (eventTypeOf request.envelope) flags rule) := by
  unfold eventTypeOf
  cases hrule : fallbackRule ((request.envelope.get? "event_type").getD (.str "")) with
  | error e => exact .inl ⟨e, rfl, by simp only [fallbackProposal, hrule, bind, Except.bind]⟩
  | ok rule =>
    refine .inr ⟨rule, rfl, ?_⟩
    simp only [fallbackProposal, hrule, bind, Except.bind]
    cases rule <;> rfl

/-- The rule table gives a proposal exactly when the event type has a hash. -/
theorem fallbackProposal_ok (rt : PlannerRuntime) (h : Addressed request.envelope) (u : Uuid)
    (flags : List InjectionFlag) :
    (∃ proposal, fallbackProposal rt u request flags = .ok proposal) ↔
      HasHash (eventTypeOf request.envelope) := by
  rw [← fallbackRule_ok]
  rcases fallbackProposal_eq rt u request flags with ⟨e, hrule, heq⟩ | ⟨rule, hrule, heq⟩
  · rw [hrule, heq]
    exact ⟨fun ⟨_, h⟩ => (nomatch h), fun ⟨_, h⟩ => (nomatch h)⟩
  · obtain ⟨proposal, hbuild, _⟩ := h.build u (rule.getD FALLBACK_DEFAULT) .fallback
      (fallbackPayload rt (eventTypeOf request.envelope) flags rule)
    rw [hrule, heq]
    exact ⟨fun _ => ⟨rule, rfl⟩, fun _ => ⟨proposal, hbuild⟩⟩

theorem fallbackProposal_by (h : Addressed request.envelope) {flags : List InjectionFlag}
    {proposal : ActionProposal} (hok : fallbackProposal rt u request flags = .ok proposal) :
    proposal.proposedBy = .fallback := by
  rcases fallbackProposal_eq rt u request flags with ⟨e, _, heq⟩ | ⟨rule, _, heq⟩
  · rw [hok] at heq
    cases heq
  · obtain ⟨built, hbuild, hby, _⟩ := h.build u (rule.getD FALLBACK_DEFAULT) .fallback
      (fallbackPayload rt (eventTypeOf request.envelope) flags rule)
    rw [hok, hbuild] at heq
    cases heq
    exact hby

/-! ## The planner -/

/-- Without an understood answer, and with nothing raised by the parser, the rule table decides. -/
theorem proposeAction_fallback (h : Present request.envelope)
    (hno : ¬ ∃ a p, Proposed rt client request a p)
    (hjson : ∀ raw, Responds rt client request raw → raw ≠ "" →
      ∀ kind, rt.loads (answerText raw) ≠ .error (.other kind)) :
    proposeAction rt client u request = fallbackProposal rt u request (briefFlags rt request) := by
  unfold proposeAction
  rw [if_neg h]
  simp only
  split
  · rfl
  · rename_i hname
    split
    · rfl
    · rename_i raw hraw
      have hresponds : Responds rt client request raw := ⟨hname, hraw⟩
      rcases parse_cases rt raw with ⟨a, p, hund, _⟩ | ⟨_, hparse, _⟩ | ⟨_, hne, kind, hloads, _⟩
      · exact absurd ⟨a, p, raw, hresponds, hund⟩ hno
      · rw [hparse]
        rfl
      · exact absurd hloads (hjson raw hresponds hne kind)

/-- An understood answer is the proposal. -/
theorem proposeAction_llm (h : Present request.envelope) {a : ActionType} {p : Payload}
    (hproposed : Proposed rt client request a p) :
    proposeAction rt client u request =
      buildProposal u request.envelope a .llm (stamped (briefFlags rt request) p) := by
  obtain ⟨raw, ⟨hname, hraw⟩, hund⟩ := hproposed
  unfold plannerPrompt at hraw
  unfold proposeAction plannerPrompt
  rw [if_neg h]
  simp only
  rw [if_neg hname, hraw]
  simp only
  rcases parse_cases rt raw with ⟨a', p', hund', hparse⟩ | ⟨hno, _⟩ | ⟨hno, _⟩
  · obtain ⟨rfl, rfl⟩ := hund.unique hund'
    rw [hparse]
    rfl
  · exact absurd ⟨a, p, hund⟩ hno
  · exact absurd ⟨a, p, hund⟩ hno

/-- What `json.loads` raises beside `JSONDecodeError` is raised by the planner. -/
theorem proposeAction_raises (h : Present request.envelope) {raw kind : String}
    (hresponds : Responds rt client request raw) (hne : raw ≠ "")
    (hloads : rt.loads (answerText raw) = .error (.other kind)) :
    proposeAction rt client u request = .error (.json (.other kind)) := by
  obtain ⟨hname, hraw⟩ := hresponds
  unfold plannerPrompt at hraw
  unfold proposeAction plannerPrompt
  rw [if_neg h]
  simp only
  rw [if_neg hname, hraw]
  simp only
  unfold answerText at hloads
  rw [parseLLMResponse, if_neg hne, hloads]
  rfl

/-- The planner always proposes exactly when nothing is raised that it does not catch. -/
theorem proposes_iff (rt : PlannerRuntime) (client : LLMClient) (u : Uuid) (request : PlanRequest)
    (h : Addressed request.envelope) :
    AlwaysProposes rt client u request ↔ Caught rt client request := by
  constructor
  · rintro ⟨proposal, hok, _, hfallback⟩
    constructor
    · intro raw hresponds hne kind hloads
      rw [proposeAction_raises h.present hresponds hne hloads] at hok
      cases hok
    · intro hno
      exact (fallbackProposal_ok rt h u _).mp ⟨proposal, (hfallback hno).2⟩
  · intro hcaught
    by_cases hproposed : ∃ a p, Proposed rt client request a p
    · obtain ⟨a, p, hp⟩ := hproposed
      obtain ⟨proposal, hbuild, hby, haction, hpayload⟩ :=
        h.build u a .llm (stamped (briefFlags rt request) p)
      refine ⟨proposal, (proposeAction_llm h.present hp).trans hbuild, fun a' p' hp' => ?_,
        fun hno => absurd ⟨a, p, hp⟩ hno⟩
      obtain ⟨raw, ⟨hname, hraw⟩, hund⟩ := hp
      obtain ⟨raw', ⟨_, hraw'⟩, hund'⟩ := hp'
      rw [hraw] at hraw'
      cases hraw'
      obtain ⟨rfl, rfl⟩ := hund.unique hund'
      exact ⟨hby, haction, hpayload⟩
    · obtain ⟨proposal, hok⟩ := (fallbackProposal_ok rt h u (briefFlags rt request)).mpr
        (hcaught.hash hproposed)
      refine ⟨proposal, (proposeAction_fallback h.present hproposed hcaught.json).trans hok,
        fun a p hp => absurd ⟨a, p, hp⟩ hproposed, fun _ => ⟨fallbackProposal_by h hok, hok⟩⟩

end

def demoEnvelope : Payload :=
  .of [("tenant_id", .str "t1"), ("event_id", .str "evt_1"), ("event_type", .str "system_event")]

theorem demoEnvelope_addressed : Addressed demoEnvelope :=
  ⟨⟨⟨"t1", by decide⟩, rfl⟩, ⟨⟨"evt_1", by decide⟩, rfl⟩, .inl rfl⟩

def demoEventId : Uuid := ⟨"00000000000000000000000000000000", zeros_uuid⟩

/-- `json.loads` where the model answers with the object `obj`, written as `answer`. -/
def answering (answer : String) (obj : List (PyVal × PyVal)) : PlannerRuntime :=
  { demoPlannerRuntime with
    loads := fun text => if text = answer then .ok (.dict obj) else .error .decode }

def answeringClient (answer : String) : LLMClient := ⟨"anthropic", fun _ _ => some answer⟩

def demoAnswer : String := "\x7b\"action_type\": \"no_op\", \"reasoning\": \"seen\"\x7d"

def demoObject : List (PyVal × PyVal) :=
  [(.str "action_type", .str "no_op"), (.str "reasoning", .str "seen")]

theorem answering_loads (answer : String) (obj : List (PyVal × PyVal)) :
    (answering answer obj).loads answer = .ok (.dict obj) := if_pos rfl

theorem answering_catches {answer : String} {obj : List (PyVal × PyVal)} (text kind : String) :
    (answering answer obj).loads text ≠ .error (.other kind) := by
  intro h
  simp only [answering] at h
  split at h <;> cases h

theorem demoAnswer_proposed : Proposed (answering demoAnswer demoObject) (answeringClient demoAnswer)
    ⟨demoEnvelope, ""⟩ .noOp (.of [("_planner_reasoning", .str "seen")]) := by
  have htext : answerText demoAnswer = demoAnswer := by decide +kernel
  refine ⟨demoAnswer, ⟨(by decide : "anthropic" ≠ "mock"), rfl⟩, by decide, demoObject, ?_,
    "no_op", [], rfl, rfl, rfl, rfl⟩
  rw [htext, answering_loads]

/-- A model that answers with an object it can read: its reasoning goes to the payload. -/
theorem proposes_iff_demo :
    Addressed demoEnvelope ∧
      AlwaysProposes (answering demoAnswer demoObject) (answeringClient demoAnswer) demoEventId
        ⟨demoEnvelope, ""⟩ :=
  ⟨demoEnvelope_addressed, (proposes_iff (answering demoAnswer demoObject) (answeringClient demoAnswer)
    demoEventId ⟨demoEnvelope, ""⟩ demoEnvelope_addressed).mpr
      ⟨fun _ _ _ => answering_catches _, fun hno => absurd ⟨_, _, demoAnswer_proposed⟩ hno⟩⟩

/-- An integer literal of `n + 1` digits. -/
@[irreducible] def numeral (n : Nat) : String := String.ofList (List.replicate (n + 1) '1')

/-- `json.loads` on a text of digits: a plain `ValueError` beyond 4300 of them. -/
def digitLoads (text : String) : Except JsonError PyVal :=
  if 4300 < text.length ∧ text.toList.all Char.isDigit then .error (.other "ValueError")
  else .error .decode

theorem numeral_toList (n : Nat) : (numeral n).toList = '1' :: List.replicate n '1' := by
  rw [numeral, String.toList_ofList, List.replicate_succ]

theorem numeral_length (n : Nat) : (numeral n).length = n + 1 := by
  rw [numeral, String.length_ofList, List.length_replicate]

theorem mem_numeral {n : Nat} {c : Char} (h : c ∈ (numeral n).toList) : c = '1' := by
  rw [numeral, String.toList_ofList] at h
  exact (List.mem_replicate.mp h).2

theorem numeral_stripped (n : Nat) : strip (numeral n) = numeral n := by
  apply strip_of_no_space
  intro c hc
  rw [mem_numeral hc]
  decide

theorem numeral_unfenced (n : Nat) : LLMJudgePolicyEngine.unfence (numeral n) = numeral n := by
  apply if_neg
  intro hfence
  have hhead : "```".toList = "```".toList.head (by decide) :: "```".toList.tail := by decide
  rw [String.isPrefixOf, String.startsWith_string_iff, numeral_toList, hhead] at hfence
  exact absurd (List.cons_prefix_cons.mp hfence).1 (by decide)

theorem numeral_raises {n : Nat} (h : 4300 ≤ n) :
    digitLoads (answerText (numeral n)) = .error (.other "ValueError") := by
  rw [answerText, numeral_stripped, numeral_unfenced]
  refine if_pos ⟨?_, ?_⟩
  · rw [numeral_length]
    omega
  · rw [List.all_eq_true]
    intro c hc
    rw [mem_numeral hc]
    decide

theorem numeral_ne (n : Nat) : numeral n ≠ "" := by
  intro h
  have hlen := numeral_length n
  rw [h] at hlen
  cases hlen

/-- A model that answers with a number. -/
def numberClient (n : Nat) : LLMClient := ⟨"anthropic", fun _ _ => some (numeral n)⟩

def numberPlanner : PlannerRuntime := { demoPlannerRuntime with loads := digitLoads }

theorem numberPlanner_loads : numberPlanner.loads = digitLoads := rfl

theorem numeral_unproposed {n : Nat} (h : 4300 ≤ n) :
    ¬ AlwaysProposes numberPlanner (numberClient n) demoEventId ⟨demoEnvelope, ""⟩ := by
  rintro ⟨proposal, hok, _⟩
  have hresponds : Responds numberPlanner (numberClient n) ⟨demoEnvelope, ""⟩ (numeral n) :=
    ⟨(by decide : "anthropic" ≠ "mock"), rfl⟩
  have hloads : numberPlanner.loads (answerText (numeral n)) = .error (.other "ValueError") := by
    rw [numberPlanner_loads, numeral_raises h]
  have hraises : proposeAction numberPlanner (numberClient n) demoEventId ⟨demoEnvelope, ""⟩ =
      .error (.json (.other "ValueError")) :=
    proposeAction_raises demoEnvelope_addressed.present hresponds (numeral_ne n) hloads
  rw [hraises] at hok
  cases hok

/-- The model answers with a number that is too long: there is no proposal. -/
theorem long_number_unproposed :
    Addressed demoEnvelope ∧
      ¬ AlwaysProposes numberPlanner (numberClient 4300) demoEventId ⟨demoEnvelope, ""⟩ :=
  ⟨demoEnvelope_addressed, numeral_unproposed (Nat.le_refl 4300)⟩

end PennyCore
