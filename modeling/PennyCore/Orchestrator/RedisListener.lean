import PennyCore.Orchestrator.Executor
import PennyCore.Orchestrator.Planner

/-!
# The Redis listener

`RedisEventListener.start` of `src/orchestrator/event_listener.py`: the loop of the worker thread,
which polls the subscription and hands each envelope to the handler.

* `PumpEvent`: what the loop meets, one iteration after the other, and the call of `stop()`. The
  SDK, `bytes.decode` and `json.loads` are outside (`Decoders`).
* `Pump.step` is one iteration. An exception that it does not catch ends the thread (`died`); nothing
  starts it again (`Pump.run_died`).
* `pump_survives`: which messages the loop survives.
-/

namespace PennyCore

open Lib

/-- The data of a message: a string, bytes, or anything else (`None` counts as no data). -/
inductive MessageData where
  | none
  | str (s : String)
  | bytes (bs : List UInt8)
  | other (v : PyVal)

/-- What one `get_message` call comes to. -/
inductive Poll where
  /-- The SDK raised an `Exception`. -/
  | raised (e : Raised)
  /-- Nothing within the timeout. -/
  | nothing
  | message (data : MessageData)

/-- The standard library functions that the loop decodes with. -/
structure Decoders where
  /-- `bytes.decode("utf-8")`; `none` where it raises `UnicodeDecodeError`. -/
  utf8 : List UInt8 → Option String
  /-- `json.loads` of a string. -/
  loads : String → Except JsonError PyVal
  /-- `json.loads` of anything else. -/
  loadsOther : PyVal → Except JsonError PyVal

/-- A JSON object. -/
abbrev EventEnvelope : Type := List (PyVal × PyVal)

/-- The handler: what it raises on an envelope, if anything, after those it was called with. -/
abbrev EventHandler : Type := List EventEnvelope → EventEnvelope → Option Raised

/-- An exception that leaves the loop. -/
inductive PumpError where
  | unicodeDecodeError
  | json (kind : String)
  | handler (e : Raised)

inductive PumpStatus where
  | running
  | stopped
  | died (e : PumpError)

/-- The worker thread, with the calls it has made of the handler, oldest first. -/
structure Pump where
  handled : List EventEnvelope := []
  status : PumpStatus := .running

inductive PumpEvent where
  | poll (p : Poll)
  | stop

section Loop

variable (D : Decoders)

/-- `json.loads(data)` after the bytes are decoded. `none` if there is no data. -/
def Decoders.envelope : MessageData → Except PumpError (Option PyVal)
  | .none => .ok none
  | .str s => loaded (D.loads s)
  | .bytes bs =>
    match D.utf8 bs with
    | none => .error .unicodeDecodeError
    | some s => loaded (D.loads s)
  | .other v => loaded (D.loadsOther v)
where
  /-- `except json.JSONDecodeError: continue`. -/
  loaded : Except JsonError PyVal → Except PumpError (Option PyVal)
    | .ok v => .ok (some v)
    | .error .decode => .ok none
    | .error (.other kind) => .error (.json kind)

/-- `try: handler(envelope) except Exception: continue`. -/
def Pump.call (handler : EventHandler) (s : Pump) (envelope : EventEnvelope) : Pump where
  handled := s.handled ++ [envelope]
  status :=
    match handler s.handled envelope with
    | none => .running
    | some e => if e.isException then .running else .died (.handler e)

/-- One iteration of the loop after its check of the stop event. -/
def Pump.iterate (handler : EventHandler) (s : Pump) : Poll → Pump
  | .raised _ => s
  | .nothing => s
  | .message data =>
    match D.envelope data with
    | .error e => { s with status := .died e }
    | .ok (some (.dict envelope)) => s.call handler envelope
    | .ok _ => s

def Pump.step (handler : EventHandler) (s : Pump) : PumpEvent → Pump
  | .stop =>
    match s.status with
    | .running => { s with status := .stopped }
    | _ => s
  | .poll p =>
    match s.status with
    | .running => s.iterate D handler p
    | _ => s

def Pump.run (handler : EventHandler) (s : Pump) (events : List PumpEvent) : Pump :=
  events.foldl (Pump.step D handler) s

/-! ## What the loop is for -/

/-- The JSON object that a message decodes to. -/
def Decoders.object : Poll → Option EventEnvelope
  | .message data =>
    match D.envelope data with
    | .ok (some (.dict envelope)) => some envelope
    | _ => none
  | _ => none

/-- The polls before `stop()`. -/
def heard : List PumpEvent → List Poll
  | .poll p :: events => p :: heard events
  | _ => []

/-- The exception that leaves the loop at a poll: bytes that are not UTF-8, or what `json.loads`
raises beside `JSONDecodeError`. -/
def Decoders.fatal : Poll → Option PumpError
  | .message data =>
    match D.envelope data with
    | .error e => some e
    | .ok _ => none
  | _ => none

/-- The loop has called the handler on the JSON objects among the messages before `stop()`, in their
order, and it ended at `stop()` and no earlier. -/
structure Pump.Survived (events : List PumpEvent) (s : Pump) : Prop where
  handled : s.handled = (heard events).filterMap D.object
  running : .stop ∉ events → s.status = .running
  stopped : .stop ∈ events → s.status = .stopped

variable {D} {handler : EventHandler}

/-- A thread that has ended does nothing more. -/
theorem Pump.run_ended {s : Pump} (h : s.status ≠ .running) (events : List PumpEvent) :
    s.run D handler events = s := by
  have hstep : ∀ e : PumpEvent, s.step D handler e = s := by
    intro e
    unfold Pump.step
    cases hs : s.status with
    | running => exact absurd hs h
    | stopped => cases e <;> rfl
    | died err => cases e <;> rfl
  unfold Pump.run
  induction events with
  | nil => rfl
  | cons e events ih => rw [List.foldl_cons, hstep e, ih]

/-- One iteration on a poll that raises nothing fatal. -/
theorem Pump.iterate_survives {s : Pump} {p : Poll} (hs : s.status = .running)
    (hcatch : ∀ seen envelope e, handler seen envelope = some e → e.isException = true)
    (hp : D.fatal p = none) :
    s.iterate D handler p =
      { handled := s.handled ++ (D.object p).toList, status := .running } := by
  obtain ⟨handled, status⟩ := s
  subst hs
  cases p with
  | raised e => simp [iterate, Decoders.object]
  | nothing => simp [iterate, Decoders.object]
  | message data =>
    simp only [Decoders.fatal] at hp
    simp only [iterate, Decoders.object]
    split at hp
    · nomatch hp
    · next o hdata =>
      rw [hdata]
      rcases o with _ | v
      · simp
      · cases v with
        | dict envelope =>
          simp only [call, Option.toList_some]
          cases hres : handler handled envelope with
          | none => rfl
          | some e => simp [hcatch _ _ _ hres]
        | _ => simp

/-- One iteration on a fatal poll: the thread is gone, and no handler was called. -/
theorem Pump.iterate_fatal {s : Pump} {p : Poll} {e : PumpError} (hp : D.fatal p = some e) :
    s.iterate D handler p = { s with status := .died e } := by
  cases p with
  | raised e' => nomatch hp
  | nothing => nomatch hp
  | message data =>
    simp only [Decoders.fatal] at hp
    simp only [iterate]
    split at hp
    · next hdata =>
      cases hp
      rw [hdata]
    · nomatch hp

theorem Pump.run_cons (s : Pump) (e : PumpEvent) (events : List PumpEvent) :
    s.run D handler (e :: events) = (s.step D handler e).run D handler events := rfl

/-- A run without a fatal poll. -/
theorem Pump.run_survives {s : Pump} (hs : s.status = .running)
    (hcatch : ∀ seen envelope e, handler seen envelope = some e → e.isException = true)
    {events : List PumpEvent} (h : ∀ p ∈ heard events, D.fatal p = none) :
    (s.run D handler events).handled = s.handled ++ (heard events).filterMap D.object ∧
      (.stop ∉ events → (s.run D handler events).status = .running) ∧
      (.stop ∈ events → (s.run D handler events).status = .stopped) := by
  induction events generalizing s with
  | nil => exact ⟨(List.append_nil _).symm, fun _ => hs, fun hmem => absurd hmem List.not_mem_nil⟩
  | cons e events ih =>
    rw [run_cons]
    cases e with
    | stop =>
      have hstep : s.step D handler .stop = { s with status := .stopped } := by
        simp [Pump.step, hs]
      rw [hstep, run_ended (by simp)]
      exact ⟨(List.append_nil _).symm, fun hno => absurd List.mem_cons_self hno, fun _ => rfl⟩
    | poll p =>
      have hstep : s.step D handler (.poll p) =
          { handled := s.handled ++ (D.object p).toList, status := .running } := by
        simp only [Pump.step, hs]
        exact iterate_survives hs hcatch (h p List.mem_cons_self)
      rw [hstep]
      obtain ⟨hhandled, hrun, hstop⟩ := ih
        (s := { handled := s.handled ++ (D.object p).toList, status := .running }) rfl
        fun p' hp' => h p' (List.mem_cons_of_mem p hp')
      refine ⟨?_, fun hno => hrun fun hmem => hno (List.mem_cons_of_mem _ hmem), fun hmem => ?_⟩
      · rw [hhandled]
        show _ = s.handled ++ (p :: heard events).filterMap D.object
        rw [List.filterMap_cons]
        cases D.object p <;> simp
      · exact hstop (by simpa using hmem)

/-- A run with a fatal poll ends there. -/
theorem Pump.run_dies {s : Pump} (hs : s.status = .running)
    (hcatch : ∀ seen envelope e, handler seen envelope = some e → e.isException = true)
    {events : List PumpEvent} {p : Poll} {err : PumpError} (hp : p ∈ heard events)
    (hfatal : D.fatal p = some err) : ∃ e, (s.run D handler events).status = .died e := by
  induction events generalizing s with
  | nil => exact absurd hp List.not_mem_nil
  | cons e events ih =>
    rw [run_cons]
    cases e with
    | stop => exact absurd hp List.not_mem_nil
    | poll p' =>
      have hstep : s.step D handler (.poll p') = s.iterate D handler p' := by
        simp only [Pump.step, hs]
      rw [hstep]
      cases hp' : D.fatal p' with
      | some e =>
        rw [iterate_fatal hp', run_ended (by simp)]
        exact ⟨e, rfl⟩
      | none =>
        have hne : p ≠ p' := by
          rintro rfl
          rw [hp'] at hfatal
          nomatch hfatal
        rw [iterate_survives hs hcatch hp']
        exact ih rfl ((List.mem_cons.mp hp).resolve_left hne)

/-- For every sequence of messages and every handler that raises no more than `Exception`s, the loop
survives and calls the handler on exactly the JSON objects if and only if no message before `stop()`
is fatal. -/
theorem pump_survives
    (hcatch : ∀ seen envelope e, handler seen envelope = some e → e.isException = true)
    (events : List PumpEvent) :
    Pump.Survived D events (Pump.run D handler {} events) ↔
      ∀ p ∈ heard events, D.fatal p = none := by
  constructor
  · intro h p hp
    by_contra hfatal
    obtain ⟨err, herr⟩ := Option.ne_none_iff_exists'.mp hfatal
    obtain ⟨e, he⟩ := Pump.run_dies (s := {}) rfl hcatch hp herr
    by_cases hstop : PumpEvent.stop ∈ events
    · cases he.symm.trans (h.stopped hstop)
    · cases he.symm.trans (h.running hstop)
  · intro h
    obtain ⟨hhandled, hrun, hstop⟩ := Pump.run_survives (s := {}) rfl hcatch h
    exact ⟨hhandled, hrun, hstop⟩

end Loop

/-! ## A message that ends the loop -/

/-- `utf8` and `loads` on the texts below: `\xff` starts no character, `2` is a number. -/
def sampleDecoders : Decoders where
  utf8 bs := if bs = [0x7b, 0x7d] then some "{}" else if bs = [0xff] then none else some ""
  loads s := if s = "{}" then .ok (.dict []) else .error .decode
  loadsOther _ := .error (.other "TypeError")

/-- A handler that raises on every envelope. -/
def failingHandler : EventHandler := fun _ _ => some ⟨"RuntimeError", some "boom", true⟩

theorem failingHandler_catchable (seen : List EventEnvelope) (envelope : EventEnvelope) (e : Raised)
    (h : failingHandler seen envelope = some e) : e.isException = true := by
  cases h
  rfl

/-- Two objects, with text that is no JSON between them, and a handler that fails on both. -/
theorem pump_survives_malformed :
    Pump.Survived sampleDecoders
      [.poll (.message (.bytes [0x7b, 0x7d])), .poll (.message (.str "not-json")), .poll .nothing,
        .poll (.message (.str "{}")), .stop]
      (Pump.run sampleDecoders failingHandler {}
        [.poll (.message (.bytes [0x7b, 0x7d])), .poll (.message (.str "not-json")), .poll .nothing,
          .poll (.message (.str "{}")), .stop]) := by
  apply (pump_survives failingHandler_catchable _).mpr
  intro p hp
  simp only [heard, List.mem_cons, List.not_mem_nil, or_false] at hp
  rcases hp with rfl | rfl | rfl | rfl <;> rfl

/-- One byte that is not UTF-8: the object after it never reaches the handler. -/
theorem pump_dies_on_bytes :
    ¬ Pump.Survived sampleDecoders
      [.poll (.message (.bytes [0xff])), .poll (.message (.str "{}"))]
      (Pump.run sampleDecoders failingHandler {}
        [.poll (.message (.bytes [0xff])), .poll (.message (.str "{}"))]) := by
  intro h
  have hlen : [].length = [([] : EventEnvelope)].length := congrArg List.length h.handled
  nomatch hlen

end PennyCore
