import PennyCore.Lib.Ring
import PennyCore.Orchestrator.EndToEnd

/-!
# The wiring of the listener

`attach_in_memory_bus`, `lifespan` and `_reset_listener_for_tests` of `src/orchestrator/api.py`,
`InMemoryEventListener` and `RecentEventsBuffer` of `event_listener.py`, `chain_handlers` of
`planner.py`, and the subscribers of `InMemoryEventBus`.

* `Wired` is the process: its buses with their subscribers, and the module state of the orchestrator.
  A subscribed callback is an adapter that a listener made, or a callback of someone else.
* `Hearing` says what the wiring is for: the bus that is listened to, and what was published on it.
* `wiring_refines`: whatever is attached, published, subscribed, shut down and reset, the handler runs
  exactly once for each envelope that is published on the attached bus, and for no other.
* `recent_views`: `/events/recent` and `/proposals/recent`.
-/

namespace PennyCore

open Lib

/-! ## The bus -/

/-- What identity tells apart: the `n`-th adapter that was made, or another callback. -/
inductive Callback where
  | adapter (n : Nat)
  | other (n : Nat)
  deriving DecidableEq

/-- `InMemoryEventBus`, with its subscribers. -/
structure SharedBus extends InMemoryEventBus where
  subscribers : List Callback := []

namespace SharedBus

def subscribe (bus : SharedBus) (callback : Callback) : SharedBus :=
  if callback ∈ bus.subscribers then bus
  else { bus with subscribers := bus.subscribers ++ [callback] }

/-- `list.remove`, and nothing where it raises `ValueError`. -/
def unsubscribe (bus : SharedBus) (callback : Callback) : SharedBus :=
  { bus with subscribers := bus.subscribers.erase callback }

end SharedBus

/-! ## The orchestrator -/

structure RecentEventsBuffer where
  max : Nat := 50
  byTenant : Dict String (List Envelope) := ∅

/-- An envelope without a tenant is dropped. -/
def RecentEventsBuffer.append (b : RecentEventsBuffer) (envelope : Envelope) : RecentEventsBuffer :=
  if envelope.tenantId = "" then b
  else { b with byTenant := Ring.push b.max b.byTenant envelope.tenantId envelope }

def RecentEventsBuffer.recent (b : RecentEventsBuffer) (tenantId : String) (limit : Nat) :
    List Envelope :=
  match b.byTenant.get? tenantId with
  | none => []
  | some buf => buf.reverse.take limit

def RecentEventsBuffer.clear (b : RecentEventsBuffer) : RecentEventsBuffer := { b with byTenant := ∅ }

/-- `list(reversed(buf[-limit:]))`; `buf[-0:]` is the whole buffer. -/
def ProposalsBuffer.recent (b : ProposalsBuffer) (tenantId : String) (limit : Nat) :
    List ActionProposal :=
  let buf := b.byTenant.getList tenantId
  if limit = 0 then buf.reverse else Fifo.newest limit buf

def ProposalsBuffer.clear (b : ProposalsBuffer) : ProposalsBuffer := { b with byTenant := ∅ }

/-- `clear`: the policies stay. -/
def DecisionPipeline.clear (s : DecisionPipeline) : DecisionPipeline :=
  { policy := s.policy, calls := s.calls }

def Orchestrator.clear (o : Orchestrator) : Orchestrator :=
  { proposals := o.proposals.clear, pipeline := o.pipeline.clear }

/-- `InMemoryEventListener`: its bus, and the adapter that it has subscribed, if any. -/
structure InMemoryEventListener (κ : Type) where
  bus : κ
  callback : Option Nat

/-- The module state of `orchestrator/api.py`. -/
structure OrchestratorApp (κ : Type) where
  recentEvents : RecentEventsBuffer := {}
  orchestrator : Orchestrator := {}
  listener : Option (InMemoryEventListener κ) := none
  listenerMode : String := "unattached"

/-- `chain_handlers(*handlers)`: what one raises does not stop the next. -/
def chainHandlers {α σ ε : Type} (handlers : List (α → Py ε σ Unit)) (envelope : α) (s : σ) : σ :=
  handlers.foldl (fun s h => ((h envelope).run s).2) s

section App

variable {κ : Type} (setup : HandlerSetup)

/-- `make_buffered_handler(buffer)`. -/
def bufferedHandler (e : Envelope × Delivery) : Py Raised (OrchestratorApp κ) Unit :=
  Py.modify fun app => { app with recentEvents := app.recentEvents.append e.1 }

/-- `make_planning_handler(proposals, pipeline=pipeline)`. -/
def planningHandler (e : Envelope × Delivery) : Py Raised (OrchestratorApp κ) Unit :=
  Py.modify fun app => { app with orchestrator := app.orchestrator.handle setup e.2 e.1 }

/-- `_compose_handler`. -/
def composeHandler (e : Envelope × Delivery) : OrchestratorApp κ → OrchestratorApp κ :=
  chainHandlers [bufferedHandler, planningHandler setup] e

/-- `GET /events/recent`: the events. -/
def eventsRecent (app : OrchestratorApp κ) (tenantId : String) (limit : Nat) : List Envelope :=
  match app.listener with
  | none => []
  | some _ => app.recentEvents.recent tenantId limit

/-- `GET /proposals/recent`: the proposals, if `model_dump(mode="json")` takes each; what it returns is the
proposal. -/
def proposalsRecent (dumps : ActionProposal → Bool) (app : OrchestratorApp κ) (tenantId : String)
    (limit : Nat) : Option (List ActionProposal) :=
  let items := app.orchestrator.proposals.recent tenantId limit
  if items.all dumps then some items else none

end App

/-! ## The process -/

/-- The buses, and how many adapters were made. -/
structure Wired (κ : Type) where
  buses : κ → SharedBus
  app : OrchestratorApp κ := {}
  made : Nat := 0

inductive WiringOp (κ : Type) where
  | attach (b : κ)
  | publish (b : κ) (channel : String) (envelope : Envelope) (d : Delivery)
  /-- Someone else subscribes a callback, or takes it back. -/
  | subscribe (b : κ) (n : Nat)
  | unsubscribe (b : κ) (n : Nat)
  /-- The two ends of `lifespan`, without a `REDIS_URL`. -/
  | startup
  | shutdown
  | reset

section Process

variable {κ : Type} [DecidableEq κ] (setup : HandlerSetup)

namespace Wired

def onBus (w : Wired κ) (b : κ) (f : SharedBus → SharedBus) : Wired κ :=
  { w with buses := Function.update w.buses b (f (w.buses b)) }

/-- `_listener.stop()`, where there is one. -/
def stopListener (w : Wired κ) : Wired κ :=
  match w.app.listener with
  | none => w
  | some l =>
    match l.callback with
    | none => w
    | some n =>
      let w := w.onBus l.bus fun bus => bus.unsubscribe (.adapter n)
      { w with app := { w.app with listener := some { l with callback := none } } }

/-- A new listener on the bus `b`, with its `start`. -/
def startListener (w : Wired κ) (b : κ) : Wired κ :=
  let w := w.onBus b fun bus => bus.subscribe (.adapter w.made)
  { w with
    app := { w.app with listener := some ⟨b, some w.made⟩, listenerMode := "in-memory" }
    made := w.made + 1 }

/-- One callback. Without a handler an adapter raises `AssertionError`, which the bus catches. -/
def notify (e : Envelope × Delivery) (w : Wired κ) : Callback → Wired κ
  | .other _ => w
  | .adapter n =>
    match w.app.listener with
    | some ⟨_, some m⟩ => if m = n then { w with app := composeHandler setup e w.app } else w
    | _ => w

/-- `publish`: the subscribers that there are, one after the other. -/
def publish (w : Wired κ) (b : κ) (channel : String) (e : Envelope × Delivery) : Wired κ :=
  let subscribers := (w.buses b).subscribers
  let w := w.onBus b fun bus => { bus with published := bus.published ++ [(channel, e.1)] }
  subscribers.foldl (notify setup e) w

end Wired

def wiringStep (w : Wired κ) : WiringOp κ → Wired κ
  | .attach b => w.stopListener.startListener b
  | .publish b channel envelope d => w.publish setup b channel (envelope, d)
  | .subscribe b n => w.onBus b fun bus => bus.subscribe (.other n)
  | .unsubscribe b n => w.onBus b fun bus => bus.unsubscribe (.other n)
  | .startup =>
    match w.app.listener with
    | none => { w with app := { w.app with listenerMode := "unattached" } }
    | some _ => w
  | .shutdown => w.stopListener
  | .reset =>
    let w := w.stopListener
    { w with
      app := { recentEvents := w.app.recentEvents.clear, orchestrator := w.app.orchestrator.clear } }

/-! ## What the wiring is for -/

/-- The bus that is listened to, what was published on it since the last reset, and what the handler
made of it. -/
structure Hearing (κ : Type) where
  attached : Option κ := none
  heard : List (Envelope × Delivery) := []
  orchestrator : Orchestrator := {}

def hearingStep (t : Hearing κ) : WiringOp κ → Hearing κ
  | .attach b => { t with attached := some b }
  | .publish b _ envelope d =>
    if t.attached = some b then
      { t with
        heard := t.heard ++ [(envelope, d)]
        orchestrator := t.orchestrator.handle setup d envelope }
    else t
  | .subscribe _ _ | .unsubscribe _ _ | .startup => t
  | .shutdown => { t with attached := none }
  | .reset => { orchestrator := t.orchestrator.clear }

/-- The envelopes of a tenant, by tenant. -/
def tagged (heard : List (Envelope × Delivery)) : List (String × Envelope) :=
  (heard.map Prod.fst).filterMap fun e => if e.tenantId = "" then none else some (e.tenantId, e)

/-- The adapter that the listener has subscribed. -/
def Wired.active (w : Wired κ) : Option (κ × Nat) :=
  w.app.listener.bind fun l => l.callback.map fun n => (l.bus, n)

/-- The subscribed adapters are that of the listener, if it has one, and no callback is subscribed
twice. -/
structure Subscribed (w : Wired κ) : Prop where
  adapter : ∀ b n, .adapter n ∈ (w.buses b).subscribers ↔ w.active = some (b, n)
  nodup : ∀ b, (w.buses b).subscribers.Nodup

/-- The process is where the hearing says. -/
structure Refines (w : Wired κ) (t : Hearing κ) : Prop where
  subscribed : Subscribed w
  attached : t.attached = w.active.map Prod.fst
  max : w.app.recentEvents.max = 50
  events : Ring.Feed 50 w.app.recentEvents.byTenant (tagged t.heard)
  orchestrator : w.app.orchestrator = t.orchestrator

variable {w : Wired κ} {t : Hearing κ}

theorem SharedBus.nodup_subscribe {bus : SharedBus} (h : bus.subscribers.Nodup)
    (callback : Callback) : (bus.subscribe callback).subscribers.Nodup := by
  unfold SharedBus.subscribe
  split
  · exact h
  · next hnew => exact List.nodup_append.mpr ⟨h, List.nodup_singleton _, fun a ha b hb hab => by
      rw [List.mem_singleton] at hb
      exact hnew (hb ▸ hab ▸ ha)⟩

theorem SharedBus.mem_subscribe {bus : SharedBus} {callback c : Callback} :
    c ∈ (bus.subscribe callback).subscribers ↔ c ∈ bus.subscribers ∨ c = callback := by
  unfold SharedBus.subscribe
  split
  · next hold =>
    constructor
    · exact .inl
    · rintro (h | rfl)
      · exact h
      · exact hold
  · rw [List.mem_append, List.mem_singleton]

theorem SharedBus.mem_unsubscribe {bus : SharedBus} (h : bus.subscribers.Nodup)
    {callback c : Callback} :
    c ∈ (bus.unsubscribe callback).subscribers ↔ c ≠ callback ∧ c ∈ bus.subscribers :=
  h.mem_erase_iff

namespace Wired

theorem buses_onBus (w : Wired κ) (b b' : κ) (f : SharedBus → SharedBus) :
    (w.onBus b f).buses b' = if b' = b then f (w.buses b) else w.buses b' := by
  unfold onBus
  by_cases h : b' = b
  · subst h
    simp
  · simp [h]

/-- What `stop` leaves: no adapter is subscribed. -/
theorem stop_adapter (h : Subscribed w) (b : κ) (n : Nat) :
    .adapter n ∉ (w.stopListener.buses b).subscribers := by
  have hnone : w.active = none → .adapter n ∉ (w.buses b).subscribers := fun hw hmem => by
    rw [h.adapter, hw] at hmem
    cases hmem
  unfold stopListener
  cases hl : w.app.listener with
  | none => exact hnone (by simp [active, hl])
  | some l =>
    cases hc : l.callback with
    | none => simpa [hc] using hnone (by simp [active, hl, hc])
    | some m =>
      have hactive : w.active = some (l.bus, m) := by simp [active, hl, hc]
      simp only [hc]
      rw [buses_onBus]
      split
      · next hb =>
        rw [SharedBus.mem_unsubscribe (h.nodup _), h.adapter, hactive]
        rintro ⟨hne, heq⟩
        cases heq
        exact hne rfl
      · next hb =>
        rw [h.adapter, hactive]
        intro heq
        cases heq
        exact hb rfl

theorem stop_nodup (h : Subscribed w) (b : κ) : (w.stopListener.buses b).subscribers.Nodup := by
  unfold stopListener
  split
  · exact h.nodup b
  · split
    · exact h.nodup b
    · simp only
      rw [buses_onBus]
      split
      · exact (h.nodup _).erase _
      · exact h.nodup b

theorem stop_active (w : Wired κ) : w.stopListener.active = none := by
  unfold stopListener
  cases hl : w.app.listener with
  | none => simp [active, hl]
  | some l => cases hc : l.callback <;> simp [active, hl, hc]

theorem stop_app (w : Wired κ) : w.stopListener.app.recentEvents = w.app.recentEvents ∧
    w.stopListener.app.orchestrator = w.app.orchestrator := by
  unfold stopListener
  split
  · exact ⟨rfl, rfl⟩
  · split <;> exact ⟨rfl, rfl⟩

/-- The handler of the listener runs. -/
def handled (w : Wired κ) (e : Envelope × Delivery) : Wired κ :=
  { w with app := composeHandler setup e w.app }

omit [DecidableEq κ] in
theorem notify_own {b : κ} {n : Nat} (h : w.active = some (b, n)) (e : Envelope × Delivery) :
    notify setup e w (.adapter n) = w.handled setup e := by
  unfold active at h
  unfold notify
  cases hl : w.app.listener with
  | none => simp [hl] at h
  | some l =>
    obtain ⟨b', callback⟩ := l
    cases callback with
    | none => simp [hl] at h
    | some m =>
      have hm : m = n := by
        simp only [hl, Option.bind_some, Option.map_some, Option.some.injEq, Prod.mk.injEq] at h
        exact h.2
      simp [hm, handled]

omit [DecidableEq κ] in
theorem notify_foreign {c : Callback} (h : ∀ b n, w.active = some (b, n) → c ≠ .adapter n)
    (e : Envelope × Delivery) : notify setup e w c = w := by
  unfold active at h
  cases c with
  | other n => rfl
  | adapter n =>
    unfold notify
    cases hl : w.app.listener with
    | none => rfl
    | some l =>
      obtain ⟨b', callback⟩ := l
      cases callback with
      | none => rfl
      | some m =>
        have hm : m ≠ n := by
          rintro rfl
          exact h b' m (by simp [hl]) rfl
        simp [hm]

omit [DecidableEq κ] in
theorem notify_all_foreign {subscribers : List Callback}
    (h : ∀ b n, w.active = some (b, n) → .adapter n ∉ subscribers) (e : Envelope × Delivery) :
    subscribers.foldl (notify setup e) w = w := by
  induction subscribers with
  | nil => rfl
  | cons c subscribers ih =>
    rw [List.foldl_cons, notify_foreign setup fun b n hw hc => h b n hw (hc ▸ List.mem_cons_self)]
    exact ih fun b n hw hmem => h b n hw (List.mem_cons_of_mem _ hmem)

omit [DecidableEq κ] in
/-- The handler runs once, whoever else is subscribed. -/
theorem notify_all_own {b : κ} {n : Nat} (hw : w.active = some (b, n)) {subscribers : List Callback}
    (hnd : subscribers.Nodup) (hmem : .adapter n ∈ subscribers) (e : Envelope × Delivery) :
    subscribers.foldl (notify setup e) w = w.handled setup e := by
  obtain ⟨front, back, rfl⟩ := List.append_of_mem hmem
  obtain ⟨-, hback, hdisjoint⟩ := List.nodup_append.mp hnd
  have hfront : .adapter n ∉ front := fun h =>
    hdisjoint _ h _ List.mem_cons_self rfl
  have hsame : ∀ b' n', w.active = some (b', n') → n' = n := fun b' n' h => by
    rw [hw] at h
    cases h
    rfl
  rw [List.foldl_append, List.foldl_cons,
    notify_all_foreign setup fun b' n' h hf => hfront (hsame b' n' h ▸ hf), notify_own setup hw]
  exact notify_all_foreign (w := w.handled setup e) setup
    (fun b' n' h hf => (List.nodup_cons.mp hback).1 (hsame b' n' h ▸ hf)) e

theorem subscribers_onBus {b : κ} {f : SharedBus → SharedBus}
    (hf : (f (w.buses b)).subscribers = (w.buses b).subscribers) (b' : κ) :
    ((w.onBus b f).buses b').subscribers = (w.buses b').subscribers := by
  rw [buses_onBus]
  split
  · next h => rw [hf, h]
  · rfl

end Wired

omit [DecidableEq κ] in
theorem Subscribed.same {w' : Wired κ} (h : Subscribed w)
    (hsub : ∀ b, (w'.buses b).subscribers = (w.buses b).subscribers)
    (hactive : w'.active = w.active) : Subscribed w' where
  adapter b n := by rw [hsub, hactive]; exact h.adapter b n
  nodup b := by rw [hsub]; exact h.nodup b

theorem Subscribed.stop (h : Subscribed w) : Subscribed w.stopListener where
  adapter b n := by
    rw [w.stop_active]
    exact iff_of_false (Wired.stop_adapter h b n) (fun h => nomatch h)
  nodup := Wired.stop_nodup h

/-- A listener that starts, where none is subscribed. -/
theorem Subscribed.start (h : Subscribed w) (hnone : w.active = none) (b : κ) :
    Subscribed (w.startListener b) where
  adapter b' n := by
    have hold : .adapter n ∉ (w.buses b').subscribers := fun hmem => by
      rw [h.adapter, hnone] at hmem
      cases hmem
    have hactive : (w.startListener b).active = some (b, w.made) := rfl
    rw [hactive]
    show .adapter n ∈
      ((w.onBus b fun bus => bus.subscribe (.adapter w.made)).buses b').subscribers ↔ _
    rw [Wired.buses_onBus]
    split
    · next hb =>
      subst hb
      rw [SharedBus.mem_subscribe]
      simp [hold, eq_comm]
    · next hb => simp [hold, Ne.symm hb]
  nodup b' := by
    show (((w.onBus b fun bus => bus.subscribe (.adapter w.made)).buses b').subscribers).Nodup
    rw [Wired.buses_onBus]
    split
    · exact SharedBus.nodup_subscribe (h.nodup _) _
    · exact h.nodup b'

/-- A callback of someone else. -/
theorem Subscribed.other (h : Subscribed w) (b : κ) (n : Nat) :
    Subscribed (w.onBus b fun bus => bus.subscribe (.other n)) ∧
      Subscribed (w.onBus b fun bus => bus.unsubscribe (.other n)) := by
  constructor
  · refine ⟨fun b' m => ?_, fun b' => ?_⟩
    · refine Iff.trans ?_ (h.adapter b' m)
      rw [Wired.buses_onBus]
      split
      · next hb =>
        rw [SharedBus.mem_subscribe, hb]
        simp
      · rfl
    · rw [Wired.buses_onBus]
      split
      · exact SharedBus.nodup_subscribe (h.nodup _) _
      · exact h.nodup b'
  · refine ⟨fun b' m => ?_, fun b' => ?_⟩
    · refine Iff.trans ?_ (h.adapter b' m)
      rw [Wired.buses_onBus]
      split
      · next hb =>
        rw [SharedBus.mem_unsubscribe (h.nodup _), hb]
        simp
      · rfl
    · rw [Wired.buses_onBus]
      split
      · exact (h.nodup _).erase _
      · exact h.nodup b'

/-- The published list of a bus is no matter of the subscribers. -/
def Wired.publishedOn (w : Wired κ) (b : κ) (channel : String) (e : Envelope × Delivery) : Wired κ :=
  w.onBus b fun bus => { bus with published := bus.published ++ [(channel, e.1)] }

theorem Wired.publish_own (h : Subscribed w) {b : κ} {n : Nat} (hw : w.active = some (b, n))
    (channel : String) (e : Envelope × Delivery) :
    w.publish setup b channel e = (w.publishedOn b channel e).handled setup e :=
  notify_all_own (w := w.publishedOn b channel e) setup hw (h.nodup b) ((h.adapter b n).mpr hw) e

theorem Wired.publish_foreign (h : Subscribed w) {b : κ} (hw : ∀ n, w.active ≠ some (b, n))
    (channel : String) (e : Envelope × Delivery) :
    w.publish setup b channel e = w.publishedOn b channel e := by
  refine notify_all_foreign (w := w.publishedOn b channel e) setup (fun b' n hw' hmem => ?_) e
  rw [h.adapter] at hmem
  exact hw n hmem

theorem Subscribed.publishedOn (h : Subscribed w) (b : κ) (channel : String)
    (e : Envelope × Delivery) : Subscribed (w.publishedOn b channel e) :=
  h.same (Wired.subscribers_onBus (f := fun bus =>
    { bus with published := bus.published ++ [(channel, e.1)] }) rfl) rfl

theorem tagged_append (heard : List (Envelope × Delivery)) (e : Envelope × Delivery) :
    tagged (heard ++ [e]) =
      tagged heard ++ if e.1.tenantId = "" then [] else [(e.1.tenantId, e.1)] := by
  unfold tagged
  rw [List.map_append, List.filterMap_append]
  by_cases he : e.1.tenantId = "" <;> simp [he]

/-- The buffer that has heard one more envelope. -/
theorem feed_append {b : RecentEventsBuffer} {heard : List (Envelope × Delivery)}
    (hmax : b.max = 50) (h : Ring.Feed 50 b.byTenant (tagged heard)) (e : Envelope × Delivery) :
    (b.append e.1).max = 50 ∧ Ring.Feed 50 (b.append e.1).byTenant (tagged (heard ++ [e])) := by
  rw [tagged_append]
  unfold RecentEventsBuffer.append
  by_cases he : e.1.tenantId = ""
  · rw [if_pos he, if_pos he, List.append_nil]
    exact ⟨hmax, h⟩
  · rw [if_neg he, if_neg he]
    refine ⟨hmax, ?_⟩
    simp only [hmax]
    exact h.push _ _

theorem Refines.publish (h : Refines w t) (b : κ) (channel : String) (envelope : Envelope)
    (d : Delivery) : Refines (w.publish setup b channel (envelope, d))
      (hearingStep setup t (.publish b channel envelope d)) := by
  have hpublished := h.subscribed.publishedOn b channel (envelope, d)
  rw [hearingStep]
  cases hw : w.active with
  | none =>
    have hattached : t.attached ≠ some b := by
      rw [h.attached, hw]
      exact fun h => nomatch h
    rw [if_neg hattached, Wired.publish_foreign setup h.subscribed (fun n => by rw [hw]; exact nofun)]
    exact ⟨hpublished, h.attached, h.max, h.events, h.orchestrator⟩
  | some at_ =>
    obtain ⟨b', n⟩ := at_
    have hattached : t.attached = some b' := by rw [h.attached, hw]; rfl
    by_cases hb : b' = b
    · subst hb
      rw [if_pos hattached, Wired.publish_own setup h.subscribed hw]
      obtain ⟨hmax, hfeed⟩ := feed_append h.max h.events (envelope, d)
      exact ⟨hpublished.same (fun _ => rfl) rfl, h.attached, hmax, hfeed,
        congrArg (·.handle setup d envelope) h.orchestrator⟩
    · have hne : t.attached ≠ some b := by
        rw [hattached]
        exact fun h => hb (Option.some.inj h)
      rw [if_neg hne, Wired.publish_foreign setup h.subscribed (fun m => by
        rw [hw]
        intro heq
        cases heq
        exact hb rfl)]
      exact ⟨hpublished, h.attached, h.max, h.events, h.orchestrator⟩

/-- One step of the process is one of the hearing. -/
theorem Refines.step (h : Refines w t) (op : WiringOp κ) :
    Refines (wiringStep setup w op) (hearingStep setup t op) := by
  obtain ⟨hevents, horchestrator⟩ := w.stop_app
  cases op with
  | attach b =>
    refine ⟨h.subscribed.stop.start w.stop_active b, rfl, ?_, ?_, ?_⟩
    · exact (congrArg RecentEventsBuffer.max hevents).trans h.max
    · show Ring.Feed 50 w.stopListener.app.recentEvents.byTenant _
      rw [hevents]
      exact h.events
    · show w.stopListener.app.orchestrator = _
      rw [horchestrator]
      exact h.orchestrator
  | publish b channel envelope d => exact h.publish setup b channel envelope d
  | subscribe b n =>
    exact ⟨(h.subscribed.other b n).1, h.attached, h.max, h.events, h.orchestrator⟩
  | unsubscribe b n =>
    exact ⟨(h.subscribed.other b n).2, h.attached, h.max, h.events, h.orchestrator⟩
  | startup =>
    show Refines (match w.app.listener with | none => _ | some _ => w) t
    split
    · exact ⟨h.subscribed.same (fun _ => rfl) rfl, h.attached, h.max, h.events, h.orchestrator⟩
    · exact h
  | shutdown =>
    refine ⟨h.subscribed.stop, ?_, ?_, ?_, ?_⟩
    · show none = w.stopListener.active.map Prod.fst
      rw [w.stop_active]
      rfl
    · exact (congrArg RecentEventsBuffer.max hevents).trans h.max
    · show Ring.Feed 50 w.stopListener.app.recentEvents.byTenant _
      rw [hevents]
      exact h.events
    · show w.stopListener.app.orchestrator = _
      rw [horchestrator]
      exact h.orchestrator
  | reset =>
    refine ⟨h.subscribed.stop.same (fun _ => rfl) w.stop_active.symm, rfl,
      (congrArg RecentEventsBuffer.max hevents).trans h.max, Ring.Feed.empty _, ?_⟩
    show w.stopListener.app.orchestrator.clear = _
    rw [horchestrator, h.orchestrator]
    rfl

/-- A process in which nothing is attached: its buses may have any history and other subscribers. -/
structure Wired.Detached (w : Wired κ) : Prop where
  adapter : ∀ b n, .adapter n ∉ (w.buses b).subscribers
  nodup : ∀ b, (w.buses b).subscribers.Nodup
  app : w.app = {}

omit [DecidableEq κ] in
theorem Refines.start (h : w.Detached) : Refines w {} := by
  have hactive : w.active = none := by simp [Wired.active, h.app]
  exact {
    subscribed := ⟨fun b n => iff_of_false (h.adapter b n) (by rw [hactive]; exact nofun), h.nodup⟩
    attached := by rw [hactive]; rfl
    max := by rw [h.app]
    events := by rw [h.app]; exact Ring.Feed.empty _
    orchestrator := by rw [h.app] }

/-- Whatever is attached, published, subscribed, shut down and reset, the orchestrator is where it
would be if the handler were run on the envelopes that the hearing names, once each and in their
order. -/
theorem wiring_refines (h : w.Detached) (ops : List (WiringOp κ)) :
    Refines (ops.foldl (wiringStep setup) w) (ops.foldl (hearingStep setup) {}) := by
  have hstart := Refines.start h
  generalize ({} : Hearing κ) = t at hstart
  clear h
  induction ops generalizing w t with
  | nil => exact hstart
  | cons op ops ih => exact ih _ (hstart.step setup op)

/-- The bus of the first is attached twice and never started anew. -/
theorem wiring_refines_attachedTwice :
    let ops : List (WiringOp Bool) := [.subscribe true 7, .attach false, .attach true, .attach true,
      .publish true (channelFor "t1") numberedEnvelope demoDelivery,
      .publish false (channelFor "t1") numberedEnvelope demoDelivery, .shutdown, .startup,
      .publish true (channelFor "t1") numberedEnvelope demoDelivery]
    Refines (ops.foldl (wiringStep mockSetup) ⟨fun _ => {}, {}, 0⟩)
        (ops.foldl (hearingStep mockSetup) {}) ∧
      (ops.foldl (hearingStep mockSetup) {}).heard.map Prod.fst = [numberedEnvelope] := by
  intro ops
  have hdetached : (⟨fun _ => {}, {}, 0⟩ : Wired Bool).Detached :=
    ⟨fun _ _ => List.not_mem_nil, fun _ => List.nodup_nil, rfl⟩
  exact ⟨wiring_refines mockSetup hdetached ops, rfl⟩

/-! ## Without a listener -/

namespace Wired

omit [DecidableEq κ] in
theorem notify_listener (e : Envelope × Delivery) (w : Wired κ) (c : Callback) :
    (notify setup e w c).app.listener = w.app.listener := by
  by_cases h : ∃ b n, w.active = some (b, n) ∧ c = .adapter n
  · obtain ⟨b, n, hactive, rfl⟩ := h
    rw [notify_own setup hactive]
    rfl
  · rw [notify_foreign setup fun b n hactive hc => h ⟨b, n, hactive, hc⟩]

omit [DecidableEq κ] in
theorem notify_all_listener (e : Envelope × Delivery) (subscribers : List Callback) (w : Wired κ) :
    (subscribers.foldl (notify setup e) w).app.listener = w.app.listener := by
  induction subscribers generalizing w with
  | nil => rfl
  | cons c subscribers ih => rw [List.foldl_cons, ih, notify_listener]

theorem stop_listener (w : Wired κ) : w.stopListener.app.listener = none ↔ w.app.listener = none := by
  unfold stopListener
  cases hl : w.app.listener with
  | none => simp [hl]
  | some l => cases hc : l.callback <;> simp [hl, hc]

end Wired

/-- As long as there is no listener, nothing was heard since the last reset. -/
theorem Refines.silent_step (h : Refines w t) (hs : w.app.listener = none → t.heard = [])
    (op : WiringOp κ) :
    (wiringStep setup w op).app.listener = none → (hearingStep setup t op).heard = [] := by
  cases op with
  | attach b =>
    intro hnone
    cases (show some _ = none from hnone)
  | publish b channel envelope d =>
    intro hnone
    have hw : w.app.listener = none := by
      rw [wiringStep, Wired.publish, Wired.notify_all_listener] at hnone
      exact hnone
    have hattached : t.attached = none := by
      rw [h.attached]
      simp [Wired.active, hw]
    rw [hearingStep, if_neg (by rw [hattached]; exact nofun)]
    exact hs hw
  | startup =>
    intro hnone
    refine hs ?_
    cases hl : w.app.listener with
    | none => rfl
    | some l =>
      simp only [wiringStep, hl] at hnone
      cases hnone
  | shutdown => exact fun hnone => hs ((Wired.stop_listener w).mp hnone)
  | reset => exact fun _ => rfl
  | _ => exact hs

theorem wiring_silent (h : w.Detached) (ops : List (WiringOp κ)) :
    (ops.foldl (wiringStep setup) w).app.listener = none →
      (ops.foldl (hearingStep setup) {}).heard = [] := by
  have hstart := Refines.start h
  have hsilent : w.app.listener = none → ({} : Hearing κ).heard = [] := fun _ => rfl
  generalize ({} : Hearing κ) = t at hstart hsilent
  clear h
  induction ops generalizing w t with
  | nil => exact hsilent
  | cons op ops ih => exact ih _ (hstart.step setup op) (hstart.silent_step setup hsilent op)

/-! ## The views -/

/-- The proposal that the planner makes of an envelope. -/
def planned (e : Envelope × Delivery) : Option (String × ActionProposal) :=
  match proposeAction setup.planner setup.client e.2.proposalUuid
    ⟨e.1.toDict setup.isoformat, ""⟩ with
  | .error _ => none
  | .ok proposal => some (proposal.tenantId.1, proposal)

/-- The proposals are the newest that the planner made of what was heard. -/
structure Hearing.Planned (t : Hearing κ) : Prop where
  max : t.orchestrator.proposals.max = 50
  feed : Ring.Feed 50 t.orchestrator.proposals.byTenant (t.heard.filterMap (planned setup))

theorem proposals_append (b : ProposalsBuffer) (proposal : ActionProposal) :
    b.append proposal =
      { b with byTenant := Ring.push b.max b.byTenant proposal.tenantId.1 proposal } := by
  unfold ProposalsBuffer.append Ring.push
  rw [Fifo.push_eq]
  rfl

theorem handle_proposals (o : Orchestrator) (e : Envelope × Delivery) :
    (o.handle setup e.2 e.1).proposals = match planned setup e with
      | none => o.proposals
      | some p => o.proposals.append p.2 := by
  unfold Orchestrator.handle planned
  cases proposeAction setup.planner setup.client e.2.proposalUuid
    ⟨e.1.toDict setup.isoformat, ""⟩ <;> rfl

omit [DecidableEq κ] in
/-- One more envelope is heard. -/
theorem Hearing.Planned.hear (h : t.Planned setup) (e : Envelope × Delivery) (attached : Option κ) :
    (⟨attached, t.heard ++ [e], t.orchestrator.handle setup e.2 e.1⟩ : Hearing κ).Planned setup := by
  have hproposals := handle_proposals setup t.orchestrator e
  have hlog : (t.heard ++ [e]).filterMap (planned setup) =
      t.heard.filterMap (planned setup) ++ (planned setup e).toList := by
    rw [List.filterMap_append]
    cases hp : planned setup e <;> simp [hp]
  cases hp : planned setup e with
  | none =>
    rw [hp] at hproposals hlog
    refine ⟨(congrArg ProposalsBuffer.max hproposals).trans h.max, ?_⟩
    show Ring.Feed 50 (t.orchestrator.handle setup e.2 e.1).proposals.byTenant _
    rw [hproposals, hlog]
    simpa using h.feed
  | some p =>
    have hkey : p = (p.2.tenantId.1, p.2) := by
      unfold planned at hp
      split at hp
      · cases hp
      · cases hp
        rfl
    rw [hp] at hproposals hlog
    simp only [proposals_append, h.max] at hproposals
    refine ⟨congrArg ProposalsBuffer.max hproposals, ?_⟩
    show Ring.Feed 50 (t.orchestrator.handle setup e.2 e.1).proposals.byTenant _
    rw [hproposals, hlog, Option.toList_some, hkey]
    exact h.feed.push _ _

theorem Hearing.Planned.step (h : t.Planned setup) (op : WiringOp κ) :
    (hearingStep setup t op).Planned setup := by
  cases op with
  | publish b channel envelope d =>
    rw [hearingStep]
    split
    · exact h.hear setup (envelope, d) t.attached
    · exact h
  | reset => exact ⟨h.max, Ring.Feed.empty _⟩
  | _ => exact ⟨h.max, h.feed⟩

/-- What was sent for a tenant is what was heard of it. -/
theorem sent_heard {tenantId : String} (hne : tenantId ≠ "") (heard : List (Envelope × Delivery)) :
    Ring.sent tenantId (tagged heard) =
      (heard.map Prod.fst).filter fun e => e.tenantId = tenantId := by
  unfold Ring.sent tagged
  rw [List.filterMap_filterMap, ← List.filterMap_eq_filter]
  refine List.filterMap_congr fun e _ => ?_
  by_cases he : e.tenantId = ""
  · simp [Option.guard, he, Ne.symm hne]
  · by_cases ht : e.tenantId = tenantId
    · subst ht
      simp [Option.guard, he]
    · simp [Option.guard, he, ht]

/-- The two diagnostic views of a tenant, newest first and at most 50: the envelopes of the tenant
that were published on the attached bus since the last reset, and, if they can be dumped, the proposals
that the planner made of them. Other tenants, other buses and other subscribers do not show. -/
theorem recent_views (h : w.Detached) (ops : List (WiringOp κ)) {tenantId : String}
    (hne : tenantId ≠ "") {limit : Nat} (hlimit : 1 ≤ limit) {dumps : ActionProposal → Bool} :
    let s := ops.foldl (wiringStep setup) w
    let heard := (ops.foldl (hearingStep setup) {}).heard
    let proposals := Ring.sent tenantId (heard.filterMap (planned setup))
    eventsRecent s.app tenantId limit =
        (((heard.map Prod.fst).filter fun e => e.tenantId = tenantId).reverse.take (min limit 50)) ∧
      ((∀ p ∈ proposals, dumps p = true) →
        proposalsRecent dumps s.app tenantId limit = some (proposals.reverse.take (min limit 50))) := by
  intro s heard proposals
  have hrefines : Refines s _ := wiring_refines setup h ops
  have hplanned : ∀ (ops : List (WiringOp κ)) (t : Hearing κ), t.Planned setup →
      (ops.foldl (hearingStep setup) t).Planned setup := by
    intro ops
    induction ops with
    | nil => exact fun _ h => h
    | cons op ops ih => exact fun t h => ih _ (h.step setup op)
  constructor
  · have hrecent : ∀ b : RecentEventsBuffer, b.recent tenantId limit =
        ((b.byTenant.getList tenantId).reverse.take limit) := by
      intro b
      unfold RecentEventsBuffer.recent Dict.getList
      cases b.byTenant.get? tenantId <;> simp
    cases hl : s.app.listener with
    | none =>
      have hheard : heard = [] := wiring_silent setup h ops hl
      simp [eventsRecent, hl, hheard]
    | some l =>
      simp only [eventsRecent, hl]
      rw [hrecent, hrefines.events tenantId, sent_heard hne, Fifo.lastN_eq, List.reverse_reverse,
        List.take_take]
  · intro hd
    have hfeed := (hplanned ops {} ⟨rfl, Ring.Feed.empty _⟩).feed
    have hitems : s.app.orchestrator.proposals.recent tenantId limit =
        proposals.reverse.take (min limit 50) := by
      rw [ProposalsBuffer.recent, if_neg (by omega), hrefines.orchestrator, hfeed.newest]
    unfold proposalsRecent
    rw [hitems]
    exact if_pos (List.all_eq_true.mpr fun p hp => hd p (List.mem_reverse.mp (List.mem_of_mem_take hp)))

theorem recent_views_attachedTwice :
    let ops : List (WiringOp Bool) := [.attach true, .attach true,
      .publish true (channelFor "t1") numberedEnvelope demoDelivery,
      .publish false (channelFor "t1") numberedEnvelope demoDelivery]
    let s := ops.foldl (wiringStep mockSetup) ⟨fun _ => {}, {}, 0⟩
    eventsRecent s.app "t1" 20 = [numberedEnvelope] ∧
      (proposalsRecent (fun _ => true) s.app "t1" 20).map List.length = some 1 := by
  intro ops s
  have hdetached : (⟨fun _ => {}, {}, 0⟩ : Wired Bool).Detached :=
    ⟨fun _ _ => List.not_mem_nil, fun _ => List.nodup_nil, rfl⟩
  obtain ⟨hevents, hproposals⟩ := recent_views mockSetup hdetached ops
    (show "t1" ≠ "" by decide) (show 1 ≤ 20 by decide)
  refine ⟨hevents, ?_⟩
  rw [show proposalsRecent (fun _ => true) s.app "t1" 20 = _ from hproposals fun _ _ => rfl]
  decide +kernel

end Process
end PennyCore
