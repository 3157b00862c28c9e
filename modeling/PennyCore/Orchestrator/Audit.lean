import PennyCore.Contracts.Actions

/-!
# The audit log

`src/orchestrator/audit.py`: an append-only list of rows with three secondary indexes and a counter
that numbers the rows.

* `InMemoryAuditLog.write` and the tenant-scoped readers, as the code has them.
* `InMemoryAuditLog.Ok`: the counter and the indexes agree with the list. `write` keeps it
  (`Ok.write`), and under it each reader is a filter of the list (`entriesForTenant_eq`,
  `entriesForAction_eq`, `entriesForEvent_eq`).
* `InMemoryAuditLog.trail`: the rows of one action. A write extends the trail of its own action and
  no other (`trail_write`).
* `InMemoryAuditLog.writes_views`: after any writes the rows are those writes, numbered, and each of
  the readers is a view of them.
-/

namespace PennyCore

open Lib

structure InMemoryAuditLog where
  entries : List AuditLogEntry := []
  byTenant : Dict String (List AuditLogEntry) := ∅
  byAction : Dict String (List AuditLogEntry) := ∅
  byEvent : Dict String (List AuditLogEntry) := ∅
  nextId : Nat := 1

/-- The action id of a row, as a key of the index. -/
def AuditLogEntry.actionKey (e : AuditLogEntry) : Option String := e.actionId.map Subtype.val

/-- The event id of a row, as a key of the index. -/
def AuditLogEntry.eventKey (e : AuditLogEntry) : Option String := e.causedByEventId.map Subtype.val

namespace InMemoryAuditLog

/-- `setdefault(key, []).append(entry)`, if there is a key. -/
def index (d : Dict String (List AuditLogEntry)) (key : Option String) (e : AuditLogEntry) :
    Dict String (List AuditLogEntry) :=
  match key with
  | some k => d.push k e
  | none => d

def write (log : InMemoryAuditLog) (entry : AuditLogEntry) : InMemoryAuditLog :=
  let assigned := { entry with id := some log.nextId }
  { entries := log.entries ++ [assigned]
    byTenant := log.byTenant.push assigned.tenantId.1 assigned
    byAction := index log.byAction assigned.actionKey assigned
    byEvent := index log.byEvent assigned.eventKey assigned
    nextId := log.nextId + 1 }

def entriesForTenant (log : InMemoryAuditLog) (tenantId : String) : List AuditLogEntry :=
  log.byTenant.getList tenantId

/-- The rows of one index list, of one tenant if it is named. -/
def ofTenant (tenantId : Option String) (rows : List AuditLogEntry) : List AuditLogEntry :=
  match tenantId with
  | none => rows
  | some t => rows.filter fun r => r.tenantId.1 = t

def entriesForAction (log : InMemoryAuditLog) (actionId : String) (tenantId : Option String) :
    List AuditLogEntry := ofTenant tenantId (log.byAction.getList actionId)

def entriesForEvent (log : InMemoryAuditLog) (eventId : String) (tenantId : Option String) :
    List AuditLogEntry := ofTenant tenantId (log.byEvent.getList eventId)

/-! ## The counter and the indexes -/

/-- The rows are numbered from 1 in the order of the list, and the indexes are those of the list. -/
structure Ok (log : InMemoryAuditLog) : Prop where
  ids : log.entries.map AuditLogEntry.id = (List.range' 1 log.entries.length).map some
  next : log.nextId = log.entries.length + 1
  tenant : Dict.IsIndex (fun e => some e.tenantId.1) log.entries log.byTenant
  action : Dict.IsIndex AuditLogEntry.actionKey log.entries log.byAction
  event : Dict.IsIndex AuditLogEntry.eventKey log.entries log.byEvent

theorem Ok.empty : Ok {} :=
  ⟨rfl, rfl, Dict.IsIndex.empty _, Dict.IsIndex.empty _, Dict.IsIndex.empty _⟩

theorem isIndex_index {key : AuditLogEntry → Option String} {xs : List AuditLogEntry}
    {d : Dict String (List AuditLogEntry)} (h : Dict.IsIndex key xs d) (e : AuditLogEntry) :
    Dict.IsIndex key (xs ++ [e]) (index d (key e) e) := by
  cases hk : key e with
  | none => exact h.skip hk
  | some k => exact h.push hk

theorem Ok.write {log : InMemoryAuditLog} (h : log.Ok) (e : AuditLogEntry) : (log.write e).Ok := by
  refine ⟨?_, ?_, h.tenant.push rfl, isIndex_index h.action _, isIndex_index h.event _⟩
  · unfold InMemoryAuditLog.write
    simp only [List.map_append, List.map_cons, List.map_nil, List.length_append, List.length_cons,
      List.length_nil, List.range'_concat, h.ids, h.next]
    simp [Nat.add_comm]
  · show log.nextId + 1 = (log.entries ++ [_]).length + 1
    rw [h.next, List.length_append]
    rfl

theorem entriesForTenant_eq {log : InMemoryAuditLog} (h : log.Ok) (tenantId : String) :
    log.entriesForTenant tenantId = log.entries.filter fun e => e.tenantId.1 = tenantId := by
  unfold entriesForTenant
  rw [h.tenant]
  simp

theorem ofTenant_index {key : AuditLogEntry → Option String} {log : InMemoryAuditLog}
    {d : Dict String (List AuditLogEntry)} (h : log.Ok) (hd : Dict.IsIndex key log.entries d)
    (k t : String) :
    ofTenant (some t) (d.getList k) = (log.entriesForTenant t).filter fun e => key e = some k := by
  rw [entriesForTenant_eq h, hd k, ofTenant, List.filter_filter, List.filter_filter]
  exact List.filter_congr fun e _ => Bool.and_comm _ _

/-- A read of a tenant's rows of an action depends on the tenant's rows only. -/
theorem entriesForAction_eq {log : InMemoryAuditLog} (h : log.Ok) (actionId t : String) :
    log.entriesForAction actionId (some t) =
      (log.entriesForTenant t).filter fun e => e.actionKey = some actionId :=
  ofTenant_index h h.action actionId t

/-- A read of a tenant's rows of an event depends on the tenant's rows only. -/
theorem entriesForEvent_eq {log : InMemoryAuditLog} (h : log.Ok) (eventId t : String) :
    log.entriesForEvent eventId (some t) =
      (log.entriesForTenant t).filter fun e => e.eventKey = some eventId :=
  ofTenant_index h h.event eventId t

/-! ## Trails -/

/-- The rows of an action, oldest first. -/
def trail (log : InMemoryAuditLog) (actionId : String) : List AuditLogEntry :=
  log.entries.filter fun e => e.actionKey = some actionId

@[simp] theorem trail_empty (actionId : String) : trail {} actionId = [] := rfl

theorem entriesForAction_trail {log : InMemoryAuditLog} (h : log.Ok) (actionId : String) :
    log.entriesForAction actionId none = log.trail actionId := h.action actionId

theorem trail_write (log : InMemoryAuditLog) (e : AuditLogEntry) (actionId : String) :
    (log.write e).trail actionId =
      if e.actionKey = some actionId then log.trail actionId ++ [{ e with id := some log.nextId }]
      else log.trail actionId := by
  have hk : ({ e with id := some log.nextId } : AuditLogEntry).actionKey = e.actionKey := rfl
  unfold trail write
  rw [List.filter_append]
  by_cases h : e.actionKey = some actionId <;> simp [h, hk]

/-- The numbers of a trail increase. -/
theorem Ok.trail_ids {log : InMemoryAuditLog} (h : log.Ok) (actionId : String) :
    ((log.trail actionId).map fun e => e.id.getD 0).Pairwise (· < ·) := by
  have hall : (log.entries.map fun e => e.id.getD 0) = List.range' 1 log.entries.length := by
    have hmap := congrArg (List.map fun o : Option Nat => o.getD 0) h.ids
    simpa [Function.comp_def] using hmap
  have hsub : ((log.trail actionId).map fun e => e.id.getD 0).Sublist
      (List.range' 1 log.entries.length) := hall ▸ List.filter_sublist.map _
  exact List.Pairwise.sublist hsub (List.pairwise_lt_range' ..)

/-! ## Runs of writes -/

/-- `all_entries`. -/
def allEntries (log : InMemoryAuditLog) : List AuditLogEntry := log.entries

/-- The log after the writes `es`, in order. -/
def writes (log : InMemoryAuditLog) (es : List AuditLogEntry) : InMemoryAuditLog :=
  es.foldl write log

/-- The calls that read the rows of one key. -/
inductive Reader where
  | tenant (tenantId : String)
  | action (actionId : String) (tenantId : Option String)
  | event (eventId : String) (tenantId : Option String)

/-- What the call returns. -/
def read (log : InMemoryAuditLog) : Reader → List AuditLogEntry
  | .tenant tenantId => log.entriesForTenant tenantId
  | .action actionId tenantId => log.entriesForAction actionId tenantId
  | .event eventId tenantId => log.entriesForEvent eventId tenantId

/-- The row is of the tenant, if one is named. -/
def Reader.inTenant (tenantId : Option String) (r : AuditLogEntry) : Bool :=
  tenantId.all fun t => r.tenantId.1 = t

/-- The row has the key of the call. -/
def Reader.selects : Reader → AuditLogEntry → Bool
  | .tenant tenantId, r => r.tenantId.1 = tenantId
  | .action actionId tenantId, r => r.actionKey = some actionId && inTenant tenantId r
  | .event eventId tenantId, r => r.eventKey = some eventId && inTenant tenantId r

theorem Ok.writes {log : InMemoryAuditLog} (h : log.Ok) (es : List AuditLogEntry) :
    (log.writes es).Ok := by
  induction es generalizing log with
  | nil => exact h
  | cons e es ih => exact ih (h.write e)

theorem ofTenant_getList {key : AuditLogEntry → Option String} {xs : List AuditLogEntry}
    {d : Dict String (List AuditLogEntry)} (hd : Dict.IsIndex key xs d) (k : String)
    (tenantId : Option String) :
    ofTenant tenantId (d.getList k) =
      xs.filter fun r => decide (key r = some k) && Reader.inTenant tenantId r := by
  rw [hd k]
  cases tenantId with
  | none => simp [ofTenant, Reader.inTenant]
  | some t =>
    simp only [ofTenant, List.filter_filter, Reader.inTenant, Option.all_some]
    exact List.filter_congr fun r _ => Bool.and_comm _ _

/-- Each index is a view of the list. -/
theorem Ok.read_eq {log : InMemoryAuditLog} (h : log.Ok) (q : Reader) :
    log.read q = log.allEntries.filter q.selects := by
  cases q with
  | tenant t => exact entriesForTenant_eq h t
  | action a t => exact ofTenant_getList h.action a t
  | event ev t => exact ofTenant_getList h.event ev t

/-- The rows of a run: each is the entry of its write with the next number. -/
theorem Ok.entries_writes {log : InMemoryAuditLog} (h : log.Ok) (es : List AuditLogEntry) :
    (log.writes es).entries =
      log.entries ++ (es.zipIdx log.nextId).map fun p => { p.1 with id := some p.2 } := by
  induction es generalizing log with
  | nil => exact (List.append_nil _).symm
  | cons e es ih =>
    have hrest := ih (h.write e)
    calc (log.writes (e :: es)).entries
        = ((log.write e).writes es).entries := rfl
      _ = (log.write e).entries ++
            (es.zipIdx (log.nextId + 1)).map fun p => { p.1 with id := some p.2 } := hrest
      _ = _ := by simp [InMemoryAuditLog.write, List.zipIdx_cons, List.append_assoc]

/-- Two rows with one number are one row. -/
theorem Ok.eq_of_id {log : InMemoryAuditLog} (h : log.Ok) {r r' : AuditLogEntry}
    (hr : r ∈ log.entries) (hr' : r' ∈ log.entries) (hid : r.id = r'.id) : r = r' := by
  have hnd : (log.entries.map AuditLogEntry.id).Nodup := by
    rw [h.ids]
    exact (List.nodup_range' ..).map fun _ _ h => Option.some.inj h
  exact List.inj_on_of_nodup_map hnd hr hr' hid

/-- Whatever is written, the rows are the entries of the writes numbered from 1, a later write leaves
them as they are, each reader is the filter of all the rows by its key, and two readers that return
rows of one number return the same row. -/
theorem writes_views (es later : List AuditLogEntry) (q q' : Reader) :
    (writes {} es).allEntries = (es.zipIdx 1).map (fun p => { p.1 with id := some p.2 }) ∧
      (writes {} es).allEntries.map AuditLogEntry.id = (List.range' 1 es.length).map some ∧
      (writes {} es).allEntries <+: (writes {} (es ++ later)).allEntries ∧
      (writes {} es).read q = (writes {} es).allEntries.filter q.selects ∧
      ∀ r ∈ (writes {} es).read q, ∀ r' ∈ (writes {} es).read q', r.id = r'.id → r = r' := by
  have hok : (writes {} es).Ok := Ok.empty.writes es
  have hrows : (writes {} es).allEntries =
      (es.zipIdx 1).map (fun p => { p.1 with id := some p.2 }) := Ok.empty.entries_writes es
  have hlen : (writes {} es).entries.length = es.length := by
    rw [show (writes {} es).entries = _ from hrows, List.length_map, List.length_zipIdx]
  have hmem : ∀ q : Reader, ∀ r ∈ (writes {} es).read q, r ∈ (writes {} es).entries := by
    intro q r hr
    rw [hok.read_eq q] at hr
    exact List.mem_of_mem_filter hr
  refine ⟨hrows, ?_, ?_, hok.read_eq q, ?_⟩
  · have hids := hok.ids
    rwa [hlen] at hids
  · have hnext := hok.entries_writes later
    have happ : writes {} (es ++ later) = (writes {} es).writes later := List.foldl_append ..
    rw [happ]
    exact ⟨_, hnext.symm⟩
  · intro r hr r' hr' hid
    exact hok.eq_of_id (hmem q r hr) (hmem q' r' hr') hid

end InMemoryAuditLog
end PennyCore
