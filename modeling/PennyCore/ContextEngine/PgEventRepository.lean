import Mathlib.Data.Fintype.Option
import PennyCore.ContextEngine.Ingestion
import PennyCore.ContextEngine.RepositoryTwins
import PennyCore.Lib.Transactions

/-!
# The Postgres event repository

`src/context_engine/pg_repository.py`: the table `events` with its constraints PRIMARY KEY (id) and
UNIQUE (tenant_id, idempotency_key), and the calls of `PgEventRepository`, each one a transaction on a
connection of its own (`Lib.Session`).

* `PgEventRow` and its mappers; `rowToEvent_eventToRow`: a stored event comes back, with what JSONB
  makes of its payload.
* `PgEventRepository.upsertEvent` and the reads.
* `upsert_race`: any number of upserts at the same time. `event_repositories_agree`: the two
  repositories answer every sequence of calls alike.
-/

namespace PennyCore

open Lib

def ChannelType.ofValue (s : String) : Option ChannelType :=
  [ChannelType.chat, .email, .sms, .voice, .api].find? fun c => c.value = s

def EventType.ofValue (s : String) : Option EventType :=
  [EventType.messageReceived, .documentUploaded, .statusChanged, .anomalyDetected,
    .systemEvent].find? fun t => t.value = s

@[simp] theorem ChannelType.ofValue_value (c : ChannelType) : ofValue c.value = some c := by
  cases c <;> rfl

@[simp] theorem EventType.ofValue_value (t : EventType) : ofValue t.value = some t := by
  cases t <;> rfl

structure PgEventRow where
  id : String
  tenantId : String
  customerId : Option String
  channelCode : String
  eventType : String
  idempotencyKey : String
  payload : Payload
  receivedAt : Time

/-- Two rows that the constraints do not let stand together. -/
def PgEventRow.Clash (r r' : PgEventRow) : Prop :=
  r.id = r'.id ∨ (r.tenantId, r.idempotencyKey) = (r'.tenantId, r'.idempotencyKey)

instance : DecidableRel PgEventRow.Clash := fun r r' =>
  inferInstanceAs (Decidable (r.id = r'.id ∨
    (r.tenantId, r.idempotencyKey) = (r'.tenantId, r'.idempotencyKey)))

theorem PgEventRow.Clash.symm {r r' : PgEventRow} (h : r.Clash r') : r'.Clash r :=
  h.imp Eq.symm Eq.symm

/-- What the repository raises. -/
inductive PgEventError where
  /-- The driver or a column does not take a value (a NUL character). -/
  | dataError
  /-- A tenant, a customer or a channel that is not there. -/
  | foreignKeyViolation
  | uniqueViolation
  /-- `RuntimeError` of `upsert_event`. -/
  | noExistingRow
  /-- `ValueError` of `ChannelType`. -/
  | channelType (value : String)
  /-- `ValueError` of `EventType`. -/
  | eventType (value : String)
  | validation (e : ValidationError)
  deriving DecidableEq, Repr

/-- What the repository takes from outside. -/
structure EventColumns where
  /-- The value that a JSONB column gives back. -/
  jsonb : Payload → Payload
  /-- The driver and the columns take every value of the row. -/
  storable : PgEventRow → Bool
  /-- The rows that its foreign keys name are there. -/
  referenced : PgEventRow → Bool

namespace PgEventRepository

/-! ## Row mappers -/

/-- `_event_to_row`, as the columns keep it. -/
def eventToRow (D : EventColumns) (event : Event) : PgEventRow where
  id := event.id
  tenantId := event.tenantId.1
  customerId := event.customerId
  channelCode := event.channelCode.value
  eventType := event.eventType.value
  idempotencyKey := event.idempotencyKey.1
  payload := D.jsonb event.payload
  receivedAt := event.receivedAt

/-- `_row_to_event`. The column `payload` is NOT NULL. -/
def rowToEvent (row : PgEventRow) : Except PgEventError Event := do
  let channelCode ← match ChannelType.ofValue row.channelCode with
    | some c => .ok c
    | none => .error (.channelType row.channelCode)
  let eventType ← match EventType.ofValue row.eventType with
    | some t => .ok t
    | none => .error (.eventType row.eventType)
  let tenantId ← (Str.check 1 64 "Event" "tenant_id" row.tenantId).mapError .validation
  let idempotencyKey ←
    (Str.check 1 128 "Event" "idempotency_key" row.idempotencyKey).mapError .validation
  return {
    id := row.id
    tenantId
    customerId := row.customerId
    channelCode
    eventType
    idempotencyKey
    payload := row.payload
    receivedAt := row.receivedAt }

/-- The event that a row gives back. -/
def reread (D : EventColumns) (event : Event) : Event := { event with payload := D.jsonb event.payload }

theorem rowToEvent_eventToRow (D : EventColumns) (event : Event) :
    rowToEvent (eventToRow D event) = .ok (reread D event) := by
  simp only [rowToEvent, eventToRow, ChannelType.ofValue_value, EventType.ofValue_value,
    Str.check_ok event.tenantId.2, Str.check_ok event.idempotencyKey.2]
  rfl

/-! ## The calls -/

abbrev Call (α : Type) : Type := Session PgEventRow (Except PgEventError α)

/-- WHERE tenant_id = %s AND idempotency_key = %s. -/
def selectByKey (tenantId idempotencyKey : String) (rows : List PgEventRow) : Option PgEventRow :=
  rows.find? fun row => row.tenantId = tenantId ∧ row.idempotencyKey = idempotencyKey

/-- WHERE tenant_id = %s AND id = %s. -/
def selectById (tenantId eventId : String) (rows : List PgEventRow) : Option PgEventRow :=
  rows.find? fun row => row.tenantId = tenantId ∧ row.id = eventId

/-- What is left after the INSERT, which the rows `inWay` kept out. A row in the way of the key is the
arbiter of ON CONFLICT; one in the way of the id alone is not. The foreign keys are checked at the end
of the statement. -/
def afterInsert (D : EventColumns) (event : Event) (inWay : List PgEventRow) : Call (Event × Bool) :=
  if inWay = [] then
    if D.referenced (eventToRow D event) then .commit (.done (.ok (event, true)))
    else .rollback (.done (.error .foreignKeyViolation))
  else if (selectByKey event.tenantId.1 event.idempotencyKey.1 inWay).isSome then
    .select fun rows => .commit <| .done <|
      match selectByKey event.tenantId.1 event.idempotencyKey.1 rows with
      | none => .error .noExistingRow
      | some existing => (rowToEvent existing).map fun stored => (stored, false)
  else .rollback (.done (.error .uniqueViolation))

def upsertEvent (D : EventColumns) (event : Event) : Call (Event × Bool) :=
  let row := eventToRow D event
  if D.storable row then .insert row (afterInsert D event)
  else .rollback (.done (.error .dataError))

/-- The mapper of a SELECT that may find a row. -/
def mapRow : Option PgEventRow → Except PgEventError (Option Event)
  | none => .ok none
  | some row => (rowToEvent row).map some

/-- A SELECT with its parameters: what its rows give, or what the driver does not send. -/
def reading {α : Type} (texts : List String) (answer : List PgEventRow → Except PgEventError α) :
    Call α :=
  if ∀ x ∈ texts, Sendable x then .select fun rows => .rollback (.done (answer rows))
  else .rollback (.done (.error .dataError))

theorem run_reading {α : Type} {texts : List String} (h : ∀ x ∈ texts, Sendable x)
    (answer : List PgEventRow → Except PgEventError α) (rows : List PgEventRow) :
    (reading texts answer).run PgEventRow.Clash rows [] = (answer rows, rows) := by
  rw [reading, if_pos h, Session.run, List.append_nil]
  rfl

def getEventByIdempotency (tenantId idempotencyKey : String) : Call (Option Event) :=
  reading [tenantId, idempotencyKey] fun rows => mapRow (selectByKey tenantId idempotencyKey rows)

def getEventById (tenantId eventId : String) : Call (Option Event) :=
  reading [tenantId, eventId] fun rows => mapRow (selectById tenantId eventId rows)

def count : Option String → Call Nat
  | none => reading [] fun rows => .ok rows.length
  | some tenantId =>
    reading [tenantId] fun rows => .ok (rows.countP fun row => row.tenantId = tenantId)

/-! ## Upserts at the same time -/

/-- The repository refuses the event with `e`. -/
def Refuses (D : EventColumns) (event : Event) : PgEventError → Prop
  | .dataError => D.storable (eventToRow D event) = false
  | .foreignKeyViolation =>
    D.storable (eventToRow D event) = true ∧ D.referenced (eventToRow D event) = false
  | _ => False

/-- The row has the key of the event. -/
def HasKey (event : Event) (row : PgEventRow) : Prop :=
  row.tenantId = event.tenantId.1 ∧ row.idempotencyKey = event.idempotencyKey.1

/-- How far the upsert of `event` is, on the committed rows and those of its transaction: only when its
own row is committed does a committed row have its id. -/
inductive Phase (D : EventColumns) (event : Event) (rows : List PgEventRow) :
    List PgEventRow → Call (Event × Bool) → Prop
  | fresh (hids : ∀ r ∈ rows, r.id ≠ event.id) : Phase D event rows [] (upsertEvent D event)
  | inserted (hids : ∀ r ∈ rows, r.id ≠ event.id) (hstorable : D.storable (eventToRow D event) = true) :
      Phase D event rows [eventToRow D event] (afterInsert D event [])
  | keptOut {inWay : List PgEventRow} {r : PgEventRow} (hids : ∀ r ∈ rows, r.id ≠ event.id)
      (hr : r ∈ rows) (hkey : HasKey event r) (hway : r ∈ inWay) :
      Phase D event rows [] (afterInsert D event inWay)
  | selected {r : PgEventRow} (hids : ∀ r ∈ rows, r.id ≠ event.id) (hr : r ∈ rows)
      (hkey : HasKey event r) :
      Phase D event rows [] (.commit (.done ((rowToEvent r).map fun stored => (stored, false))))
  | found {r : PgEventRow} (hids : ∀ r ∈ rows, r.id ≠ event.id) (hr : r ∈ rows)
      (hkey : HasKey event r) :
      Phase D event rows [] (.done ((rowToEvent r).map fun stored => (stored, false)))
  | created (hmem : eventToRow D event ∈ rows) : Phase D event rows [] (.done (.ok (event, true)))
  | refused (e : PgEventError) (hids : ∀ r ∈ rows, r.id ≠ event.id) (he : Refuses D event e) :
      Phase D event rows [] (.done (.error e))

section Phase

variable {D : EventColumns} {event : Event} {rows pending inWay : List PgEventRow}
  {p : Call (Event × Bool)} {r : PgEventRow}

theorem selectByKey_isSome : (selectByKey event.tenantId.1 event.idempotencyKey.1 rows).isSome ↔
    ∃ r ∈ rows, HasKey event r := by
  simp [selectByKey, HasKey]

theorem selectByKey_some (h : selectByKey event.tenantId.1 event.idempotencyKey.1 rows = some r) :
    r ∈ rows ∧ HasKey event r :=
  ⟨List.mem_of_find?_eq_some h, by simpa [HasKey] using List.find?_some h⟩

theorem clash_hasKey (h : (eventToRow D event).Clash r) (hid : r.id ≠ event.id) : HasKey event r := by
  rcases h with h | h
  · exact absurd h.symm hid
  · exact ⟨(congrArg Prod.fst h).symm, (congrArg Prod.snd h).symm⟩

theorem afterInsert_empty : afterInsert D event [] =
    if D.referenced (eventToRow D event) then .commit (.done (.ok (event, true)))
    else .rollback (.done (.error .foreignKeyViolation)) := if_pos rfl

theorem afterInsert_keptOut (hway : r ∈ inWay) (hkey : HasKey event r) : afterInsert D event inWay =
    .select fun rows => .commit <| .done <|
      match selectByKey event.tenantId.1 event.idempotencyKey.1 rows with
      | none => .error .noExistingRow
      | some existing => (rowToEvent existing).map fun stored => (stored, false) := by
  rw [afterInsert, if_neg (List.ne_nil_of_mem hway), if_pos (selectByKey_isSome.mpr ⟨r, hway, hkey⟩)]

/-- The rows of a transaction have the id of its event. -/
theorem Phase.pending_id (h : Phase D event rows pending p) : ∀ r ∈ pending, r.id = event.id := by
  cases h with
  | inserted hids hstorable =>
    intro r hr
    rw [List.mem_singleton] at hr
    rw [hr]
    rfl
  | _ => exact fun r hr => nomatch hr

/-- Rows with other ids may be committed. -/
theorem Phase.grow {new : List PgEventRow} (h : Phase D event rows pending p)
    (hnew : ∀ r ∈ new, r.id ≠ event.id) : Phase D event (rows ++ new) pending p := by
  have hall : (∀ r ∈ rows, r.id ≠ event.id) → ∀ r ∈ rows ++ new, r.id ≠ event.id := by
    intro hids r hr
    rcases List.mem_append.mp hr with hr | hr
    · exact hids r hr
    · exact hnew r hr
  cases h with
  | fresh hids => exact .fresh (hall hids)
  | inserted hids hstorable => exact .inserted (hall hids) hstorable
  | keptOut hids hr hkey hway => exact .keptOut (hall hids) (List.mem_append_left _ hr) hkey hway
  | selected hids hr hkey => exact .selected (hall hids) (List.mem_append_left _ hr) hkey
  | found hids hr hkey => exact .found (hall hids) (List.mem_append_left _ hr) hkey
  | created hmem => exact .created (List.mem_append_left _ hmem)
  | refused e hids he => exact .refused e (hall hids) he

theorem Phase.exec (h : Phase D event rows pending p) :
    let next := p.exec PgEventRow.Clash rows pending
    Phase D event next.1 next.2.1 next.2.2 := by
  intro next
  cases h with
  | fresh hids =>
    by_cases hstorable : D.storable (eventToRow D event) = true
    · have hp : upsertEvent D event = .insert (eventToRow D event) (afterInsert D event) :=
        if_pos hstorable
      simp only [next, hp, Session.exec, List.append_nil, List.nil_append]
      split
      · next hclear =>
        rw [hclear]
        exact .inserted hids hstorable
      · next hway =>
        obtain ⟨r, hr⟩ := List.exists_mem_of_ne_nil _ hway
        have hmem := List.mem_filter.mp hr
        exact .keptOut hids hmem.1 (clash_hasKey (by simpa using hmem.2) (hids r hmem.1)) hr
    · have hp : upsertEvent D event = .rollback (.done (.error .dataError)) := if_neg hstorable
      simp only [next, hp, Session.exec]
      exact .refused _ hids (by simpa [Refuses] using hstorable)
  | inserted hids hstorable =>
    simp only [next, afterInsert_empty]
    split
    · exact .created (List.mem_append_right _ (List.mem_singleton_self _))
    · next hreferenced => exact .refused _ hids ⟨hstorable, by simpa using hreferenced⟩
  | keptOut hids hr hkey hway =>
    simp only [next, afterInsert_keptOut hway hkey, Session.exec, List.append_nil]
    obtain ⟨r', hr'⟩ := Option.isSome_iff_exists.mp (selectByKey_isSome.mpr ⟨_, hr, hkey⟩)
    obtain ⟨hmem, hkey'⟩ := selectByKey_some hr'
    rw [hr']
    exact .selected hids hmem hkey'
  | selected hids hr hkey =>
    simp only [next, Session.exec, List.append_nil]
    exact .found hids hr hkey
  | found hids hr hkey => exact .found hids hr hkey
  | created hmem => exact .created hmem
  | refused e hids he => exact .refused e hids he

/-- A transaction with a row is about to end. -/
theorem Phase.ends (h : Phase D event rows pending p) (hne : pending ≠ []) :
    ∃ k, p = .commit k ∨ p = .rollback k := by
  cases h with
  | inserted hids hstorable =>
    rw [afterInsert_empty]
    split
    · exact ⟨_, .inl rfl⟩
    · exact ⟨_, .inr rfl⟩
  | _ => exact absurd rfl hne

/-- The row of a commit is that of the event, which is then the answer. -/
theorem Phase.commits {k : Call (Event × Bool)} (h : Phase D event rows pending (.commit k)) :
    pending = [] ∨ pending = [eventToRow D event] ∧ k = .done (.ok (event, true)) := by
  generalize hp : Session.commit k = p at h
  cases h with
  | inserted hids hstorable =>
    rw [afterInsert_empty] at hp
    split at hp
    · exact .inr ⟨rfl, Session.commit.inj hp⟩
    · cases hp
  | _ => exact .inl rfl

/-- What an upsert that is done answers. -/
theorem Phase.answer {a : Except PgEventError (Event × Bool)}
    (h : Phase D event rows pending (.done a)) :
    (a = .ok (event, true) ∧ eventToRow D event ∈ rows) ∨
      (∃ r ∈ rows, HasKey event r ∧ r.id ≠ event.id ∧
        a = (rowToEvent r).map fun stored => (stored, false)) ∨
      ∃ e, Refuses D event e ∧ a = .error e := by
  generalize hp : Session.done a = p at h
  cases h with
  | fresh hids =>
    rw [upsertEvent] at hp
    split at hp <;> cases hp
  | inserted hids hstorable =>
    rw [afterInsert_empty] at hp
    split at hp <;> cases hp
  | keptOut hids hr hkey hway =>
    rw [afterInsert_keptOut hway hkey] at hp
    cases hp
  | selected hids hr hkey => cases hp
  | found hids hr hkey =>
    exact .inr (.inl ⟨_, hr, hkey, hids _ hr, Session.done.inj hp⟩)
  | created hmem => exact .inl ⟨Session.done.inj hp, hmem⟩
  | refused e hids he => exact .inr (.inr ⟨e, he, Session.done.inj hp⟩)

theorem created_ne {e : Event} : (rowToEvent r).map (fun stored => (stored, false)) ≠ .ok (e, true) := by
  cases rowToEvent r with
  | error e => exact fun h => nomatch h
  | ok stored => exact fun h => nomatch h

end Phase

section Race

variable {ι : Type} [DecidableEq ι] {D : EventColumns} {events : ι → Event} {rows : List PgEventRow}

/-- Upserts that begin together. -/
abbrev upserts (D : EventColumns) (events : ι → Event) (rows : List PgEventRow) :
    Database ι PgEventRow (Except PgEventError (Event × Bool)) :=
  .start rows fun i => upsertEvent D (events i)

variable {s : Database ι PgEventRow (Except PgEventError (Event × Bool))}
  {h : List (Database ι PgEventRow (Except PgEventError (Event × Bool)) × ι)}

/-- The ids of the events are new and distinct, as those that the API draws. -/
structure FreshIds (events : ι → Event) (rows : List PgEventRow) : Prop where
  new : ∀ i, ∀ r ∈ rows, r.id ≠ (events i).id
  distinct : ∀ i j, i ≠ j → (events i).id ≠ (events j).id

omit [DecidableEq ι] in
theorem FreshIds.keeps (hf : FreshIds events rows) :
    Database.Keeps PgEventRow.Clash fun i => Phase D (events i) where
  own := fun _ _ _ _ hphase => hphase.exec
  others := fun i j hij _ _ _ _ _ hi hj => hi.grow fun r hr hid =>
    hf.distinct i j hij (hid.symm.trans (hj.pending_id r hr))

/-- `Phase` holds of each session, and the rows committed are those of the sessions that created. -/
structure Upserting (D : EventColumns) (events : ι → Event) (rows : List PgEventRow)
    (s : Database ι PgEventRow (Except PgEventError (Event × Bool))) : Prop where
  phase : ∀ i, Phase D (events i) s.rows (s.pending i) (s.session i)
  committed : ∃ order : List ι, s.rows = rows ++ order.map (fun i => eventToRow D (events i)) ∧
    ∀ i ∈ order, s.Done i (.ok (events i, true))

theorem Upserting.step (hf : FreshIds events rows) (hs : Upserting D events rows s) (i : ι) :
    Upserting D events rows (s.step PgEventRow.Clash i) where
  phase := fun j => hf.keeps.step hs.phase j i
  committed := by
    obtain ⟨order, hrows, hdone⟩ := hs.committed
    rcases Database.rows_step PgEventRow.Clash s i with hsame | ⟨⟨k, hk⟩, hcommit⟩
    · exact ⟨order, hsame.trans hrows, fun j hj => (hdone j hj).step i⟩
    · have hphase := hs.phase i
      rw [hk] at hphase
      rcases hphase.commits with hnone | ⟨hown, rfl⟩
      · rw [hnone, List.append_nil] at hcommit
        exact ⟨order, hcommit.trans hrows, fun j hj => (hdone j hj).step i⟩
      · refine ⟨order ++ [i], ?_, fun j hj => ?_⟩
        · rw [hcommit, hrows, hown, List.map_append, List.append_assoc]
          rfl
        · rcases List.mem_append.mp hj with hj | hj
          · exact (hdone j hj).step i
          · rw [List.mem_singleton] at hj
            rw [hj, Database.Done, Database.session_self, hk]
            rfl

theorem upserting_run (hf : FreshIds events rows)
    (hr : (upserts D events rows).Runs PgEventRow.Clash h s) : Upserting D events rows s := by
  refine hr.holds ⟨fun i => .fresh (hf.new i), [], ?_, fun i hi => nomatch hi⟩
    fun _ i hs _ => hs.step hf i
  rw [List.map_nil, List.append_nil]
  rfl

/-- Upserts of any events at the same time, on any rows that satisfy the constraints, in any
interleaving of their statements:

* the rows committed are those that were there, and then the rows of the upserts that answered
  `created = True`, one each, in the order of their commits; of each key at most one;
* every other upsert answers with the event of the one committed row that has its key, or was refused;
* no upsert waits forever. -/
theorem upsert_race (hrows : rows.Pairwise fun r r' => ¬ r.Clash r') (hf : FreshIds events rows)
    (hr : (upserts D events rows).Runs PgEventRow.Clash h s) :
    (∃ order : List ι, order.Nodup ∧
      s.rows = rows ++ order.map (fun i => eventToRow D (events i)) ∧
      ∀ i, i ∈ order ↔ s.Done i (.ok (events i, true))) ∧
    (s.rows.map fun r => (r.tenantId, r.idempotencyKey)).Nodup ∧
    (∀ i answer, s.Done i answer →
      answer = .ok (events i, true) ∨
      (∃ r ∈ rows, HasKey (events i) r ∧
        answer = (rowToEvent r).map fun stored => (stored, false)) ∨
      (∃ j, j ≠ i ∧ s.Done j (.ok (events j, true)) ∧
        Stores.keyOf (events j) = Stores.keyOf (events i) ∧
        answer = .ok (reread D (events j), false)) ∨
      ∃ e, Refuses D (events i) e ∧ answer = .error e) ∧
    ((∃ i, ∀ answer, ¬ s.Done i answer) →
      ∃ i, (∀ answer, ¬ s.Done i answer) ∧ ¬ s.Blocked PgEventRow.Clash i) := by
  have hs := upserting_run hf hr
  have hapart : s.Apart PgEventRow.Clash :=
    Database.Apart.run (fun _ _ => PgEventRow.Clash.symm) (Database.Apart.start hrows _) hr
  obtain ⟨order, horder, hdone⟩ := hs.committed
  have hnodup : order.Nodup := by
    have hall := hapart.committed
    rw [horder, List.pairwise_append, List.pairwise_map] at hall
    exact hall.2.1.imp fun hclash heq => hclash (.inl (by rw [heq]))
  refine ⟨⟨order, hnodup, horder, fun i => ⟨hdone i, fun hi => ?_⟩⟩, ?_, fun i answer hi => ?_,
    fun ⟨i, hi⟩ => ?_⟩
  · -- the answer `created = True` is given when the row is committed
    have hphase := hs.phase i
    rw [show s.session i = .done (.ok (events i, true)) from hi] at hphase
    rcases hphase.answer with ⟨-, hmem⟩ | ⟨r, -, -, -, hr⟩ | ⟨e, -, he⟩
    · rw [horder] at hmem
      rcases List.mem_append.mp hmem with hmem | hmem
      · exact absurd rfl (hf.new i _ hmem)
      · obtain ⟨j, hj, heq⟩ := List.mem_map.mp hmem
        by_cases hji : j = i
        · exact hji ▸ hj
        · exact absurd (congrArg PgEventRow.id heq) (hf.distinct j i hji)
    · exact absurd hr.symm created_ne
    · cases he
  · rw [List.Nodup, List.pairwise_map]
    exact hapart.committed.imp fun hclash hkey => hclash (.inr hkey)
  · have hphase := hs.phase i
    rw [show s.session i = .done answer from hi] at hphase
    rcases hphase.answer with ⟨hnew, -⟩ | ⟨r, hr, hkey, hid, hanswer⟩ | hrefused
    · exact .inl hnew
    · rw [horder] at hr
      rcases List.mem_append.mp hr with hr | hr
      · exact .inr (.inl ⟨r, hr, hkey, hanswer⟩)
      · obtain ⟨j, hj, rfl⟩ := List.mem_map.mp hr
        refine .inr (.inr (.inl ⟨j, ?_, hdone j hj, Prod.ext hkey.1 hkey.2, ?_⟩))
        · rintro rfl
          exact hid rfl
        · rw [hanswer, rowToEvent_eventToRow]
          rfl
    · exact .inr (.inr (.inr hrefused))
  · exact Database.live (fun j hj => (hs.phase j).ends hj) hi

/-- An event of `tenantId` under the key `k`. -/
def keyedEvent (id : String) (tenantId : Str 1 64) : Event where
  id := id
  tenantId := tenantId
  customerId := none
  channelCode := .api
  eventType := .systemEvent
  idempotencyKey := ⟨"k", by decide⟩
  payload := ∅
  receivedAt := 0

/-- Two deliveries of a message, one key and two ids, and another tenant's event under that key. -/
def delivered : Option Bool → Event
  | none => keyedEvent "evt_3" ⟨"t2", t2_str⟩
  | some false => keyedEvent "evt_1" ⟨"t1", t1_str⟩
  | some true => keyedEvent "evt_2" ⟨"t1", t1_str⟩

/-- Columns that take every row and keep it. -/
def plainColumns : EventColumns := ⟨id, fun _ => true, fun _ => true⟩

theorem delivered_fresh : FreshIds delivered [] where
  new := fun _ r hr => nomatch hr
  distinct := by decide

/-- The first delivery is stored before the second inserts; the other tenant's event, in between. -/
def interleaved : List (Option Bool) :=
  [some false, none, some false, some true, none, some true, some true]

theorem upsert_race_interleaved :
    let s := interleaved.foldl (Database.step PgEventRow.Clash) (upserts plainColumns delivered [])
    s.Done none (.ok (delivered none, true)) ∧
      s.Done (some true) (.ok (delivered (some false), false)) ∧ s.rows.length = 2 ∧
      (s.rows.map fun r => (r.tenantId, r.idempotencyKey)).Nodup := by
  have hr : (upserts plainColumns delivered []).Runs PgEventRow.Clash
      (Run.trace (Database.step PgEventRow.Clash) (upserts plainColumns delivered []) interleaved)
      (interleaved.foldl (Database.step PgEventRow.Clash) (upserts plainColumns delivered [])) := by
    -- an insert meets no row of an open transaction but one of the other tenant
    refine Run.ofOps ⟨?_, ?_, fun hb => ?_, ?_, fun hb => ?_, fun hb => ?_, fun hb => ?_, trivial⟩
    · rintro ⟨_, _, _, j, hj, r, hr, -⟩
      rcases j with _ | _ | _ <;> first | exact hj rfl | cases hr
    · rintro ⟨_, _, hins, j, hj, r, hr, hclash⟩
      cases hins
      rcases j with _ | _ | _ <;> rcases hr with _ | ⟨_, ⟨⟩⟩
      exact absurd hclash (by decide)
    · obtain ⟨_, _, hins, -⟩ := hb
      cases hins
    · rintro ⟨_, _, hins, j, hj, r, hr, hclash⟩
      cases hins
      rcases j with _ | _ | _ <;> rcases hr with _ | ⟨_, ⟨⟩⟩
      exact absurd hclash (by decide)
    all_goals
      obtain ⟨_, _, hins, -⟩ := hb
      cases hins
  exact ⟨rfl, rfl, rfl, (upsert_race List.Pairwise.nil delivered_fresh hr).2.1⟩

end Race
end PgEventRepository

/-! ## The two repositories -/

namespace InMemoryEventRepository

theorem upsertEvent_new {s : InMemoryEventRepository} {event : Event}
    (hfree : s.byIdem.get? (Stores.keyOf event) = none) : (upsertEvent event).run s =
      (.ok (event, true), ⟨s.byId.set (event.tenantId.1, event.id) event,
        s.byIdem.set (Stores.keyOf event) event.id⟩) := by
  unfold upsertEvent
  rw [Py.run_bind_ok (Py.run_get s)]
  simp only [show s.byIdem.get? (event.tenantId.1, event.idempotencyKey.1) = none from hfree]
  rfl

theorem upsertEvent_old {s : InMemoryEventRepository} {event stored : Event} {id : String}
    (hid : s.byIdem.get? (Stores.keyOf event) = some id)
    (hstored : s.byId.get? (event.tenantId.1, id) = some stored) :
    (upsertEvent event).run s = (.ok (stored, false), s) := by
  unfold upsertEvent
  rw [Py.run_bind_ok (Py.run_get s)]
  simp only [show s.byIdem.get? (event.tenantId.1, event.idempotencyKey.1) = some id from hid,
    hstored]
  rfl

def getEventById (s : InMemoryEventRepository) (tenantId eventId : String) : Option Event :=
  s.byId.get? (tenantId, eventId)

def count (s : InMemoryEventRepository) : Option String → Nat
  | none => s.byId.keys.length
  | some tenantId => s.byId.keys.countP fun key => key.1 = tenantId

end InMemoryEventRepository

/-- The calls of the protocol `EventRepository`. -/
inductive EventCall where
  | upsertEvent (event : Event)
  | getEventByIdempotency (tenantId idempotencyKey : String)
  | getEventById (tenantId eventId : String)
  | count (tenantId : Option String)

inductive EventAnswer where
  | upserted (stored : Event) (created : Bool)
  | found (event : Option Event)
  | count (n : Nat)

def InMemoryEventRepository.answer (s : InMemoryEventRepository) :
    EventCall → Except MissingEvent EventAnswer × InMemoryEventRepository
  | .upsertEvent event =>
    let r := (InMemoryEventRepository.upsertEvent event).run s
    (r.1.map fun x => .upserted x.1 x.2, r.2)
  | .getEventByIdempotency t k => (.ok (.found (s.getEventByIdempotency t k)), s)
  | .getEventById t id => (.ok (.found (s.getEventById t id)), s)
  | .count t => (.ok (.count (s.count t)), s)

namespace PgEventRepository

/-- A call alone: its answer and the rows it leaves. -/
def answer (D : EventColumns) (rows : List PgEventRow) :
    EventCall → Except PgEventError EventAnswer × List PgEventRow
  | .upsertEvent event =>
    let r := (upsertEvent D event).run PgEventRow.Clash rows []
    (r.1.map fun x => .upserted x.1 x.2, r.2)
  | .getEventByIdempotency t k =>
    let r := (getEventByIdempotency t k).run PgEventRow.Clash rows []
    (r.1.map .found, r.2)
  | .getEventById t id =>
    let r := (getEventById t id).run PgEventRow.Clash rows []
    (r.1.map .found, r.2)
  | .count t =>
    let r := (count t).run PgEventRow.Clash rows []
    (r.1.map .count, r.2)

/-- The answers of the two repositories: what Postgres rereads has the payload that JSONB gives back. -/
inductive Alike (D : EventColumns) :
    Except MissingEvent EventAnswer → Except PgEventError EventAnswer → Prop
  | created (event : Event) : Alike D (.ok (.upserted event true)) (.ok (.upserted event true))
  | replayed (event : Event) :
      Alike D (.ok (.upserted event false)) (.ok (.upserted (reread D event) false))
  | found (event : Option Event) :
      Alike D (.ok (.found event)) (.ok (.found (event.map (reread D))))
  | count (n : Nat) : Alike D (.ok (.count n)) (.ok (.count n))

abbrev TwoStores : Type := InMemoryEventRepository × List PgEventRow

/-- The call, to each repository. -/
def callStep (D : EventColumns) (s : TwoStores) (c : EventCall) : TwoStores :=
  ((s.1.answer c).2, (answer D s.2 c).2)

/-- An upsert is of an event that the columns take, under an id that is not in the table; the driver
can send what is looked up. -/
def CallLegal (D : EventColumns) (s : TwoStores) : EventCall → Prop
  | .upsertEvent event => D.storable (eventToRow D event) = true ∧
      D.referenced (eventToRow D event) = true ∧ ∀ r ∈ s.2, r.id ≠ event.id
  | .getEventByIdempotency t k => ∀ x ∈ [t, k], Sendable x
  | .getEventById t id => ∀ x ∈ [t, id], Sendable x
  | .count t => ∀ x ∈ t.toList, Sendable x

/-- The stores hold the events `es`, in the order of their upserts. -/
structure Mirror (D : EventColumns) (es : List Event) (s : TwoStores) : Prop where
  rows : s.2 = es.map (eventToRow D)
  ids : (es.map Event.id).Nodup
  byId : s.1.byId.entries = es.map fun e => ((e.tenantId.1, e.id), e)
  byIdem : s.1.byIdem.entries = es.map fun e => (Stores.keyOf e, e.id)

section Mirror

variable {D : EventColumns} {es : List Event} {s s₀ : TwoStores} {e : Event} {t k id : String}

theorem Mirror.getEventById (hm : Mirror D es s) :
    s.1.getEventById t id = es.find? fun e => e.tenantId.1 = t ∧ e.id = id := by
  rw [InMemoryEventRepository.getEventById, Dict.get?_map hm.byId, Option.map_id']
  simp only [Prod.mk.injEq]

theorem Mirror.byIdem_get (hm : Mirror D es s) :
    s.1.byIdem.get? (t, k) = (es.find? fun e => Stores.keyOf e = (t, k)).map Event.id :=
  Dict.get?_map hm.byIdem _

theorem Mirror.byId_get (hm : Mirror D es s) (he : e ∈ es) :
    s.1.byId.get? (e.tenantId.1, e.id) = some e := by
  rw [Dict.get?_map hm.byId, Option.map_id']
  exact find?_unique he (by simp) fun e' he' h =>
    List.inj_on_of_nodup_map hm.ids he' he (congrArg Prod.snd (of_decide_eq_true h))

theorem Mirror.getEventByIdempotency (hm : Mirror D es s) :
    s.1.getEventByIdempotency t k = es.find? fun e => Stores.keyOf e = (t, k) := by
  rw [InMemoryEventRepository.getEventByIdempotency, hm.byIdem_get]
  cases hf : es.find? fun e => Stores.keyOf e = (t, k) with
  | none => rfl
  | some e =>
    have hkey : Stores.keyOf e = (t, k) := by simpa using List.find?_some hf
    have ht : e.tenantId.1 = t := congrArg Prod.fst hkey
    have hget := hm.byId_get (List.mem_of_find?_eq_some hf)
    rw [ht] at hget
    exact hget

theorem Mirror.selectByKey (hm : Mirror D es s) :
    selectByKey t k s.2 = (es.find? fun e => Stores.keyOf e = (t, k)).map (eventToRow D) := by
  rw [PgEventRepository.selectByKey, hm.rows, List.find?_map]
  congr 2
  funext e
  rw [Function.comp_apply, decide_eq_decide, Prod.mk.injEq]
  rfl

theorem Mirror.selectById (hm : Mirror D es s) :
    selectById t id s.2 = (es.find? fun e => e.tenantId.1 = t ∧ e.id = id).map (eventToRow D) := by
  rw [PgEventRepository.selectById, hm.rows, List.find?_map]
  rfl

theorem mapRow_eventToRow (o : Option Event) :
    mapRow (o.map (eventToRow D)) = .ok (o.map (reread D)) := by
  cases o with
  | none => rfl
  | some e =>
    rw [Option.map_some, mapRow, rowToEvent_eventToRow]
    rfl

theorem Mirror.count (hm : Mirror D es s) {t : Option String} (hsent : ∀ x ∈ t.toList, Sendable x) :
    PgEventRepository.answer D s.2 (.count t) = (.ok (.count (s.1.count t)), s.2) := by
  cases t with
  | none =>
    have hlen : s.1.byId.keys.length = s.2.length := by
      rw [Dict.keys, hm.byId, hm.rows, List.length_map, List.length_map, List.length_map]
    rw [InMemoryEventRepository.count, hlen]
    have hnone : ∀ x ∈ ([] : List String), Sendable x := hsent
    simp only [PgEventRepository.answer, PgEventRepository.count, run_reading hnone]
    rfl
  | some t =>
    have hcount : (s.1.byId.keys.countP fun key => key.1 = t) =
        s.2.countP fun row => row.tenantId = t := by
      rw [Dict.keys, hm.byId, hm.rows, List.countP_map, List.countP_map, List.countP_map]
      rfl
    rw [InMemoryEventRepository.count, hcount]
    have hone : ∀ x ∈ [t], Sendable x := hsent
    simp only [PgEventRepository.answer, PgEventRepository.count, run_reading hone]
    rfl

/-- An upsert of a key that is not stored. -/
theorem Mirror.upsert_new (hm : Mirror D es s) (hl : CallLegal D s (.upsertEvent e))
    (hnew : (es.find? fun e' => Stores.keyOf e' = Stores.keyOf e) = none) :
    Alike D (s.1.answer (.upsertEvent e)).1 (answer D s.2 (.upsertEvent e)).1 ∧
      Mirror D (es ++ [e]) (callStep D s (.upsertEvent e)) := by
  obtain ⟨hstorable, hreferenced, hids⟩ := hl
  have hfree : s.1.byIdem.get? (Stores.keyOf e) = none := by
    rw [hm.byIdem_get, hnew]
    rfl
  have hid : ∀ e' ∈ es, e'.id ≠ e.id := fun e' he' =>
    hids _ (hm.rows ▸ List.mem_map_of_mem (f := eventToRow D) he')
  have hnone : s.1.byId.get? (e.tenantId.1, e.id) = none := by
    rw [Dict.get?_map hm.byId, Option.map_id', List.find?_eq_none]
    intro e' he' h
    exact hid e' he' (congrArg Prod.snd (of_decide_eq_true h))
  have hmem : s.1.answer (.upsertEvent e) = (.ok (.upserted e true),
      ⟨s.1.byId.set (e.tenantId.1, e.id) e, s.1.byIdem.set (Stores.keyOf e) e.id⟩) := by
    rw [InMemoryEventRepository.answer, InMemoryEventRepository.upsertEvent_new hfree]
    rfl
  have hway : (s.2 ++ []).filter (fun r => decide ((eventToRow D e).Clash r)) = [] := by
    rw [List.append_nil, List.filter_eq_nil_iff, hm.rows]
    intro r hr hclash
    obtain ⟨e', he', rfl⟩ := List.mem_map.mp hr
    rcases of_decide_eq_true hclash with hsame | hsame
    · exact hid e' he' hsame.symm
    · exact List.find?_eq_none.mp hnew e' he' (decide_eq_true hsame.symm)
  have hpg : answer D s.2 (.upsertEvent e) =
      (.ok (.upserted e true), s.2 ++ [eventToRow D e]) := by
    rw [answer, upsertEvent, if_pos hstorable, Session.run, hway, afterInsert_empty,
      if_pos hreferenced, if_pos rfl]
    rfl
  rw [callStep, hmem, hpg]
  refine ⟨.created e, ?_, ?_, ?_, ?_⟩
  · rw [hm.rows, List.map_append]
    rfl
  · rw [List.map_append, List.map_singleton, List.nodup_append]
    refine ⟨hm.ids, List.nodup_singleton _, fun id hid' id' hid'' => ?_⟩
    obtain ⟨e', he', rfl⟩ := List.mem_map.mp hid'
    exact List.mem_singleton.mp hid'' ▸ hid e' he'
  · rw [Dict.entries_set_new _ hnone, hm.byId, List.map_append]
    rfl
  · rw [Dict.entries_set_new _ hfree, hm.byIdem, List.map_append]
    rfl

/-- An upsert of a key that is stored. -/
theorem Mirror.upsert_old {e' : Event} (hm : Mirror D es s) (hl : CallLegal D s (.upsertEvent e))
    (hold : (es.find? fun e' => Stores.keyOf e' = Stores.keyOf e) = some e') :
    Alike D (s.1.answer (.upsertEvent e)).1 (answer D s.2 (.upsertEvent e)).1 ∧
      Mirror D es (callStep D s (.upsertEvent e)) := by
  obtain ⟨hstorable, hreferenced, hids⟩ := hl
  have hkey : Stores.keyOf e' = Stores.keyOf e := by simpa using List.find?_some hold
  have hmem : e' ∈ es := List.mem_of_find?_eq_some hold
  have hid : s.1.byIdem.get? (Stores.keyOf e) = some e'.id := by
    rw [hm.byIdem_get, hold]
    rfl
  have hget : s.1.byId.get? (e.tenantId.1, e'.id) = some e' := by
    rw [← show e'.tenantId.1 = e.tenantId.1 from congrArg Prod.fst hkey]
    exact hm.byId_get hmem
  have hrow : eventToRow D e' ∈ s.2 := hm.rows ▸ List.mem_map_of_mem hmem
  have hclash : (eventToRow D e).Clash (eventToRow D e') := .inr hkey.symm
  have hanswer : s.1.answer (.upsertEvent e) = (.ok (.upserted e' false), s.1) := by
    rw [InMemoryEventRepository.answer, InMemoryEventRepository.upsertEvent_old hid hget]
    rfl
  have hpg : answer D s.2 (.upsertEvent e) = (.ok (.upserted (reread D e') false), s.2) := by
    have hway : eventToRow D e' ∈
        (s.2 ++ []).filter fun r => decide ((eventToRow D e).Clash r) := by
      rw [List.append_nil]
      exact List.mem_filter.mpr ⟨hrow, decide_eq_true hclash⟩
    have hselect : PgEventRepository.selectByKey e.tenantId.1 e.idempotencyKey.1 s.2 =
        some (eventToRow D e') := by
      rw [hm.selectByKey, hold]
      rfl
    rw [answer, upsertEvent, if_pos hstorable, Session.run,
      afterInsert_keptOut hway ⟨congrArg Prod.fst hkey, congrArg Prod.snd hkey⟩,
      if_neg (List.ne_nil_of_mem hway)]
    simp only [Session.run, List.append_nil, hselect, rowToEvent_eventToRow]
    rfl
  rw [callStep, hanswer, hpg]
  exact ⟨.replayed e', hm⟩

theorem Mirror.step (hm : Mirror D es s) (c : EventCall) (hl : CallLegal D s c) :
    Alike D (s.1.answer c).1 (answer D s.2 c).1 ∧ ∃ es', Mirror D es' (callStep D s c) := by
  cases c with
  | upsertEvent e =>
    cases hf : es.find? fun e' => Stores.keyOf e' = Stores.keyOf e with
    | none => exact ⟨(hm.upsert_new hl hf).1, _, (hm.upsert_new hl hf).2⟩
    | some e' => exact ⟨(hm.upsert_old hl hf).1, _, (hm.upsert_old hl hf).2⟩
  | getEventByIdempotency t k =>
    have hpg : answer D s.2 (.getEventByIdempotency t k) =
        (.ok (.found ((s.1.getEventByIdempotency t k).map (reread D))), s.2) := by
      simp only [answer, PgEventRepository.getEventByIdempotency, run_reading hl,
        hm.selectByKey, hm.getEventByIdempotency, mapRow_eventToRow]
      rfl
    rw [callStep, hpg]
    exact ⟨.found _, es, hm⟩
  | getEventById t id =>
    have hpg : answer D s.2 (.getEventById t id) =
        (.ok (.found ((s.1.getEventById t id).map (reread D))), s.2) := by
      simp only [answer, PgEventRepository.getEventById, run_reading hl,
        hm.selectById, hm.getEventById, mapRow_eventToRow]
      rfl
    rw [callStep, hpg]
    exact ⟨.found _, es, hm⟩
  | count t =>
    rw [callStep, hm.count hl]
    exact ⟨.count _, es, hm⟩

/-- The two repositories, over any sequence of calls on stores that are empty at first: the same
events are created, each under its key, and every call is answered alike. -/
theorem event_repositories_agree {h : List (TwoStores × EventCall)}
    (hr : Run (callStep D) (CallLegal D) ({}, []) h s) :
    ∀ x ∈ h, Alike D (x.1.1.answer x.2).1 (answer D x.1.2 x.2).1 := by
  have hmirror : (∃ es, Mirror D es s) ∧
      ∀ x ∈ h, Alike D (x.1.1.answer x.2).1 (answer D x.1.2 x.2).1 := by
    refine hr.invariant (I := fun h s => (∃ es, Mirror D es s) ∧
      ∀ x ∈ h, Alike D (x.1.1.answer x.2).1 (answer D x.1.2 x.2).1)
      ⟨⟨[], rfl, List.Pairwise.nil, rfl, rfl⟩, fun x hx => nomatch hx⟩ fun h s c _ hi hl => ?_
    obtain ⟨⟨es, hm⟩, hpast⟩ := hi
    obtain ⟨halike, hnext⟩ := hm.step c hl
    refine ⟨hnext, fun x hx => ?_⟩
    rcases List.mem_append.mp hx with hx | hx
    · exact hpast x hx
    · rw [List.mem_singleton.mp hx]
      exact halike
  exact hmirror.2

/-- Two deliveries of a message, a lookup and a count. -/
def replayCalls : List EventCall :=
  [.upsertEvent (delivered (some false)), .upsertEvent (delivered (some true)),
    .getEventByIdempotency "t1" "k", .count none]

theorem event_repositories_agree_replay :
    (Run.trace (callStep plainColumns) ({}, []) replayCalls).Forall fun x =>
      Alike plainColumns (x.1.1.answer x.2).1 (answer plainColumns x.1.2 x.2).1 := by
  have hr : Run (callStep plainColumns) (CallLegal plainColumns) ({}, [])
      (Run.trace (callStep plainColumns) ({}, []) replayCalls)
      (replayCalls.foldl (callStep plainColumns) ({}, [])) := by
    refine Run.ofOps ⟨⟨rfl, rfl, ?_⟩, ⟨rfl, rfl, ?_⟩, sendable_pair (by decide) (by decide),
      fun x hx => (nomatch hx), trivial⟩
    · intro r hr
      cases hr
    · intro r hr
      cases hr with
      | head => decide
      | tail _ hr => cases hr
  exact List.forall_iff_forall_mem.mpr (event_repositories_agree hr)

end Mirror
end PgEventRepository
end PennyCore
