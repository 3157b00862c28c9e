import PennyCore.Lib.JsonText
import PennyCore.Orchestrator.FenceTransparency
import PennyCore.Orchestrator.Listener
import PennyCore.Orchestrator.RedisListener

/-!
# The wire format of the Redis bus

`src/context_engine/redis_event_bus.py` writes each envelope with `json.dumps`, and the listener of
`src/orchestrator/event_listener.py` reads it with `json.loads`.

* `JsonVal` is what can be written, `dumps` its text (compact separators, sorted keys, ASCII only).
* `loads_dumps`: every value comes back, with its keys in order. The tokens of a value are read as the
  value (`feed_tokens`, by induction on the value), and `loads_texts` gives the tokens of the text.
* `redis_path`: the listener hands the handler the envelopes that the in-memory bus would hand it.
-/

namespace PennyCore

open Lib

/-! ## `json.dumps` -/

/-- What `json.dumps` writes: its keys are strings. -/
inductive JsonVal where
  | null
  | bool (b : Bool)
  | int (n : Int)
  | str (s : String)
  | list (xs : List JsonVal)
  | dict (ms : List (String × JsonVal))

namespace JsonVal

mutual

/-- The value in Python. -/
def toPy : JsonVal → PyVal
  | .null => .none
  | .bool b => .bool b
  | .int n => .int n
  | .str s => .str s
  | .list xs => .list (pyItems xs)
  | .dict ms => .dict ((pyMembers ms).map fun m => (.str m.1, m.2))

def pyItems : List JsonVal → List PyVal
  | [] => []
  | x :: xs => x.toPy :: pyItems xs

def pyMembers : List (String × JsonVal) → List (String × PyVal)
  | [] => []
  | (key, v) :: ms => (key, v.toPy) :: pyMembers ms

end

mutual

/-- `sort_keys=True`. -/
def sortKeys : JsonVal → JsonVal
  | .list xs => .list (sortItems xs)
  | .dict ms => .dict ((sortMembers ms).insertionSort fun a b => a.1 ≤ b.1)
  | v => v

def sortItems : List JsonVal → List JsonVal
  | [] => []
  | x :: xs => x.sortKeys :: sortItems xs

def sortMembers : List (String × JsonVal) → List (String × JsonVal)
  | [] => []
  | (key, v) :: ms => (key, v.sortKeys) :: sortMembers ms

end

def word (text : String) : List JsonToken := [.atom text.toList]

/-- A key and the colon. -/
def keyTokens (key : String) : List JsonToken := [.str (escape key.toList), .punct ':']

mutual

def tokens : JsonVal → List JsonToken
  | .null => word "null"
  | .bool b => word (if b then "true" else "false")
  | .int n => word (toString n)
  | .str s => [.str (escape s.toList)]
  | .list [] => [.punct '[', .punct ']']
  | .list (x :: xs) => .punct '[' :: (x.tokens ++ restItems xs)
  | .dict [] => [.punct '\x7b', .punct '\x7d']
  | .dict ((key, v) :: ms) => .punct '\x7b' :: (keyTokens key ++ (v.tokens ++ restMembers ms))

/-- The items behind the first, and the bracket. -/
def restItems : List JsonVal → List JsonToken
  | [] => [.punct ']']
  | x :: xs => .punct ',' :: (x.tokens ++ restItems xs)

def restMembers : List (String × JsonVal) → List JsonToken
  | [] => [.punct '\x7d']
  | (key, v) :: ms => .punct ',' :: (keyTokens key ++ (v.tokens ++ restMembers ms))

end

/-- `json.dumps(value, separators=(",", ":"), sort_keys=True)`. -/
def dumps (v : JsonVal) : String := .ofList (jsonText v.sortKeys.tokens)

/-- The most digits that the language writes or reads as an integer. -/
def intMaxStrDigits : Nat := 4300

mutual

/-- The value can be written and read: its containers are nested at most `k` deep, no dictionary has a
key twice, and no integer is too long. -/
def Fits : JsonVal → Nat → Prop
  | .int n, _ => n.natAbs.repr.length ≤ intMaxStrDigits
  | .list xs, k => 0 < k ∧ ItemsFit xs (k - 1)
  | .dict ms, k => 0 < k ∧ (ms.map Prod.fst).Nodup ∧ MembersFit ms (k - 1)
  | _, _ => True

def ItemsFit : List JsonVal → Nat → Prop
  | [], _ => True
  | x :: xs, k => x.Fits k ∧ ItemsFit xs k

def MembersFit : List (String × JsonVal) → Nat → Prop
  | [], _ => True
  | (_, v) :: ms, k => v.Fits k ∧ MembersFit ms k

end

/-! ## The text of a value is made of tokens -/

/-- The tokens have a text, and no two atoms are next to each other. -/
def Well (ts : List JsonToken) : Prop := (∀ t ∈ ts, t.Ok) ∧ JsonToken.Apart ts

theorem well_punct {ts us : List JsonToken} {c : Char} (hc : isJsonPunct c = true) :
    Well (ts ++ .punct c :: us) ↔ Well ts ∧ Well us := by
  unfold Well
  rw [JsonToken.apart_punct, List.forall_mem_append, List.forall_mem_cons]
  have hok : (JsonToken.punct c).Ok := hc
  tauto

theorem well_nil : Well [] := ⟨fun _ ht => absurd ht List.not_mem_nil, trivial⟩

theorem well_one {t : JsonToken} (h : t.Ok) : Well [t] :=
  ⟨fun _ hu => List.mem_singleton.mp hu ▸ h, JsonToken.apart_one t⟩

theorem well_cons {us : List JsonToken} {c : Char} (hc : isJsonPunct c = true) (h : Well us) :
    Well (.punct c :: us) := (well_punct hc).mpr ⟨well_nil, h⟩

theorem well_key (key : String) {us : List JsonToken} (h : Well us) : Well (keyTokens key ++ us) := by
  have hname : Well [.str (escape key.toList)] := well_one (literal_escape _)
  exact (well_punct (by decide)).mpr ⟨hname, h⟩

/-- The text of an integer. -/
theorem int_chars (n : Int) : (toString n).toList ≠ [] ∧
    ∀ c ∈ (toString n).toList, c.isDigit = true ∨ c = '-' := by
  have hdigits : ∀ (m : Nat), ∀ c ∈ m.repr.toList, c.isDigit = true := by
    intro m c hc
    rw [Nat.toList_repr] at hc
    exact Nat.isDigit_of_mem_toDigits (by decide) (by decide) hc
  cases n with
  | ofNat m =>
    refine ⟨fun h => ?_, fun c hc => .inl (hdigits m c hc)⟩
    exact absurd (Nat.toList_repr.symm.trans h) Nat.toDigits_ne_nil
  | negSucc m =>
    have htext : (toString (Int.negSucc m)).toList = '-' :: m.succ.repr.toList := by
      rw [show toString (Int.negSucc m) = "-" ++ m.succ.repr from rfl, String.toList_append]
      rfl
    rw [htext]
    refine ⟨List.cons_ne_nil _ _, fun c hc => ?_⟩
    rcases List.mem_cons.mp hc with rfl | hc
    · exact .inr rfl
    · exact .inl (hdigits m.succ c hc)

theorem well_word {text : String} (hne : text.toList ≠ [])
    (hall : text.toList.all isAtomChar = true) : Well (word text) :=
  well_one ⟨hne, List.all_eq_true.mp hall⟩

theorem well_int (n : Int) : Well (word (toString n)) := by
  refine well_word (int_chars n).1 (List.all_eq_true.mpr fun c hc => ?_)
  rcases (int_chars n).2 c hc with h | rfl
  · simp [isAtomChar, Char.isAlphanum, h]
  · decide

mutual

theorem well_tokens : ∀ v : JsonVal, Well v.tokens
  | .null => well_word (by decide) (by decide)
  | .bool true => well_word (by decide) (by decide)
  | .bool false => well_word (by decide) (by decide)
  | .int n => well_int n
  | .str s => well_one (literal_escape _)
  | .list [] => well_cons (by decide) (well_cons (by decide) well_nil)
  | .list (x :: xs) => well_cons (by decide) (well_items xs (well_tokens x))
  | .dict [] => well_cons (by decide) (well_cons (by decide) well_nil)
  | .dict ((key, v) :: ms) =>
    well_cons (by decide) (well_key key (well_members ms (well_tokens v)))

theorem well_items : ∀ (xs : List JsonVal) {ts : List JsonToken}, Well ts → Well (ts ++ restItems xs)
  | [], _, h => (well_punct (by decide)).mpr ⟨h, well_nil⟩
  | x :: xs, _, h => (well_punct (by decide)).mpr ⟨h, well_items xs (well_tokens x)⟩

theorem well_members : ∀ (ms : List (String × JsonVal)) {ts : List JsonToken}, Well ts →
    Well (ts ++ restMembers ms)
  | [], _, h => (well_punct (by decide)).mpr ⟨h, well_nil⟩
  | (key, v) :: ms, _, h =>
    (well_punct (by decide)).mpr ⟨h, well_key key (well_members ms (well_tokens v))⟩

end

/-! ## The tokens of a value are read as the value -/

/-- What `json.loads` does with numbers and with strings. -/
structure ReadsBack (J : JsonValues) : Prop where
  number : ∀ n : Int, n.natAbs.repr.length ≤ intMaxStrDigits → J.number (toString n) = .ok (.int n)
  string : ∀ raw cs, unescape raw = some cs → J.unescape raw = .ok (.ofList cs)

section Reading

variable {J : JsonValues}

theorem feedAll_one (s : JsonState) (t : JsonToken) : J.machine.feedAll s [t] = J.feed s t := by
  show (J.feed s t).bind Except.ok = _
  cases J.feed s t <;> rfl

theorem feedAll_cons {s s' : JsonState} {t : JsonToken} (h : J.feed s t = .ok s')
    (ts : List JsonToken) : J.machine.feedAll s (t :: ts) = J.machine.feedAll s' ts := by
  show (J.feed s t).bind _ = _
  rw [h]
  rfl

theorem feedAll_tokens {s s' : JsonState} {ts : List JsonToken} (h : J.machine.feedAll s ts = .ok s')
    (us : List JsonToken) : J.machine.feedAll s (ts ++ us) = J.machine.feedAll s' us := by
  rw [JsonMachine.feedAll_append, h]
  rfl

/-- A value may come next. -/
def Open (s : JsonState) : Prop := s.awaits = .value ∨ s.awaits = .firstItem

theorem feed_atom {s : JsonState} (hs : Open s) (text : String) :
    J.feed s (.atom text.toList) = (J.atomValue text).bind fun v => placeValue v s.frames := by
  obtain ⟨frames, awaits⟩ := s
  rcases hs with rfl | rfl <;> simp [JsonValues.feed]

theorem feed_string (hJ : ReadsBack J) {s : JsonState} (hs : Open s) (text : String) :
    J.feed s (.str (escape text.toList)) = placeValue (.str text) s.frames := by
  have htext : J.unescape (escape text.toList) = .ok text := by
    rw [hJ.string _ _ (unescape_escape _), String.ofList_toList]
  obtain ⟨frames, awaits⟩ := s
  rcases hs with rfl | rfl <;> simp [JsonValues.feed, htext, Except.bind]

theorem feed_open {s : JsonState} (hs : Open s) (hroom : s.frames.length < J.recursionLimit) :
    J.feed s (.punct '[') = .ok ⟨.list [] :: s.frames, .firstItem⟩ ∧
      J.feed s (.punct '\x7b') = .ok ⟨.dict [] :: s.frames, .firstKey⟩ := by
  obtain ⟨frames, awaits⟩ := s
  rcases hs with rfl | rfl <;>
    exact ⟨by simp [JsonValues.feed, JsonValues.feedPunct, JsonValues.openFrame, hroom],
      by simp [JsonValues.feed, JsonValues.feedPunct, JsonValues.openFrame, hroom]⟩

/-- A key and its colon, before the first member or behind a comma. -/
theorem feed_key (hJ : ReadsBack J) (key : String) (items : List (String × PyVal))
    (frames : List JsonFrame) {awaits : JsonAwaits} (h : awaits = .firstKey ∨ awaits = .key) :
    J.machine.feedAll ⟨.dict items :: frames, awaits⟩ (keyTokens key) =
      .ok ⟨.member items key :: frames, .value⟩ := by
  have htext : J.unescape (escape key.toList) = .ok key := by
    rw [hJ.string _ _ (unescape_escape _), String.ofList_toList]
  have hname : J.feed ⟨.dict items :: frames, awaits⟩ (.str (escape key.toList)) =
      .ok ⟨.dict items :: frames, .colon key⟩ := by
    rcases h with rfl | rfl <;> simp [JsonValues.feed, htext, Except.map]
  exact (feedAll_cons hname _).trans (feedAll_one _ _)

theorem atom_int (hJ : ReadsBack J) (n : Int) (h : n.natAbs.repr.length ≤ intMaxStrDigits) :
    J.atomValue (toString n) = .ok (.int n) := by
  -- no word begins like an integer
  have hword : ∀ (text : String) (c : Char), c ∈ text.toList → c.isDigit = false → c ≠ '-' →
      toString n ≠ text := by
    intro text c hmem hc hminus heq
    rw [← heq] at hmem
    rcases (int_chars n).2 c hmem with hd | hd
    · rw [hc] at hd
      cases hd
    · exact hminus hd
  unfold JsonValues.atomValue
  rw [if_neg (hword "null" 'n' (by decide) (by decide) (by decide)),
    if_neg (hword "true" 't' (by decide) (by decide) (by decide)),
    if_neg (hword "false" 'f' (by decide) (by decide) (by decide)), hJ.number n h]

/-- The value of a key that is new. -/
theorem placeValue_member {items : List (String × PyVal)} {key : String} (v : PyVal)
    (frames : List JsonFrame) (h : key ∉ items.map Prod.fst) :
    placeValue v (.member items key :: frames) =
      .ok ⟨.dict (items ++ [(key, v)]) :: frames, .separator⟩ := by
  rw [placeValue, Dict.setEntries_new v h]

mutual

/-- The tokens of a value are read as the value, if there is room for its containers. -/
theorem feed_tokens (hJ : ReadsBack J) : ∀ (v : JsonVal) {k : Nat} {s : JsonState}, v.Fits k →
    Open s → s.frames.length + k ≤ J.recursionLimit →
    J.machine.feedAll s v.tokens = placeValue v.toPy s.frames
  | .null, _, _, _, hs, _ => (feedAll_one _ _).trans (feed_atom hs "null")
  | .bool true, _, _, _, hs, _ => (feedAll_one _ _).trans (feed_atom hs "true")
  | .bool false, _, _, _, hs, _ => (feedAll_one _ _).trans (feed_atom hs "false")
  | .int n, _, s, hfit, hs, _ => by
    rw [tokens, word, feedAll_one, feed_atom hs, atom_int hJ n hfit]
    rfl
  | .str text, _, _, _, hs, _ => (feedAll_one _ _).trans (feed_string hJ hs text)
  | .list [], k, s, hfit, hs, hroom => by
    rw [tokens, feedAll_cons (feed_open hs (by have := hfit.1; omega)).1, feedAll_one]
    rfl
  | .list (x :: xs), k, s, hfit, hs, hroom => by
    have hk : 0 < k := hfit.1
    have hlen : (JsonFrame.list [] :: s.frames).length = s.frames.length + 1 := List.length_cons
    have hx := feed_tokens hJ x (s := ⟨.list [] :: s.frames, .firstItem⟩) hfit.2.1 (.inr rfl)
      (by rw [hlen]; omega)
    rw [tokens, feedAll_cons (feed_open hs (by omega)).1, feedAll_tokens hx]
    exact feed_items hJ xs hfit.2.2 [x.toPy] s.frames (by omega)
  | .dict [], k, s, hfit, hs, hroom => by
    rw [tokens, feedAll_cons (feed_open hs (by have := hfit.1; omega)).2, feedAll_one]
    rfl
  | .dict ((key, v) :: ms), k, s, hfit, hs, hroom => by
    have hk : 0 < k := hfit.1
    have hlen : (JsonFrame.member [] key :: s.frames).length = s.frames.length + 1 := List.length_cons
    have hv := feed_tokens hJ v (s := ⟨.member [] key :: s.frames, .value⟩) hfit.2.2.1 (.inl rfl)
      (by rw [hlen]; omega)
    rw [placeValue_member v.toPy s.frames List.not_mem_nil] at hv
    rw [tokens, feedAll_cons (feed_open hs (by omega)).2,
      feedAll_tokens (feed_key hJ key [] s.frames (.inl rfl)), feedAll_tokens hv]
    exact feed_members hJ ms hfit.2.2.2 [(key, v.toPy)] s.frames (by omega) hfit.2.1

theorem feed_items (hJ : ReadsBack J) : ∀ (xs : List JsonVal) {k : Nat}, ItemsFit xs k →
    ∀ (items : List PyVal) (frames : List JsonFrame), frames.length + 1 + k ≤ J.recursionLimit →
      J.machine.feedAll ⟨.list items :: frames, .separator⟩ (restItems xs) =
        placeValue (.list (items ++ pyItems xs)) frames
  | [], _, _, items, frames, _ => by
    rw [restItems, feedAll_one, pyItems, List.append_nil]
    rfl
  | x :: xs, k, hfit, items, frames, hroom => by
    have hx := feed_tokens hJ x (s := ⟨.list items :: frames, .value⟩) hfit.1 (.inl rfl)
      (by rw [List.length_cons]; omega)
    have hcomma : J.feed ⟨.list items :: frames, .separator⟩ (.punct ',') =
      .ok ⟨.list items :: frames, .value⟩ := rfl
    rw [restItems, feedAll_cons hcomma, feedAll_tokens hx,
      feed_items hJ xs hfit.2 (items ++ [x.toPy]) frames hroom, pyItems, List.append_assoc,
      List.singleton_append]

theorem feed_members (hJ : ReadsBack J) : ∀ (ms : List (String × JsonVal)) {k : Nat},
    MembersFit ms k → ∀ (items : List (String × PyVal)) (frames : List JsonFrame),
      frames.length + 1 + k ≤ J.recursionLimit → (items.map Prod.fst ++ ms.map Prod.fst).Nodup →
      J.machine.feedAll ⟨.dict items :: frames, .separator⟩ (restMembers ms) =
        placeValue (.dict ((items ++ pyMembers ms).map fun m => (.str m.1, m.2))) frames
  | [], _, _, items, frames, _, _ => by
    rw [restMembers, feedAll_one, pyMembers, List.append_nil]
    rfl
  | (key, v) :: ms, k, hfit, items, frames, hroom, hnd => by
    have hnew : key ∉ items.map Prod.fst := fun hmem =>
      (List.nodup_append.mp hnd).2.2 key hmem key List.mem_cons_self rfl
    have hv := feed_tokens hJ v (s := ⟨.member items key :: frames, .value⟩) hfit.1 (.inl rfl)
      (by rw [List.length_cons]; omega)
    rw [placeValue_member v.toPy frames hnew] at hv
    have hcomma : J.feed ⟨.dict items :: frames, .separator⟩ (.punct ',') =
      .ok ⟨.dict items :: frames, .key⟩ := rfl
    have hrest : ((items ++ [(key, v.toPy)]).map Prod.fst ++ ms.map Prod.fst).Nodup := by
      rw [List.map_append, List.append_assoc]
      exact hnd
    rw [restMembers, feedAll_cons hcomma, feedAll_tokens (feed_key hJ key items frames (.inr rfl)),
      feedAll_tokens hv, feed_members hJ ms hfit.2 (items ++ [(key, v.toPy)]) frames hroom hrest,
      pyMembers, List.append_assoc, List.singleton_append]

end

end Reading

/-! ## Round trip -/

theorem membersFit_iff {ms : List (String × JsonVal)} {k : Nat} :
    MembersFit ms k ↔ ∀ m ∈ ms, m.2.Fits k := by
  induction ms with
  | nil => exact ⟨fun _ m hm => absurd hm List.not_mem_nil, fun _ => trivial⟩
  | cons m ms ih =>
    rw [List.forall_mem_cons, ← ih]
    rfl

theorem map_fst_sortMembers (ms : List (String × JsonVal)) :
    (sortMembers ms).map Prod.fst = ms.map Prod.fst := by
  induction ms with
  | nil => rfl
  | cons m ms ih => exact congrArg (m.1 :: ·) ih

mutual

theorem fits_sortKeys : ∀ (v : JsonVal) {k : Nat}, v.Fits k → v.sortKeys.Fits k
  | .null, _, h | .bool _, _, h | .int _, _, h | .str _, _, h => h
  | .list xs, _, h => ⟨h.1, fits_sortItems xs h.2⟩
  | .dict ms, k, h => by
    have hperm := List.perm_insertionSort (fun a b => a.1 ≤ b.1) (sortMembers ms)
    refine ⟨h.1, (hperm.map Prod.fst).nodup_iff.mpr ?_, membersFit_iff.mpr fun m hm => ?_⟩
    · rw [map_fst_sortMembers]
      exact h.2.1
    · exact membersFit_iff.mp (fits_sortMembers ms h.2.2) m (hperm.mem_iff.mp hm)

theorem fits_sortItems : ∀ (xs : List JsonVal) {k : Nat}, ItemsFit xs k → ItemsFit (sortItems xs) k
  | [], _, _ => trivial
  | x :: xs, _, h => ⟨fits_sortKeys x h.1, fits_sortItems xs h.2⟩

theorem fits_sortMembers : ∀ (ms : List (String × JsonVal)) {k : Nat}, MembersFit ms k →
    MembersFit (sortMembers ms) k
  | [], _, _ => trivial
  | (_, v) :: ms, _, h => ⟨fits_sortKeys v h.1, fits_sortMembers ms h.2⟩

end

/-- Every value that can be written comes back, with the keys of its dictionaries in order. -/
theorem loads_dumps {J : JsonValues} (hJ : ReadsBack J) (v : JsonVal) (h : v.Fits J.recursionLimit) :
    jsonLoads J v.dumps = .ok v.sortKeys.toPy := by
  have hread : J.machine.feedAll J.machine.start v.sortKeys.tokens =
      .ok ⟨[], .done v.sortKeys.toPy⟩ :=
    feed_tokens hJ v.sortKeys (fits_sortKeys v h) (.inl rfl) (Nat.le_of_eq (Nat.zero_add _))
  obtain ⟨hok, hapart⟩ := well_tokens v.sortKeys
  rw [jsonLoads, dumps, String.toList_ofList, JsonMachine.loads_texts _ hok hapart, hread]
  rfl

/-- Numbers in decimal, and the escapes of JSON. -/
def pythonValues : JsonValues where
  number := plainValues.number
  unescape := fun raw => match unescape raw with
    | some cs => .ok (.ofList cs)
    | none => .error .decode
  recursionLimit := 1000

theorem pythonValues_readsBack : ReadsBack pythonValues where
  number n _ := by
    show plainValues.number (toString n) = _
    unfold plainValues
    simp only [readInt_toString]
  string raw cs h := by
    unfold pythonValues
    simp only [h]

/-- Escapes, a surrogate pair and keys out of order. -/
theorem loads_dumps_nested :
    jsonLoads pythonValues
        (JsonVal.dict [("b", .list [.int (-7), .str "\"é\n😀"]), ("a", .dict [])]).dumps =
      .ok (.dict [(.str "a", .dict []), (.str "b", .list [.int (-7), .str "\"é\n😀"])]) :=
  loads_dumps pythonValues_readsBack
    (.dict [("b", .list [.int (-7), .str "\"é\n😀"]), ("a", .dict [])])
    ⟨by decide, by decide, ⟨by decide, (by decide : (7).repr.length ≤ 4300), trivial, trivial⟩,
      ⟨by decide, by decide, trivial⟩, trivial⟩

end JsonVal

/-! ## The Redis bus -/

/-- The envelope, as it is written. -/
def Envelope.toJson (isoformat : Time → String) (e : Envelope) : JsonVal :=
  .dict [("event_id", .str e.eventId), ("tenant_id", .str e.tenantId),
    ("customer_id", match e.customerId with | some c => .str c | none => .null),
    ("channel_code", .str e.channelCode), ("event_type", .str e.eventType),
    ("received_at", .str (isoformat e.receivedAt))]

/-- `RedisEventBus.publish`: the messages that were sent to the client, by channel. -/
def RedisEventBus.publish (isoformat : Time → String) (sent : List (String × String))
    (channel : String) (payload : Envelope) : List (String × String) :=
  sent ++ [(channel, (payload.toJson isoformat).dumps)]

/-- What `json.loads` reads of a message of the bus. -/
def Envelope.received (isoformat : Time → String) (e : Envelope) : EventEnvelope :=
  [(.str "channel_code", .str e.channelCode),
    (.str "customer_id", match e.customerId with | some c => .str c | none => .none),
    (.str "event_id", .str e.eventId), (.str "event_type", .str e.eventType),
    (.str "received_at", .str (isoformat e.receivedAt)), (.str "tenant_id", .str e.tenantId)]

section Delivery

variable {J : JsonValues} {isoformat : Time → String}

theorem sortKeys_toJson (e : Envelope) :
    (e.toJson isoformat).sortKeys.toPy = .dict (e.received isoformat) := by
  obtain ⟨eventId, tenantId, customerId, channelCode, eventType, receivedAt⟩ := e
  cases customerId <;>
    simp [Envelope.toJson, Envelope.received, JsonVal.sortKeys, JsonVal.sortMembers,
      List.insertionSort, JsonVal.toPy, JsonVal.pyMembers]

theorem loads_envelope (hJ : JsonVal.ReadsBack J) (hroom : 0 < J.recursionLimit) (e : Envelope) :
    jsonLoads J (e.toJson isoformat).dumps = .ok (.dict (e.received isoformat)) := by
  have hfit : (e.toJson isoformat).Fits J.recursionLimit := by
    refine ⟨hroom, by simp, ?_⟩
    cases e.customerId <;> simp [JsonVal.MembersFit, JsonVal.Fits]
  rw [JsonVal.loads_dumps hJ _ hfit, sortKeys_toJson]

/-- What was received has the entries of the envelope. -/
theorem received_get (e : Envelope) (key : String) :
    objGet (e.received isoformat) key = (e.toDict isoformat).get? key := by
  obtain ⟨eventId, tenantId, customerId, channelCode, eventType, receivedAt⟩ := e
  simp only [objGet, Envelope.received, Envelope.toDict, Payload.of, Dict.get?_set,
    Dict.get?_empty, List.foldl_cons, List.foldl_nil, List.findSome?_cons, List.findSome?_nil]
  -- the entries stand in another order
  grind

variable {D : Decoders}

/-- The text of a message. -/
def Decoders.text (D : Decoders) : MessageData → Option String
  | .str s => some s
  | .bytes bs => D.utf8 bs
  | _ => none

/-- The texts are those of messages that the loop meets, in their order. Between them there may be
polls that come to nothing: timeouts, exceptions of the SDK, and data that is no JSON object. -/
inductive Carries (D : Decoders) : List Poll → List String → Prop
  | nil : Carries D [] []
  | noise {p : Poll} {polls : List Poll} {texts : List String} (hfatal : D.fatal p = none)
      (hobject : D.object p = none) (h : Carries D polls texts) : Carries D (p :: polls) texts
  | message {data : MessageData} {polls : List Poll} {text : String} {texts : List String}
      (htext : D.text data = some text) (h : Carries D polls texts) :
      Carries D (.message data :: polls) (text :: texts)

theorem envelope_of_text {data : MessageData} {text : String} {v : PyVal}
    (htext : D.text data = some text) (hloads : D.loads text = .ok v) :
    D.envelope data = .ok (some v) := by
  cases data with
  | none => cases htext
  | other v => cases htext
  | str s =>
    obtain rfl : s = text := Option.some.inj htext
    simp only [Decoders.envelope, hloads, Decoders.envelope.loaded]
  | bytes bs =>
    have hutf8 : D.utf8 bs = some text := htext
    simp only [Decoders.envelope, hutf8, hloads, Decoders.envelope.loaded]

/-- The messages of the bus are the JSON objects among the polls, and none of the polls is fatal. -/
theorem Carries.objects (hJ : JsonVal.ReadsBack J) (hroom : 0 < J.recursionLimit)
    (hD : D.loads = jsonLoads J) {polls : List Poll} {es : List Envelope}
    (h : Carries D polls (es.map fun e => (e.toJson isoformat).dumps)) :
    polls.filterMap D.object = es.map (Envelope.received isoformat) ∧
      ∀ p ∈ polls, D.fatal p = none := by
  generalize htexts : es.map (fun e => (e.toJson isoformat).dumps) = texts at h
  induction h generalizing es with
  | nil =>
    rw [List.map_eq_nil_iff.mp htexts]
    exact ⟨rfl, fun p hp => absurd hp List.not_mem_nil⟩
  | noise hfatal hobject _ ih =>
    obtain ⟨hobjects, hall⟩ := ih htexts
    exact ⟨(List.filterMap_cons_none hobject).trans hobjects,
      List.forall_mem_cons.mpr ⟨hfatal, hall⟩⟩
  | @message data polls text texts htext _ ih =>
    obtain ⟨e, rest, rfl, rfl, hrest⟩ := List.map_eq_cons_iff.mp htexts
    obtain ⟨hobjects, hall⟩ := ih hrest
    have hdata : D.envelope data = .ok (some (.dict (e.received isoformat))) :=
      envelope_of_text htext (by rw [hD, loads_envelope hJ hroom e])
    have hobject : D.object (.message data) = some (e.received isoformat) := by
      simp only [Decoders.object, hdata]
    have hfatal : D.fatal (.message data) = none := by
      simp only [Decoders.fatal, hdata]
    refine ⟨?_, List.forall_mem_cons.mpr ⟨hfatal, hall⟩⟩
    rw [List.filterMap_cons_some hobject, hobjects, List.map_cons]

theorem publish_all (calls : List (String × Envelope)) (sent : List (String × String)) :
    calls.foldl (fun sent c => RedisEventBus.publish isoformat sent c.1 c.2) sent =
      sent ++ calls.map fun c => (c.1, (c.2.toJson isoformat).dumps) := by
  induction calls generalizing sent with
  | nil => exact (List.append_nil sent).symm
  | cons c calls ih =>
    rw [List.foldl_cons, ih, RedisEventBus.publish, List.append_assoc, List.singleton_append,
      List.map_cons]

/-- Whatever else the subscription meets, the worker stays up and calls the handler once for each
envelope that was published, in their order, with what the in-memory listener would call it with. -/
theorem redis_path (hJ : JsonVal.ReadsBack J) (hroom : 0 < J.recursionLimit)
    (hD : D.loads = jsonLoads J) {handler : EventHandler}
    (hcatch : ∀ seen envelope e, handler seen envelope = some e → e.isException = true)
    (calls : List (String × Envelope)) {events : List PumpEvent}
    (h : Carries D (heard events)
      ((calls.foldl (fun sent c => RedisEventBus.publish isoformat sent c.1 c.2) []).map Prod.snd)) :
    Pump.Survived D events (Pump.run D handler {} events) ∧
      List.Forall₂ (fun call received => ∀ key,
          objGet received key = (call.2.toDict isoformat).get? key)
        calls (Pump.run D handler {} events).handled := by
  rw [publish_all, List.nil_append, List.map_map] at h
  have hes : Carries D (heard events)
      ((calls.map Prod.snd).map fun e => (e.toJson isoformat).dumps) := by
    rw [List.map_map]
    exact h
  obtain ⟨hobjects, hfatal⟩ := hes.objects hJ hroom hD
  have hsurvived := (pump_survives hcatch events).mpr hfatal
  refine ⟨hsurvived, ?_⟩
  rw [hsurvived.handled, hobjects, List.map_map, List.forall₂_map_right_iff]
  exact List.forall₂_same.mpr fun call _ key => received_get call.2 key

/-- The message of an envelope that names no customer. -/
def sampleMessage : String :=
  "\x7b\"channel_code\":\"SYSTEM\",\"customer_id\":null,\"event_id\":\"evt_1\"," ++
    "\"event_type\":\"FORM_SUBMITTED\",\"received_at\":\"\\u00e9\",\"tenant_id\":\"t1\"\x7d"

def sampleEnvelope : Envelope := ⟨"evt_1", "t1", none, "SYSTEM", "FORM_SUBMITTED", 0⟩

def wireDecoders : Decoders where
  utf8 _ := none
  loads := jsonLoads JsonVal.pythonValues
  loadsOther _ := .error .decode

/-- A list among the messages, and a handler that raises. -/
theorem redis_path_noisy :
    List.Forall₂ (fun call received => List.Forall
        (fun key => objGet received key = (call.2.toDict fun _ => "é").get? key)
        ["tenant_id", "received_at"])
      [(channelFor "t1", sampleEnvelope)]
      (Pump.run wireDecoders failingHandler {}
        [.poll (.message (.str "[]")), .poll .nothing,
          .poll (.message (.str sampleMessage))]).handled := by
  have hcarries : Carries wireDecoders [.message (.str "[]"), .nothing, .message (.str sampleMessage)]
      [(sampleEnvelope.toJson fun _ => "é").dumps] :=
    .noise rfl rfl (.noise rfl rfl (.message (by decide +kernel) .nil))
  exact (redis_path JsonVal.pythonValues_readsBack (by decide) rfl failingHandler_catchable
    [(channelFor "t1", sampleEnvelope)] hcarries).2.imp fun _ _ h => ⟨h _, h _⟩

end Delivery
end PennyCore
