import PennyCore.Lib.JsonScan
import PennyCore.Orchestrator.PolicyEngines

/-!
# `json.loads`

The scanner of `Lib.JsonMachine` over the grammar of values. The value of a number, the escapes of a
string and the depth of the recursion are the parameter `JsonValues`.
-/

namespace PennyCore

open Lib

/-- What `json.loads` takes from the language: the value of a number (or of `NaN` and the infinities),
the text of a string literal, and how deep it may recurse. -/
structure JsonValues where
  number : String → Except JsonError PyVal
  unescape : List Char → Except JsonError String
  recursionLimit : Nat

/-- A container that is being read. -/
inductive JsonFrame where
  | list (items : List PyVal)
  | dict (items : List (String × PyVal))
  /-- An object whose next value is that of `key`. -/
  | member (items : List (String × PyVal)) (key : String)

/-- What may come next. -/
inductive JsonAwaits where
  | value
  /-- A value, or the end of the list. -/
  | firstItem
  /-- A key, or the end of the object. -/
  | firstKey
  | key
  | colon (key : String)
  | separator
  | done (v : PyVal)

structure JsonState where
  frames : List JsonFrame
  awaits : JsonAwaits

/-- A value has been read. -/
def placeValue (v : PyVal) : List JsonFrame → Except JsonError JsonState
  | [] => .ok ⟨[], .done v⟩
  | .list items :: frames => .ok ⟨.list (items ++ [v]) :: frames, .separator⟩
  | .member items key :: frames => .ok ⟨.dict (Dict.setEntries key v items) :: frames, .separator⟩
  | .dict _ :: _ => .error .decode

namespace JsonValues

variable (J : JsonValues)

def atomValue (text : String) : Except JsonError PyVal :=
  if text = "null" then .ok .none
  else if text = "true" then .ok (.bool true)
  else if text = "false" then .ok (.bool false)
  else J.number text

/-- A container begins. -/
def openFrame (frame : JsonFrame) (next : JsonAwaits) (s : JsonState) : Except JsonError JsonState :=
  match s.awaits with
  | .value | .firstItem =>
    if s.frames.length < J.recursionLimit then .ok ⟨frame :: s.frames, next⟩
    else .error (.other "RecursionError")
  | _ => .error .decode

def feedPunct (c : Char) (s : JsonState) : Except JsonError JsonState :=
  if c = '[' then J.openFrame (.list []) .firstItem s
  else if c = '\x7b' then J.openFrame (.dict []) .firstKey s
  else
    match s.awaits, s.frames with
    | .firstItem, .list items :: frames =>
      if c = ']' then placeValue (.list items) frames else .error .decode
    | .firstKey, .dict items :: frames =>
      if c = '\x7d' then placeValue (.dict (items.map fun p => (.str p.1, p.2))) frames
      else .error .decode
    | .colon key, .dict items :: frames =>
      if c = ':' then .ok ⟨.member items key :: frames, .value⟩ else .error .decode
    | .separator, .list items :: frames =>
      if c = ']' then placeValue (.list items) frames
      else if c = ',' then .ok ⟨.list items :: frames, .value⟩ else .error .decode
    | .separator, .dict items :: frames =>
      if c = '\x7d' then placeValue (.dict (items.map fun p => (.str p.1, p.2))) frames
      else if c = ',' then .ok ⟨.dict items :: frames, .key⟩ else .error .decode
    | _, _ => .error .decode

def feed (s : JsonState) : JsonToken → Except JsonError JsonState
  | .punct c => J.feedPunct c s
  | .atom text =>
    match s.awaits with
    | .value | .firstItem => (J.atomValue (.ofList text)).bind fun v => placeValue v s.frames
    | _ => .error .decode
  | .str raw =>
    match s.awaits with
    | .value | .firstItem => (J.unescape raw).bind fun text => placeValue (.str text) s.frames
    | .firstKey | .key => (J.unescape raw).map fun text => ⟨s.frames, .colon text⟩
    | _ => .error .decode

def machine : JsonMachine JsonState JsonError PyVal where
  start := ⟨[], .value⟩
  feed := J.feed
  close := fun s => match s.awaits with
    | .done v => .ok v
    | _ => .error .decode
  invalid := .decode

end JsonValues

/-- `json.loads`. -/
def jsonLoads (J : JsonValues) (text : String) : Except JsonError PyVal := J.machine.loads text.toList

/-- Numbers are decimal, and strings have no escapes. -/
def plainValues : JsonValues where
  number := fun text => match readInt text with
    | some n => .ok (.int n)
    | none => .error .decode
  unescape := fun raw => .ok (.ofList raw)
  recursionLimit := 1000

end PennyCore
