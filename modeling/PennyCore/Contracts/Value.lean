import Mathlib.Algebra.Field.Defs
import Mathlib.Algebra.Order.Floor.Defs
import PennyCore.Lib.Dict

/-!
# Values that cross the contracts

The contracts (`src/contracts`) are validating records. Three things are shared by all of them:

* `Str lo hi`: a string that passed `Field(min_length=lo, max_length=hi)`. A contract's string
  field has this type, so a record with a bad field cannot be built; `Str.check` is the check made
  at construction, and `ValidationError` what it raises. A field with bounds also refuses a string
  with a lone surrogate (`WellFormed`); a plain `str`, and what stands in a `dict[str, Any]`, is not
  checked for that.
* `PyVal`: a value of type `Any`, as it appears in a `dict[str, Any]`.
* `Payload`: such a dictionary.
-/

namespace PennyCore

open Lib

/-- A contract refused a field. -/
structure ValidationError where
  model : String
  field : String
  deriving DecidableEq, Repr

/-- `ValueError`, with its text. -/
structure ValueError where
  message : String
  deriving DecidableEq, Repr

/-- Lean's characters are the Unicode scalar values, those of a Python string also the 2048 surrogates.
The last 2048 private-use characters stand for these: the source tells a surrogate from a private-use
character nowhere but where a contract, or an encoder, refuses it. -/
def isSurrogate (c : Char) : Bool := Nat.ble 0x10F800 c.toNat

/-- The string has no lone surrogate. -/
def WellFormed (s : String) : Prop := ∀ c ∈ s.toList, isSurrogate c = false

instance : DecidablePred WellFormed := fun s =>
  List.decidableBAll (fun c => isSurrogate c = false) s.toList

theorem WellFormed.append {a b : String} (ha : WellFormed a) (hb : WellFormed b) :
    WellFormed (a ++ b) := by
  intro c hc
  rw [String.toList_append] at hc
  rcases List.mem_append.mp hc with hc | hc
  · exact ha c hc
  · exact hb c hc

/-- What a field with `max_length=hi` takes. -/
abbrev UpTo (hi : Nat) (s : String) : Prop := s.length ≤ hi ∧ WellFormed s

/-- A string that `Field(min_length=lo, max_length=hi)` accepts. -/
abbrev Str (lo hi : Nat) : Type := { s : String // lo ≤ s.length ∧ UpTo hi s }

/-- The checks of the field `field` of the contract `model`. -/
def Str.check (lo hi : Nat) (model field s : String) : Except ValidationError (Str lo hi) :=
  if h : lo ≤ s.length ∧ UpTo hi s then .ok ⟨s, h⟩ else .error ⟨model, field⟩

theorem Str.check_ok {lo hi : Nat} {model field s : String} (h : lo ≤ s.length ∧ UpTo hi s) :
    Str.check lo hi model field s = .ok ⟨s, h⟩ := dif_pos h

theorem Str.check_error {lo hi : Nat} {model field s : String}
    (h : ¬ (lo ≤ s.length ∧ UpTo hi s)) :
    Str.check lo hi model field s = .error ⟨model, field⟩ := dif_neg h

/-- An optional field: `None` passes. -/
def Str.checkOpt (hi : Nat) (model field : String) :
    Option String → Except ValidationError (Option (Str 0 hi))
  | none => .ok none
  | some s => (Str.check 0 hi model field s).map some

theorem Str.checkOpt_ok {hi : Nat} {model field s : String} (h : UpTo hi s) :
    Str.checkOpt hi model field (some s) = .ok (some ⟨s, Nat.zero_le _, h⟩) := by
  rw [checkOpt, Str.check_ok ⟨Nat.zero_le _, h⟩]; rfl

theorem Str.checkOpt_error {hi : Nat} {model field s : String} (h : ¬ UpTo hi s) :
    Str.checkOpt hi model field (some s) = .error ⟨model, field⟩ := by
  rw [checkOpt, Str.check_error fun h' => h h'.2]; rfl

/-- The hex form of a `uuid4()` draw. -/
abbrev Uuid : Type := { s : String // s.length = 32 ∧ WellFormed s }

theorem zeros_uuid : "00000000000000000000000000000000".length = 32 ∧
    WellFormed "00000000000000000000000000000000" := by decide

theorem t1_str : 1 ≤ "t1".length ∧ UpTo 64 "t1" := by decide

theorem t2_str : 1 ≤ "t2".length ∧ UpTo 64 "t2" := by decide

theorem evt1_str : 1 ≤ "evt_1".length ∧ UpTo 64 "evt_1" := by decide

/-- An id that the server makes: a short tag, then a `Uuid`. -/
def Uuid.tagged (tag : String) (u : Uuid) (h : UpTo 32 tag) : Str 1 64 :=
  ⟨tag ++ u.1, by rw [String.length_append, u.2.1]; omega,
    by rw [String.length_append, u.2.1]; omega, h.2.append u.2.2⟩

/-- A value of type `Any`. `obj` is any value that is none of the others: the name of its type and
its truth value. Such values, which no JSON text has, are taken to be hashable. -/
inductive PyVal where
  | none
  | bool (b : Bool)
  | int (n : Int)
  | str (s : String)
  | list (xs : List PyVal)
  | dict (xs : List (PyVal × PyVal))
  | obj (typeName : String) (truthy : Bool)

/-- `bool(v)`. -/
def PyVal.truthy : PyVal → Bool
  | .none => false
  | .bool b => b
  | .int n => n != 0
  | .str s => s != ""
  | .list xs => !xs.isEmpty
  | .dict xs => !xs.isEmpty
  | .obj _ t => t

/-- `type(v).__name__`. -/
def PyVal.typeName : PyVal → String
  | .none => "NoneType"
  | .bool _ => "bool"
  | .int _ => "int"
  | .str _ => "str"
  | .list _ => "list"
  | .dict _ => "dict"
  | .obj t _ => t

/-- `dict[str, Any]`. -/
abbrev Payload : Type := Dict String PyVal

/-- A dictionary with the given items, later ones winning. -/
def Payload.of (items : List (String × PyVal)) : Payload :=
  items.foldl (fun d p => d.set p.1 p.2) ∅

/-- A point in time (microseconds). The clock is read once for each call that stamps records; no
modelled function compares two readings. -/
abbrev Time : Type := Nat

/-! ### Numerals of a field -/

instance two_atLeastTwo : Nat.AtLeastTwo 2 := ⟨Nat.le_refl 2⟩

instance ten_atLeastTwo : Nat.AtLeastTwo 10 := ⟨by decide⟩

/-- The nearest integer; of two, the even one. -/
def roundHalfEven {K : Type} [Field K] [LinearOrder K] [FloorRing K] (x : K) : Int :=
  let rest := x - ⌊x⌋
  if rest < 1 / 2 then ⌊x⌋
  else if 1 / 2 < rest then ⌊x⌋ + 1
  else if ⌊x⌋ % 2 = 0 then ⌊x⌋ else ⌊x⌋ + 1

end PennyCore
