import Mathlib.Tactic.Common

/-!
# JSON values

Numbers are of any type with decidable equality; an object is the list of its
fields in the order of its map.
-/
namespace Json

inductive Value (N : Type) where
  | null
  | bool (value : Bool)
  | number (value : N)
  | string (value : String)
  | array (items : List (Value N))
  | object (fields : List (String × Value N))

namespace Value

variable {N : Type}

def asStr : Value N → Option String
  | .string value => some value
  | _ => none

def asArray : Value N → Option (List (Value N))
  | .array items => some items
  | _ => none

def asObject : Value N → Option (List (String × Value N))
  | .object fields => some fields
  | _ => none

def asBool : Value N → Option Bool
  | .bool value => some value
  | _ => none

/-- The value of a key; only an object has any. -/
def get (value : Value N) (key : String) : Option (Value N) :=
  value.asObject.bind fun fields => fields.lookup key

theorem asArray_eq_some {value : Value N} {items : List (Value N)}
    (h : value.asArray = some items) : value = .array items := by
  cases value <;> cases h
  rfl

theorem asBool_eq_some {value : Value N} {b : Bool} (h : value.asBool = some b) :
    value = .bool b := by
  cases value <;> cases h
  rfl

def isBoolean : Value N → Bool
  | .bool _ => true
  | _ => false

/-- Induction through the items and the fields of a value. -/
@[elab_as_elim]
theorem induction {P : Value N → Prop} (null : P .null) (bool : ∀ value, P (.bool value))
    (number : ∀ value, P (.number value)) (string : ∀ value, P (.string value))
    (array : ∀ items : List (Value N), (∀ item ∈ items, P item) → P (.array items))
    (object : ∀ fields : List (String × Value N), (∀ entry ∈ fields, P entry.2) →
      P (.object fields)) (value : Value N) : P value :=
  @Value.rec N P (fun items => ∀ item ∈ items, P item) (fun fields => ∀ entry ∈ fields, P entry.2)
    (fun entry => P entry.2) null bool number string array object
    (fun _ h => absurd h List.not_mem_nil)
    (fun _ _ head tail _ h => (List.mem_cons.mp h).elim (fun heq => heq ▸ head) (tail _))
    (fun _ h => absurd h List.not_mem_nil)
    (fun _ _ head tail _ h => (List.mem_cons.mp h).elim (fun heq => heq ▸ head) (tail _))
    (fun _ _ h => h) value

end Value

section Equality

variable {N : Type} [DecidableEq N]

mutual

/-- Equality of two values, decided along their structure. -/
def decEqValue : (a b : Value N) → Decidable (a = b)
  | .null, .null => isTrue rfl
  | .bool a, .bool b => decidable_of_iff (a = b) (by simp)
  | .number a, .number b => decidable_of_iff (a = b) (by simp)
  | .string a, .string b => decidable_of_iff (a = b) (by simp)
  | .array as, .array bs => @decidable_of_iff _ (as = bs) (by simp) (decEqItems as bs)
  | .object as, .object bs => @decidable_of_iff _ (as = bs) (by simp) (decEqFields as bs)
  | .null, .bool _ | .null, .number _ | .null, .string _ | .null, .array _ | .null, .object _
  | .bool _, .null | .bool _, .number _ | .bool _, .string _ | .bool _, .array _
  | .bool _, .object _ | .number _, .null | .number _, .bool _ | .number _, .string _
  | .number _, .array _ | .number _, .object _ | .string _, .null | .string _, .bool _
  | .string _, .number _ | .string _, .array _ | .string _, .object _ | .array _, .null
  | .array _, .bool _ | .array _, .number _ | .array _, .string _ | .array _, .object _
  | .object _, .null | .object _, .bool _ | .object _, .number _ | .object _, .string _
  | .object _, .array _ => isFalse (by simp)

def decEqItems : (as bs : List (Value N)) → Decidable (as = bs)
  | [], [] => isTrue rfl
  | a :: as, b :: bs => @decidable_of_iff _ (a = b ∧ as = bs) (by simp)
      (@instDecidableAnd _ _ (decEqValue a b) (decEqItems as bs))
  | [], _ :: _ | _ :: _, [] => isFalse (by simp)

def decEqFields : (as bs : List (String × Value N)) → Decidable (as = bs)
  | [], [] => isTrue rfl
  | (k, a) :: as, (l, b) :: bs => @decidable_of_iff _ (k = l ∧ a = b ∧ as = bs) (by simp [and_assoc])
      (@instDecidableAnd _ _ inferInstance
        (@instDecidableAnd _ _ (decEqValue a b) (decEqFields as bs)))
  | [], _ :: _ | _ :: _, [] => isFalse (by simp)

end

instance : DecidableEq (Value N) := decEqValue

end Equality

end Json
