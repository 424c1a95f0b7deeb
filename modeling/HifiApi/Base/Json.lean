import HifiApi.Base.Numbers

/-!
# JSON values

The values of {lit}`serde_json` and the accessors the repository reads them
with.  A stored text is modelled by what {lit}`from_str` makes of it: a value,
or nothing when the text is not JSON.
-/

namespace HifiApi

/-- The values of {lit}`serde_json::Value`; numbers that are not integers of
64 bits carry no data, since no accessor in use reads them. -/
inductive Value where
  | null
  | bool (b : Bool)
  | number (n : Int)
  | float
  | string (s : String)
  | array (items : List Value)
  | object (fields : List (String × Value))

namespace Value

/-- The field of an object; other values have none. -/
def get (v : Value) (k : String) : Option Value :=
  match v with
  | object fields => (fields.find? fun field => decide (field.1 = k)).map (·.2)
  | _ => none

def asStr : Value -> Option String
  | string s => some s
  | _ => none

def asBool : Value -> Option Bool
  | bool b => some b
  | _ => none

def asI64 : Value -> Option I64
  | number n => I64.ofInt? n
  | _ => none

def asU64 : Value -> Option U64
  | number (Int.ofNat n) => U64.ofNat? n
  | _ => none

def asArray : Value -> Option (List Value)
  | array items => some items
  | _ => none

def isObject : Value -> Bool
  | object _ => true
  | _ => false

/-- What a field holds by index; {lit}`null` when there is no such field. -/
def index (v : Value) (k : String) : Value := (v.get k).getD null

/-- A field put into an object; other values have no place for it. -/
def insert (v : Value) (k : String) (x : Value) : Value :=
  match v with
  | object fields =>
      object ((k, x) :: fields.filter fun field => decide (field.1 ≠ k))
  | other => other

/-- The closure {lit}`str_field` of both merges. -/
def strField (v : Value) (k : String) : String :=
  ((v.get k).bind asStr).getD ""

/-- A string, or {lit}`null` when there is none. -/
def ofOption : Option String -> Value
  | some s => string s
  | none => null

@[simp] theorem asStr_string (s : String) : (string s).asStr = some s := rfl

@[simp] theorem asBool_bool (b : Bool) : (bool b).asBool = some b := rfl

@[simp] theorem asI64_number (n : I64) : (number n.val).asI64 = some n := by
  simp [asI64]

@[simp] theorem asU64_number (n : U64) :
    (number (Int.ofNat n.val)).asU64 = some n := by
  simp [asU64]

@[simp] theorem asArray_array (items : List Value) :
    (array items).asArray = some items := rfl

theorem get_insert_self (fields : List (String × Value)) (k : String) (x : Value) :
    ((object fields).insert k x).get k = some x := by
  simp [insert, get]

@[simp] theorem asStr_ofOption (s : Option String) :
    (ofOption s).asStr = s := by
  cases s <;> rfl

end Value

end HifiApi
