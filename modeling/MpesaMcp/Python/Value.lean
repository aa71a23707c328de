import MpesaMcp.Python.Float
import MpesaMcp.Python.Text

/-!
# Python values of a parsed JSON document

`PyValue` is what `json.loads` returns: `None`, booleans, integers, floats, strings, lists and
dictionaries. A dictionary is the list of its items in insertion order; `lookup` reads it.

`str` and `int` are the built-in conversions the application applies to such values. `str` never
fails on a parsed document. `int` fails in three ways, and callers catch only some of them: a list,
a dictionary or `None` is a `TypeError`, a string that is no number and a float that is not a number
are a `ValueError`, an infinite float is an `OverflowError`.
-/

set_option autoImplicit false

namespace Python

/-- A value of a parsed JSON document. -/
inductive PyValue
  | none
  | bool (b : Bool)
  | int (i : Int)
  | float (f : PyFloat)
  | str (s : String)
  | list (xs : List PyValue)
  | dict (items : List (String × PyValue))

/-- The items of a dictionary, in insertion order. -/
abbrev PyDict := List (String × PyValue)

/-- `d.get(key)`: the value, or `None` where the key is missing. -/
def lookup (d : PyDict) (key : String) : PyValue :=
  match d.find? (fun item => decide (item.1 = key)) with
  | some item => item.2
  | Option.none => .none

/-- `key in d`. -/
def hasKey (d : PyDict) (key : String) : Bool := d.any fun item => decide (item.1 = key)

/-- `d.get(key, default)`: the default only where the key is missing. -/
def lookupD (d : PyDict) (key : String) (default : PyValue) : PyValue :=
  if hasKey d key then lookup d key else default

/-- `d[key] = value`: in place where the key is present, at the end otherwise. -/
def assign : PyDict → String → PyValue → PyDict
  | [], key, value => [(key, value)]
  | (k, v) :: rest, key, value =>
    if k = key then (k, value) :: rest else (k, v) :: assign rest key value

/-- The number of a value with `isinstance(value, int)`; a boolean is one. -/
def PyValue.asInt? : PyValue → Option Int
  | .int i => some i
  | .bool b => some (if b then 1 else 0)
  | _ => Option.none

/-- The text of a value with `isinstance(value, str)`. -/
def PyValue.asStr? : PyValue → Option String
  | .str s => some s
  | _ => Option.none

/-- The last value assigned is the one read. -/
theorem lookup_assign (d : PyDict) (key key' : String) (value : PyValue) :
    lookup (assign d key value) key' = if key' = key then value else lookup d key' := by
  induction d with
  | nil =>
    by_cases h : key' = key
    · simp [assign, lookup, h]
    · simp [assign, lookup, h, Ne.symm h]
  | cons item rest ih =>
    obtain ⟨k, v⟩ := item
    by_cases hk : k = key
    · by_cases h : key' = key
      · simp [assign, lookup, hk, h]
      · have hk' : ¬ key = key' := fun he => h he.symm
        simp [assign, lookup, hk, h, hk']
    · by_cases hk' : k = key'
      · have h : ¬ key' = key := fun he => hk (hk'.trans he)
        simp [assign, lookup, hk', h]
      · simp only [lookup] at ih
        simp only [assign, hk, if_false, lookup, List.find?_cons, hk', decide_false]
        exact ih

/-- A missing key reads as `None`. -/
theorem lookup_of_not_hasKey {d : PyDict} {key : String} (h : hasKey d key = false) :
    lookup d key = .none := by
  have hfind : d.find? (fun item => decide (item.1 = key)) = Option.none := by
    simpa [hasKey] using h
  simp only [lookup, hfind]

/-! ## `str()` -/

section Str

variable (isPrintable : Char → Bool)

mutual

/-- `repr(value)`. -/
def PyValue.repr : PyValue → String
  | .none => "None"
  | .bool true => "True"
  | .bool false => "False"
  | .int i => toString i
  | .float f => f.repr
  | .str s => reprText isPrintable s
  | .list xs => "[" ++ ", ".intercalate (reprList xs) ++ "]"
  | .dict items => "\x7b" ++ ", ".intercalate (reprItems items) ++ "\x7d"

def reprList : List PyValue → List String
  | [] => []
  | x :: xs => x.repr :: reprList xs

def reprItems : List (String × PyValue) → List String
  | [] => []
  | (key, value) :: items =>
    (reprText isPrintable key ++ ": " ++ value.repr) :: reprItems items

end

/-- `str(value)`. -/
def PyValue.toStr : PyValue → String
  | .str s => s
  | value => value.repr isPrintable

end Str

/-! ## `int()` -/

/-- The ways `int(value)` raises. -/
inductive IntError
  | typeError
  | valueError
  | overflowError
deriving DecidableEq

/-- `int(value)`. -/
def PyValue.toInt : PyValue → Except IntError Int
  | .none => .error .typeError
  | .bool b => .ok (if b then 1 else 0)
  | .int i => .ok i
  | .float (.finite d) => .ok d.trunc
  | .float (.inf _) => .error .overflowError
  | .float .nan => .error .valueError
  | .str s =>
    match intOfText s with
    | some i => .ok i
    | Option.none => .error .valueError
  | .list _ => .error .typeError
  | .dict _ => .error .typeError

end Python
