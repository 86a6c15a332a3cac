import Mathlib.Data.Rat.Floor
import Mathlib.Data.UInt

/-!
# JSON values

The values of a JSON document and how a program reads them: members are looked up by name, and a
value is read as a text, a truth value or a number.  What cannot be read throws, with the text of
the error.  The tokens of the document that have no effect on its value, and the order of members,
are left out.
-/

namespace Kungfu.Logic

inductive Json
  | null
  | boolean (b : Bool)
  | integer (n : ℤ)
  | float (x : ℚ)
  | string (text : String)
  | array (elements : List Json)
  | object (members : List (String × Json))

namespace Json

/-- The name of a type in the texts of errors. -/
def typeName : Json → String
  | null => "null"
  | boolean _ => "boolean"
  | integer _ | float _ => "number"
  | string _ => "string"
  | array _ => "array"
  | object _ => "object"

/-- A value is of another type than the expected one. -/
def typeError (expected : String) (j : Json) : String :=
  s!"[json.exception.type_error.302] type must be {expected}, but is {j.typeName}"

/-! ## Values -/

def getString : Json → Except String String
  | string text => .ok text
  | j => .error (typeError "string" j)

def getBool : Json → Except String Bool
  | boolean b => .ok b
  | j => .error (typeError "boolean" j)

/-- A number as an integer; the fraction of a number is cut off. -/
def getInt : Json → Except String ℤ
  | integer n => .ok n
  | float x => .ok (if x < 0 then ⌈x⌉ else ⌊x⌋)
  | j => .error (typeError "number" j)

def getUInt64 (j : Json) : Except String UInt64 := j.getInt.map UInt64.ofInt

def getInt64 (j : Json) : Except String Int64 := j.getInt.map Int64.ofInt

def getRat : Json → Except String ℚ
  | integer n => .ok n
  | float x => .ok x
  | j => .error (typeError "number" j)

/-- A number, or a truth value that is counted as one. -/
def getArithmetic : Json → Except String UInt64
  | boolean b => .ok (if b then 1 else 0)
  | j => j.getUInt64

/-! ## Enumerators -/

/-- The names of the enumerators of a type; the first stands for what has no name. -/
structure EnumNames (α : Type*) where
  first : α × String
  others : List (α × String)

namespace EnumNames

variable {α : Type*} (names : EnumNames α)

def entries : List (α × String) := names.first :: names.others

/-- A name, or the first enumerator. -/
def read (text : String) : α :=
  match names.entries.find? fun entry => entry.2 = text with
  | some entry => entry.1
  | none => names.first.1

/-- The name of an enumerator, or that of the first. -/
def name [DecidableEq α] (a : α) : String :=
  match names.entries.find? fun entry => entry.1 = a with
  | some entry => entry.2
  | none => names.first.2

end EnumNames

/-- What is not a text is no name. -/
def getEnum {α : Type*} (names : EnumNames α) : Json → α
  | string text => names.read text
  | _ => names.first.1

@[simp] theorem getEnum_null {α : Type*} (names : EnumNames α) : getEnum names null = names.first.1 :=
  rfl

@[simp] theorem getEnum_integer {α : Type*} (names : EnumNames α) (n : ℤ) :
    getEnum names (integer n) = names.first.1 := rfl

/-! ## Members -/

/-- The member of an object that has a name. -/
def member (j : Json) (key : String) : Option Json :=
  match j with
  | object members => members.lookup key
  | _ => none

def contains (j : Json) (key : String) : Bool := (j.member key).isSome

/-- A member of an object, or null if there is none. -/
def memberOrNull (j : Json) (key : String) : Json := (j.member key).getD null

/-- A member is taken out of an object. -/
def erase (j : Json) (key : String) : Json :=
  match j with
  | object members => object (members.filter fun member => member.1 ≠ key)
  | j => j

/-- A member is put into an object. -/
def set (j : Json) (key : String) (value : Json) : Json :=
  match j with
  | object members => object ((key, value) :: members.filter fun member => member.1 ≠ key)
  | j => j

theorem lookup_filter_ne (members : List (String × Json)) {key key' : String} (h : key' ≠ key) :
    (members.filter fun member => member.1 ≠ key).lookup key' = members.lookup key' := by
  induction members with
  | nil => rfl
  | cons member members ih =>
      by_cases hkey : member.1 = key
      · have hne : (key' == member.1) = false := by simpa [hkey] using h
        rw [List.filter_cons_of_neg (by simp [hkey]), ih, List.lookup_cons, hne]
      · rw [List.filter_cons_of_pos (by simp [hkey]), List.lookup_cons, List.lookup_cons, ih]

/-- The member that was put into an object is there, and the others stay. -/
theorem member_set (members : List (String × Json)) (key key' : String) (value : Json) :
    ((object members).set key value).member key' =
      if key' = key then some value else (object members).member key' := by
  rw [set, member, member, List.lookup_cons]
  by_cases h : key' = key
  · simp [h]
  · have hne : (key' == key) = false := by simpa using h
    rw [hne, if_neg h, lookup_filter_ne members h]

/-- A member is put into an object that does not have it. -/
def setDefault (j : Json) (key : String) (value : Json) : Json :=
  if j.contains key then j else j.set key value

/-- A member of an object, or a default if there is none. -/
def value {α : Type} (j : Json) (get : Json → Except String α) (key : String) (default : α) :
    Except String α :=
  match j with
  | object members =>
      match members.lookup key with
      | some j => get j
      | none => .ok default
  | j => .error s!"[json.exception.type_error.306] cannot use value() with {j.typeName}"

end Json

end Kungfu.Logic
