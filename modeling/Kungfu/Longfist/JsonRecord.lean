import Kungfu.Logic.Json
import Kungfu.Logic.Outcome
import Mathlib.Data.List.FinRange
import Mathlib.Data.List.TakeWhile

/-!
# Records as JSON texts

A record that has a string of any length, or bytes, is not sent as it lies in memory but as the
text of a JSON object with a member for each of its fields.  What a field becomes, and how it is
read again, is decided by its type alone: numbers stay numbers, enumerators are named by a table,
char arrays and strings are texts, arrays of numbers and bytes are arrays.
-/

namespace Kungfu.Longfist

open Logic Outcome

/-! ## Types of fields -/

/-- A `double`. -/
inductive Double
  | finite (x : ℚ)
  | infinite (negative : Bool)
  | nan
  deriving DecidableEq

/-- What goes wrong with a text: the library throws, or memory outside of an array is read or
written. -/
inductive JsonFault
  | thrown (what : String)
  | outOfBounds

/-- The types for which `std::is_arithmetic_v` holds. -/
inductive ArithmeticType
  | integer (signed : Bool) (width : ℕ)
  | boolean
  | double
  deriving DecidableEq

/-- An enumeration, with the names that `NLOHMANN_JSON_SERIALIZE_ENUM` gives its enumerators.  No
enumerator is without a name, or shares it with one before. -/
structure EnumType where
  width : ℕ
  names : Json.EnumNames (BitVec width)
  enumerators : List (BitVec width)
  faithful : ∀ a ∈ enumerators, names.read (names.name a) = a

inductive FieldType
  | arithmetic (type : ArithmeticType)
  | enumeration (type : EnumType)
  | charArray (length : ℕ)
  | numericArray (element : ArithmeticType) (length : ℕ)
  | string
  | bytes

def ArithmeticType.Value : ArithmeticType → Type
  | integer _ width => BitVec width
  | boolean => Bool
  | double => Double

def FieldType.Value : FieldType → Type
  | arithmetic type => type.Value
  | enumeration type => BitVec type.width
  | charArray length => Fin length → UInt8
  | numericArray element length => Fin length → element.Value
  | string | bytes => List UInt8

/-- What `size_fixed` asks of the type of an attribute. -/
def FieldType.sizeFixed : FieldType → Bool
  | arithmetic _ | enumeration _ | charArray _ | numericArray _ _ => true
  | string | bytes => false

namespace ArithmeticType

/-- A number or a truth value in JSON; what is no number is written as null. -/
def toJson : (type : ArithmeticType) → type.Value → Json
  | integer true _, n => .integer (BitVec.toInt n)
  | integer false _, n => .integer (BitVec.toNat n)
  | boolean, b => .boolean b
  | double, .finite x => .float x
  | double, _ => .null

/-- `get` for an arithmetic type.  Integers that are narrower than those of the library are read
from truth values, too. -/
def fromJson : (type : ArithmeticType) → Json → Except String type.Value
  | integer _ width, .boolean b =>
      if width < 64 then .ok (BitVec.ofNat width b.toNat)
      else .error (Json.typeError "number" (.boolean b))
  | integer _ width, j => j.getInt.map (BitVec.ofInt width)
  | boolean, j => j.getBool
  | double, j => j.getRat.map Double.finite

/-- What a fresh record has. -/
def zero : (type : ArithmeticType) → type.Value
  | integer _ width => (0 : BitVec width)
  | boolean => false
  | double => .finite 0

/-- A double is finite. -/
def Fits : (type : ArithmeticType) → type.Value → Prop
  | double, x => ∃ q, x = .finite q
  | _, _ => True

theorem ofInt_toNat {width : ℕ} (n : BitVec width) : BitVec.ofInt width n.toNat = n := by simp

theorem fromJson_toJson {type : ArithmeticType} {v : type.Value} (h : type.Fits v) :
    type.fromJson (type.toJson v) = .ok v := by
  cases type with
  | integer signed width =>
      cases signed with
      | true => exact congrArg Except.ok BitVec.ofInt_toInt
      | false => exact congrArg Except.ok (ofInt_toNat v)
  | boolean => rfl
  | double =>
      obtain ⟨q, rfl⟩ := h
      rfl

end ArithmeticType

/-! ## Fields as members -/

/-- The library, as far as records use it: texts of values, values of texts, and what it writes for
bytes that are no UTF-8. -/
structure JsonLibrary where
  dump : Json → String
  parse : String → Except String Json
  replaced : List UInt8 → String

namespace JsonLibrary

variable (lib : JsonLibrary)

/-- Bytes as the library writes them. -/
def textOf (bytes : List UInt8) : String :=
  if h : (ByteArray.mk bytes.toArray).IsValidUTF8 then .fromUTF8 _ h else lib.replaced bytes

/-- A text that the library writes is read with the members that were written. -/
def ReadsBack (j : Json) : Prop :=
  ∃ j', lib.parse (lib.dump j) = .ok j' ∧ ∀ key, j'.member key = j.member key

end JsonLibrary

/-- The bytes of a text. -/
def bytesOf (text : String) : List UInt8 := text.toByteArray.data.toList

/-- The text of a char array, up to its end. -/
def cText (length : ℕ) (value : Fin length → UInt8) : List UInt8 :=
  (List.ofFn value).takeWhile (· ≠ 0)

/-- `operator=` of a char array that is all zero, from a text. -/
def assignChars (length : ℕ) (text : List UInt8) : Except JsonFault (Fin length → UInt8) :=
  if text.length ≤ length then .ok fun i => text[(i : ℕ)]?.getD 0 else .error .outOfBounds

/-- The bytes of a text, up to the first that is zero. -/
def cStr (text : String) : List UInt8 := (bytesOf text).takeWhile (· ≠ 0)

/-- A value has no elements or members that could be asked for. -/
def operatorError (argument : String) (j : Json) : JsonFault :=
  .thrown ("[json.exception.type_error.305] cannot use operator[] with a " ++ argument ++
    " argument with " ++ j.typeName)

/-- An element of an array; there is no check of the index. -/
def subscript (j : Json) (i : ℕ) : Except JsonFault Json :=
  match j with
  | .array elements =>
      match elements[i]? with
      | some element => .ok element
      | none => .error .outOfBounds
  | j => .error (operatorError "numeric" j)

/-- `from_json` for an array that is no char array. -/
def readArray (element : ArithmeticType) (length : ℕ) (j : Json) :
    Except JsonFault (Fin length → element.Value) :=
  (List.finRange length).foldlM
    (fun value (i : Fin length) => do
      let x ← subscript j i
      let x ← (element.fromJson x).mapError JsonFault.thrown
      return Function.update value i x)
    fun _ => element.zero

/-- The bytes of an array of numbers. -/
def readBytes (j : Json) : Except JsonFault (List UInt8) :=
  match j with
  | .array elements =>
      (elements.mapM fun element => (ArithmeticType.integer false 8).fromJson element).mapError
        JsonFault.thrown |>.map fun bytes => bytes.map UInt8.ofBitVec
  | j => .error (.thrown (Json.typeError "array" j))

namespace FieldType

variable (lib : JsonLibrary)

/-- What is assigned to the member of a field. -/
def toJson : (type : FieldType) → type.Value → Except JsonFault Json
  | arithmetic type, v => .ok (type.toJson v)
  | enumeration type, v => .ok (.string (type.names.name v))
  | charArray length, v =>
      -- a text that fills its array has no end there
      if (cText length v).length < length then .ok (.string (lib.textOf (cText length v)))
      else .error .outOfBounds
  | numericArray element _, v => .ok (.array (List.ofFn fun i => element.toJson (v i)))
  | string, v => .ok (.string (lib.textOf v))
  | bytes, v => .ok (.array (v.map fun b : UInt8 => .integer b.toNat))

/-- `restore_from_json`. -/
def restoreFromJson : (type : FieldType) → Json → Except JsonFault type.Value
  | arithmetic type, j => (type.fromJson j).mapError JsonFault.thrown
  | enumeration type, j => .ok (Json.getEnum type.names j)
  | charArray length, j => do
      let text ← j.getString.mapError JsonFault.thrown
      assignChars length (cStr text)
  | numericArray element length, j => readArray element length j
  | string, j => (j.getString.mapError JsonFault.thrown).map bytesOf
  | bytes, j => readBytes j

/-- The value is one of the type: strings are UTF-8 and end within their arrays, doubles are finite
and enumerators are enumerators. -/
def Fits : (type : FieldType) → type.Value → Prop
  | arithmetic type, v => type.Fits v
  | enumeration type, v => v ∈ type.enumerators
  | charArray length, v => (cText length v).length < length ∧
      (ByteArray.mk (cText length v).toArray).IsValidUTF8
  | numericArray element _, v => ∀ i, element.Fits (v i)
  | string, v => (ByteArray.mk (List.toArray v)).IsValidUTF8
  | bytes, _ => True

/-- Two values of a field are equal; of char arrays, the texts are. -/
def Same : (type : FieldType) → type.Value → type.Value → Prop
  | charArray length, v, v' => cText length v = cText length v'
  | _, v, v' => v = v'

end FieldType

variable {lib : JsonLibrary}

@[simp] theorem bytesOf_textOf {bytes : List UInt8} (h : (ByteArray.mk bytes.toArray).IsValidUTF8) :
    bytesOf (lib.textOf bytes) = bytes := by
  rw [JsonLibrary.textOf, dif_pos h]
  rfl

theorem zero_notMem_cText {length : ℕ} (v : Fin length → UInt8) : 0 ∉ cText length v := by
  intro h
  simpa using List.mem_takeWhile_imp h

theorem takeWhile_eq_self {bytes : List UInt8} (h : 0 ∉ bytes) :
    bytes.takeWhile (· ≠ 0) = bytes :=
  List.takeWhile_eq_self_iff.mpr fun b hb => by
    simp only [decide_eq_true_eq]
    rintro rfl
    exact h hb

/-- What is assigned to an array that is zero has the text that was assigned. -/
theorem cText_assigned {length : ℕ} {text : List UInt8} (hlength : text.length ≤ length)
    (hzero : 0 ∉ text) : cText length (fun i : Fin length => text[(i : ℕ)]?.getD 0) = text := by
  have hfilled : List.ofFn (fun i : Fin length => text[(i : ℕ)]?.getD 0) =
      text ++ List.replicate (length - text.length) 0 := by
    apply List.ext_getElem
    · simp
      omega
    · intro i hi _
      rw [List.getElem_ofFn, List.getElem_append]
      by_cases hlt : i < text.length <;> simp [hlt]
  have hrest : (List.replicate (length - text.length) (0 : UInt8)).takeWhile (· ≠ 0) = [] := by
    cases length - text.length <;> simp [List.replicate_succ]
  rw [cText, hfilled, List.takeWhile_append_of_pos, hrest, List.append_nil]
  intro b hb
  simp only [decide_eq_true_eq]
  rintro rfl
  exact hzero hb

theorem assignChars_cText {length : ℕ} {v : Fin length → UInt8}
    (hlength : (cText length v).length < length)
    (hvalid : (ByteArray.mk (cText length v).toArray).IsValidUTF8) :
    assignChars length (cStr (lib.textOf (cText length v))) =
      .ok fun i => (cText length v)[(i : ℕ)]?.getD 0 := by
  rw [cStr, bytesOf_textOf hvalid, takeWhile_eq_self (zero_notMem_cText v), assignChars,
    if_pos hlength.le]

theorem foldl_update {n : ℕ} {α : Type} (v z : Fin n → α) (is : List (Fin n)) (i : Fin n) :
    is.foldl (fun w i => Function.update w i (v i)) z i = if i ∈ is then v i else z i := by
  induction is generalizing z with
  | nil => simp
  | cons j is ih =>
      rw [List.foldl_cons, ih]
      by_cases hmem : i ∈ is
      · simp [hmem]
      · by_cases heq : i = j
        · subst heq
          simp
        · simp [hmem, heq]

theorem subscript_array {elements : List Json} {i : ℕ} {j : Json} (h : elements[i]? = some j) :
    subscript (.array elements) i = .ok j := by
  simp only [subscript, h]

/-- An array is read as it was written. -/
theorem readArray_toJson {element : ArithmeticType} {length : ℕ} {v : Fin length → element.Value}
    (h : ∀ i, element.Fits (v i)) :
    readArray element length (.array (List.ofFn fun i => element.toJson (v i))) = .ok v := by
  rw [readArray, foldlM_eq_ok (f := fun w i => Function.update w i (v i))]
  · congr 1
    funext i
    rw [foldl_update, if_pos (List.mem_finRange i)]
  · intro i _ w
    rw [subscript_array (j := element.toJson (v i)) (by simp), ok_bind,
      ArithmeticType.fromJson_toJson (h i)]
    rfl

theorem readBytes_toJson (v : List UInt8) :
    readBytes (.array (v.map fun b => .integer b.toNat)) = .ok v := by
  have hread : (v.map fun b : UInt8 => Json.integer b.toNat).mapM
      (fun element => (ArithmeticType.integer false 8).fromJson element) =
        .ok (v.map UInt8.toBitVec) := by
    induction v with
    | nil => rfl
    | cons b v ih =>
        rw [List.map_cons, List.mapM_cons, ih]
        exact congrArg Except.ok (congrArg (· :: v.map UInt8.toBitVec) 
          (ArithmeticType.ofInt_toNat b.toBitVec))
  rw [readBytes, hread]
  exact congrArg Except.ok ((List.map_map ..).trans (List.map_id v))

variable (lib) in
/-- A field is read as it was written. -/
theorem FieldType.restore_toJson {type : FieldType} {v : type.Value} (h : type.Fits v) :
    ∃ j, type.toJson lib v = .ok j ∧ ∃ v', type.restoreFromJson j = .ok v' ∧ type.Same v v' := by
  cases type with
  | arithmetic type =>
      refine ⟨_, rfl, v, ?_, rfl⟩
      rw [restoreFromJson, ArithmeticType.fromJson_toJson h]
      rfl
  | enumeration type => exact ⟨_, rfl, v, congrArg Except.ok (type.faithful v h), rfl⟩
  | charArray length =>
      obtain ⟨hlength, hvalid⟩ := h
      exact ⟨_, if_pos hlength, _, assignChars_cText hlength hvalid,
        (cText_assigned hlength.le (zero_notMem_cText _)).symm⟩
  | numericArray element length => exact ⟨_, rfl, v, readArray_toJson h, rfl⟩
  | string => exact ⟨_, rfl, v, congrArg Except.ok (bytesOf_textOf h), rfl⟩
  | bytes => exact ⟨_, rfl, v, readBytes_toJson v, rfl⟩

/-! ## Records -/

/-- A record type: the attributes that `BOOST_HANA_DEFINE_STRUCT` lists. -/
structure RecordType where
  name : String
  fields : List (String × FieldType)
  distinct : (fields.map (·.1)).Nodup

/-- Values for attributes. -/
def Values : List (String × FieldType) → Type
  | [] => Unit
  | field :: fields => field.2.Value × Values fields

/-- `j[name] = value`, by which null becomes an object. -/
def assignMember (j : Json) (name : String) (value : Json) : Json :=
  match j with
  | .null => .object [(name, value)]
  | j => j.set name value

/-- `j[name]` for reading. -/
def memberOf (j : Json) (name : String) : Except JsonFault Json :=
  match j with
  | .null | .object _ => .ok (j.memberOrNull name)
  | j => .error (operatorError "string" j)

/-- The loop of `to_string`. -/
def assignMembers (lib : JsonLibrary) :
    (fields : List (String × FieldType)) → Values fields → Json → Except JsonFault Json
  | [], _, j => .ok j
  | field :: fields, (v, vs), j => do
      let member ← field.2.toJson lib v
      assignMembers lib fields vs (assignMember j field.1 member)

/-- The loop of `parse`. -/
def restoreMembers (j : Json) :
    (fields : List (String × FieldType)) → Except JsonFault (Values fields)
  | [] => .ok ()
  | field :: fields => do
      let member ← memberOf j field.1
      let v ← field.2.restoreFromJson member
      let vs ← restoreMembers j fields
      return (v, vs)

namespace RecordType

/-- A record of the type. -/
def Record (T : RecordType) : Type := Values T.fields

/-- `size_fixed`. -/
def sizeFixed (T : RecordType) : Bool := T.fields.all fun field => field.2.sizeFixed

variable (lib : JsonLibrary) (T : RecordType)

/-- The object that `to_string` dumps. -/
def toJson (r : T.Record) : Except JsonFault Json := assignMembers lib T.fields r .null

/-- `to_string`. -/
def toString (r : T.Record) : Except JsonFault String := (T.toJson lib r).map lib.dump

/-- `parse` of a fresh record. -/
def parse (text : String) : Except JsonFault T.Record := do
  let j ← (lib.parse text).mapError JsonFault.thrown
  restoreMembers j T.fields

end RecordType

/-- Every value is one of its type. -/
def Fit : (fields : List (String × FieldType)) → Values fields → Prop
  | [], _ => True
  | field :: fields, (v, vs) => field.2.Fits v ∧ Fit fields vs

/-- The values are equal in every attribute. -/
def Equal : (fields : List (String × FieldType)) → Values fields → Values fields → Prop
  | [], _, _ => True
  | field :: fields, (v, vs), (v', vs') => field.2.Same v v' ∧ Equal fields vs vs'

/-- An object has a member for every attribute, from which its value is read. -/
def Encodes (j : Json) : (fields : List (String × FieldType)) → Values fields → Prop
  | [], _ => True
  | field :: fields, (v, vs) =>
      (∃ member, j.member field.1 = some member ∧
        ∃ v', field.2.restoreFromJson member = .ok v' ∧ field.2.Same v v') ∧ Encodes j fields vs

/-- A JSON value is an object, or null, which becomes one. -/
def IsObject (j : Json) : Prop := j = .null ∨ ∃ members, j = .object members

theorem member_assignMember {j : Json} (hj : IsObject j) (name key : String) (value : Json) :
    (assignMember j name value).member key = if key = name then some value else j.member key := by
  rcases hj with rfl | ⟨members, rfl⟩
  · exact Json.member_set [] name key value
  · exact Json.member_set members name key value

theorem memberOf_of_member {j member : Json} {name : String} (h : j.member name = some member) :
    memberOf j name = .ok member := by
  cases j with
  | object members => rw [memberOf, Json.memberOrNull, h, Option.getD_some]
  | _ => cases h

theorem isObject_assignMember {j : Json} (hj : IsObject j) (name : String) (value : Json) :
    IsObject (assignMember j name value) := by
  rcases hj with rfl | ⟨members, rfl⟩
  · exact .inr ⟨_, rfl⟩
  · exact .inr ⟨_, rfl⟩

theorem Encodes.congr {j j' : Json} {fields : List (String × FieldType)} {vs : Values fields}
    (h : Encodes j fields vs) (hmember : ∀ field ∈ fields, j'.member field.1 = j.member field.1) :
    Encodes j' fields vs := by
  induction fields with
  | nil => trivial
  | cons field fields ih =>
      obtain ⟨v, vs⟩ := vs
      obtain ⟨⟨member, hhere, hread⟩, hrest⟩ := h
      refine ⟨⟨member, ?_, hread⟩, ih hrest fun f hf => hmember f (List.mem_cons_of_mem _ hf)⟩
      rw [hmember field List.mem_cons_self, hhere]

variable (lib) in
/-- Every value that is one of its type gets its member, and members of other names stay. -/
theorem exists_assignMembers {j : Json} (hj : IsObject j) {fields : List (String × FieldType)}
    (hdistinct : (fields.map (·.1)).Nodup) {vs : Values fields} (hfit : Fit fields vs) :
    ∃ j', assignMembers lib fields vs j = .ok j' ∧ Encodes j' fields vs ∧
      ∀ key ∉ fields.map (·.1), j'.member key = j.member key := by
  induction fields generalizing j with
  | nil => exact ⟨j, rfl, trivial, fun _ _ => rfl⟩
  | cons field fields ih =>
      obtain ⟨v, vs⟩ := vs
      obtain ⟨hhere, hlater⟩ := hfit
      obtain ⟨hnew, hdistinct⟩ := List.nodup_cons.mp hdistinct
      obtain ⟨member, hmember, hread⟩ := FieldType.restore_toJson lib hhere
      obtain ⟨j', hj', hencodes, hkept⟩ :=
        ih (isObject_assignMember hj field.1 member) hdistinct hlater
      refine ⟨j', ?_, ⟨⟨member, ?_, hread⟩, hencodes⟩, fun key hkey => ?_⟩
      · rw [assignMembers, hmember, ok_bind, hj']
      · rw [hkept field.1 hnew, member_assignMember hj, if_pos rfl]
      · rw [List.map_cons, List.mem_cons, not_or] at hkey
        obtain ⟨hne, hkey⟩ := hkey
        rw [hkept key hkey, member_assignMember hj, if_neg hne]

/-- What an object encodes is read from it. -/
theorem Encodes.restoreMembers {j : Json} {fields : List (String × FieldType)} {vs : Values fields}
    (h : Encodes j fields vs) :
    ∃ vs', restoreMembers j fields = .ok vs' ∧ Equal fields vs vs' := by
  induction fields with
  | nil => exact ⟨(), rfl, trivial⟩
  | cons field fields ih =>
      obtain ⟨v, vs⟩ := vs
      obtain ⟨⟨member, hmember, v', hv', hsame⟩, hrest⟩ := h
      obtain ⟨vs', hvs', hequal⟩ := ih hrest
      refine ⟨(v', vs'), ?_, hsame, hequal⟩
      rw [Longfist.restoreMembers, memberOf_of_member hmember, ok_bind, hv', ok_bind, hvs']
      rfl

/-- A record whose values are ones of their types is read from its text as it was, if the library
reads back the text that it writes of the object. -/
theorem RecordType.parse_toString (T : RecordType) (r : T.Record) (hfit : Fit T.fields r)
    (hlib : ∀ j, T.toJson lib r = .ok j → lib.ReadsBack j) :
    ∃ text, T.toString lib r = .ok text ∧
      ∃ r', T.parse lib text = .ok r' ∧ Equal T.fields r r' := by
  obtain ⟨j, hj, hencodes, -⟩ := exists_assignMembers lib (.inl rfl) T.distinct hfit
  obtain ⟨j', hparse, hmember⟩ := hlib j hj
  have hencodes' : Encodes j' T.fields r := hencodes.congr fun field _ => hmember field.1
  obtain ⟨r', hr', hequal⟩ := hencodes'.restoreMembers
  refine ⟨lib.dump j, ?_, r', ?_, hequal⟩
  · rw [RecordType.toString, RecordType.toJson, hj]
    rfl
  · rw [RecordType.parse, hparse]
    exact hr'

/-! ## The records that are sent as texts -/

namespace EnumType

def mode : EnumType where
  width := 8
  names := ⟨(0, "LIVE"), [(1, "DATA"), (2, "REPLAY"), (3, "BACKTEST")]⟩
  enumerators := [0, 1, 2, 3]
  faithful := by decide

def category : EnumType where
  width := 8
  names := ⟨(0, "MD"), [(1, "TD"), (2, "STRATEGY"), (3, "SYSTEM")]⟩
  enumerators := [0, 1, 2, 3]
  faithful := by decide

def StrategyState : EnumType where
  width := 8
  names := ⟨(0, "Normal"), [(1, "Warn"), (2, "Error")]⟩
  enumerators := [0, 1, 2]
  faithful := by decide

def BasketVolumeType : EnumType where
  width := 8
  names := ⟨(0, "Unknown"), [(1, "Quantity"), (2, "Proportion")]⟩
  enumerators := [0, 1, 2]
  faithful := by decide

def BasketType : EnumType where
  width := 8
  names := ⟨(0, "Custom"), [(1, "ETF")]⟩
  enumerators := [0, 1]
  faithful := by decide

end EnumType

namespace FieldType

abbrev int32 : FieldType := arithmetic (.integer true 32)

abbrev int64 : FieldType := arithmetic (.integer true 64)

abbrev uint32 : FieldType := arithmetic (.integer false 32)

abbrev uint64 : FieldType := arithmetic (.integer false 64)

end FieldType

namespace RecordType

open FieldType

def Config : RecordType where
  name := "Config"
  fields :=
    [("location_uid", uint32), ("category", enumeration .category), ("group", string),
      ("name", string), ("mode", enumeration .mode), ("value", string)]
  distinct := by decide

def RiskSetting : RecordType where
  name := "RiskSetting"
  fields :=
    [("location_uid", uint32), ("category", enumeration .category), ("group", string),
      ("name", string), ("mode", enumeration .mode), ("value", string)]
  distinct := by decide

def TimeValue : RecordType where
  name := "TimeValue"
  fields :=
    [("update_time", int64), ("tag_a", string), ("tag_b", string), ("tag_c", string),
      ("value", string)]
  distinct := by decide

def TimeKeyValue : RecordType where
  name := "TimeKeyValue"
  fields :=
    [("update_time", int64), ("key", string), ("tag_a", string), ("tag_b", string),
      ("tag_c", string), ("value", string)]
  distinct := by decide

def StrategyStateUpdate : RecordType where
  name := "StrategyStateUpdate"
  fields :=
    [("state", enumeration .StrategyState), ("update_time", int64), ("info_a", string),
      ("info_b", string), ("info_c", string), ("value", string)]
  distinct := by decide

def Session : RecordType where
  name := "Session"
  fields :=
    [("location_uid", uint32), ("category", enumeration .category), ("mode", enumeration .mode),
      ("group", string), ("name", string), ("begin_time", int64), ("update_time", int64),
      ("end_time", int64), ("frame_count", uint32), ("data_size", uint64)]
  distinct := by decide

def Register : RecordType where
  name := "Register"
  fields :=
    [("location_uid", uint32), ("category", enumeration .category), ("mode", enumeration .mode),
      ("group", string), ("name", string), ("pid", int32), ("last_active_time", int64),
      ("checkin_time", int64)]
  distinct := by decide

/-- The attributes that name a location. -/
def locationFields : List (String × FieldType) :=
  [("location_uid", uint32), ("category", enumeration .category), ("mode", enumeration .mode),
    ("group", string), ("name", string)]

def Deregister : RecordType := ⟨"Deregister", locationFields, by decide⟩

def Location : RecordType := ⟨"Location", locationFields, by decide⟩

def RequestWriteToBand : RecordType := ⟨"RequestWriteToBand", locationFields, by decide⟩

def Basket : RecordType where
  name := "Basket"
  fields :=
    [("id", uint32), ("name", string), ("volume_type", enumeration .BasketVolumeType),
      ("total_amount", int64), ("type", enumeration .BasketType)]
  distinct := by decide

end RecordType

/-- The types whose records `writer::write` sends as texts. -/
def sizeUnfixedTypes : List RecordType :=
  [.Config, .TimeValue, .TimeKeyValue, .StrategyStateUpdate, .RiskSetting, .Session, .Register,
    .Deregister, .Location, .RequestWriteToBand, .Basket]

theorem sizeFixed_of_mem : ∀ T ∈ sizeUnfixedTypes, T.sizeFixed = false := by decide

/-! ### A location -/

theorem isValidUTF8_bytesOf (text : String) : (ByteArray.mk (bytesOf text).toArray).IsValidUTF8 :=
  text.isValidUTF8

theorem textOf_bytesOf (text : String) : lib.textOf (bytesOf text) = text := by
  rw [JsonLibrary.textOf, dif_pos (isValidUTF8_bytesOf text)]
  rfl

/-- A trader's location. -/
def exampleLocation : RecordType.Location.Record :=
  ((7 : BitVec 32), (1 : BitVec 8), (0 : BitVec 8), bytesOf "sim", bytesOf "a", ())

def exampleObject : Json :=
  .object [("name", .string "a"), ("group", .string "sim"), ("mode", .string "LIVE"),
    ("category", .string "TD"), ("location_uid", .integer 7)]

/-- The text of a value that is no array. -/
def printValue : Json → String
  | .boolean b => if b then "true" else "false"
  | .integer n => toString n
  | .string text => "\"" ++ text ++ "\""
  | _ => "null"

/-- The text of an object, by its keys. -/
def printObject : Json → String
  | .object members =>
      let sorted := members.insertionSort fun member member' => member.1 ≤ member'.1
      let texts := sorted.map fun member => "\"" ++ member.1 ++ "\":" ++ printValue member.2
      "\x7b" ++ ",".intercalate texts ++ "\x7d"
  | j => printValue j

def exampleText : String :=
  "\x7b\"category\":\"TD\",\"group\":\"sim\",\"location_uid\":7,\"mode\":\"LIVE\",\"name\":\"a\"\x7d"

/-- The library, as it is for the text of the location. -/
def exampleLibrary : JsonLibrary where
  dump := printObject
  parse text :=
    if text = exampleText then .ok exampleObject
    else .error "[json.exception.parse_error.101] parse error"
  replaced _ := "\uFFFD"

theorem toJson_exampleLocation :
    RecordType.Location.toJson exampleLibrary exampleLocation = .ok exampleObject := by
  have hgroup : FieldType.string.toJson exampleLibrary (bytesOf "sim") = .ok (.string "sim") :=
    congrArg (Except.ok ∘ Json.string) (textOf_bytesOf "sim")
  have hname : FieldType.string.toJson exampleLibrary (bytesOf "a") = .ok (.string "a") :=
    congrArg (Except.ok ∘ Json.string) (textOf_bytesOf "a")
  simp only [RecordType.toJson, RecordType.Location, RecordType.locationFields, exampleLocation,
    assignMembers, hgroup, hname]
  rfl

/-- The location is received as it was sent. -/
theorem parse_toString_example : ∃ text,
    RecordType.Location.toString exampleLibrary exampleLocation = .ok text ∧
      ∃ r, RecordType.Location.parse exampleLibrary text = .ok r ∧
        Equal RecordType.Location.fields exampleLocation r := by
  refine RecordType.Location.parse_toString exampleLocation ?_ fun j hj => ?_
  · have hcategory : (1 : BitVec 8) ∈ EnumType.category.enumerators :=
      List.mem_cons_of_mem _ List.mem_cons_self
    have hmode : (0 : BitVec 8) ∈ EnumType.mode.enumerators := List.mem_cons_self
    exact ⟨trivial, hcategory, hmode, isValidUTF8_bytesOf _, isValidUTF8_bytesOf _, trivial⟩
  · rw [toJson_exampleLocation] at hj
    cases hj
    have htext : printObject exampleObject = exampleText := by decide +kernel
    refine ⟨exampleObject, ?_, fun _ => rfl⟩
    simp only [exampleLibrary, htext, if_true]

end Kungfu.Longfist
