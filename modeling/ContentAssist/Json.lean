/-! JSON values. Of two members with one key the first counts. -/

namespace ContentAssist

/-- A number is `integer` if it is written without fraction and exponent and fits
into 64 bits, signed or unsigned; every other number keeps its written form. -/
inductive Json where
  | null
  | bool (value : Bool)
  | integer (value : Int)
  | decimal (literal : String)
  | string (text : String)
  | array (elements : List Json)
  | object (members : List (String × Json))
deriving Inhabited

namespace Json

def ofNat (number : Nat) : Json :=
  .integer number

def ofStrings (texts : List String) : Json :=
  .array (texts.map .string)

def ofFields (fields : List (String × Option Json)) : Json :=
  .object (fields.filterMap fun field => field.2.map (field.1, ·))

def lookup (key : String) : List (String × Json) → Option Json
  | [] => none
  | member :: members => if member.1 = key then some member.2 else lookup key members

def member? (key : String) : Json → Option Json
  | .object members => lookup key members
  | _ => none

def at? : List String → Json → Option Json
  | [], value => some value
  | key :: path, value => (value.member? key).bind (at? path)

def assign (key : String) (value : Json) : List (String × Json) → List (String × Json)
  | [] => [(key, value)]
  | member :: members =>
      if member.1 = key then (key, value) :: members
      else member :: assign key value members

def bool? : Json → Option Bool
  | .bool value => some value
  | _ => none

def integer? : Json → Option Int
  | .integer value => some value
  | _ => none

def natBelow? (bound : Nat) (value : Json) : Option Nat :=
  value.integer?.bind fun number =>
    if 0 ≤ number && number.toNat < bound then some number.toNat else none

def uint32? (value : Json) : Option UInt32 :=
  (value.natBelow? UInt32.size).map UInt32.ofNat

def uint64? (value : Json) : Option UInt64 :=
  (value.natBelow? UInt64.size).map UInt64.ofNat

def string? : Json → Option String
  | .string text => some text
  | _ => none

def elements? : Json → Option (List Json)
  | .array elements => some elements
  | _ => none

def strings? (value : Json) : Option (List String) :=
  value.elements?.bind (·.mapM string?)

@[simp] theorem lookup_assign_self (key : String) (value : Json)
    (members : List (String × Json)) :
    lookup key (assign key value members) = some value := by
  induction members with
  | nil => simp [assign, lookup]
  | cons member members ih =>
      by_cases same : member.1 = key
      · simp [assign, lookup, same]
      · simp [assign, lookup, same, ih]

theorem lookup_assign_of_ne {key other : String} (different : other ≠ key) (value : Json)
    (members : List (String × Json)) :
    lookup other (assign key value members) = lookup other members := by
  induction members with
  | nil => simp [assign, lookup, Ne.symm different]
  | cons member members ih =>
      by_cases same : member.1 = key
      · simp [assign, lookup, same, Ne.symm different]
      · simp [assign, lookup, same, ih]

theorem lookup_ofFields_cons (key : String) (name : String) (value : Option Json)
    (fields : List (String × Option Json)) :
    (ofFields ((name, value) :: fields)).member? key =
      if name = key ∧ value.isSome then value else (ofFields fields).member? key := by
  cases value with
  | none => simp [ofFields, member?]
  | some value => simp [ofFields, member?, lookup]

theorem natBelow?_ofNat {number bound : Nat} (below : number < bound) :
    (ofNat number).natBelow? bound = some number := by
  simp [ofNat, natBelow?, integer?, below]

@[simp] theorem uint32?_ofNat (word : UInt32) : (ofNat word.toNat).uint32? = some word := by
  rw [uint32?, natBelow?_ofNat word.toNat_lt_size, Option.map_some, UInt32.ofNat_toNat]

@[simp] theorem uint64?_ofNat (word : UInt64) : (ofNat word.toNat).uint64? = some word := by
  rw [uint64?, natBelow?_ofNat word.toNat_lt_size, Option.map_some, UInt64.ofNat_toNat]

@[simp] theorem strings?_ofStrings (texts : List String) :
    (ofStrings texts).strings? = some texts := by
  induction texts with
  | nil => rfl
  | cons text texts ih =>
      simp only [ofStrings, strings?, elements?, Option.bind_some, List.map_cons] at ih ⊢
      simp [List.mapM_cons, ih, string?]

end Json

end ContentAssist
