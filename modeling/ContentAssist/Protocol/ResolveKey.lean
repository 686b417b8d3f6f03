import ContentAssist.Json
import ContentAssist.Text.Decimal

/-! The data by which an item is found again: the number of its response and its index there, both
as decimal numerals. -/

namespace ContentAssist

structure ResolveKey where
  response : UInt64
  index : Nat
deriving DecidableEq, Repr

namespace ResolveKey

def responseKey : String := "rid"
def indexKey : String := "pid"

def uriKey : String := "uri"

def toJson (key : ResolveKey) : Json :=
  .object
    [(responseKey, .string (Text.Decimal.render key.response.toNat)),
     (indexKey, .string (Text.Decimal.render key.index))]

def number? (name : String) (value : Json) : Option Nat :=
  ((value.member? name).bind Json.string?).bind Text.Decimal.read?

def ofJson? (value : Json) : Option ResolveKey := do
  let response ← number? responseKey value
  let index ← number? indexKey value
  if response < UInt64.size then return { response := UInt64.ofNat response, index } else none

@[simp] theorem ofJson?_toJson (key : ResolveKey) : ofJson? key.toJson = some key := by
  have small := key.response.toNat_lt_size
  simp [ofJson?, toJson, number?, Json.member?, Json.lookup, Json.string?, responseKey, indexKey,
    small]

end ResolveKey

end ContentAssist
