import ContentAssist.Proposal.Kind
import ContentAssist.Protocol.Item

/-! Values that all items of a list take over unless they have their own. -/

namespace ContentAssist

structure ItemDefaults where
  editRange : Option EditRange := none
  insertTextFormat : Option TextFormat := none
  insertTextMode : Option InsertMode := none
  data : Option Json := none

namespace ItemDefaults

def isEmpty (defaults : ItemDefaults) : Bool :=
  defaults.editRange.isNone && defaults.insertTextFormat.isNone &&
    defaults.insertTextMode.isNone && defaults.data.isNone

def kindsKey : String := "completionKinds"

def kindsJson (kinds : KindSet) : Json :=
  .array (kinds.toList.map fun kind => .ofNat kind.ordinal)

/-- Shared data that is an object keeps its other members; any other value gives way. -/
def dataWithKinds (kinds : KindSet) : Option Json → Json
  | some (.object members) => .object (Json.assign kindsKey (kindsJson kinds) members)
  | _ => .object [(kindsKey, kindsJson kinds)]

def recordKinds (defaults : ItemDefaults) (kinds : KindSet) : ItemDefaults :=
  if kinds.isEmpty then defaults
  else { defaults with data := some (dataWithKinds kinds defaults.data) }

@[simp] theorem recordKinds_of_isEmpty {kinds : KindSet} (empty : kinds.isEmpty)
    (defaults : ItemDefaults) : defaults.recordKinds kinds = defaults := by
  simp [recordKinds, empty]

theorem member?_dataWithKinds_self (kinds : KindSet) (data : Option Json) :
    (dataWithKinds kinds data).member? kindsKey = some (kindsJson kinds) := by
  unfold dataWithKinds
  split <;> simp [Json.member?, Json.lookup]

theorem member?_dataWithKinds_of_ne {key : String} (different : key ≠ kindsKey)
    (kinds : KindSet) (members : List (String × Json)) :
    (dataWithKinds kinds (some (.object members))).member? key =
      (Json.object members).member? key :=
  Json.lookup_assign_of_ne different _ _

def fields (defaults : ItemDefaults) : List (String × Option Json) :=
  [("editRange", defaults.editRange.map EditRange.toJson),
   ("insertTextFormat", defaults.insertTextFormat.map fun format => .ofCode format.code),
   ("insertTextMode", defaults.insertTextMode.map fun mode => .ofCode mode.code),
   ("data", defaults.data)]

def toJson (defaults : ItemDefaults) : Json :=
  .ofFields defaults.fields

end ItemDefaults

end ContentAssist
