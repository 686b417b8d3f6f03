import ContentAssist.Json

/-! The user's settings and their JSON form: an object, in which missing keys stand for the default
values, or the values in their fixed order, of which the last may be missing. A payload is valid as
a whole or not at all. -/

namespace ContentAssist

inductive CaseMatching where
  | off
  | firstLetter
deriving DecidableEq, Repr

inductive ArgumentGuessing where
  | off
  | insertParameterNames
  | insertBestGuessedArguments
deriving DecidableEq, Repr

structure Settings where
  maxResults : UInt64 := 50
  caseMatching : CaseMatching := .firstLetter
  argumentGuessing : ArgumentGuessing := .insertParameterNames
  hiddenTypes : List String :=
    ["java.awt.*", "com.sun.*", "sun.*", "jdk.*", "org.graalvm.*", "io.micrometer.shaded.*"]
deriving DecidableEq, Repr

/-- A choice is written as its name, or as an object with the name as its only key and
null as the value. -/
def Json.choice? : Json → Option String
  | .string name => some name
  | .object [(name, .null)] => some name
  | _ => none

namespace CaseMatching

def name : CaseMatching → String
  | off => "off"
  | firstLetter => "firstLetter"

def ofName? : String → Option CaseMatching
  | "off" => some off
  | "firstLetter" => some firstLetter
  | _ => none

def toJson (mode : CaseMatching) : Json :=
  .string mode.name

def ofJson? (value : Json) : Option CaseMatching :=
  value.choice?.bind ofName?

@[simp] theorem ofJson?_toJson (mode : CaseMatching) : ofJson? mode.toJson = some mode := by
  cases mode <;> rfl

end CaseMatching

namespace ArgumentGuessing

def name : ArgumentGuessing → String
  | off => "off"
  | insertParameterNames => "insertParameterNames"
  | insertBestGuessedArguments => "insertBestGuessedArguments"

def ofName? : String → Option ArgumentGuessing
  | "off" => some off
  | "insertParameterNames" => some insertParameterNames
  | "insertBestGuessedArguments" => some insertBestGuessedArguments
  | _ => none

def toJson (mode : ArgumentGuessing) : Json :=
  .string mode.name

def ofJson? (value : Json) : Option ArgumentGuessing :=
  value.choice?.bind ofName?

@[simp] theorem ofJson?_toJson (mode : ArgumentGuessing) : ofJson? mode.toJson = some mode := by
  cases mode <;> rfl

end ArgumentGuessing

namespace Settings

def maxResultsKey : String := "maxCompletionResults"
def caseMatchingKey : String := "matchCase"
def argumentGuessingKey : String := "guessMethodArguments"
def hiddenTypesKey : String := "filteredTypes"

def keys : List String :=
  [maxResultsKey, caseMatchingKey, argumentGuessingKey, hiddenTypesKey]

def toJson (settings : Settings) : Json :=
  .object
    [(maxResultsKey, .ofNat settings.maxResults.toNat),
     (caseMatchingKey, settings.caseMatching.toJson),
     (argumentGuessingKey, settings.argumentGuessing.toJson),
     (hiddenTypesKey, .ofStrings settings.hiddenTypes)]

def valueOr {α : Type} (default : α) (read : Json → Option α) : Option Json → Option α
  | none => some default
  | some value => read value

def ofMembers? (members : List (String × Json)) : Option Settings := do
  let defaults : Settings := {}
  let maxResults ← valueOr defaults.maxResults Json.uint64? (Json.lookup maxResultsKey members)
  let caseMatching ←
    valueOr defaults.caseMatching CaseMatching.ofJson? (Json.lookup caseMatchingKey members)
  let argumentGuessing ←
    valueOr defaults.argumentGuessing ArgumentGuessing.ofJson?
      (Json.lookup argumentGuessingKey members)
  let hiddenTypes ←
    valueOr defaults.hiddenTypes Json.strings? (Json.lookup hiddenTypesKey members)
  return { maxResults, caseMatching, argumentGuessing, hiddenTypes }

def ofJson? : Json → Option Settings
  | .object members => ofMembers? members
  | .array values => if values.length ≤ keys.length then ofMembers? (keys.zip values) else none
  | _ => none

def update (settings : Settings) (payload : Json) : Settings :=
  (ofJson? payload).getD settings

@[simp] theorem ofJson?_toJson (settings : Settings) :
    ofJson? settings.toJson = some settings := by
  simp [ofJson?, toJson, ofMembers?, valueOr, Json.lookup, maxResultsKey, caseMatchingKey,
    argumentGuessingKey, hiddenTypesKey]

theorem update_of_ofJson? {payload : Json} {decoded : Settings}
    (valid : ofJson? payload = some decoded) (settings : Settings) :
    settings.update payload = decoded := by
  simp [update, valid]

theorem update_of_invalid {payload : Json} (invalid : ofJson? payload = none)
    (settings : Settings) : settings.update payload = settings := by
  simp [update, invalid]

end Settings

end ContentAssist
