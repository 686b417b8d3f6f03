import ContentAssist.Json

/-! Edits of a document, and the edit range that a whole completion list can share. -/

namespace ContentAssist

structure Position where
  line : UInt32 := 0
  character : UInt32 := 0
deriving DecidableEq, Repr

structure TextRange where
  start : Position := {}
  stop : Position := {}
deriving DecidableEq, Repr

inductive TextEdit where
  | plain (newText : String) (range : TextRange)
  | insertReplace (newText : String) (insert replace : TextRange)
deriving DecidableEq, Repr

inductive EditRange where
  | plain (range : TextRange)
  | insertReplace (insert replace : TextRange)
deriving DecidableEq, Repr

namespace TextRange

def isSingleLine (range : TextRange) : Bool :=
  range.stop.line == range.start.line

def onOneLine (range : TextRange) : TextRange :=
  if range.isSingleLine then range else { range with stop := range.start }

@[simp] theorem isSingleLine_onOneLine (range : TextRange) : range.onOneLine.isSingleLine := by
  unfold onOneLine
  split
  next single => exact single
  next => simp [isSingleLine]

@[simp] theorem start_onOneLine (range : TextRange) : range.onOneLine.start = range.start := by
  unfold onOneLine
  split <;> rfl

end TextRange

namespace TextEdit

def newText : TextEdit → String
  | plain text _ => text
  | insertReplace text _ _ => text

/-- Without support for pairs the insert range stands for the pair. -/
def editRange (pairs : Bool) : TextEdit → EditRange
  | plain _ range => .plain range
  | insertReplace _ insert replace =>
      if pairs then .insertReplace insert replace else .plain insert

def onOneLine (pairs : Bool) : TextEdit → TextEdit
  | plain text range => .plain text range.onOneLine
  | insertReplace text insert replace =>
      if pairs then .insertReplace text insert replace.onOneLine
      else .insertReplace text insert.onOneLine replace

@[simp] theorem newText_onOneLine (pairs : Bool) (edit : TextEdit) :
    (edit.onOneLine pairs).newText = edit.newText := by
  cases edit <;> cases pairs <;> rfl

end TextEdit

namespace EditRange

def primary : EditRange → TextRange
  | plain range => range
  | insertReplace insert _ => insert

def edit (range : EditRange) (newText : String) : TextEdit :=
  match range with
  | plain range => .plain newText range
  | insertReplace insert replace => .insertReplace newText insert replace

@[simp] theorem newText_edit (range : EditRange) (text : String) :
    (range.edit text).newText = text := by
  cases range <;> rfl

theorem edit_editRange (pairs : Bool) (edit : TextEdit)
    (whole : pairs = true ∨ ∃ text range, edit = .plain text range) :
    (edit.editRange pairs).edit edit.newText = edit := by
  cases edit with
  | plain text range => rfl
  | insertReplace text insert replace =>
      rcases whole with supported | ⟨other, range, impossible⟩
      · subst supported
        rfl
      · cases impossible

end EditRange

namespace Position

def toJson (position : Position) : Json :=
  .object [("line", .ofNat position.line.toNat), ("character", .ofNat position.character.toNat)]

def ofJson? (value : Json) : Option Position := do
  let line ← (← value.member? "line").uint32?
  let character ← (← value.member? "character").uint32?
  return { line, character }

@[simp] theorem ofJson?_toJson (position : Position) :
    ofJson? position.toJson = some position := by
  simp [ofJson?, toJson, Json.member?, Json.lookup]

end Position

namespace TextRange

def toJson (range : TextRange) : Json :=
  .object [("start", range.start.toJson), ("end", range.stop.toJson)]

def ofJson? (value : Json) : Option TextRange := do
  let start ← Position.ofJson? (← value.member? "start")
  let stop ← Position.ofJson? (← value.member? "end")
  return { start, stop }

@[simp] theorem ofJson?_toJson (range : TextRange) : ofJson? range.toJson = some range := by
  simp [ofJson?, toJson, Json.member?, Json.lookup]

end TextRange

namespace EditRange

def toJson : EditRange → Json
  | plain range => range.toJson
  | insertReplace insert replace =>
      .object [("insert", insert.toJson), ("replace", replace.toJson)]

def ofJson? (value : Json) : Option EditRange :=
  match TextRange.ofJson? value with
  | some range => some (.plain range)
  | none => do
      let insert ← TextRange.ofJson? (← value.member? "insert")
      let replace ← TextRange.ofJson? (← value.member? "replace")
      return .insertReplace insert replace

@[simp] theorem ofJson?_toJson (range : EditRange) : ofJson? range.toJson = some range := by
  cases range with
  | plain range => simp [ofJson?, toJson]
  | insertReplace insert replace =>
      have notPlain : TextRange.ofJson? (toJson (.insertReplace insert replace)) = none := by
        simp [toJson, TextRange.ofJson?, Json.member?, Json.lookup]
      simp only [ofJson?, notPlain]
      simp [toJson, Json.member?, Json.lookup]

end EditRange

namespace TextEdit

def toJson : TextEdit → Json
  | plain text range => .object [("range", range.toJson), ("newText", .string text)]
  | insertReplace text insert replace =>
      .object [("newText", .string text), ("insert", insert.toJson), ("replace", replace.toJson)]

/-- A pair of ranges counts only where there is no single range that reads. -/
def ofJson? (value : Json) : Option TextEdit := do
  let text ← (← value.member? "newText").string?
  match (value.member? "range").bind TextRange.ofJson? with
  | some range => return .plain text range
  | none => do
      let insert ← TextRange.ofJson? (← value.member? "insert")
      let replace ← TextRange.ofJson? (← value.member? "replace")
      return .insertReplace text insert replace

@[simp] theorem ofJson?_toJson (edit : TextEdit) : ofJson? edit.toJson = some edit := by
  cases edit <;> simp [ofJson?, toJson, Json.member?, Json.lookup, Json.string?]

end TextEdit

end ContentAssist
