import ContentAssist.Protocol.Item

/-! What the editor can do with completion items. What it does not announce is not supported. -/

namespace ContentAssist

structure Client where
  tagSupport : Bool := false
  insertReplaceSupport : Bool := false
  labelDetailsSupport : Bool := false
  itemDefaults : List String := []
  insertModes : List InsertMode := []
  defaultInsertMode : Option InsertMode := none
deriving DecidableEq, Repr

namespace Client

def insertMode? (value : Json) : Option InsertMode :=
  match value.integer? with
  | some 1 => some .asIs
  | some 2 => some .adjustIndentation
  | _ => none

def ofCapabilities (capabilities : Json) : Client :=
  let completion (path : List String) : Option Json :=
    capabilities.at? ("textDocument" :: "completion" :: path)
  let flag (path : List String) : Bool := ((completion path).bind Json.bool?).getD false
  let elements (path : List String) : List Json :=
    ((completion path).bind Json.elements?).getD []
  { tagSupport :=
      (elements ["completionItem", "tagSupport", "valueSet"]).any (·.integer? == some 1)
    insertReplaceSupport := flag ["completionItem", "insertReplaceSupport"]
    labelDetailsSupport := flag ["completionItem", "labelDetailsSupport"]
    itemDefaults := (elements ["completionList", "itemDefaults"]).filterMap Json.string?
    insertModes :=
      (elements ["completionItem", "insertTextModeSupport", "valueSet"]).filterMap insertMode?
    defaultInsertMode := (completion ["insertTextMode"]).bind insertMode? }

def supportsDefault (client : Client) (property : String) : Bool :=
  client.itemDefaults.contains property

def supportsMode (client : Client) (mode : InsertMode) : Bool :=
  client.insertModes.contains mode

end Client

end ContentAssist
