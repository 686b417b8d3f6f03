import ContentAssist.Protocol.Edit
import ContentAssist.Protocol.ItemKind

/-! Completion items. In the JSON form every field but the label is left out without a value. -/

namespace ContentAssist

structure TextFormat where
  code : Int32
deriving DecidableEq, Repr

def TextFormat.plainText : TextFormat := ⟨1⟩
def TextFormat.snippet : TextFormat := ⟨2⟩

structure InsertMode where
  code : Int32
deriving DecidableEq, Repr

def InsertMode.asIs : InsertMode := ⟨1⟩
def InsertMode.adjustIndentation : InsertMode := ⟨2⟩

structure ItemTag where
  code : Int32
deriving DecidableEq, Repr

def ItemTag.deprecated : ItemTag := ⟨1⟩

inductive Documentation where
  | text (value : String)
  | markup (kind value : String)
deriving DecidableEq, Repr

structure LabelDetails where
  detail : Option String := none
  description : Option String := none
deriving DecidableEq, Repr

structure Item where
  label : String := ""
  labelDetails : Option LabelDetails := none
  kind : Option ItemKind := none
  detail : Option String := none
  documentation : Option Documentation := none
  deprecated : Option Bool := none
  preselect : Option Bool := none
  sortText : Option String := none
  filterText : Option String := none
  insertText : Option String := none
  insertTextFormat : Option TextFormat := none
  insertTextMode : Option InsertMode := none
  textEdit : Option TextEdit := none
  commitCharacters : Option (List String) := none
  data : Option Json := none
  tags : Option (List ItemTag) := none

def Json.ofCode (code : Int32) : Json :=
  .integer code.toInt

def Documentation.toJson : Documentation → Json
  | text value => .string value
  | markup kind value => .object [("kind", .string kind), ("value", .string value)]

def LabelDetails.toJson (details : LabelDetails) : Json :=
  .ofFields
    [("detail", details.detail.map .string),
     ("description", details.description.map .string)]

def Item.fields (item : Item) : List (String × Option Json) :=
  [("label", some (.string item.label)),
   ("labelDetails", item.labelDetails.map LabelDetails.toJson),
   ("kind", item.kind.map fun kind => .ofCode kind.code),
   ("detail", item.detail.map .string),
   ("documentation", item.documentation.map Documentation.toJson),
   ("deprecated", item.deprecated.map .bool),
   ("preselect", item.preselect.map .bool),
   ("sortText", item.sortText.map .string),
   ("filterText", item.filterText.map .string),
   ("insertText", item.insertText.map .string),
   ("insertTextFormat", item.insertTextFormat.map fun format => .ofCode format.code),
   ("insertTextMode", item.insertTextMode.map fun mode => .ofCode mode.code),
   ("textEdit", item.textEdit.map TextEdit.toJson),
   ("commitCharacters", item.commitCharacters.map .ofStrings),
   ("data", item.data),
   ("tags", item.tags.map fun tags => .array (tags.map fun tag => .ofCode tag.code))]

def Item.toJson (item : Item) : Json :=
  .ofFields item.fields

end ContentAssist
