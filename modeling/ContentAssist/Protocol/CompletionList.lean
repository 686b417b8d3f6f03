import ContentAssist.Protocol.Compaction

/-! Completion lists in two forms: items that rely on the values shared by the list, and items that
stand on their own. -/

namespace ContentAssist

structure CompletionList where
  items : List Item := []
  isIncomplete : Bool := false
  defaults : ItemDefaults := {}

namespace CompletionList

/-- At a shared range, an item without an edit of its own names the text to insert there. -/
def itemFields (list : CompletionList) (item : Item) : List (String × Option Json) :=
  let text :=
    if list.defaults.editRange.isSome && item.textEdit.isNone then item.insertText else none
  item.fields ++ [("textEditText", text.map .string)]

def toJson (list : CompletionList) : Json :=
  .ofFields
    [("isIncomplete", some (.bool list.isIncomplete)),
     ("items", some (.array (list.items.map fun item => .ofFields (list.itemFields item)))),
     ("itemDefaults", if list.defaults.isEmpty then none else some list.defaults.toJson)]

def expanded (list : CompletionList) : CompletionList :=
  { items := list.items.map (·.expanded list.defaults)
    isIncomplete := list.isIncomplete }

end CompletionList

end ContentAssist
