import ContentAssist.Protocol.ItemDefaults

/-! What an item leaves to the values of its list, and what it takes over from them. -/

namespace ContentAssist

/-- An edit at the shared range is left to the list and only its text is kept. A format
of its own that the list shares is left out. -/
def Item.compacted (item : Item) (defaults : ItemDefaults) (pairs : Bool) : Item :=
  let placed :=
    match item.textEdit, defaults.editRange with
    | some edit, some range =>
        if edit.editRange pairs = range then
          { item with insertText := some edit.newText, textEdit := none }
        else item
    | _, _ => item
  { placed with
    insertTextFormat :=
      if item.insertTextFormat = defaults.insertTextFormat then none else item.insertTextFormat }

/-- At a shared range, the insert text, else the label, becomes the text of an edit. -/
def Item.expanded (item : Item) (defaults : ItemDefaults) : Item :=
  let placed :=
    match item.textEdit, defaults.editRange with
    | none, some range =>
        { item with
          textEdit := some (range.edit (item.insertText.getD item.label))
          insertText := none }
    | _, _ => item
  { placed with
    insertTextFormat := item.insertTextFormat.or defaults.insertTextFormat
    insertTextMode := item.insertTextMode.or defaults.insertTextMode }

@[simp] theorem Item.compacted_empty (item : Item) (pairs : Bool) :
    item.compacted {} pairs = item := by
  unfold Item.compacted
  cases item with
  | mk =>
      split
      next impossible => cases impossible
      next =>
          dsimp only
          split
          next same => simp [same]
          next => rfl

end ContentAssist
