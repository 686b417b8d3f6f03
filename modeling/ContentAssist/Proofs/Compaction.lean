import ContentAssist.Presentation

/-! What a list shares and what its items leave out belong together: an item presented against
shared values and then expanded by them is the item presented on its own, but for an edit of which
only the insert range can be shared. -/

namespace ContentAssist

/-- What comes back of an edit whose range the list has shared. -/
def TextEdit.shared (edit : TextEdit) (pairs : Bool) : TextEdit :=
  (edit.editRange pairs).edit edit.newText

theorem TextEdit.editRange_shared (edit : TextEdit) (pairs : Bool) :
    (edit.shared pairs).editRange pairs = edit.editRange pairs := by
  cases edit with
  | plain text range => rfl
  | insertReplace text insert replace => cases pairs <;> rfl

namespace Item

def ownFormat (item : Item) (defaults : ItemDefaults) : Option TextFormat :=
  if item.insertTextFormat = defaults.insertTextFormat then none else item.insertTextFormat

theorem ownFormat_or {item : Item} (formatted : item.insertTextFormat.isSome)
    (defaults : ItemDefaults) :
    (item.ownFormat defaults).or defaults.insertTextFormat = item.insertTextFormat := by
  unfold ownFormat
  split
  next same => rw [Option.none_or, same]
  next => rw [Option.or_of_isSome formatted]

theorem compacted_of_shared {item : Item} {edit : TextEdit} {defaults : ItemDefaults}
    {pairs : Bool} (placed : item.textEdit = some edit)
    (shared : defaults.editRange = some (edit.editRange pairs)) :
    item.compacted defaults pairs =
      { item with
        insertText := some edit.newText
        textEdit := none
        insertTextFormat := item.ownFormat defaults } := by
  simp only [compacted, placed, shared, if_true, ownFormat]

theorem compacted_of_not_shared {item : Item} {edit : TextEdit} {defaults : ItemDefaults}
    {pairs : Bool} (placed : item.textEdit = some edit)
    (apart : defaults.editRange ≠ some (edit.editRange pairs)) :
    item.compacted defaults pairs = { item with insertTextFormat := item.ownFormat defaults } := by
  unfold compacted
  split
  next own range found shared =>
      rw [placed] at found
      cases found
      have different : ¬ edit.editRange pairs = range :=
        fun same => apart (same ▸ shared)
      rw [if_neg different]
      rfl
  next => rfl

theorem insertTextFormat_compacted (item : Item) (defaults : ItemDefaults) (pairs : Bool) :
    (item.compacted defaults pairs).insertTextFormat = item.ownFormat defaults := by
  cases placed : item.textEdit with
  | none => simp only [compacted, placed, ownFormat]
  | some edit =>
      by_cases shared : defaults.editRange = some (edit.editRange pairs)
      · rw [compacted_of_shared placed shared]
      · rw [compacted_of_not_shared placed shared]

theorem expanded_of_textEdit {item : Item} {edit : TextEdit} (placed : item.textEdit = some edit)
    (defaults : ItemDefaults) :
    item.expanded defaults =
      { item with
        insertTextFormat := item.insertTextFormat.or defaults.insertTextFormat
        insertTextMode := item.insertTextMode.or defaults.insertTextMode } := by
  simp only [expanded, placed]

theorem expanded_of_insertText {item : Item} {text : String} {range : EditRange}
    {defaults : ItemDefaults} (unplaced : item.textEdit = none)
    (inserts : item.insertText = some text) (shared : defaults.editRange = some range) :
    item.expanded defaults =
      { item with
        textEdit := some (range.edit text)
        insertText := none
        insertTextFormat := item.insertTextFormat.or defaults.insertTextFormat
        insertTextMode := item.insertTextMode.or defaults.insertTextMode } := by
  simp only [expanded, unplaced, inserts, shared, Option.getD_some]

def decoratedLabel (item : Item) (decorators : String) : String :=
  if decorators.isEmpty then item.label else decorators ++ " " ++ item.label

@[simp] theorem textEdit_decorated (item : Item) (decorators : String) :
    (item.decorated decorators).textEdit = item.textEdit := by
  unfold decorated
  split <;> rfl

@[simp] theorem insertText_decorated (item : Item) (decorators : String) :
    (item.decorated decorators).insertText = item.insertText := by
  unfold decorated
  split <;> rfl

@[simp] theorem insertTextFormat_decorated (item : Item) (decorators : String) :
    (item.decorated decorators).insertTextFormat = item.insertTextFormat := by
  unfold decorated
  split <;> rfl

theorem decorated_of_filterText {item : Item} {decorators : String}
    (filtered : decorators = "" ∨ item.filterText.getD "" ≠ "") :
    item.decorated decorators = { item with label := item.decoratedLabel decorators } := by
  unfold decorated decoratedLabel
  rcases filtered with plain | filtered
  · subst plain
    rfl
  · have nonempty : (item.filterText.getD "").isEmpty = false := by simpa using filtered
    split
    next => rfl
    next => simp only [nonempty, Bool.false_eq_true, if_false]

theorem expanded_compacted_of_shared {item : Item} {edit : TextEdit}
    {defaults : ItemDefaults} {pairs : Bool} {decorators : String}
    (placed : item.textEdit = some edit) (formatted : item.insertTextFormat.isSome)
    (filtered : decorators = "" ∨ item.filterText.getD "" ≠ "")
    (shared : defaults.editRange = some (edit.editRange pairs)) :
    ((item.compacted defaults pairs).decorated decorators).expanded defaults =
      { item.decorated decorators with
        textEdit := some (edit.shared pairs)
        insertText := none
        insertTextMode :=
          (item.decorated decorators).insertTextMode.or defaults.insertTextMode } := by
  rw [compacted_of_shared placed shared, decorated_of_filterText filtered,
    decorated_of_filterText (by exact filtered), expanded_of_insertText rfl rfl shared]
  simp only [ownFormat_or formatted]
  rfl

theorem expanded_compacted_of_not_shared {item : Item} {edit : TextEdit}
    {defaults : ItemDefaults} {pairs : Bool} {decorators : String}
    (placed : item.textEdit = some edit) (formatted : item.insertTextFormat.isSome)
    (filtered : decorators = "" ∨ item.filterText.getD "" ≠ "")
    (apart : defaults.editRange ≠ some (edit.editRange pairs)) :
    ((item.compacted defaults pairs).decorated decorators).expanded defaults =
      { item.decorated decorators with
        insertTextMode :=
          (item.decorated decorators).insertTextMode.or defaults.insertTextMode } := by
  rw [compacted_of_not_shared placed apart, decorated_of_filterText filtered,
    decorated_of_filterText (by exact filtered), expanded_of_textEdit (by exact placed)]
  simp only [ownFormat_or formatted]
  rfl

end Item

namespace Presenter

theorem filterText_ne_empty (presenter : Presenter) (proposal : Proposal) (item : Item)
    {inserted : String} (visible : inserted ≠ "") :
    presenter.filterText proposal item inserted ≠ "" := by
  unfold filterText
  dsimp only
  split
  next => exact visible
  next nonempty => simpa using nonempty

theorem settle_of_textEdit (presenter : Presenter) (proposal : Proposal) {item : Item}
    {edit : TextEdit} (placed : item.textEdit = some edit) :
    presenter.settle proposal item =
      { item with
        filterText := some (presenter.filterText proposal item edit.newText)
        textEdit := some (edit.onOneLine presenter.client.insertReplaceSupport) } := by
  simp only [settle, placed]

theorem textEdit_settle (presenter : Presenter) (proposal : Proposal) (item : Item) :
    (presenter.settle proposal item).textEdit =
      item.textEdit.map (·.onOneLine presenter.client.insertReplaceSupport) := by
  cases placed : item.textEdit with
  | none => simp only [settle, placed, Option.map_none]
  | some edit => simp only [presenter.settle_of_textEdit proposal placed, Option.map_some]

theorem filterText_settle_ne_empty (presenter : Presenter) (proposal : Proposal) (item : Item)
    {edit : TextEdit} (settled : (presenter.settle proposal item).textEdit = some edit)
    (visible : edit.newText ≠ "") :
    (presenter.settle proposal item).filterText.getD "" ≠ "" := by
  rw [textEdit_settle, Option.map_eq_some_iff] at settled
  obtain ⟨written, placed, same⟩ := settled
  have text : written.newText ≠ "" := by
    rw [← same, TextEdit.newText_onOneLine] at visible
    exact visible
  rw [presenter.settle_of_textEdit proposal placed, Option.getD_some]
  exact presenter.filterText_ne_empty proposal item text

theorem present_eq_ok_iff (presenter : Presenter) (ranked : Ranked) (index : Nat)
    (defaults : ItemDefaults) (item : Item) :
    presenter.present ranked index defaults = .ok item ↔
      ∃ written, presenter.write ranked index = .ok written ∧
        ((presenter.settle ranked.proposal written).compacted defaults
          presenter.client.insertReplaceSupport).decorated ranked.decorators = item := by
  unfold present
  cases presenter.write ranked index with
  | error failure => simp
  | ok written => simp

/-- Whatever a list shares, an item with an edit and a format of its own says the same
once it is expanded: only what stood for the edit is gone, and a mode it does not have is
that of the list. -/
theorem expanded_present (presenter : Presenter) (ranked : Ranked) (index : Nat)
    (defaults : ItemDefaults) (alone : Item) (edit : TextEdit)
    (presented : presenter.present ranked index {} = .ok alone)
    (placed : alone.textEdit = some edit) (formatted : alone.insertTextFormat.isSome)
    (visible : edit.newText ≠ "" ∨ ranked.decorators = "") :
    let pairs := presenter.client.insertReplaceSupport
    ∃ compact restored,
      presenter.present ranked index defaults = .ok compact ∧
      (compact.textEdit = none ↔ defaults.editRange = some (edit.editRange pairs)) ∧
      compact.expanded defaults =
        { alone with
          textEdit := some restored
          insertText := if compact.textEdit.isNone then none else alone.insertText
          insertTextMode := alone.insertTextMode.or defaults.insertTextMode } ∧
      restored.newText = edit.newText ∧
      restored.editRange pairs = edit.editRange pairs ∧
      ((pairs = true ∨ ∃ text range, edit = .plain text range) → restored = edit) := by
  intro pairs
  obtain ⟨written, wrote, same⟩ := (presenter.present_eq_ok_iff _ _ _ _).mp presented
  rw [Item.compacted_empty] at same
  subst same
  generalize settledAt : presenter.settle ranked.proposal written = settled at placed formatted
  rw [Item.textEdit_decorated] at placed
  rw [Item.insertTextFormat_decorated] at formatted
  have filtered : ranked.decorators = "" ∨ settled.filterText.getD "" ≠ "" := by
    rcases visible with visible | plain
    · exact Or.inr (settledAt ▸
        presenter.filterText_settle_ne_empty _ _ (settledAt ▸ placed) visible)
    · exact Or.inl plain
  refine ⟨(settled.compacted defaults pairs).decorated ranked.decorators, ?_⟩
  have again : presenter.present ranked index defaults =
      .ok ((settled.compacted defaults pairs).decorated ranked.decorators) :=
    (presenter.present_eq_ok_iff _ _ _ _).mpr ⟨written, wrote, settledAt ▸ rfl⟩
  by_cases shared : defaults.editRange = some (edit.editRange pairs)
  · have stripped : ((settled.compacted defaults pairs).decorated
        ranked.decorators).textEdit = none := by
      rw [Item.textEdit_decorated, Item.compacted_of_shared placed shared]
    refine ⟨edit.shared pairs, again, ⟨fun _ => shared, fun _ => stripped⟩, ?_,
      EditRange.newText_edit _ _, edit.editRange_shared pairs, EditRange.edit_editRange pairs edit⟩
    rw [Item.expanded_compacted_of_shared placed formatted filtered shared, stripped,
      Option.isNone_none, if_pos rfl]
  · have kept : ((settled.compacted defaults pairs).decorated
        ranked.decorators).textEdit = some edit := by
      rw [Item.textEdit_decorated, Item.compacted_of_not_shared placed shared, placed]
    refine ⟨edit, again, ⟨fun gone => absurd (kept.symm.trans gone) nofun,
      fun same => absurd same shared⟩, ?_, rfl, rfl, fun _ => rfl⟩
    rw [Item.expanded_compacted_of_not_shared placed formatted filtered shared, kept,
      Option.isNone_some, if_neg Bool.false_ne_true, ← placed,
      ← Item.textEdit_decorated settled ranked.decorators]

/-- An editor without pairs gets back the insert half of a pair, also of a marked item. -/
theorem expanded_present_half_shared :
    let insert : TextRange := { start := ⟨2, 4⟩, stop := ⟨2, 6⟩ }
    let replace : TextRange := { start := ⟨2, 4⟩, stop := ⟨2, 9⟩ }
    let writer : ItemWriter :=
      { describe := fun proposal item => .ok { item with
          label := proposal.completion
          insertTextMode := some .adjustIndentation }
        methodDescription := fun _ => ""
        place := fun proposal item => .ok { item with
          textEdit := some (.insertReplace proposal.completion insert replace)
          insertTextFormat := some .snippet } }
    let presenter : Presenter := { client := {}, writer, response := 7 }
    let ranked : Ranked :=
      { proposal := { kind := .fieldRef, completion := "size" }
        verdict := some { decorators := "★" } }
    let defaults : ItemDefaults :=
      { editRange := some (.plain insert)
        insertTextFormat := some .snippet
        insertTextMode := some .asIs }
    ∃ compact restored,
      presenter.present ranked 3 defaults = .ok compact ∧
      compact.textEdit = none ∧
      (compact.expanded defaults).textEdit = some restored ∧
      restored.editRange false = .plain insert ∧ restored.newText = "size" ∧
      (compact.expanded defaults).label = "★ size" ∧
      (compact.expanded defaults).insertText = none ∧
      (compact.expanded defaults).insertTextMode = some .adjustIndentation := by
  intro insert replace writer presenter ranked defaults
  obtain ⟨compact, restored, presented, stripped, expanded, text, range, -⟩ :=
    expanded_present presenter ranked 3 defaults _ (.insertReplace "size" insert replace) rfl rfl rfl
      (Or.inl (by decide))
  have gone : compact.textEdit = none := stripped.mpr rfl
  rw [gone, Option.isNone_none, if_pos rfl] at expanded
  exact ⟨compact, restored, presented, gone, congrArg Item.textEdit expanded, range, text,
    congrArg Item.label expanded, congrArg Item.insertText expanded,
    congrArg Item.insertTextMode expanded⟩

end Presenter

end ContentAssist
