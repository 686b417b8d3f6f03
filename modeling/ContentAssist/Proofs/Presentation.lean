import ContentAssist.Proofs.Compaction

/-! Decorators show in the label of an item and nowhere else, so filtering does not see them. -/

namespace ContentAssist

namespace Item

theorem exists_compacted (item : Item) (defaults : ItemDefaults) (pairs : Bool) :
    ∃ text edit format, item.compacted defaults pairs =
      { item with insertText := text, textEdit := edit, insertTextFormat := format } := by
  unfold compacted
  split
  · dsimp only
    split <;> exact ⟨_, _, _, rfl⟩
  · exact ⟨_, _, _, rfl⟩

theorem exists_decorated (item : Item) (decorators : String) :
    ∃ label filter, item.decorated decorators =
      { item with label := label, filterText := filter } := by
  unfold decorated
  split <;> exact ⟨_, _, rfl⟩

end Item

namespace Presenter

theorem exists_settle (presenter : Presenter) (proposal : Proposal) (item : Item) :
    ∃ filter edit, presenter.settle proposal item =
      { item with filterText := filter, textEdit := edit } := by
  unfold settle
  split <;> exact ⟨_, _, rfl⟩

theorem exists_written {presenter : Presenter} {ranked : Ranked} {index : Nat}
    {defaults : ItemDefaults} {item : Item}
    (presented : presenter.present ranked index defaults = .ok item) :
    ∃ written label filter text edit format,
      presenter.write ranked index = .ok written ∧
      item =
        { written with
          label := label
          filterText := filter
          insertText := text
          insertTextFormat := format
          textEdit := edit } := by
  obtain ⟨written, wrote, same⟩ := (presenter.present_eq_ok_iff _ _ _ _).mp presented
  obtain ⟨_, _, settled⟩ := presenter.exists_settle ranked.proposal written
  rw [settled] at same
  obtain ⟨text, edit, format, compacted⟩ := Item.exists_compacted _ defaults
    presenter.client.insertReplaceSupport
  rw [compacted] at same
  obtain ⟨label, filter, decorated⟩ := Item.exists_decorated _ ranked.decorators
  rw [decorated] at same
  exact ⟨written, label, filter, text, edit, format, wrote, same.symm⟩

end Presenter

namespace Item

/-- What is inserted if the item is chosen: the text of its edit, else its own. -/
def inserted (item : Item) : String :=
  match item.textEdit with
  | some edit => edit.newText
  | none => item.insertText.getD ""

/-- What the item is filtered by under a label with decorators. -/
def markedFilter (item : Item) : Option String :=
  if item.filterText.getD "" = "" then item.insertText else item.filterText

theorem decorated_of_ne_empty (item : Item) {decorators : String} (marked : decorators ≠ "") :
    item.decorated decorators =
      { item with
        label := decorators ++ " " ++ item.label
        filterText := item.markedFilter } := by
  have filled : ¬ decorators.isEmpty = true := fun empty => marked (String.isEmpty_iff.mp empty)
  rw [decorated, if_neg filled]
  simp only [markedFilter, String.isEmpty_iff]

theorem exists_markedFilter {item : Item}
    (texts : item.filterText.getD "" ≠ "" ∨ item.insertText.getD "" ≠ "") :
    ∃ filter, filter ≠ "" ∧ item.markedFilter = some filter := by
  have given {text : Option String} (filled : text.getD "" ≠ "") :
      ∃ filter, filter ≠ "" ∧ text = some filter := by
    cases text with
    | none => exact absurd rfl filled
    | some filter => exact ⟨filter, filled, rfl⟩
  unfold markedFilter
  split
  next empty => exact given (texts.resolve_left fun filled => filled empty)
  next filled => exact given filled

theorem filterText_of_markedFilter {item : Item} {filter : String}
    (same : item.markedFilter = some filter) :
    item.filterText = some filter ∨
      item.filterText.getD "" = "" ∧ item.insertText = some filter := by
  unfold markedFilter at same
  split at same
  next empty => exact Or.inr ⟨empty, same⟩
  next => exact Or.inl same

theorem filterText_compacted (item : Item) (defaults : ItemDefaults) (pairs : Bool) :
    (item.compacted defaults pairs).filterText = item.filterText := by
  obtain ⟨_, _, _, same⟩ := item.exists_compacted defaults pairs
  rw [same]

theorem label_compacted (item : Item) (defaults : ItemDefaults) (pairs : Bool) :
    (item.compacted defaults pairs).label = item.label := by
  obtain ⟨_, _, _, same⟩ := item.exists_compacted defaults pairs
  rw [same]

theorem insertText_compacted {item : Item} (unplaced : item.textEdit = none)
    (defaults : ItemDefaults) (pairs : Bool) :
    (item.compacted defaults pairs).insertText = item.insertText := by
  simp only [compacted, unplaced]

end Item

namespace Presenter

def undecorated (presenter : Presenter) (proposal : Proposal) (defaults : ItemDefaults)
    (written : Item) : Item :=
  (presenter.settle proposal written).compacted defaults presenter.client.insertReplaceSupport

theorem label_undecorated (presenter : Presenter) (proposal : Proposal)
    (defaults : ItemDefaults) (written : Item) :
    (presenter.undecorated proposal defaults written).label = written.label := by
  obtain ⟨_, _, settled⟩ := presenter.exists_settle proposal written
  rw [undecorated, Item.label_compacted, settled]

theorem texts_undecorated (presenter : Presenter) (proposal : Proposal)
    (defaults : ItemDefaults) {written : Item} (inserts : written.inserted ≠ "") :
    (presenter.undecorated proposal defaults written).filterText.getD "" ≠ "" ∨
      (presenter.undecorated proposal defaults written).insertText.getD "" ≠ "" := by
  unfold Item.inserted at inserts
  split at inserts
  next edit placed =>
      left
      rw [undecorated, Item.filterText_compacted, presenter.settle_of_textEdit proposal placed,
        Option.getD_some]
      exact presenter.filterText_ne_empty proposal written inserts
  next unplaced =>
      right
      have settled : presenter.settle proposal written = written := by
        simp only [settle, unplaced]
      rw [undecorated, settled, Item.insertText_compacted unplaced]
      exact inserts

/-- Whatever the decorators are, an item with a text to insert is listed with them before its
label, and is filtered by the same text, which is never empty. Nothing else depends on them.
Without decorators it is the same item, unless that has no text to filter by, for which the
text it inserts then stands in. -/
theorem present_decorated (presenter : Presenter) (proposal : Proposal) (verdict : Verdict)
    (index : Nat) (defaults : ItemDefaults) (written : Item)
    (wrote : presenter.write ⟨proposal, some verdict⟩ index = .ok written)
    (inserts : written.inserted ≠ "") :
    let marked (decorators : String) : Ranked := ⟨proposal, some { verdict with decorators }⟩
    ∃ plain filter,
      presenter.present (marked "") index defaults = .ok plain ∧
      plain.label = written.label ∧
      filter ≠ "" ∧
      (plain.filterText = some filter ∨
        plain.filterText.getD "" = "" ∧ plain.insertText = some filter) ∧
      ∀ decorators, decorators ≠ "" →
        presenter.present (marked decorators) index defaults =
          .ok { plain with
            label := decorators ++ " " ++ plain.label
            filterText := some filter } := by
  intro marked
  have listed (decorators : String) : presenter.present (marked decorators) index defaults =
      .ok ((presenter.undecorated proposal defaults written).decorated decorators) :=
    (presenter.present_eq_ok_iff _ _ _ _).mpr ⟨written, wrote, rfl⟩
  obtain ⟨filter, filled, same⟩ :=
    Item.exists_markedFilter (presenter.texts_undecorated proposal defaults inserts)
  refine ⟨presenter.undecorated proposal defaults written, filter, listed "",
    presenter.label_undecorated proposal defaults written, filled,
    Item.filterText_of_markedFilter same, ?_⟩
  intro decorators marks
  rw [listed, Item.decorated_of_ne_empty _ marks, same]

/-- A method whose edit is left to the list, and a keyword that has no edit and an empty text
to filter by, under two marks each. -/
theorem present_decorated_method_and_keyword :
    let insert : TextRange := { start := ⟨2, 4⟩, stop := ⟨2, 6⟩ }
    let writer : ItemWriter :=
      { describe := fun proposal item => .ok { item with
          label := proposal.completion
          filterText := some "" }
        methodDescription := fun _ => "size() : int"
        place := fun proposal item =>
          if proposal.kind = .methodRef then
            .ok { item with textEdit := some (.insertReplace proposal.completion insert insert) }
          else .ok { item with insertText := some proposal.completion } }
    let presenter : Presenter :=
      { client := { labelDetailsSupport := true }, writer, response := 7 }
    let defaults : ItemDefaults := { editRange := some (.plain insert) }
    let present (kind : Kind) (completion decorators : String) : Except Failure Item :=
      presenter.present ⟨{ kind, completion }, some { score := 3, decorators }⟩ 2 defaults
    (∃ plain,
      present .methodRef "size()" "" = .ok plain ∧
      plain.textEdit = none ∧ plain.filterText = some "size() : int" ∧
      present .methodRef "size()" "★" = .ok { plain with label := "★ size()" } ∧
      present .methodRef "size()" "★†" = .ok { plain with label := "★† size()" }) ∧
    ∃ plain,
      present .keyword "while" "" = .ok plain ∧ plain.filterText = some "" ∧
      present .keyword "while" "★" =
        .ok { plain with label := "★ while", filterText := some "while" } ∧
      present .keyword "while" "★†" =
        .ok { plain with label := "★† while", filterText := some "while" } := by
  intro insert writer presenter defaults present
  constructor
  · obtain ⟨plain, filter, listed, -, -, filters, marks⟩ :=
      present_decorated presenter { kind := .methodRef, completion := "size()" } { score := 3 } 2
        defaults _ rfl (by decide)
    cases listed
    have given : some "size() : int" = some filter :=
      filters.resolve_right fun absent => absurd absent.1 (by decide)
    cases given
    exact ⟨_, rfl, rfl, rfl, marks "★" (by decide), marks "★†" (by decide)⟩
  · obtain ⟨plain, filter, listed, -, filled, filters, marks⟩ :=
      present_decorated presenter { kind := .keyword, completion := "while" } { score := 3 } 2
        defaults _ rfl (by decide)
    cases listed
    have inserts : some "while" = some filter := by
      rcases filters with given | ⟨-, inserts⟩
      · cases given
        exact absurd rfl filled
      · exact inserts
    cases inserts
    exact ⟨_, rfl, rfl, marks "★" (by decide), marks "★†" (by decide)⟩

end Presenter

end ContentAssist
