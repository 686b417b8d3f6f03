import ContentAssist.Proofs.Presentation

/-! The values a list shares and the proposal they are taken from, whose items leave to the list
what it took from them. -/

namespace ContentAssist

/-- Whenever the writer does not fail on an item of that proposal, describing the item leaves
its edit and its format alone, and placing an item that has neither gives it just these. -/
structure ItemWriter.Writes (writer : ItemWriter) (proposal : Proposal)
    (edit : Option TextEdit) (format : Option TextFormat) : Prop where
  describe : ∀ item described, writer.describe proposal item = .ok described →
    described.textEdit = item.textEdit ∧ described.insertTextFormat = item.insertTextFormat
  place : ∀ item placed, item.textEdit = none → item.insertTextFormat = none →
    writer.place proposal item = .ok placed →
    placed.textEdit = edit ∧ placed.insertTextFormat = format

namespace Presenter

section

variable {presenter : Presenter} {proposal : Proposal}
variable {edit : Option TextEdit} {format : Option TextFormat}

theorem placedFirst_of_writes (writes : presenter.writer.Writes proposal edit format) :
    presenter.placedFirst proposal = {} ∨
      (presenter.placedFirst proposal).textEdit = edit ∧
        (presenter.placedFirst proposal).insertTextFormat = format := by
  unfold placedFirst
  cases placed : presenter.writer.place proposal {} with
  | error failure => exact Or.inl rfl
  | ok item => exact Or.inr (writes.place {} item rfl rfl placed)

theorem eq_some_of_placedFirst (writes : presenter.writer.Writes proposal edit format) :
    (∀ placed, (presenter.placedFirst proposal).textEdit = some placed → edit = some placed) ∧
      ∀ placed, (presenter.placedFirst proposal).insertTextFormat = some placed →
        format = some placed := by
  rcases placedFirst_of_writes writes with failed | ⟨sameEdit, sameFormat⟩
  · rw [failed]
    exact ⟨nofun, nofun⟩
  · exact ⟨fun _ first => sameEdit.symm.trans first, fun _ first => sameFormat.symm.trans first⟩

theorem blankItem_unplaced (presenter : Presenter) (proposal : Proposal) (index : Nat) :
    (presenter.blankItem proposal index).textEdit = none ∧
      (presenter.blankItem proposal index).insertTextFormat = none := by
  unfold blankItem markDeprecated
  dsimp only
  split
  · split <;> exact ⟨rfl, rfl⟩
  · exact ⟨rfl, rfl⟩

theorem written_of_writes {ranked : Ranked} {index : Nat} {written : Item}
    (writes : presenter.writer.Writes ranked.proposal edit format)
    (wrote : presenter.write ranked index = .ok written) :
    written.textEdit = edit ∧ written.insertTextFormat = format := by
  unfold write at wrote
  split at wrote
  next => cases wrote
  next described describes =>
      obtain ⟨blankEdit, blankFormat⟩ := presenter.blankItem_unplaced ranked.proposal index
      obtain ⟨sameEdit, sameFormat⟩ := writes.describe _ described describes
      exact writes.place _ written (by exact sameEdit.trans blankEdit)
        (by exact sameFormat.trans blankFormat) wrote

end

def settledRange (presenter : Presenter) (edit : TextEdit) : EditRange :=
  (edit.onOneLine presenter.client.insertReplaceSupport).editRange
    presenter.client.insertReplaceSupport

theorem sharedRange?_eq_some_iff (presenter : Presenter) (placed : Item) (range : EditRange) :
    presenter.sharedRange? placed = some range ↔
      presenter.client.supportsDefault "editRange" = true ∧
        ∃ edit, placed.textEdit = some edit ∧ presenter.settledRange edit = range := by
  unfold sharedRange?
  split
  next listed => simp only [listed, true_and, Option.map_eq_some_iff, settledRange]
  next unlisted => simp only [unlisted, false_and, reduceCtorEq]

theorem sharedFormat?_eq_some_iff (presenter : Presenter) (placed : Item)
    (format : TextFormat) :
    presenter.sharedFormat? placed = some format ↔
      presenter.client.supportsDefault "insertTextFormat" = true ∧
        placed.insertTextFormat = some format := by
  unfold sharedFormat?
  split
  next listed => simp only [listed, true_and]
  next unlisted => simp only [unlisted, false_and, reduceCtorEq]

/-- The range to share starts on another line than the cursor, or nobody knows where that is. -/
def OffCursor (presenter : Presenter) (first : Proposal) (cursorLine : Option UInt32) : Prop :=
  presenter.client.supportsDefault "editRange" = true ∧
    ∃ placed, (presenter.placedFirst first).textEdit = some placed ∧
      cursorLine ≠ some (presenter.settledRange placed).primary.start.line

section

variable {presenter : Presenter} {first : Proposal} {cursorLine : Option UInt32}

theorem seedDefaults_of_offCursor (off : presenter.OffCursor first cursorLine) :
    (presenter.seedDefaults first cursorLine).editRange = none ∧
      (presenter.seedDefaults first cursorLine).insertTextFormat = none := by
  obtain ⟨listed, placed, given, apart⟩ := off
  have shared := (presenter.sharedRange?_eq_some_iff _ _).mpr ⟨listed, placed, given, rfl⟩
  simp only [seedDefaults, shared, if_neg apart.symm, and_self]

theorem seedDefaults_of_not_offCursor (near : ¬ presenter.OffCursor first cursorLine) :
    (presenter.seedDefaults first cursorLine).editRange =
        presenter.sharedRange? (presenter.placedFirst first) ∧
      (presenter.seedDefaults first cursorLine).insertTextFormat =
        presenter.sharedFormat? (presenter.placedFirst first) := by
  unfold seedDefaults
  dsimp only
  split
  next => exact ⟨rfl, rfl⟩
  next range shared =>
      obtain ⟨listed, placed, given, rfl⟩ := (presenter.sharedRange?_eq_some_iff _ _).mp shared
      have onLine : some (presenter.settledRange placed).primary.start.line = cursorLine :=
        Decidable.byContradiction fun apart =>
          near ⟨listed, placed, given, fun same => apart same.symm⟩
      rw [if_pos onLine]
      exact ⟨rfl, rfl⟩

theorem seedDefaults_of_failed (failed : presenter.placedFirst first = {})
    (cursorLine : Option UInt32) :
    (presenter.seedDefaults first cursorLine).editRange = none ∧
      (presenter.seedDefaults first cursorLine).insertTextFormat = none := by
  have noRange : presenter.sharedRange? {} = none := by simp [sharedRange?]
  have noFormat : presenter.sharedFormat? {} = none := by simp [sharedFormat?]
  simp only [seedDefaults, failed, noRange, noFormat, and_self]

theorem editRange_seedDefaults_eq_some_iff {range : EditRange} :
    (presenter.seedDefaults first cursorLine).editRange = some range ↔
      presenter.client.supportsDefault "editRange" = true ∧
        cursorLine = some range.primary.start.line ∧
        ∃ placed, (presenter.placedFirst first).textEdit = some placed ∧
          presenter.settledRange placed = range := by
  by_cases off : presenter.OffCursor first cursorLine
  · rw [(seedDefaults_of_offCursor off).1]
    obtain ⟨-, other, given, apart⟩ := off
    refine ⟨nofun, ?_⟩
    rintro ⟨-, onLine, placed, found, rfl⟩
    rw [given] at found
    cases found
    exact absurd onLine apart
  · rw [(seedDefaults_of_not_offCursor off).1, sharedRange?_eq_some_iff]
    constructor
    · rintro ⟨listed, placed, given, rfl⟩
      exact ⟨listed, Decidable.byContradiction fun apart => off ⟨listed, placed, given, apart⟩,
        placed, given, rfl⟩
    · rintro ⟨listed, -, placed, given, settled⟩
      exact ⟨listed, placed, given, settled⟩

theorem insertTextFormat_seedDefaults_eq_some_iff {format : TextFormat} :
    (presenter.seedDefaults first cursorLine).insertTextFormat = some format ↔
      presenter.client.supportsDefault "insertTextFormat" = true ∧
        (presenter.placedFirst first).insertTextFormat = some format ∧
        ¬ presenter.OffCursor first cursorLine := by
  by_cases off : presenter.OffCursor first cursorLine
  · rw [(seedDefaults_of_offCursor off).2]
    exact ⟨nofun, fun ⟨_, _, near⟩ => absurd off near⟩
  · rw [(seedDefaults_of_not_offCursor off).2, sharedFormat?_eq_some_iff]
    simp only [off, not_false_eq_true, and_true]

end

section

variable {presenter : Presenter} {ranked : Ranked} {cursorLine : Option UInt32}
variable {edit : Option TextEdit} {format : Option TextFormat}

theorem textEdit_of_seeded {index : Nat} {item : Item} {range : EditRange}
    (writes : presenter.writer.Writes ranked.proposal edit format)
    (shared : (presenter.seedDefaults ranked.proposal cursorLine).editRange = some range)
    (presented : presenter.present ranked index
      (presenter.seedDefaults ranked.proposal cursorLine) = .ok item) :
    item.textEdit = none ∧
      ∃ placed, edit = some placed ∧ presenter.settledRange placed = range ∧
        item.insertText = some placed.newText := by
  obtain ⟨-, -, placed, first, settled⟩ := editRange_seedDefaults_eq_some_iff.mp shared
  have said : edit = some placed := (eq_some_of_placedFirst writes).1 placed first
  obtain ⟨written, wrote, same⟩ := (presenter.present_eq_ok_iff _ _ _ _).mp presented
  obtain ⟨writtenEdit, -⟩ := written_of_writes writes wrote
  have own : (presenter.settle ranked.proposal written).textEdit =
      some (placed.onOneLine presenter.client.insertReplaceSupport) := by
    rw [presenter.textEdit_settle, writtenEdit, said, Option.map_some]
  have left := Item.compacted_of_shared own (shared.trans (congrArg some settled.symm))
  rw [left] at same
  subst same
  refine ⟨by rw [Item.textEdit_decorated], placed, said, settled, ?_⟩
  rw [Item.insertText_decorated, TextEdit.newText_onOneLine]

theorem insertTextFormat_of_seeded {index : Nat} {item : Item} {shared : TextFormat}
    (writes : presenter.writer.Writes ranked.proposal edit format)
    (seeded : (presenter.seedDefaults ranked.proposal cursorLine).insertTextFormat = some shared)
    (presented : presenter.present ranked index
      (presenter.seedDefaults ranked.proposal cursorLine) = .ok item) :
    item.insertTextFormat = none := by
  obtain ⟨-, first, -⟩ := insertTextFormat_seedDefaults_eq_some_iff.mp seeded
  have said : format = some shared := (eq_some_of_placedFirst writes).2 shared first
  obtain ⟨written, wrote, same⟩ := (presenter.present_eq_ok_iff _ _ _ _).mp presented
  obtain ⟨-, writtenFormat⟩ := written_of_writes writes wrote
  obtain ⟨_, _, settled⟩ := presenter.exists_settle ranked.proposal written
  have own : (presenter.settle ranked.proposal written).insertTextFormat = some shared := by
    rw [settled]
    exact writtenFormat.trans said
  rw [← same, Item.insertTextFormat_decorated, Item.insertTextFormat_compacted, Item.ownFormat,
    if_pos (own.trans seeded.symm)]

end

/-- The range of the first proposal is shared if the editor asked for it and it starts on the line
of the cursor. Away from that line neither range nor format is shared. Every item of the proposal
leaves to the list what it shares: its edit, of which it keeps the text, and its format. -/
theorem seedDefaults_sound (presenter : Presenter) (proposal : Proposal)
    (cursorLine : Option UInt32) (edit : Option TextEdit) (format : Option TextFormat)
    (writes : presenter.writer.Writes proposal edit format) :
    let defaults := presenter.seedDefaults proposal cursorLine
    (∀ range, defaults.editRange = some range ↔
      presenter.client.supportsDefault "editRange" = true ∧
        cursorLine = some range.primary.start.line ∧
        ∃ placed, (presenter.placedFirst proposal).textEdit = some placed ∧
          presenter.settledRange placed = range) ∧
    (∀ shared, defaults.insertTextFormat = some shared ↔
      presenter.client.supportsDefault "insertTextFormat" = true ∧
        (presenter.placedFirst proposal).insertTextFormat = some shared ∧
        ¬ presenter.OffCursor proposal cursorLine) ∧
    (∀ placed, edit = some placed → presenter.client.supportsDefault "editRange" = true →
      cursorLine ≠ some (presenter.settledRange placed).primary.start.line →
      defaults.editRange = none ∧ defaults.insertTextFormat = none) ∧
    ∀ ranked index item, ranked.proposal = proposal →
      presenter.present ranked index defaults = .ok item →
      (∀ range, defaults.editRange = some range →
        item.textEdit = none ∧
          ∃ placed, edit = some placed ∧ presenter.settledRange placed = range ∧
            item.insertText = some placed.newText) ∧
      (defaults.insertTextFormat ≠ none → item.insertTextFormat = none) := by
  intro defaults
  refine ⟨fun _ => editRange_seedDefaults_eq_some_iff,
    fun _ => insertTextFormat_seedDefaults_eq_some_iff, ?_, ?_⟩
  · intro placed said listed apart
    rcases placedFirst_of_writes writes with failed | ⟨sameEdit, -⟩
    · exact seedDefaults_of_failed failed cursorLine
    · exact seedDefaults_of_offCursor ⟨listed, placed, sameEdit.trans said, apart⟩
  · rintro ranked index item rfl presented
    refine ⟨fun range shared => textEdit_of_seeded writes shared presented, fun given => ?_⟩
    obtain ⟨shared, seeded⟩ := Option.ne_none_iff_exists'.mp given
    exact insertTextFormat_of_seeded writes seeded presented

/-- An editor without pairs, and a pair over two lines of which the list shares the insert
half, brought onto the line of the cursor. -/
theorem seedDefaults_sound_half_of_pair :
    let insert : TextRange := { start := ⟨2, 4⟩, stop := ⟨3, 1⟩ }
    let replace : TextRange := { start := ⟨2, 4⟩, stop := ⟨3, 5⟩ }
    let edit : TextEdit := .insertReplace "add()" insert replace
    let writer : ItemWriter :=
      { describe := fun proposal item => .ok { item with label := proposal.completion }
        methodDescription := fun _ => ""
        place := fun _ item => .ok { item with
          textEdit := some edit
          insertTextFormat := some .snippet } }
    let presenter : Presenter :=
      { client := { itemDefaults := ["editRange", "insertTextFormat"] }, writer, response := 7 }
    let proposal : Proposal := { kind := .methodRef, completion := "add()" }
    presenter.writer.Writes proposal (some edit) (some .snippet) ∧
    (presenter.seedDefaults proposal (some 5)).editRange = none ∧
    (presenter.seedDefaults proposal (some 5)).insertTextFormat = none ∧
    let defaults := presenter.seedDefaults proposal (some 2)
    defaults.editRange = some (.plain { start := ⟨2, 4⟩, stop := ⟨2, 4⟩ }) ∧
    defaults.insertTextFormat = some .snippet ∧
    ∃ item, presenter.present ⟨proposal, some { decorators := "★" }⟩ 4 defaults = .ok item ∧
      item.textEdit = none ∧ item.insertText = some "add()" ∧ item.insertTextFormat = none := by
  intro insert replace edit writer presenter proposal
  have writes : presenter.writer.Writes proposal (some edit) (some .snippet) :=
    { describe := by
        rintro item described ⟨⟩
        exact ⟨rfl, rfl⟩
      place := by
        rintro item placed - - ⟨⟩
        exact ⟨rfl, rfl⟩ }
  obtain ⟨-, -, away, -⟩ := seedDefaults_sound presenter proposal (some 5) _ _ writes
  obtain ⟨noRange, noFormat⟩ := away edit rfl rfl (by decide)
  obtain ⟨-, -, -, left⟩ := seedDefaults_sound presenter proposal (some 2) _ _ writes
  obtain ⟨range, formatted⟩ := left ⟨proposal, some { decorators := "★" }⟩ 4 _ rfl rfl
  obtain ⟨unplaced, placed, ⟨⟩, -, inserts⟩ := range _ rfl
  exact ⟨writes, noRange, noFormat, rfl, rfl, _, rfl, unplaced, inserts, formatted nofun⟩

end Presenter

end ContentAssist
