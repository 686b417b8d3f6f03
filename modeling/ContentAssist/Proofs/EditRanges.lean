import ContentAssist.Proofs.Seeding

/-! The edit ranges that an editor accepts: single lines, and of a pair an insert range that begins
where the replace range does and ends no later. Settling brings the range to be replaced onto one
line, but a pair keeps its insert range. -/

namespace ContentAssist

instance : LE Position where
  le left right :=
    left.line < right.line ∨ left.line = right.line ∧ left.character ≤ right.character

instance (left right : Position) : Decidable (left ≤ right) :=
  inferInstanceAs (Decidable (_ ∨ _))

namespace EditRange

def OnOneLine : EditRange → Prop
  | plain range => range.isSingleLine = true
  | insertReplace insert replace => insert.isSingleLine = true ∧ replace.isSingleLine = true

def Nested : EditRange → Prop
  | plain _ => True
  | insertReplace insert replace => insert.start = replace.start ∧ insert.stop ≤ replace.stop

structure Legal (range : EditRange) : Prop where
  onOneLine : range.OnOneLine
  nested : range.Nested

/-- What becomes legal once it is settled. The insert range of a pair lies on one line, and
unless the replace range does too, it is empty. -/
def Settles : EditRange → Prop
  | plain _ => True
  | insertReplace insert replace =>
      insert.isSingleLine = true ∧
        (replace.isSingleLine = true ∨ insert.stop ≤ insert.start)

end EditRange

theorem TextRange.stop_onOneLine (range : TextRange) :
    range.onOneLine.stop = if range.isSingleLine then range.stop else range.start := by
  unfold onOneLine
  split <;> rfl

theorem TextEdit.legal_onOneLine_iff {edit : TextEdit} (nested : (edit.editRange true).Nested) :
    ((edit.onOneLine true).editRange true).Legal ↔ (edit.editRange true).Settles := by
  cases edit with
  | plain text range =>
      exact ⟨fun _ => trivial, fun _ => ⟨range.isSingleLine_onOneLine, trivial⟩⟩
  | insertReplace text insert replace =>
      obtain ⟨starts, ends⟩ : insert.start = replace.start ∧ insert.stop ≤ replace.stop := nested
      have legal : ((insertReplace text insert replace).onOneLine true |>.editRange true).Legal ↔
          insert.isSingleLine = true ∧ insert.stop ≤ replace.onOneLine.stop := by
        constructor
        · intro legal
          exact ⟨legal.onOneLine.1, legal.nested.2⟩
        · intro ⟨single, within⟩
          exact ⟨⟨single, replace.isSingleLine_onOneLine⟩,
            starts.trans replace.start_onOneLine.symm, within⟩
      have room : insert.stop ≤ replace.onOneLine.stop ↔
          replace.isSingleLine = true ∨ insert.stop ≤ insert.start := by
        rw [replace.stop_onOneLine, starts]
        split
        next single => exact iff_of_true ends (Or.inl single)
        next wide => exact (or_iff_right wide).symm
      exact legal.trans (and_congr_right fun _ => room)

namespace Presenter

theorem legal_settledRange_iff {presenter : Presenter}
    (pairs : presenter.client.insertReplaceSupport = true) {edit : TextEdit}
    (nested : (edit.editRange true).Nested) :
    (presenter.settledRange edit).Legal ↔ (edit.editRange true).Settles := by
  rw [settledRange, pairs]
  exact TextEdit.legal_onOneLine_iff nested

theorem textEdit_present {presenter : Presenter} {ranked : Ranked} {index : Nat}
    {defaults : ItemDefaults} {item : Item} {emitted : TextEdit}
    (presented : presenter.present ranked index defaults = .ok item)
    (placed : item.textEdit = some emitted) :
    ∃ written edit, presenter.write ranked index = .ok written ∧
      written.textEdit = some edit ∧
      edit.onOneLine presenter.client.insertReplaceSupport = emitted := by
  obtain ⟨written, wrote, same⟩ := (presenter.present_eq_ok_iff _ _ _ _).mp presented
  rw [← same, Item.textEdit_decorated] at placed
  have settled : (presenter.settle ranked.proposal written).textEdit = some emitted := by
    cases own : (presenter.settle ranked.proposal written).textEdit with
    | none => simp [Item.compacted, own] at placed
    | some edit =>
        by_cases shared : defaults.editRange =
            some (edit.editRange presenter.client.insertReplaceSupport)
        · rw [Item.compacted_of_shared own shared] at placed
          cases placed
        · rw [Item.compacted_of_not_shared own shared] at placed
          exact own.symm.trans placed
  rw [textEdit_settle, Option.map_eq_some_iff] at settled
  obtain ⟨edit, given, onOneLine⟩ := settled
  exact ⟨written, edit, wrote, given, onOneLine⟩

end Presenter

def ItemWriter.Nests (writer : ItemWriter) (proposal : Proposal) : Prop :=
  ∀ item placed edit, writer.place proposal item = .ok placed →
    placed.textEdit = some edit → (edit.editRange true).Nested

namespace Presenter

theorem place_of_write {presenter : Presenter} {ranked : Ranked} {index : Nat} {written : Item}
    (wrote : presenter.write ranked index = .ok written) :
    ∃ item, presenter.writer.place ranked.proposal item = .ok written := by
  unfold write at wrote
  split at wrote
  next => cases wrote
  next => exact ⟨_, wrote⟩

theorem place_of_placedFirst {presenter : Presenter} {first : Proposal} {edit : TextEdit}
    (given : (presenter.placedFirst first).textEdit = some edit) :
    presenter.writer.place first {} = .ok (presenter.placedFirst first) := by
  unfold placedFirst at given ⊢
  split at given
  next item placed => rw [placed]
  next => cases given

/-- For an editor that knows pairs, and a proposal whose edits are nested, an edit that is
listed and a range that is shared are legal exactly if the edit they come from settles. -/
theorem legal_iff_settles (presenter : Presenter) (proposal : Proposal)
    (pairs : presenter.client.insertReplaceSupport = true)
    (nests : presenter.writer.Nests proposal) :
    (∀ ranked index defaults item emitted, ranked.proposal = proposal →
      presenter.present ranked index defaults = .ok item → item.textEdit = some emitted →
      ∃ written edit, presenter.write ranked index = .ok written ∧
        written.textEdit = some edit ∧
        ((emitted.editRange true).Legal ↔ (edit.editRange true).Settles)) ∧
    ∀ cursorLine range, (presenter.seedDefaults proposal cursorLine).editRange = some range →
      ∃ edit, (presenter.placedFirst proposal).textEdit = some edit ∧
        (range.Legal ↔ (edit.editRange true).Settles) := by
  constructor
  · rintro ranked index defaults item emitted rfl presented listed
    obtain ⟨written, edit, wrote, given, rfl⟩ := textEdit_present presented listed
    obtain ⟨described, placed⟩ := place_of_write wrote
    refine ⟨written, edit, wrote, given, ?_⟩
    rw [pairs]
    exact TextEdit.legal_onOneLine_iff (nests described written edit placed given)
  · intro cursorLine range shared
    obtain ⟨-, -, edit, given, rfl⟩ := editRange_seedDefaults_eq_some_iff.mp shared
    have placed := place_of_placedFirst given
    exact ⟨edit, given, legal_settledRange_iff pairs (nests {} _ edit placed given)⟩

def ofPair (insert replace : TextRange) : Presenter :=
  { client := { insertReplaceSupport := true, itemDefaults := ["editRange"] }
    writer :=
      { describe := fun proposal item => .ok { item with label := proposal.completion }
        methodDescription := fun _ => ""
        place := fun proposal item => .ok { item with
          textEdit := some (.insertReplace proposal.completion insert replace) } }
    response := 7 }

theorem nests_ofPair {insert replace : TextRange}
    (nested : (EditRange.insertReplace insert replace).Nested) (proposal : Proposal) :
    (ofPair insert replace).writer.Nests proposal := by
  intro item placed edit written given
  cases written
  cases given
  exact nested

/-- A pair that inserts at the cursor and replaces up to the next line. -/
theorem legal_iff_settles_empty_insert :
    let insert : TextRange := { start := ⟨2, 4⟩, stop := ⟨2, 4⟩ }
    let replace : TextRange := { start := ⟨2, 4⟩, stop := ⟨3, 1⟩ }
    let presenter := ofPair insert replace
    let proposal : Proposal := { kind := .fieldRef, completion := "size" }
    presenter.writer.Nests proposal ∧
    (∃ item emitted, presenter.present ⟨proposal, none⟩ 3 {} = .ok item ∧
      item.textEdit = some emitted ∧ emitted.editRange true = .insertReplace insert insert ∧
      (emitted.editRange true).Legal) ∧
    ∃ range, (presenter.seedDefaults proposal (some 2)).editRange = some range ∧
      range.Legal := by
  intro insert replace presenter proposal
  have nested : (EditRange.insertReplace insert replace).Nested := ⟨rfl, by decide⟩
  have nests : presenter.writer.Nests proposal := nests_ofPair nested proposal
  have settles : (EditRange.insertReplace insert replace).Settles := ⟨rfl, Or.inr (by decide)⟩
  obtain ⟨listed, shared⟩ := legal_iff_settles presenter proposal rfl nests
  obtain ⟨_, _, ⟨⟩, ⟨⟩, legal⟩ := listed ⟨proposal, none⟩ 3 {} _ _ rfl rfl rfl
  obtain ⟨_, ⟨⟩, legal'⟩ := shared (some 2) _ rfl
  exact ⟨nests, ⟨_, _, rfl, rfl, rfl, legal.mpr settles⟩, _, rfl, legal'.mpr settles⟩

/-- A pair that inserts in place of what is typed and replaces up to the next line. What is
left of the replace range ends before the insert range. -/
theorem pair_over_two_lines_not_legal :
    let insert : TextRange := { start := ⟨2, 4⟩, stop := ⟨2, 6⟩ }
    let replace : TextRange := { start := ⟨2, 4⟩, stop := ⟨3, 1⟩ }
    let presenter := ofPair insert replace
    let proposal : Proposal := { kind := .fieldRef, completion := "size" }
    let left : TextRange := { start := ⟨2, 4⟩, stop := ⟨2, 4⟩ }
    presenter.client.insertReplaceSupport = true ∧ presenter.writer.Nests proposal ∧
    ¬ (EditRange.insertReplace insert left).Legal ∧
    (∃ item, presenter.present ⟨proposal, none⟩ 3 {} = .ok item ∧
      item.textEdit = some (.insertReplace "size" insert left)) ∧
    (presenter.seedDefaults proposal (some 2)).editRange = some (.insertReplace insert left) := by
  intro insert replace presenter proposal left
  have nested : (EditRange.insertReplace insert replace).Nested := ⟨rfl, by decide⟩
  refine ⟨rfl, nests_ofPair nested proposal, ?_, ⟨_, rfl, rfl⟩, rfl⟩
  intro legal
  have within : insert.stop ≤ left.stop := legal.nested.2
  revert within
  decide

end Presenter

end ContentAssist
