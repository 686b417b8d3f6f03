import ContentAssist.Proofs.CompletionList
import ContentAssist.Proofs.OfferedKinds
import ContentAssist.Proofs.Seeding

/-! Items that lack a value which their list shares take it over. Only where the first proposal
leaves nothing to share do they insert what they would insert on their own. -/

namespace ContentAssist

/-- The format an item of the list is inserted in, which is plain text if nobody says. -/
def CompletionList.formatOf (list : CompletionList) (item : Item) : TextFormat :=
  (item.insertTextFormat.or list.defaults.insertTextFormat).getD .plainText

namespace Item

theorem insertTextFormat_compacted_of_none {item : Item} (lacks : item.insertTextFormat = none)
    (defaults : ItemDefaults) (pairs : Bool) :
    (item.compacted defaults pairs).insertTextFormat = none := by
  rw [insertTextFormat_compacted, ownFormat, lacks, ite_self]

theorem textEdit_compacted_of_none {item : Item} (lacks : item.textEdit = none)
    (defaults : ItemDefaults) (pairs : Bool) :
    (item.compacted defaults pairs).textEdit = none := by
  simp only [compacted, lacks]

theorem textEdit_expanded_of_none {item : Item} (lacks : item.textEdit = none)
    (defaults : ItemDefaults) :
    (item.expanded defaults).textEdit =
      defaults.editRange.map (·.edit (item.insertText.getD item.label)) := by
  have edit := congrArg Insertion.edit (item.insertion_expanded defaults)
  rwa [lacks, Option.none_or] at edit

end Item

theorem CompletionList.formatOf_of_none {list : CompletionList} {item : Item}
    (lacks : item.insertTextFormat = none) :
    list.formatOf item = .plainText ↔
      ∀ format, list.defaults.insertTextFormat = some format → format = .plainText := by
  rw [formatOf, lacks, Option.none_or]
  cases list.defaults.insertTextFormat with
  | none => exact iff_of_true rfl nofun
  | some shared =>
      constructor
      · rintro plain format ⟨⟩
        exact plain
      · intro plain
        exact plain shared rfl

namespace Presenter

theorem exists_alone {presenter : Presenter} {ranked : Ranked} {index : Nat}
    {defaults : ItemDefaults} {item : Item}
    (presented : presenter.present ranked index defaults = .ok item) :
    ∃ alone, presenter.present ranked index {} = .ok alone ∧
      (alone.insertTextFormat = none → item.insertTextFormat = none) ∧
      (alone.textEdit = none → item.textEdit = none) := by
  obtain ⟨written, wrote, rfl⟩ := (presenter.present_eq_ok_iff _ _ _ _).mp presented
  refine ⟨_, (presenter.present_eq_ok_iff _ _ _ _).mpr ⟨written, wrote, rfl⟩, ?_, ?_⟩
  · rw [Item.compacted_empty, Item.insertTextFormat_decorated, Item.insertTextFormat_decorated]
    exact fun lacks => Item.insertTextFormat_compacted_of_none lacks _ _
  · rw [Item.compacted_empty, Item.textEdit_decorated, Item.textEdit_decorated]
    exact fun lacks => Item.textEdit_compacted_of_none lacks _ _

def SeedsFormat (presenter : Presenter) (first : Proposal) (cursorLine : Option UInt32)
    (format : TextFormat) : Prop :=
  presenter.client.supportsDefault "insertTextFormat" = true ∧
    (presenter.placedFirst first).insertTextFormat = some format ∧
    ¬ presenter.OffCursor first cursorLine

def SeedsRange (presenter : Presenter) (first : Proposal) (cursorLine : Option UInt32) : Prop :=
  presenter.client.supportsDefault "editRange" = true ∧
    ∃ edit, (presenter.placedFirst first).textEdit = some edit ∧
      cursorLine = some (presenter.settledRange edit).primary.start.line

theorem editRange_seedDefaults_eq_none_iff {presenter : Presenter} {first : Proposal}
    {cursorLine : Option UInt32} :
    (presenter.seedDefaults first cursorLine).editRange = none ↔
      ¬ presenter.SeedsRange first cursorLine := by
  rw [Option.eq_none_iff_forall_ne_some, ← not_exists, not_iff_not]
  constructor
  · rintro ⟨range, shared⟩
    obtain ⟨listed, onLine, edit, given, rfl⟩ := editRange_seedDefaults_eq_some_iff.mp shared
    exact ⟨listed, edit, given, onLine⟩
  · rintro ⟨listed, edit, given, onLine⟩
    exact ⟨_, editRange_seedDefaults_eq_some_iff.mpr ⟨listed, onLine, edit, given, rfl⟩⟩

end Presenter

namespace Request

variable {World : Type}

theorem exists_first {request : Request World} {archive : Archive} {index : Nat}
    {made : Ranked × Item}
    (listed : (request.answer archive).assembly.emitted[index]? = some made) :
    ∃ first, request.ranked.head? = some first ∧
      request.defaults archive = (request.presenter archive).seedDefaults first.proposal
        request.selection.cursorLine? := by
  have member := (request.emitted_sublist archive).subset
    (List.mem_map_of_mem (List.mem_of_getElem? listed))
  unfold defaults Presenter.defaultsFor
  cases ranked : request.ranked with
  | nil =>
      rw [ranked] at member
      cases member
  | cons first later => exact ⟨first, rfl, rfl⟩

/-- An item that has no format on its own is inserted as plain text exactly if the first
proposal seeds no other format, and an item that has no edit on its own is given none exactly
if the first proposal seeds no range. -/
theorem lacking_item_iff (request : Request World) (archive : Archive) (index : Nat)
    (ranked : Ranked) (item : Item)
    (listed : (request.answer archive).assembly.emitted[index]? = some (ranked, item)) :
    let list := (request.answer archive).list
    let presenter := request.presenter archive
    let cursorLine := request.selection.cursorLine?
    ∃ first alone shown,
      request.ranked.head? = some first ∧
      presenter.present ranked index {} = .ok alone ∧
      list.expanded.items[index]? = some shown ∧
      (alone.insertTextFormat = none →
        (list.formatOf item = .plainText ↔
          ∀ format, presenter.SeedsFormat first.proposal cursorLine format →
            format = .plainText)) ∧
      (alone.textEdit = none →
        (shown.textEdit = none ↔ ¬ presenter.SeedsRange first.proposal cursorLine)) := by
  intro list presenter cursorLine
  obtain ⟨first, leads, seeded⟩ := exists_first listed
  have found : list.items[index]? = some item := getElem?_items_of_emitted listed
  obtain ⟨alone, alonePresented, format, edit⟩ :=
    Presenter.exists_alone (present_of_emitted listed)
  obtain ⟨data, recorded⟩ :=
    (request.defaults archive).exists_recordKinds request.selection.offered
  have shared : list.defaults =
      { presenter.seedDefaults first.proposal cursorLine with data } := by
    rw [← seeded]
    exact recorded
  refine ⟨first, alone, item.expanded list.defaults, leads, alonePresented, ?_, ?_, ?_⟩
  · rw [CompletionList.expanded, List.getElem?_map, found, Option.map_some]
  · intro lacks
    rw [CompletionList.formatOf_of_none (format lacks), shared]
    simp only [Presenter.insertTextFormat_seedDefaults_eq_some_iff, Presenter.SeedsFormat]
  · intro lacks
    rw [Item.textEdit_expanded_of_none (edit lacks), Option.map_eq_none_iff, shared]
    exact Presenter.editRange_seedDefaults_eq_none_iff

/-! A method inserted as a snippet on line 2, and a keyword with nothing but a text to insert. -/

def snippetMethod : Proposal :=
  { kind := .methodRef, completion := "put($1)", relevance := 2 }

def plainKeyword : Proposal :=
  { kind := .keyword, completion := "while", relevance := 1 }

def methodAndKeyword (cursorLine : UInt32) : Request Unit :=
  { assistant := {}
    cancelled := fun _ => false
    selection :=
      { unit :=
          { uri := "file:///A.java"
            enclosingTypeAt := fun _ => .ok none
            positionAt := fun _ => .ok ⟨cursorLine, 0⟩ }
        site := {}
        proposals := [snippetMethod, plainKeyword]
        offered := {}
        limit := 10 }
    client := { itemDefaults := ["editRange", "insertTextFormat"] }
    writer :=
      { describe := fun proposal item => .ok { item with label := proposal.completion }
        methodDescription := fun _ => ""
        place := fun proposal item =>
          if proposal.kind = .methodRef then
            .ok { item with
              textEdit := some (.plain proposal.completion ⟨⟨2, 4⟩, ⟨2, 6⟩⟩)
              insertTextFormat := some .snippet }
          else .ok { item with insertText := some proposal.completion } }
    world := () }

theorem ranked_methodAndKeyword (cursorLine : UInt32) :
    (methodAndKeyword cursorLine).ranked = [⟨snippetMethod, none⟩, ⟨plainKeyword, none⟩] := by
  simp only [methodAndKeyword]
  cbv

theorem exists_emitted_plainKeyword (cursorLine : UInt32) :
    ∃ item, ((methodAndKeyword cursorLine).answer {}).assembly.emitted[1]? =
      some (⟨plainKeyword, none⟩, item) := by
  rw [assembly_answer, ranked_methodAndKeyword]
  exact ⟨_, rfl⟩

theorem plainKeyword_lacks {cursorLine : UInt32} {alone : Item}
    (presented : ((methodAndKeyword cursorLine).presenter {}).present
      ⟨plainKeyword, none⟩ 1 {} = .ok alone) :
    alone.insertTextFormat = none ∧ alone.textEdit = none := by
  cases presented
  exact ⟨rfl, rfl⟩

/-- Away from the line of the method nothing is shared, and the keyword stays plain text. -/
theorem lacking_item_iff_away_from_cursor :
    let request := methodAndKeyword 5
    let list := (request.answer {}).list
    ∃ item shown,
      (request.answer {}).assembly.emitted[1]? = some (⟨plainKeyword, none⟩, item) ∧
      list.formatOf item = .plainText ∧
      list.expanded.items[1]? = some shown ∧ shown.textEdit = none := by
  intro request list
  obtain ⟨item, listed⟩ := exists_emitted_plainKeyword 5
  obtain ⟨first, alone, shown, leads, presented, found, format, edit⟩ :=
    lacking_item_iff request {} 1 _ item listed
  rw [ranked_methodAndKeyword] at leads
  cases leads
  obtain ⟨noFormat, noEdit⟩ := plainKeyword_lacks presented
  have away : ¬ (request.presenter {}).SeedsRange snippetMethod
      request.selection.cursorLine? := by
    rintro ⟨-, _, ⟨⟩, onLine⟩
    revert onLine
    decide
  have unshared : ∀ shared, (request.presenter {}).SeedsFormat snippetMethod
      request.selection.cursorLine? shared → shared = .plainText := by
    rintro shared ⟨-, -, near⟩
    exact absurd ⟨rfl, _, rfl, by decide⟩ near
  exact ⟨item, shown, listed, (format noFormat).mpr unshared, found, (edit noEdit).mpr away⟩

/-- On the line of the method, the keyword takes over the snippet format and the range. -/
theorem lacking_item_not_kept :
    let request := methodAndKeyword 2
    let list := (request.answer {}).list
    ∃ alone item shown,
      (request.presenter {}).present ⟨plainKeyword, none⟩ 1 {} = .ok alone ∧
      alone.insertTextFormat = none ∧ alone.textEdit = none ∧
      (request.answer {}).assembly.emitted[1]? = some (⟨plainKeyword, none⟩, item) ∧
      list.formatOf item = .snippet ∧
      list.expanded.items[1]? = some shown ∧
      shown.textEdit = some (.plain "while" ⟨⟨2, 4⟩, ⟨2, 6⟩⟩) := by
  intro request list
  obtain ⟨item, listed⟩ := exists_emitted_plainKeyword 2
  have presented := present_of_emitted listed
  obtain ⟨alone, alonePresented, format, edit⟩ := Presenter.exists_alone presented
  obtain ⟨noFormat, noEdit⟩ := plainKeyword_lacks alonePresented
  have inserts : item.insertText = some "while" := by
    cases presented
    rfl
  have shared : list.defaults.insertTextFormat = some .snippet ∧
      list.defaults.editRange = some (.plain ⟨⟨2, 4⟩, ⟨2, 6⟩⟩) := by
    rw [defaults_answer, defaults, ranked_methodAndKeyword]
    exact ⟨rfl, rfl⟩
  refine ⟨alone, item, item.expanded list.defaults, alonePresented, noFormat, noEdit, listed,
    ?_, ?_, ?_⟩
  · rw [CompletionList.formatOf, format noFormat, shared.1]
    rfl
  · rw [CompletionList.expanded, List.getElem?_map, getElem?_items_of_emitted listed,
      Option.map_some]
  · rw [Item.textEdit_expanded_of_none (edit noEdit), shared.2, inserts]
    rfl

end Request

end ContentAssist
