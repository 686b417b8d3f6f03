import ContentAssist.Client
import ContentAssist.Protocol.CompletionList
import ContentAssist.Protocol.ResolveKey
import ContentAssist.Protocol.SortText
import ContentAssist.Ranking.Ranked
import ContentAssist.SourceUnit

/-! Making items of ranked proposals, and choosing the values that a list shares. Text and edits
come from an item writer, which may fail; everything else is settled here. -/

namespace ContentAssist

/-- Fills in items. `describe` gives the label and what belongs to it, `place` the edit
that inserts the proposal, and `methodDescription` names a method for filtering. -/
structure ItemWriter where
  describe : Proposal → Item → Except Failure Item
  methodDescription : Proposal → String
  place : Proposal → Item → Except Failure Item

structure Presenter where
  client : Client
  writer : ItemWriter
  response : UInt64

def Ranked.decorators (ranked : Ranked) : String :=
  match ranked.verdict with
  | some verdict => verdict.decorators
  | none => ""

/-- Decorators stay out of filtering, which otherwise would fall back on the label. -/
def Item.decorated (item : Item) (decorators : String) : Item :=
  if decorators.isEmpty then item
  else
    { item with
      label := decorators ++ " " ++ item.label
      filterText := if (item.filterText.getD "").isEmpty then item.insertText else item.filterText }

namespace Presenter

def markDeprecated (presenter : Presenter) (item : Item) : Item :=
  if presenter.client.tagSupport then { item with tags := some [.deprecated] }
  else { item with deprecated := some true }

def blankItem (presenter : Presenter) (proposal : Proposal) (index : Nat) : Item :=
  let item : Item :=
    { kind := some (ItemKind.ofProposal proposal.kind proposal.modifiers)
      data := some (ResolveKey.toJson { response := presenter.response, index }) }
  if proposal.modifiers.isDeprecated then presenter.markDeprecated item else item

def detailedFilterText (presenter : Presenter) (proposal : Proposal) (item : Item)
    (inserted : String) : String :=
  if !presenter.client.labelDetailsSupport then ""
  else if item.kind = some .method then presenter.writer.methodDescription proposal
  else if item.kind = some .constructor then
    match item.labelDetails.bind (·.detail) with
    | some detail => inserted ++ detail
    | none => ""
  else ""

def filterText (presenter : Presenter) (proposal : Proposal) (item : Item)
    (inserted : String) : String :=
  let detailed := presenter.detailedFilterText proposal item inserted
  if detailed.isEmpty then inserted else detailed

/-- An item with an edit is filtered by what it inserts, and replaces text of one line only. -/
def settle (presenter : Presenter) (proposal : Proposal) (item : Item) : Item :=
  match item.textEdit with
  | none => item
  | some edit =>
      { item with
        filterText := some (presenter.filterText proposal item edit.newText)
        textEdit := some (edit.onOneLine presenter.client.insertReplaceSupport) }

def write (presenter : Presenter) (ranked : Ranked) (index : Nat) : Except Failure Item :=
  match presenter.writer.describe ranked.proposal (presenter.blankItem ranked.proposal index) with
  | .error failure => .error failure
  | .ok described =>
      presenter.writer.place ranked.proposal
        { described with sortText := some (sortText ranked.relevance index) }

def present (presenter : Presenter) (ranked : Ranked) (index : Nat) (defaults : ItemDefaults) :
    Except Failure Item :=
  match presenter.write ranked index with
  | .error failure => .error failure
  | .ok written =>
      .ok (((presenter.settle ranked.proposal written).compacted defaults
        presenter.client.insertReplaceSupport).decorated ranked.decorators)

def placedFirst (presenter : Presenter) (first : Proposal) : Item :=
  match presenter.writer.place first {} with
  | .ok item => item
  | .error _ => {}

def sharedFormat? (presenter : Presenter) (placed : Item) : Option TextFormat :=
  if presenter.client.supportsDefault "insertTextFormat" then placed.insertTextFormat else none

def sharedRange? (presenter : Presenter) (placed : Item) : Option EditRange :=
  if presenter.client.supportsDefault "editRange" then
    placed.textEdit.map fun edit =>
      (edit.onOneLine presenter.client.insertReplaceSupport).editRange
        presenter.client.insertReplaceSupport
  else none

/-- Indentation is adjusted where the editor can do so and would not do so anyway. -/
def sharedMode? (presenter : Presenter) : Option InsertMode :=
  if presenter.client.supportsDefault "insertTextMode" &&
      presenter.client.supportsMode .adjustIndentation &&
      presenter.client.defaultInsertMode != some .adjustIndentation then
    some .adjustIndentation
  else none

/-- A range that does not start on the line of the cursor is given up, and the format with it. -/
def seedDefaults (presenter : Presenter) (first : Proposal) (cursorLine : Option UInt32) :
    ItemDefaults :=
  let placed := presenter.placedFirst first
  let shared : ItemDefaults :=
    { editRange := presenter.sharedRange? placed
      insertTextFormat := presenter.sharedFormat? placed
      insertTextMode := presenter.sharedMode? }
  match shared.editRange with
  | none => shared
  | some range =>
      if some range.primary.start.line = cursorLine then shared
      else { shared with editRange := none, insertTextFormat := none }

end Presenter

end ContentAssist
