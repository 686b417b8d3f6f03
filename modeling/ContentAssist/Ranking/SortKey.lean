import ContentAssist.Proposal.Basic
import ContentAssist.Protocol.ItemKind
import ContentAssist.Signature.Method
import ContentAssist.Text.Units

/-! What proposals are ordered by. Higher relevance leads; then the order of kinds, the displayed
text and, between two callables, the number of parameters decide. -/

namespace ContentAssist

structure SortKey where
  relevance : Int32
  kind : Kind
  text : String
  callable : Bool
  parameterCount : Nat
deriving DecidableEq, Repr

namespace SortKey

def of (proposal : Proposal) (relevance : Int32) : SortKey :=
  let callable := (ItemKind.ofProposal proposal.kind proposal.modifiers).isCallable
  { relevance
    kind := proposal.kind
    text := proposal.displayText
    callable
    parameterCount :=
      if callable then (proposal.signature.bind MethodSignature.parameterCount?).getD 0 else 0 }

def compareParameters (left right : SortKey) : Ordering :=
  if left.callable && right.callable then compare left.parameterCount right.parameterCount
  else .eq

def compare (left right : SortKey) : Ordering :=
  (Ord.compare right.relevance left.relevance).then <|
    (Ord.compare left.kind.ordinal right.kind.ordinal).then <|
      (Text.compareText left.text right.text).then (compareParameters left right)

theorem callable_of (proposal : Proposal) (relevance : Int32) :
    (SortKey.of proposal relevance).callable = (ItemKind.ofProposal proposal.kind {}).isCallable :=
  ItemKind.isCallable_ofProposal proposal.kind proposal.modifiers

theorem parameterCount_of_not_callable {proposal : Proposal} {relevance : Int32}
    (plain : (SortKey.of proposal relevance).callable = false) :
    (SortKey.of proposal relevance).parameterCount = 0 := by
  simp only [SortKey.of] at plain ⊢
  simp [plain]

end SortKey

end ContentAssist
