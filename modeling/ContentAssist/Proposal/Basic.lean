import ContentAssist.Proposal.Kind
import ContentAssist.Proposal.Modifiers
import ContentAssist.Signature.Readable

/-! Completion proposals: the text they are listed under and the types they come with. -/

namespace ContentAssist

/-- `completion` replaces the source from `replaceStart` to `replaceEnd`. `signature` is that of the
type or method itself, `declarationSignature` that of the declaring type, or a package name. -/
structure Proposal where
  kind : Kind
  completion : String
  relevance : Int32 := 0
  modifiers : Modifiers := {}
  name : String := ""
  signature : Option String := none
  declarationSignature : Option String := none
  replaceStart : Nat := 0
  replaceEnd : Nat := 0
  location : Nat := 0
  required : List Proposal := []

namespace Proposal

/-- Completions inside import statements end with a semicolon or a dot. -/
def isImport (proposal : Proposal) : Bool :=
  match proposal.completion.toList.getLast? with
  | some last => last == ';' || last == '.'
  | none => false

def isType (proposal : Proposal) : Bool :=
  proposal.kind == .typeRef

def firstRequiredType? (proposal : Proposal) : Option Proposal :=
  proposal.required.find? isType

def lastRequiredType? (proposal : Proposal) : Option Proposal :=
  proposal.required.reverse.find? isType

def displayText (proposal : Proposal) : String :=
  match proposal.kind with
  | .methodDeclaration => proposal.name
  | _ => proposal.completion

/-- Members without a declaring type, such as those of arrays, belong to the root class. -/
def declaringType? (proposal : Proposal) : Option String :=
  match proposal.kind with
  | .methodDeclaration | .methodNameReference | .javadocMethodRef | .methodRef
  | .constructorInvocation | .anonymousClassConstructorInvocation
  | .methodRefWithCastedReceiver | .annotationAttributeRef | .potentialMethodDeclaration
  | .anonymousClassDeclaration | .fieldRef | .fieldRefWithCastedReceiver
  | .javadocFieldRef | .javadocValueRef =>
      some ((proposal.declarationSignature.map TypeSignature.readable).getD "java.lang.Object")
  | .packageRef | .moduleRef | .moduleDeclaration => proposal.declarationSignature
  | .javadocTypeRef | .typeRef => proposal.signature.map TypeSignature.readable
  | _ => none

def withRelevance (proposal : Proposal) (relevance : Int32) : Proposal :=
  { proposal with relevance }

theorem withRelevance_self (proposal : Proposal) :
    proposal.withRelevance proposal.relevance = proposal := by
  cases proposal
  rfl

end Proposal

end ContentAssist
