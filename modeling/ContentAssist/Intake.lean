import ContentAssist.HiddenTypes
import ContentAssist.Proposal.Basic
import ContentAssist.Settings
import ContentAssist.Site
import ContentAssist.SourceUnit
import ContentAssist.Text.Uppercase
import Std.Data.HashSet

/-! Intake of the proposals for one site: those whose kind is wanted, whose type is not hidden and
that begin as the user has typed. With argument guessing off, a required type is proposed once only.
A potential method is replaced by the accessors that are generated for it. -/

namespace ContentAssist

structure AccessorRequest where
  enclosingType : String
  name : String
  replaceStart : Nat
  replaceLength : Nat
  relevance : Int32
deriving DecidableEq, Repr

abbrev AccessorGenerator := AccessorRequest → Except Failure (List Proposal)

/-- `claimed` are the required types already proposed while guessing is off, `offered` the kinds of
all proposals, dropped ones included. -/
structure Intake where
  unit : SourceUnit
  settings : Settings
  hidden : HiddenTypes
  ignored : KindSet := {}
  generator : Option AccessorGenerator := none
  site : Site := {}
  kept : Array Proposal := #[]
  claimed : Std.HashSet String := {}
  offered : KindSet := {}
  requests : Array AccessorRequest := #[]

structure Selection where
  unit : SourceUnit
  site : Site
  proposals : List Proposal
  offered : KindSet
  limit : Nat

namespace Intake

def accessorBoost : Int32 := 6

def ownPackageBoost : Int32 := 1

def start (unit : SourceUnit) (settings : Settings) : Intake :=
  { unit
    settings
    hidden := (HiddenTypes.ofPatterns settings.hiddenTypes).withoutImported unit.imports }

/-- A method with required proposals comes from a type that is not imported yet. -/
def isSubjectToHiding (proposal : Proposal) : Bool :=
  match proposal.kind with
  | .constructorInvocation | .anonymousClassConstructorInvocation | .javadocTypeRef
  | .typeRef => true
  | .methodRef => !proposal.required.isEmpty
  | _ => false

def hides (intake : Intake) (proposal : Proposal) : Bool :=
  isSubjectToHiding proposal && !proposal.isImport &&
    match proposal.declaringType? with
    | some type => intake.hidden.hides type
    | none => false

/-- Constructors are compared by the type that has to be imported for them. -/
def subject (proposal : Proposal) : Proposal :=
  if proposal.kind.isConstructorLike then proposal.lastRequiredType?.getD proposal
  else proposal

def subjectText (subject : Proposal) : String :=
  match subject.kind with
  | .typeRef => (subject.signature.map TypeSignature.simpleName).getD subject.completion
  | .methodDeclaration => subject.name
  | _ => subject.completion

def beginsWith (kind : Kind) (typed first : Char) : Bool :=
  match kind with
  | .packageRef | .moduleRef => Text.isUppercase typed == Text.isUppercase first
  | _ => typed == first

def matchesCase (intake : Intake) (proposal : Proposal) : Bool :=
  intake.settings.caseMatching != .firstLetter || proposal.completion.isEmpty ||
    match intake.site.firstTokenChar?, (subjectText (subject proposal)).toList.head? with
    | some typed, some first => beginsWith (subject proposal).kind typed first
    | _, _ => true

def admits (intake : Intake) (proposal : Proposal) : Bool :=
  !intake.ignored.contains proposal.kind && !intake.hides proposal &&
    intake.matchesCase proposal

def claim? (intake : Intake) (proposal : Proposal) : Option String :=
  if intake.settings.argumentGuessing = .off then
    proposal.firstRequiredType?.map fun required => required.signature.getD required.completion
  else none

def preferOwnPackage (intake : Intake) (proposal : Proposal) : Proposal :=
  if proposal.kind = .packageRef ∧ intake.unit.packageName = some proposal.completion then
    proposal.withRelevance (proposal.relevance + ownPackageBoost)
  else proposal

def enclosingType? (intake : Intake) (proposal : Proposal) : Option String :=
  if intake.site.extended then intake.site.enclosingType
  else intake.unit.typeAt? (proposal.location + 1)

def accessorRequest (proposal : Proposal) (enclosingType : String) : AccessorRequest :=
  { enclosingType
    name := proposal.name
    replaceStart := proposal.replaceStart
    replaceLength := proposal.replaceEnd - proposal.replaceStart
    relevance := proposal.relevance + accessorBoost }

/-- A generator that fails contributes nothing. -/
def expand (intake : Intake) (proposal : Proposal) : Intake :=
  match intake.generator, intake.enclosingType? proposal with
  | some generate, some type =>
      let request := accessorRequest proposal type
      let asked := { intake with requests := intake.requests.push request }
      match generate request with
      | .ok accessors => { asked with kept := asked.kept ++ accessors.toArray }
      | .error _ => asked
  | _, _ => intake

def take (intake : Intake) (proposal : Proposal) : Intake :=
  match proposal.kind with
  | .potentialMethodDeclaration => intake.expand proposal
  | _ => { intake with kept := intake.kept.push (intake.preferOwnPackage proposal) }

/-- Only a proposal that passes all tests claims its required type. -/
def offer (intake : Intake) (proposal : Proposal) : Intake :=
  let seen := { intake with offered := intake.offered.insert proposal.kind }
  if intake.admits proposal then
    match intake.claim? proposal with
    | none => seen.take proposal
    | some type =>
        if intake.claimed.contains type then seen
        else { seen with claimed := seen.claimed.insert type }.take proposal
  else seen

def offerAll (intake : Intake) (proposals : List Proposal) : Intake :=
  proposals.foldl offer intake

def enter (intake : Intake) (site : Site) : Intake :=
  { intake with site }

def ignore (intake : Intake) (kinds : KindSet) : Intake :=
  { intake with ignored := kinds }

def expandWith (intake : Intake) (generator : AccessorGenerator) : Intake :=
  { intake with generator := some generator }

def finish (intake : Intake) : Selection :=
  { unit := intake.unit
    site := intake.site
    proposals := intake.kept.toList
    offered := intake.offered
    limit := intake.settings.maxResults.toNat }

inductive Step where
  | enter (site : Site)
  | offer (proposal : Proposal)
  | offerAll (proposals : List Proposal)
  | ignore (kinds : KindSet)
  | expandWith (generator : AccessorGenerator)

def step (intake : Intake) : Step → Intake
  | .enter site => intake.enter site
  | .offer proposal => intake.offer proposal
  | .offerAll proposals => intake.offerAll proposals
  | .ignore kinds => intake.ignore kinds
  | .expandWith generator => intake.expandWith generator

def run (intake : Intake) (steps : List Step) : Intake :=
  steps.foldl step intake

theorem offerAll_cons (intake : Intake) (proposal : Proposal) (proposals : List Proposal) :
    intake.offerAll (proposal :: proposals) = (intake.offer proposal).offerAll proposals := rfl

@[simp] theorem offered_expand (intake : Intake) (proposal : Proposal) :
    (intake.expand proposal).offered = intake.offered := by
  unfold expand
  split
  · dsimp only
    split <;> rfl
  · rfl

@[simp] theorem offered_take (intake : Intake) (proposal : Proposal) :
    (intake.take proposal).offered = intake.offered := by
  unfold take
  split
  · exact offered_expand intake proposal
  · rfl

@[simp] theorem offered_offer (intake : Intake) (proposal : Proposal) :
    (intake.offer proposal).offered = intake.offered.insert proposal.kind := by
  unfold offer
  dsimp only
  split
  · split
    · rw [offered_take]
    · split
      · rfl
      · rw [offered_take]
  · rfl

end Intake

end ContentAssist
