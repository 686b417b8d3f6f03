import ContentAssist.Intake
import ContentAssist.Proofs.HiddenTypes
import ContentAssist.Proofs.Signature.ClassName

/-! What the settings ask of a proposal, whatever was offered before it, and what it lays claim to
with argument guessing off. The tests of the intake decide just that. -/

namespace ContentAssist

namespace Text

def Uppercase (c : Char) : Prop :=
  (∃ stretch ∈ uppercaseStretches, stretch.1 ≤ c.toNat ∧ c.toNat ≤ stretch.2) ∨
    ∃ stretch ∈ uppercaseAlternations,
      stretch.1 ≤ c.toNat ∧ c.toNat ≤ stretch.2 ∧ c.toNat % 2 = stretch.1 % 2

theorem isUppercase_iff {c : Char} : isUppercase c = true ↔ Uppercase c := by
  simp only [isUppercase, Uppercase, Bool.or_eq_true, List.any_eq_true, Bool.and_eq_true,
    decide_eq_true_eq, beq_iff_eq, and_assoc]

end Text

namespace Proposal

def FirstRequiredType (proposal type : Proposal) : Prop :=
  ∃ front back, proposal.required = front ++ type :: back ∧ type.kind = .typeRef ∧
    ∀ other ∈ front, other.kind ≠ .typeRef

def LastRequiredType (proposal type : Proposal) : Prop :=
  ∃ front back, proposal.required = front ++ type :: back ∧ type.kind = .typeRef ∧
    ∀ other ∈ back, other.kind ≠ .typeRef

theorem firstRequiredType?_eq_some_iff {proposal type : Proposal} :
    proposal.firstRequiredType? = some type ↔ proposal.FirstRequiredType type := by
  rw [firstRequiredType?, List.find?_eq_some_iff_append]
  simp only [isType, beq_iff_eq, Bool.not_eq_true', beq_eq_false_iff_ne, FirstRequiredType]
  constructor
  · intro ⟨isType, front, back, split, others⟩
    exact ⟨front, back, split, isType, others⟩
  · intro ⟨front, back, split, isType, others⟩
    exact ⟨isType, front, back, split, others⟩

theorem lastRequiredType?_eq_some_iff {proposal type : Proposal} :
    proposal.lastRequiredType? = some type ↔ proposal.LastRequiredType type := by
  rw [lastRequiredType?, List.find?_eq_some_iff_append]
  simp only [isType, beq_iff_eq, Bool.not_eq_true', beq_eq_false_iff_ne, LastRequiredType]
  constructor
  · intro ⟨isType, back, front, split, others⟩
    refine ⟨front.reverse, back.reverse, ?_, isType, ?_⟩
    · rw [← List.reverse_reverse proposal.required, split]
      simp
    · intro other member
      exact others other (List.mem_reverse.mp member)
  · intro ⟨front, back, split, isType, others⟩
    refine ⟨isType, back.reverse, front.reverse, ?_, ?_⟩
    · rw [split]
      simp
    · intro other member
      exact others other (List.mem_reverse.mp member)

def Constructs (proposal : Proposal) : Prop :=
  proposal.kind ∈ [Kind.constructorInvocation, .anonymousClassConstructorInvocation,
    .anonymousClassDeclaration]

theorem isConstructorLike_iff {proposal : Proposal} :
    proposal.kind.isConstructorLike = true ↔ proposal.Constructs := by
  unfold Constructs
  cases proposal.kind <;> simp [Kind.isConstructorLike]

/-- Constructors are compared by the last type they require, if they require one. -/
inductive Subject (proposal : Proposal) : Proposal → Prop
  | required {type : Proposal} (constructs : proposal.Constructs)
      (last : proposal.LastRequiredType type) : Subject proposal type
  | itself (alone : proposal.Constructs → ∀ type, ¬ proposal.LastRequiredType type) :
      Subject proposal proposal

theorem subject_iff {proposal subject : Proposal} :
    proposal.Subject subject ↔ Intake.subject proposal = subject := by
  have absent (alone : ∀ type, ¬ proposal.LastRequiredType type) :
      proposal.lastRequiredType? = none := by
    rw [Option.eq_none_iff_forall_ne_some]
    intro type found
    exact alone type (lastRequiredType?_eq_some_iff.mp found)
  constructor
  · intro compared
    cases compared with
    | required constructs last =>
        rw [Intake.subject, if_pos (isConstructorLike_iff.mpr constructs),
          lastRequiredType?_eq_some_iff.mpr last]
        rfl
    | itself alone =>
        by_cases constructs : proposal.kind.isConstructorLike
        · rw [Intake.subject, if_pos constructs,
            absent (alone (isConstructorLike_iff.mp constructs))]
          rfl
        · rw [Intake.subject, if_neg constructs]
  · intro compared
    rw [← compared]
    unfold Intake.subject
    split
    next constructs =>
      cases found : proposal.lastRequiredType? with
      | some type =>
          exact .required (isConstructorLike_iff.mp constructs)
            (lastRequiredType?_eq_some_iff.mp found)
      | none =>
          refine .itself fun _ type last => ?_
          rw [lastRequiredType?_eq_some_iff.mpr last] at found
          cases found
    next plain =>
      exact .itself fun constructs => absurd (isConstructorLike_iff.mpr constructs) plain

/-- The text that is compared: the simple name of a type whose signature is known, the
name of a declared method, and what is inserted otherwise. -/
inductive Wording (subject : Proposal) : String → Prop
  | type {signature simple : String} (isType : subject.kind = .typeRef)
      (known : subject.signature = some signature)
      (named : TypeSignature.HasSimpleName signature simple) : Wording subject simple
  | name (declares : subject.kind = .methodDeclaration) : Wording subject subject.name
  | completion (plain : subject.kind ≠ .methodDeclaration)
      (unknown : subject.kind = .typeRef → subject.signature = none) :
      Wording subject subject.completion

theorem wording_iff {subject : Proposal} {text : String} :
    subject.Wording text ↔ Intake.subjectText subject = text := by
  unfold Intake.subjectText
  constructor
  · intro worded
    cases worded with
    | type isType known named =>
        simp only [isType, known]
        exact TypeSignature.hasSimpleName_iff.mp named
    | name declares => simp only [declares]
    | completion plain unknown =>
        split
        next isType =>
          rw [unknown isType]
          rfl
        next declares => exact absurd declares plain
        next => rfl
  · intro worded
    rw [← worded]
    split
    next isType =>
      cases found : subject.signature with
      | some signature => exact .type isType found (TypeSignature.hasSimpleName_iff.mpr rfl)
      | none => exact .completion (by rw [isType]; decide) fun _ => found
    next declares => exact .name declares
    next notType plain => exact .completion plain fun isType => absurd isType notType

end Proposal

/-- A proposal, with the ignored kinds and the site in force when it was offered. -/
structure Offer where
  proposal : Proposal
  ignored : KindSet
  site : Site

structure Policy where
  unit : SourceUnit
  settings : Settings

namespace Policy

/-- A pattern hides types only if it covers none that the unit imports. -/
def HidesType (policy : Policy) (type : String) : Prop :=
  ∃ pattern ∈ policy.settings.hiddenTypes, ∃ glob : String,
    Text.Trims pattern.toList glob.toList ∧ glob ≠ "" ∧
      (∀ name ∈ policy.unit.imports, ¬ HiddenTypes.Covers glob name.toList) ∧
      HiddenTypes.Covers glob (TypeSignature.erased type.toList)

/-- A method that requires other proposals belongs to a type that is yet to be imported. -/
def ComesWithType (proposal : Proposal) : Prop :=
  proposal.kind ∈ [Kind.typeRef, .javadocTypeRef, .constructorInvocation,
      .anonymousClassConstructorInvocation] ∨
    proposal.kind = .methodRef ∧ proposal.required ≠ []

/-- Inside an import statement nothing is hidden. -/
def Hides (policy : Policy) (proposal : Proposal) : Prop :=
  ComesWithType proposal ∧
    (∀ last ∈ proposal.completion.toList.getLast?, last ≠ ';' ∧ last ≠ '.') ∧
    ∃ type ∈ proposal.declaringType?, policy.HidesType type

/-- For packages and modules it is enough that both characters or none are uppercase. -/
def Agrees (kind : Kind) (typed first : Char) : Prop :=
  if kind = .packageRef ∨ kind = .moduleRef then (Text.Uppercase typed ↔ Text.Uppercase first)
  else typed = first

/-- Without a token, a text to insert or a text to compare nothing is asked. -/
def Fits (policy : Policy) (site : Site) (proposal : Proposal) : Prop :=
  policy.settings.caseMatching = .firstLetter → proposal.completion ≠ "" →
    ∀ subject text, proposal.Subject subject → subject.Wording text →
      ∀ token ∈ site.token, ∀ typed ∈ token.toList.head?, ∀ first ∈ text.toList.head?,
        Agrees subject.kind typed first

structure Welcomes (policy : Policy) (offer : Offer) : Prop where
  wanted : offer.ignored.contains offer.proposal.kind = false
  visible : ¬ policy.Hides offer.proposal
  fits : policy.Fits offer.site offer.proposal

def Claims (policy : Policy) (proposal : Proposal) (type : String) : Prop :=
  policy.settings.argumentGuessing = .off ∧
    ∃ required, proposal.FirstRequiredType required ∧
      required.signature.getD required.completion = type

def hidden (policy : Policy) : HiddenTypes :=
  (HiddenTypes.ofPatterns policy.settings.hiddenTypes).withoutImported policy.unit.imports

theorem hides_hidden_iff (policy : Policy) (type : String) :
    policy.hidden.hides type = true ↔ policy.HidesType type := by
  simp only [HiddenTypes.hides_iff, hidden, HiddenTypes.mem_withoutImported_iff,
    HiddenTypes.mem_ofPatterns_iff, HidesType]
  constructor
  · intro ⟨glob, ⟨⟨pattern, given, trims, filled⟩, foreign⟩, covers⟩
    exact ⟨pattern, given, glob, trims, filled, foreign, covers⟩
  · intro ⟨pattern, given, glob, trims, filled, foreign, covers⟩
    exact ⟨glob, ⟨⟨pattern, given, trims, filled⟩, foreign⟩, covers⟩

structure Governs (policy : Policy) (intake : Intake) : Prop where
  unit : intake.unit = policy.unit
  settings : intake.settings = policy.settings
  hidden : intake.hidden = policy.hidden

theorem governs_start (policy : Policy) :
    policy.Governs (Intake.start policy.unit policy.settings) where
  unit := rfl
  settings := rfl
  hidden := rfl

theorem isSubjectToHiding_iff (proposal : Proposal) :
    Intake.isSubjectToHiding proposal = true ↔ ComesWithType proposal := by
  unfold Intake.isSubjectToHiding ComesWithType
  cases proposal.kind <;> simp

theorem isImport_eq_false_iff (proposal : Proposal) :
    proposal.isImport = false ↔
      ∀ last ∈ proposal.completion.toList.getLast?, last ≠ ';' ∧ last ≠ '.' := by
  unfold Proposal.isImport
  cases proposal.completion.toList.getLast? <;> simp

variable {policy : Policy} {intake : Intake}

theorem Governs.hides_iff (governs : policy.Governs intake) (proposal : Proposal) :
    intake.hides proposal = true ↔ policy.Hides proposal := by
  rw [Intake.hides, Bool.and_eq_true, Bool.and_eq_true, isSubjectToHiding_iff,
    Bool.not_eq_true', isImport_eq_false_iff, and_assoc, Hides, governs.hidden]
  apply and_congr_right
  intro _
  apply and_congr_right
  intro _
  cases proposal.declaringType? with
  | none => simp
  | some type => simp [hides_hidden_iff]

theorem beginsWith_iff (kind : Kind) (typed first : Char) :
    Intake.beginsWith kind typed first = true ↔ Agrees kind typed first := by
  have agree : (Text.isUppercase typed == Text.isUppercase first) = true ↔
      (Text.Uppercase typed ↔ Text.Uppercase first) := by
    rw [beq_iff_eq, Bool.eq_iff_iff, Text.isUppercase_iff, Text.isUppercase_iff]
  unfold Intake.beginsWith Agrees
  split
  · rw [if_pos (Or.inl rfl)]
    exact agree
  · rw [if_pos (Or.inr rfl)]
    exact agree
  next notPackage notModule =>
    rw [if_neg (not_or.mpr ⟨notPackage, notModule⟩)]
    exact beq_iff_eq

theorem Governs.matchesCase_iff (governs : policy.Governs intake) (proposal : Proposal) :
    intake.matchesCase proposal = true ↔ policy.Fits intake.site proposal := by
  rw [Intake.matchesCase, Bool.or_eq_true, Bool.or_eq_true, bne_iff_ne, governs.settings,
    String.isEmpty_iff]
  constructor
  · intro passes firstLetter filled subject text compared worded token given typed head first head'
    rw [Proposal.subject_iff] at compared
    subst compared
    rw [Proposal.wording_iff] at worded
    subst worded
    rcases passes with (other | blank) | begins
    · exact absurd firstLetter other
    · exact absurd blank filled
    · have start : intake.site.firstTokenChar? = some typed := by
        rw [Site.firstTokenChar?, given]
        exact head
      rw [start, head'] at begins
      exact (beginsWith_iff _ _ _).mp begins
  · intro fits
    by_cases firstLetter : policy.settings.caseMatching = .firstLetter
    · by_cases blank : proposal.completion = ""
      · exact Or.inl (Or.inr blank)
      · right
        split
        next typed first start head =>
          obtain ⟨token, given, head'⟩ := Option.bind_eq_some_iff.mp start
          exact (beginsWith_iff _ _ _).mpr (fits firstLetter blank _ _
            (Proposal.subject_iff.mpr rfl) (Proposal.wording_iff.mpr rfl) token given typed head'
            first head)
        next => rfl
    · exact Or.inl (Or.inl firstLetter)

theorem Governs.admits_iff (governs : policy.Governs intake) (proposal : Proposal) :
    intake.admits proposal = true ↔
      policy.Welcomes ⟨proposal, intake.ignored, intake.site⟩ := by
  simp only [Intake.admits, Bool.and_eq_true, Bool.not_eq_true', ← Bool.not_eq_true (intake.hides _),
    governs.hides_iff, governs.matchesCase_iff]
  constructor
  · intro ⟨⟨wanted, visible⟩, fits⟩
    exact ⟨wanted, visible, fits⟩
  · intro ⟨wanted, visible, fits⟩
    exact ⟨⟨wanted, visible⟩, fits⟩

theorem Governs.claim?_eq_some_iff (governs : policy.Governs intake) (proposal : Proposal)
    (type : String) : intake.claim? proposal = some type ↔ policy.Claims proposal type := by
  unfold Intake.claim? Claims
  rw [governs.settings]
  split
  next off =>
    simp only [Option.map_eq_some_iff, Proposal.firstRequiredType?_eq_some_iff, off, true_and]
  next on => simp [on]

end Policy

end ContentAssist
