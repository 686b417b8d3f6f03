import ContentAssist.Intake
import ContentAssist.Proofs.Signature.ClassName
import Mathlib

/-! A type is hidden by its name and compared by the last part of its name, so no test tells
proposals apart that differ in the arguments of their types only. -/

namespace ContentAssist

inductive TypeSignature.UpToArguments : Option String → Option String → Prop
  | same (signature : Option String) : UpToArguments signature signature
  | oneClass {left right name : String} (first : EncodesClass left name)
      (second : EncodesClass right name) : UpToArguments (some left) (some right)

theorem TypeSignature.UpToArguments.map_eq {α : Type} {left right : Option String}
    (same : UpToArguments left right) {read byName : String → α}
    (reads : ∀ {signature name}, EncodesClass signature name → read signature = byName name) :
    left.map read = right.map read := by
  cases same with
  | same => rfl
  | oneClass first second =>
      rw [Option.map_some, Option.map_some, reads first, reads second]

theorem HiddenTypes.hides_readable (hidden : HiddenTypes) {signature name : String}
    (names : TypeSignature.EncodesClass signature name) :
    hidden.hides (TypeSignature.readable signature) = hidden.hides name := by
  rw [hides, hides, names.erased_readable, names.erased_name]

namespace Proposal

inductive SameButArguments : Proposal → Proposal → Prop
  | intro {proposal : Proposal} {signature declarationSignature : Option String}
      {required : List Proposal}
      (own : TypeSignature.UpToArguments proposal.signature signature)
      (declaring : TypeSignature.UpToArguments proposal.declarationSignature declarationSignature)
      (requires : List.Forall₂ SameButArguments proposal.required required) :
      SameButArguments proposal { proposal with signature, declarationSignature, required }

def typeSignature? (proposal : Proposal) : Option String :=
  match proposal.kind with
  | .typeRef | .javadocTypeRef => proposal.signature
  | _ => proposal.declarationSignature

def rootType? (proposal : Proposal) : Option String :=
  match proposal.kind with
  | .typeRef | .javadocTypeRef => none
  | _ => some "java.lang.Object"

theorem declaringType?_of_subject {proposal : Proposal}
    (subject : Intake.isSubjectToHiding proposal = true) :
    proposal.declaringType? =
      (proposal.typeSignature?.map TypeSignature.readable).or proposal.rootType? := by
  unfold Intake.isSubjectToHiding at subject
  unfold declaringType? typeSignature? rootType?
  split at subject
  next member => simp only [member, Option.or_some]
  next member => simp only [member, Option.or_some]
  next type => simp only [type, Option.or_none]
  next type => simp only [type, Option.or_none]
  next member => simp only [member, Option.or_some]
  next => cases subject

namespace SameButArguments

variable {left right : Proposal}

theorem kind_eq (same : left.SameButArguments right) : left.kind = right.kind := by
  cases same
  rfl

theorem completion_eq (same : left.SameButArguments right) :
    left.completion = right.completion := by
  cases same
  rfl

theorem name_eq (same : left.SameButArguments right) : left.name = right.name := by
  cases same
  rfl

theorem signature (same : left.SameButArguments right) :
    TypeSignature.UpToArguments left.signature right.signature := by
  cases same with
  | intro own declaring requires => exact own

theorem declarationSignature (same : left.SameButArguments right) :
    TypeSignature.UpToArguments left.declarationSignature right.declarationSignature := by
  cases same with
  | intro own declaring requires => exact declaring

theorem required (same : left.SameButArguments right) :
    List.Forall₂ SameButArguments left.required right.required := by
  cases same with
  | intro own declaring requires => exact requires

theorem typeSignature? (same : left.SameButArguments right) :
    TypeSignature.UpToArguments left.typeSignature? right.typeSignature? := by
  unfold Proposal.typeSignature?
  rw [← same.kind_eq]
  split
  · exact same.signature
  · exact same.signature
  · exact same.declarationSignature

theorem isSubjectToHiding_eq (same : left.SameButArguments right) :
    Intake.isSubjectToHiding left = Intake.isSubjectToHiding right := by
  have alone : left.required.isEmpty = right.required.isEmpty := by
    have lengths := same.required.length_eq
    rw [Bool.eq_iff_iff, List.isEmpty_iff_length_eq_zero, List.isEmpty_iff_length_eq_zero, lengths]
  rw [Intake.isSubjectToHiding, Intake.isSubjectToHiding, same.kind_eq, alone]

theorem isImport_eq (same : left.SameButArguments right) : left.isImport = right.isImport := by
  rw [isImport, isImport, same.completion_eq]

theorem rootType?_eq (same : left.SameButArguments right) :
    left.rootType? = right.rootType? := by
  rw [rootType?, rootType?, same.kind_eq]

theorem find?_isType {lefts rights : List Proposal}
    (same : List.Forall₂ SameButArguments lefts rights) :
    Option.Rel SameButArguments (lefts.find? isType) (rights.find? isType) := by
  induction same with
  | nil => exact .none
  | @cons left right lefts rights head tail ih =>
      have types : left.isType = right.isType := by rw [isType, isType, head.kind_eq]
      rw [List.find?_cons, List.find?_cons, ← types]
      split
      · exact .some head
      · exact ih

theorem subject (same : left.SameButArguments right) :
    (Intake.subject left).SameButArguments (Intake.subject right) := by
  have last : Option.Rel SameButArguments left.lastRequiredType? right.lastRequiredType? :=
    find?_isType (List.rel_reverse same.required)
  unfold Intake.subject
  rw [← same.kind_eq]
  split
  · generalize left.lastRequiredType? = first, right.lastRequiredType? = second at last
    cases last with
    | none => exact same
    | some type => exact type
  · exact same

theorem subjectText_eq (same : left.SameButArguments right) :
    Intake.subjectText left = Intake.subjectText right := by
  have simple := same.signature.map_eq TypeSignature.EncodesClass.simpleName_eq
  rw [Intake.subjectText, Intake.subjectText, same.kind_eq, same.name_eq, same.completion_eq,
    simple]

end SameButArguments

end Proposal

namespace Intake

variable {left right : Proposal}

theorem hides_eq_of_subject (intake : Intake) {proposal : Proposal}
    (subject : isSubjectToHiding proposal = true) :
    intake.hides proposal =
      (!proposal.isImport &&
        ((proposal.typeSignature?.map fun signature =>
            intake.hidden.hides (TypeSignature.readable signature)).or
          (proposal.rootType?.map intake.hidden.hides)).getD false) := by
  rw [hides, subject, Bool.true_and, Proposal.declaringType?_of_subject subject]
  cases proposal.typeSignature? with
  | some signature => rfl
  | none =>
      cases proposal.rootType? with
      | some type => rfl
      | none => rfl

theorem hides_eq_of_sameButArguments (intake : Intake) (same : left.SameButArguments right) :
    intake.hides left = intake.hides right := by
  have subjects := same.isSubjectToHiding_eq
  cases subject : isSubjectToHiding left with
  | false => simp only [hides, ← subjects, subject, Bool.false_and]
  | true =>
      have types := same.typeSignature?.map_eq fun names => intake.hidden.hides_readable names
      rw [intake.hides_eq_of_subject subject,
        intake.hides_eq_of_subject (subjects.symm.trans subject), same.isImport_eq,
        same.rootType?_eq, types]

theorem matchesCase_eq_of_sameButArguments (intake : Intake)
    (same : left.SameButArguments right) :
    intake.matchesCase left = intake.matchesCase right := by
  rw [matchesCase, matchesCase, same.completion_eq, same.subject.subjectText_eq,
    same.subject.kind_eq]

/-- No test of an intake looks at type arguments: proposals that differ in nothing else are
hidden alike and fit what was typed alike. A class is hidden by its name and compared by the
last part of its name, whatever its arguments are. -/
theorem tests_ignore_typeArguments :
    (∀ (intake : Intake) (left right : Proposal), left.SameButArguments right →
      intake.hides left = intake.hides right ∧
        intake.matchesCase left = intake.matchesCase right) ∧
    ∀ signature name, TypeSignature.EncodesClass signature name →
      (∀ hidden : HiddenTypes,
        hidden.hides (TypeSignature.readable signature) = hidden.hides name) ∧
      TypeSignature.LastPart name (TypeSignature.simpleName signature) := by
  constructor
  · intro intake left right same
    exact ⟨intake.hides_eq_of_sameButArguments same,
      intake.matchesCase_eq_of_sameButArguments same⟩
  · intro signature name names
    refine ⟨fun hidden => hidden.hides_readable names, ?_⟩
    rw [names.simpleName_eq]
    exact TypeSignature.lastPart_afterLastDot name

/-- A member type of a parameterized type against the same type without arguments: a pattern for the
outer type hides it, one for the arguments does not. -/
theorem tests_ignore_typeArguments_of_member :
    let full := "Lutil.Map<+Ljava.Number;>.Entry<[I*>;"
    let bare := "Lutil.Map.Entry;"
    let constructor (signature : String) : Proposal :=
      { kind := .constructorInvocation
        completion := "new()"
        declarationSignature := some signature
        required := [{ kind := .typeRef, completion := "new", signature := some signature }] }
    TypeSignature.EncodesClass full "util.Map.Entry" ∧
    TypeSignature.EncodesClass bare "util.Map.Entry" ∧
    (constructor full).SameButArguments (constructor bare) ∧
    (∀ intake : Intake,
      intake.hides (constructor full) = intake.hides (constructor bare) ∧
        intake.matchesCase (constructor full) = intake.matchesCase (constructor bare)) ∧
    (HiddenTypes.ofPatterns ["util.Map"]).hides (TypeSignature.readable full) = true ∧
    (HiddenTypes.ofPatterns ["java.*"]).hides (TypeSignature.readable full) = false ∧
    TypeSignature.LastPart "util.Map.Entry" (TypeSignature.simpleName full) := by
  intro full bare constructor
  have named : TypeSignature.EncodesClass full "util.Map.Entry" :=
    ⟨[.array (.primitive .int), .unbounded], by cbv⟩
  have plain : TypeSignature.EncodesClass bare "util.Map.Entry" := ⟨[], by cbv⟩
  have same : (constructor full).SameButArguments (constructor bare) :=
    .intro (.same none) (.oneClass named plain)
      (.cons (.intro (.oneClass named plain) (.same none) .nil) .nil)
  obtain ⟨tests, names⟩ := tests_ignore_typeArguments
  obtain ⟨byName, last⟩ := names full _ named
  refine ⟨named, plain, same, fun intake => tests intake _ _ same, ?_, ?_, last⟩
  · rw [byName]
    decide +kernel
  · rw [byName]
    decide +kernel

end Intake

end ContentAssist
