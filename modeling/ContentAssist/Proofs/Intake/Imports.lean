import ContentAssist.Proofs.Intake.History
import ContentAssist.Proofs.Intake.TypeArguments

/-! Imported types stay visible: a pattern that covers an import is given up, and a class is hidden
by its name alone. Giving up patterns hides nothing new. -/

namespace ContentAssist

namespace HiddenTypes

theorem mem_foldl_withoutImported_iff {hidden : HiddenTypes} {calls : List (List String)}
    {pattern : String} :
    pattern ∈ (calls.foldl withoutImported hidden).patterns ↔
      pattern ∈ hidden.patterns ∧
        ∀ imports ∈ calls, ∀ name ∈ imports, ¬ Covers pattern name.toList := by
  induction calls generalizing hidden with
  | nil => simp only [List.foldl_nil, List.not_mem_nil, false_implies, implies_true, and_true]
  | cons imports calls ih =>
      rw [List.foldl_cons, ih, mem_withoutImported_iff, List.forall_mem_cons, and_assoc]

theorem hides_foldl_withoutImported_iff {hidden : HiddenTypes} {calls : List (List String)}
    {query : String} :
    (calls.foldl withoutImported hidden).hides query = true ↔
      ∃ pattern ∈ hidden.patterns,
        (∀ imports ∈ calls, ∀ name ∈ imports, ¬ Covers pattern name.toList) ∧
          Covers pattern (TypeSignature.erased query.toList) := by
  simp only [hides_iff, mem_foldl_withoutImported_iff, and_assoc]

theorem hides_of_foldl_withoutImported {hidden : HiddenTypes} {calls : List (List String)}
    {query : String} (hides : (calls.foldl withoutImported hidden).hides query = true) :
    hidden.hides query = true := by
  obtain ⟨pattern, listed, -, covers⟩ := hides_foldl_withoutImported_iff.mp hides
  exact hides_iff.mpr ⟨pattern, listed, covers⟩

theorem not_hides_imported {hidden : HiddenTypes} {calls : List (List String)}
    {imports : List String} {signature name : String} (called : imports ∈ calls)
    (imported : name ∈ imports) (names : TypeSignature.EncodesClass signature name) :
    ¬ (calls.foldl withoutImported hidden).hides (TypeSignature.readable signature) = true := by
  rw [hides_foldl_withoutImported_iff]
  rintro ⟨pattern, -, foreign, covers⟩
  rw [names.erased_readable] at covers
  exact foreign imports called name imported covers

end HiddenTypes

namespace Policy

theorem hidden_eq_foldl (policy : Policy) :
    policy.hidden =
      [policy.unit.imports].foldl HiddenTypes.withoutImported
        (.ofPatterns policy.settings.hiddenTypes) := rfl

theorem not_hides_of_import {policy : Policy} {proposal : Proposal} {signature name : String}
    (typed : proposal.typeSignature? = some signature)
    (names : TypeSignature.EncodesClass signature name) (imported : name ∈ policy.unit.imports) :
    ¬ policy.Hides proposal := by
  rintro ⟨subject, -, type, declared, hides⟩
  rw [Proposal.declaringType?_of_subject ((isSubjectToHiding_iff proposal).mpr subject), typed]
    at declared
  cases declared
  rw [← hides_hidden_iff, hidden_eq_foldl] at hides
  exact HiddenTypes.not_hides_imported (List.mem_singleton_self _) imported names hides

end Policy

/-- A type with the name of an import is never hidden, whatever its arguments and the patterns
are and whatever else is imported later; nor is a proposal that belongs to such a type, at any
time of an intake. Imports hide nothing that was visible, and every pattern that covers none of
them hides what it hid. -/
theorem imports_stay_visible (signature name : String)
    (names : TypeSignature.EncodesClass signature name) :
    (∀ (patterns : List String) (calls : List (List String)), ∀ imports ∈ calls, name ∈ imports →
      (calls.foldl HiddenTypes.withoutImported (.ofPatterns patterns)).hides
        (TypeSignature.readable signature) = false) ∧
    (∀ unit settings steps proposal, name ∈ unit.imports →
      proposal.typeSignature? = some signature →
      ((Intake.start unit settings).run steps).hides proposal = false) ∧
    ∀ (hidden : HiddenTypes) (calls : List (List String)) (query : String),
      let left := calls.foldl HiddenTypes.withoutImported hidden
      (hidden.hides query = false → left.hides query = false) ∧
      ∀ pattern ∈ hidden.patterns,
        (∀ imports ∈ calls, ∀ imported ∈ imports,
          ¬ HiddenTypes.Covers pattern imported.toList) →
        HiddenTypes.Covers pattern (TypeSignature.erased query.toList) →
        left.hides query = true := by
  refine ⟨?_, ?_, ?_⟩
  · intro patterns calls imports called imported
    exact Bool.eq_false_iff.mpr (HiddenTypes.not_hides_imported called imported names)
  · intro unit settings steps proposal imported typed
    let policy : Policy := { unit, settings }
    have governs := policy.governs_start.run steps
    rw [← Bool.not_eq_true, governs.hides_iff]
    exact Policy.not_hides_of_import typed names imported
  · intro hidden calls query left
    constructor
    · intro visible
      rw [← Bool.not_eq_true] at visible ⊢
      exact fun hides => visible (HiddenTypes.hides_of_foldl_withoutImported hides)
    · intro pattern listed foreign covers
      exact HiddenTypes.hides_foldl_withoutImported_iff.mpr ⟨pattern, listed, foreign, covers⟩

/-- A member type with a bound and an array for arguments, of which the name is imported, under
patterns for its package, its outer class and all member types, and one that stays. -/
theorem imports_stay_visible_member_type :
    let signature := "Lutil.Map<+Ljava.Number;>.Entry<[I*>;"
    let patterns := ["util.*", " util.Map ", "*.Entry", "sun.*"]
    let unit : SourceUnit :=
      { uri := "file:///A.java"
        imports := ["util.Map.Entry"]
        enclosingTypeAt := fun _ => .ok none
        positionAt := fun _ => .ok ⟨0, 0⟩ }
    let steps : List Intake.Step := [.enter { token := some "E" }, .ignore (.ofList [.keyword])]
    let intake := (Intake.start unit { hiddenTypes := patterns }).run steps
    let left := [["util.List"], unit.imports].foldl HiddenTypes.withoutImported (.ofPatterns patterns)
    TypeSignature.EncodesClass signature "util.Map.Entry" ∧
    left.hides (TypeSignature.readable signature) = false ∧
    intake.hides { kind := .typeRef, completion := "Entry", signature := some signature } = false ∧
    intake.hides
      { kind := .constructorInvocation
        completion := "Entry()"
        declarationSignature := some signature } = false ∧
    (HiddenTypes.ofPatterns patterns).hides "org.List" = false ∧ left.hides "org.List" = false ∧
    left.hides "sun.Jar" = true := by
  intro signature patterns unit steps intake left
  have names : TypeSignature.EncodesClass signature "util.Map.Entry" :=
    ⟨[.array (.primitive .int), .unbounded], by cbv⟩
  obtain ⟨visible, proposals, others⟩ := imports_stay_visible signature "util.Map.Entry" names
  have unhidden : (HiddenTypes.ofPatterns patterns).hides "org.List" = false := by decide +kernel
  have covers : HiddenTypes.Covers "sun.*" (TypeSignature.erased "sun.Jar".toList) :=
    HiddenTypes.covers_eq_true_iff.mp (by decide +kernel)
  have foreign : ∀ imports ∈ [["util.List"], unit.imports], ∀ imported ∈ imports,
      ¬ HiddenTypes.Covers "sun.*" imported.toList := by
    simp only [← HiddenTypes.covers_eq_true_iff]
    decide +kernel
  refine ⟨names, visible patterns _ unit.imports (by decide) (by decide), ?_, ?_, unhidden, ?_, ?_⟩
  · exact proposals unit _ steps _ (by decide) rfl
  · exact proposals unit _ steps _ (by decide) rfl
  · exact (others _ _ "org.List").1 unhidden
  · exact (others _ _ "sun.Jar").2 "sun.*" (by decide +kernel) foreign covers

end ContentAssist
