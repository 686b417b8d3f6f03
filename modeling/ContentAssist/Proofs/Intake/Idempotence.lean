import ContentAssist.Proofs.Intake.History

/-! Taking in once more what an intake has kept. The tests look at nothing that a first intake
changes, and no two of the proposals it keeps claim one type. -/

namespace ContentAssist

namespace Intake

section Relevance

variable (intake : Intake) (proposal : Proposal) (relevance : Int32)

theorem exists_subject_withRelevance_eq :
    ∃ relevance', subject (proposal.withRelevance relevance) =
      (subject proposal).withRelevance relevance' := by
  have constructs : (proposal.withRelevance relevance).kind = proposal.kind := rfl
  have requires : (proposal.withRelevance relevance).lastRequiredType? =
      proposal.lastRequiredType? := rfl
  unfold subject
  rw [constructs, requires]
  split
  · cases proposal.lastRequiredType? with
    | none => exact ⟨relevance, rfl⟩
    | some type => exact ⟨type.relevance, type.withRelevance_self.symm⟩
  · exact ⟨relevance, rfl⟩

theorem admits_withRelevance :
    intake.admits (proposal.withRelevance relevance) = intake.admits proposal := by
  have matched : intake.matchesCase (proposal.withRelevance relevance) =
      intake.matchesCase proposal := by
    obtain ⟨relevance', same⟩ := exists_subject_withRelevance_eq proposal relevance
    unfold matchesCase
    rw [same]
    rfl
  unfold admits
  rw [matched]
  rfl

theorem claim?_withRelevance :
    intake.claim? (proposal.withRelevance relevance) = intake.claim? proposal := rfl

end Relevance

theorem exists_preferOwnPackage_eq (intake : Intake) (proposal : Proposal) :
    ∃ relevance, intake.preferOwnPackage proposal = proposal.withRelevance relevance := by
  unfold preferOwnPackage
  split
  · exact ⟨_, rfl⟩
  · exact ⟨proposal.relevance, proposal.withRelevance_self.symm⟩

theorem kind_preferOwnPackage (intake : Intake) (proposal : Proposal) :
    (intake.preferOwnPackage proposal).kind = proposal.kind := by
  obtain ⟨relevance, same⟩ := intake.exists_preferOwnPackage_eq proposal
  rw [same]
  rfl

theorem admits_preferOwnPackage (intake other : Intake) (proposal : Proposal) :
    intake.admits (other.preferOwnPackage proposal) = intake.admits proposal := by
  obtain ⟨relevance, same⟩ := other.exists_preferOwnPackage_eq proposal
  rw [same, admits_withRelevance]

theorem claim?_preferOwnPackage (intake other : Intake) (proposal : Proposal) :
    intake.claim? (other.preferOwnPackage proposal) = intake.claim? proposal := by
  obtain ⟨relevance, same⟩ := other.exists_preferOwnPackage_eq proposal
  rw [same, claim?_withRelevance]

end Intake

namespace Policy

def Apart (policy : Policy) (first second : Proposal) : Prop :=
  ∀ type, policy.Claims first type → ¬ policy.Claims second type

theorem mem_of_mem_kept {policy : Policy} {offers : List Offer} {offer : Offer}
    (member : offer ∈ policy.kept offers) : offer ∈ offers ∧ policy.Welcomes offer := by
  unfold kept at member
  obtain ⟨entry, listed, same⟩ := List.mem_map.mp member
  obtain ⟨given, keeps⟩ := List.mem_filter.mp listed
  subst same
  exact ⟨List.fst_mem_of_mem_zipIdx given, (of_decide_eq_true keeps).welcome⟩

theorem pairwise_apart_kept (policy : Policy) (offers : List Offer) :
    (policy.kept offers).Pairwise fun first second =>
      policy.Apart first.proposal second.proposal := by
  induction offers using List.reverseRecOn with
  | nil => exact List.Pairwise.nil
  | append_singleton offers offer ih =>
      rw [kept_append_singleton]
      split
      next keeps =>
        refine List.pairwise_append.mpr ⟨ih, List.pairwise_singleton _ _, ?_⟩
        intro first before second last type claims claims'
        rw [List.mem_singleton] at last
        subst last
        obtain ⟨earlier, welcome⟩ := mem_of_mem_kept before
        exact keeps.first type claims' first earlier welcome claims
      next =>
        rw [List.append_nil]
        exact ih

/-- Welcome offers of which no two claim one type are a fixed point. -/
theorem kept_eq_self {policy : Policy} {offers : List Offer}
    (welcome : ∀ offer ∈ offers, policy.Welcomes offer)
    (apart : offers.Pairwise fun first second => policy.Apart first.proposal second.proposal) :
    policy.kept offers = offers := by
  induction offers using List.reverseRecOn with
  | nil => rfl
  | append_singleton offers offer ih =>
      obtain ⟨front, _, across⟩ := List.pairwise_append.mp apart
      have keeps : policy.Keeps offers offer := by
        refine ⟨welcome offer (List.mem_append_right _ List.mem_cons_self), ?_⟩
        intro type claims other earlier _ claims'
        exact across other earlier offer List.mem_cons_self type claims' claims
      rw [kept_append_singleton, if_pos keeps,
        ih (fun other earlier => welcome other (List.mem_append_left _ earlier)) front]

theorem welcomes_preferOwnPackage_iff (policy : Policy) (intake : Intake) (proposal : Proposal)
    (ignored : KindSet) (site : Site) :
    policy.Welcomes ⟨intake.preferOwnPackage proposal, ignored, site⟩ ↔
      policy.Welcomes ⟨proposal, ignored, site⟩ := by
  have governs := policy.governs_at ignored site
  rw [← governs.admits_iff, ← governs.admits_iff, Intake.admits_preferOwnPackage]

theorem claims_preferOwnPackage_iff (policy : Policy) (intake : Intake) (proposal : Proposal)
    (type : String) :
    policy.Claims (intake.preferOwnPackage proposal) type ↔ policy.Claims proposal type := by
  have governs := policy.governs_start
  rw [← governs.claim?_eq_some_iff, ← governs.claim?_eq_some_iff, Intake.claim?_preferOwnPackage]

def fresh (policy : Policy) (ignored : KindSet) (generator : Option AccessorGenerator)
    (site : Site) : Intake :=
  { Intake.start policy.unit policy.settings with ignored, generator, site }

section Fresh

variable (policy : Policy) (ignored : KindSet) (generator : Option AccessorGenerator)
  (site : Site) {proposals : List Proposal}

theorem tracks_fresh : policy.Tracks ignored site [] (policy.fresh ignored generator site) where
  toGoverns := ⟨rfl, rfl, rfl⟩
  ignored := rfl
  site := rfl
  claimed := (Tracks.start policy).claimed
  kept := rfl

theorem kept_offerAll_fresh
    (plain : ∀ proposal ∈ proposals, proposal.kind ≠ .potentialMethodDeclaration) :
    ((policy.fresh ignored generator site).offerAll proposals).kept.toList =
      (policy.kept (proposals.map (⟨·, ignored, site⟩))).map fun offer =>
        (Intake.start policy.unit policy.settings).preferOwnPackage offer.proposal :=
  ((policy.tracks_fresh ignored generator site).offerAll plain).kept

theorem of_mem_kept_fresh
    (plain : ∀ proposal ∈ proposals, proposal.kind ≠ .potentialMethodDeclaration) :
    ∀ survivor ∈ ((policy.fresh ignored generator site).offerAll proposals).kept.toList,
      survivor.kind ≠ .potentialMethodDeclaration ∧
        policy.Welcomes ⟨survivor, ignored, site⟩ := by
  intro survivor member
  rw [policy.kept_offerAll_fresh ignored generator site plain] at member
  obtain ⟨offer, keeps, same⟩ := List.mem_map.mp member
  obtain ⟨given, welcome⟩ := mem_of_mem_kept keeps
  obtain ⟨proposal, offered, same'⟩ := List.mem_map.mp given
  subst same same'
  constructor
  · rw [Intake.kind_preferOwnPackage]
    exact plain proposal offered
  · exact (policy.welcomes_preferOwnPackage_iff _ proposal ignored site).mpr welcome

theorem pairwise_apart_kept_fresh
    (plain : ∀ proposal ∈ proposals, proposal.kind ≠ .potentialMethodDeclaration) :
    ((policy.fresh ignored generator site).offerAll proposals).kept.toList.Pairwise
      policy.Apart := by
  rw [policy.kept_offerAll_fresh ignored generator site plain, List.pairwise_map]
  apply (policy.pairwise_apart_kept _).imp
  intro first second apart type claims claims'
  rw [policy.claims_preferOwnPackage_iff] at claims claims'
  exact apart type claims claims'

end Fresh

/-- A second intake under the same settings keeps all that a first one has kept, in the same
order. Only the package of the unit is preferred once more. With argument guessing off, no
two of the proposals kept claim one type, so none is folded into another. -/
theorem kept_again (policy : Policy) (ignored : KindSet) (generator : Option AccessorGenerator)
    (site : Site) (proposals : List Proposal)
    (plain : ∀ proposal ∈ proposals, proposal.kind ≠ .potentialMethodDeclaration) :
    let fresh := policy.fresh ignored generator site
    let survivors := (fresh.offerAll proposals).kept.toList
    (fresh.offerAll survivors).kept.toList = (survivors.map fun proposal =>
        if proposal.kind = .packageRef ∧ policy.unit.packageName = some proposal.completion then
          { proposal with relevance := proposal.relevance + 1 }
        else proposal) ∧
      survivors.Pairwise policy.Apart := by
  intro fresh survivors
  have survive := policy.of_mem_kept_fresh ignored generator site plain
  have apart := policy.pairwise_apart_kept_fresh ignored generator site plain
  refine ⟨?_, apart⟩
  have welcome : ∀ offer ∈ survivors.map (⟨·, ignored, site⟩), policy.Welcomes offer := by
    intro offer member
    obtain ⟨survivor, kept, same⟩ := List.mem_map.mp member
    subst same
    exact (survive survivor kept).2
  have again := policy.kept_offerAll_fresh ignored generator site
    fun survivor member => (survive survivor member).1
  rw [kept_eq_self welcome (List.pairwise_map.mpr apart), List.map_map] at again
  exact again

/-- Of two constructors for one type the first survives, and so do a field and the
package of the unit, which wraps around in relevance when it is preferred again. -/
theorem kept_again_folded :
    let type : Proposal :=
      { kind := .typeRef, completion := "geo.Point", signature := some "Lgeo.Point;" }
    let constructor (completion : String) : Proposal :=
      { kind := .constructorInvocation, completion, required := [type] }
    let field (completion : String) : Proposal := { kind := .fieldRef, completion }
    let package (relevance : Int32) : Proposal :=
      { kind := .packageRef, completion := "P.org", relevance }
    let policy : Policy :=
      { unit :=
          { uri := "file:///A.java"
            packageName := some "P.org"
            enclosingTypeAt := fun _ => .ok none
            positionAt := fun _ => .ok ⟨0, 0⟩ }
        settings := { argumentGuessing := .off, hiddenTypes := ["sun.*"] } }
    let fresh := policy.fresh {} none { token := some "P" }
    let proposals : List Proposal :=
      [constructor "Point()", constructor "Point(int)", field "PI", field "pi",
       package 2147483646]
    let survivors := [constructor "Point()", field "PI", package 2147483647]
    (∀ proposal ∈ proposals, proposal.kind ≠ .potentialMethodDeclaration) ∧
      (fresh.offerAll proposals).kept.toList = survivors ∧
      (fresh.offerAll survivors).kept.toList =
        [constructor "Point()", field "PI", package (-2147483648)] ∧
      survivors.Pairwise policy.Apart := by
  intro type constructor field package policy fresh proposals survivors
  have plain : ∀ proposal ∈ proposals, proposal.kind ≠ .potentialMethodDeclaration := by decide
  have kept : (fresh.offerAll proposals).kept.toList = survivors := by
    rw [policy.kept_offerAll_fresh {} none { token := some "P" } plain]
    cbv
  obtain ⟨again, apart⟩ := policy.kept_again {} none { token := some "P" } proposals plain
  rw [kept] at apart
  refine ⟨plain, kept, ?_, apart⟩
  rw [← kept, again, kept]
  cbv

end Policy

end ContentAssist
