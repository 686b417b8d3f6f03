import ContentAssist.Proofs.Intake.Policy
import Mathlib

/-! What an intake has kept after any steps: the offers that were welcome when they were made, and
of those with the same claim only the first. The types claimed so far are those of the welcome
offers so far, which holds at the start and is kept up by every step. -/

namespace ContentAssist

/-- The offers made in some steps, each with what was in force by then. -/
def Offer.made (ignored : KindSet) (site : Site) : List Intake.Step → List Offer
  | [] => []
  | .enter site :: steps => made ignored site steps
  | .offer proposal :: steps => ⟨proposal, ignored, site⟩ :: made ignored site steps
  | .offerAll proposals :: steps => proposals.map (⟨·, ignored, site⟩) ++ made ignored site steps
  | .ignore kinds :: steps => made kinds site steps
  | .expandWith _ :: steps => made ignored site steps

namespace Intake

def claimedWith (intake : Intake) (proposal : Proposal) : Std.HashSet String :=
  match intake.claim? proposal with
  | none => intake.claimed
  | some type => intake.claimed.insert type

theorem contains_claimedWith (intake : Intake) (proposal : Proposal) (type : String) :
    (intake.claimedWith proposal).contains type = true ↔
      intake.claimed.contains type = true ∨ intake.claim? proposal = some type := by
  unfold claimedWith
  split
  next none => simp [none]
  next claimed some =>
    rw [Std.HashSet.contains_insert, Bool.or_eq_true, beq_iff_eq, some, Option.some.injEq,
      or_comm]

/-- All that an offer can lead to. -/
inductive Outcome (intake : Intake) (proposal : Proposal) : Intake → Prop
  | refused (refuses : intake.admits proposal = false) :
      Outcome intake proposal { intake with offered := intake.offered.insert proposal.kind }
  | folded {type : String} (admits : intake.admits proposal = true)
      (claims : intake.claim? proposal = some type)
      (claimed : intake.claimed.contains type = true) :
      Outcome intake proposal { intake with offered := intake.offered.insert proposal.kind }
  | taken (admits : intake.admits proposal = true)
      (unclaimed : ∀ type, intake.claim? proposal = some type →
        intake.claimed.contains type = false) :
      Outcome intake proposal
        ({ intake with
            offered := intake.offered.insert proposal.kind
            claimed := intake.claimedWith proposal }.take proposal)

theorem outcome_offer (intake : Intake) (proposal : Proposal) :
    intake.Outcome proposal (intake.offer proposal) := by
  unfold offer
  dsimp only
  split
  next admits =>
    split
    next none =>
      have outcome := Outcome.taken admits fun type some => by
        rw [none] at some
        cases some
      simpa only [claimedWith, none] using outcome
    next type some =>
      split
      next claimed => exact .folded admits some claimed
      next unclaimed =>
        have outcome := Outcome.taken admits fun other same => by
          rw [some, Option.some.injEq] at same
          rw [← same]
          exact Bool.eq_false_iff.mpr unclaimed
        simpa only [claimedWith, some] using outcome
  next refuses => exact .refused (Bool.eq_false_iff.mpr refuses)

theorem take_of_plain (intake : Intake) {proposal : Proposal}
    (plain : proposal.kind ≠ .potentialMethodDeclaration) :
    intake.take proposal =
      { intake with kept := intake.kept.push (intake.preferOwnPackage proposal) } := by
  unfold take
  split
  next potential => exact absurd potential plain
  next => rfl

end Intake

namespace Policy

namespace Governs

variable {policy : Policy} {intake : Intake}

theorem expand (governs : policy.Governs intake) (proposal : Proposal) :
    policy.Governs (intake.expand proposal) := by
  unfold Intake.expand
  split
  · dsimp only
    split <;> exact ⟨governs.unit, governs.settings, governs.hidden⟩
  · exact governs

theorem take (governs : policy.Governs intake) (proposal : Proposal) :
    policy.Governs (intake.take proposal) := by
  unfold Intake.take
  split
  · exact governs.expand proposal
  · exact ⟨governs.unit, governs.settings, governs.hidden⟩

theorem offer (governs : policy.Governs intake) (proposal : Proposal) :
    policy.Governs (intake.offer proposal) := by
  have outcome := intake.outcome_offer proposal
  generalize intake.offer proposal = after at outcome
  cases outcome with
  | refused refuses => exact ⟨governs.unit, governs.settings, governs.hidden⟩
  | folded admits claims claimed => exact ⟨governs.unit, governs.settings, governs.hidden⟩
  | taken admits unclaimed =>
      apply take
      exact ⟨governs.unit, governs.settings, governs.hidden⟩

theorem offerAll (governs : policy.Governs intake) (proposals : List Proposal) :
    policy.Governs (intake.offerAll proposals) := by
  induction proposals generalizing intake with
  | nil => exact governs
  | cons proposal proposals ih => exact ih (governs.offer proposal)

theorem enter (governs : policy.Governs intake) (site : Site) :
    policy.Governs (intake.enter site) :=
  ⟨governs.unit, governs.settings, governs.hidden⟩

theorem ignore (governs : policy.Governs intake) (kinds : KindSet) :
    policy.Governs (intake.ignore kinds) :=
  ⟨governs.unit, governs.settings, governs.hidden⟩

theorem expandWith (governs : policy.Governs intake) (generator : AccessorGenerator) :
    policy.Governs (intake.expandWith generator) :=
  ⟨governs.unit, governs.settings, governs.hidden⟩

theorem step (governs : policy.Governs intake) (step : Intake.Step) :
    policy.Governs (intake.step step) := by
  cases step with
  | enter site => exact governs.enter site
  | offer proposal => exact governs.offer proposal
  | offerAll proposals => exact governs.offerAll proposals
  | ignore kinds => exact governs.ignore kinds
  | expandWith generator => exact governs.expandWith generator

theorem run (governs : policy.Governs intake) (steps : List Intake.Step) :
    policy.Governs (intake.run steps) := by
  induction steps generalizing intake with
  | nil => exact governs
  | cons step steps ih => exact ih (governs.step step)

end Governs

/-- Of the welcome offers with one claim the first is kept. -/
structure Keeps (policy : Policy) (earlier : List Offer) (offer : Offer) : Prop where
  welcome : policy.Welcomes offer
  first : ∀ type, policy.Claims offer.proposal type →
    ∀ other ∈ earlier, policy.Welcomes other → ¬ policy.Claims other.proposal type

theorem governs_at (policy : Policy) (ignored : KindSet) (site : Site) :
    policy.Governs { Intake.start policy.unit policy.settings with ignored, site } where
  unit := rfl
  settings := rfl
  hidden := rfl

instance (policy : Policy) (offer : Offer) : Decidable (policy.Welcomes offer) :=
  decidable_of_iff _ ((policy.governs_at offer.ignored offer.site).admits_iff offer.proposal)

instance (policy : Policy) (earlier : List Offer) (offer : Offer) :
    Decidable (policy.Keeps earlier offer) :=
  let claim? := (Intake.start policy.unit policy.settings).claim?
  decidable_of_iff
    (policy.Welcomes offer ∧ ∀ type ∈ claim? offer.proposal,
      ∀ other ∈ earlier, policy.Welcomes other → ¬ claim? other.proposal = some type) <| by
    simp only [claim?, Option.mem_def, policy.governs_start.claim?_eq_some_iff]
    exact ⟨fun ⟨welcome, first⟩ => ⟨welcome, first⟩, fun ⟨welcome, first⟩ => ⟨welcome, first⟩⟩

def kept (policy : Policy) (offers : List Offer) : List Offer :=
  (offers.zipIdx.filter fun entry => policy.Keeps (offers.take entry.2) entry.1).map (·.1)

theorem kept_append_singleton (policy : Policy) (offers : List Offer) (offer : Offer) :
    policy.kept (offers ++ [offer]) =
      policy.kept offers ++ if policy.Keeps offers offer then [offer] else [] := by
  have earlier : ∀ entry ∈ offers.zipIdx,
      decide (policy.Keeps ((offers ++ [offer]).take entry.2) entry.1) =
        decide (policy.Keeps (offers.take entry.2) entry.1) := by
    intro entry member
    have inside : entry.2 ≤ offers.length := Nat.le_of_lt (List.snd_lt_of_mem_zipIdx member)
    rw [List.take_append_of_le_length inside]
  have all : (offers ++ [offer]).take offers.length = offers := List.take_left
  unfold kept
  rw [List.zipIdx_append, List.filter_append, List.map_append, List.filter_congr earlier,
    List.zipIdx_singleton, Nat.zero_add]
  congr 1
  by_cases keeps : policy.Keeps offers offer <;> simp [all, keeps]

/-- An intake that was offered just these under the policy. A welcome offer that is not kept
claims what is claimed already, so the claims of all welcome offers are those of the kept. -/
structure Tracks (policy : Policy) (ignored : KindSet) (site : Site) (offers : List Offer)
    (intake : Intake) : Prop extends policy.Governs intake where
  ignored : intake.ignored = ignored
  site : intake.site = site
  claimed : ∀ type, intake.claimed.contains type = true ↔
    ∃ offer ∈ offers, policy.Welcomes offer ∧ policy.Claims offer.proposal type
  kept : intake.kept.toList = (policy.kept offers).map fun offer =>
    (Intake.start policy.unit policy.settings).preferOwnPackage offer.proposal

namespace Tracks

variable {policy : Policy} {ignored : KindSet} {site : Site} {offers : List Offer}
  {intake : Intake}

theorem start (policy : Policy) :
    policy.Tracks {} {} [] (Intake.start policy.unit policy.settings) where
  toGoverns := policy.governs_start
  ignored := rfl
  site := rfl
  claimed type := by simp [Intake.start]
  kept := rfl

theorem keeps_iff (tracks : policy.Tracks ignored site offers intake) (proposal : Proposal) :
    policy.Keeps offers ⟨proposal, ignored, site⟩ ↔
      intake.admits proposal = true ∧
        ∀ type, intake.claim? proposal = some type → intake.claimed.contains type = false := by
  simp only [tracks.admits_iff, tracks.claim?_eq_some_iff, tracks.ignored, tracks.site,
    ← Bool.not_eq_true, tracks.claimed]
  constructor
  · intro ⟨welcome, first⟩
    refine ⟨welcome, fun type claims => ?_⟩
    intro ⟨other, member, welcome', claims'⟩
    exact first type claims other member welcome' claims'
  · intro ⟨welcome, unclaimed⟩
    exact ⟨welcome, fun type claims other member welcome' claims' =>
      unclaimed type claims ⟨other, member, welcome', claims'⟩⟩

theorem preferOwnPackage_eq (tracks : policy.Tracks ignored site offers intake)
    (proposal : Proposal) :
    intake.preferOwnPackage proposal =
      (Intake.start policy.unit policy.settings).preferOwnPackage proposal := by
  rw [Intake.preferOwnPackage, tracks.unit]
  rfl

private theorem claimed_append_iff (tracks : policy.Tracks ignored site offers intake)
    (proposal : Proposal) (type : String) :
    (∃ offer ∈ offers ++ [⟨proposal, ignored, site⟩],
        policy.Welcomes offer ∧ policy.Claims offer.proposal type) ↔
      intake.claimed.contains type = true ∨
        intake.admits proposal = true ∧ intake.claim? proposal = some type := by
  rw [tracks.claimed, tracks.admits_iff, tracks.claim?_eq_some_iff, tracks.ignored, tracks.site]
  simp only [List.mem_append, List.mem_singleton, or_and_right, exists_or, exists_eq_left]

private theorem skip (tracks : policy.Tracks ignored site offers intake) {proposal : Proposal}
    (drops : ¬ policy.Keeps offers ⟨proposal, ignored, site⟩)
    (old : ∀ type, intake.admits proposal = true → intake.claim? proposal = some type →
      intake.claimed.contains type = true) (offered : KindSet) :
    policy.Tracks ignored site (offers ++ [⟨proposal, ignored, site⟩])
      { intake with offered } where
  toGoverns := ⟨tracks.unit, tracks.settings, tracks.hidden⟩
  ignored := tracks.ignored
  site := tracks.site
  claimed type := by
    rw [tracks.claimed_append_iff]
    exact ⟨Or.inl, fun claimed => claimed.elim id fun ⟨admits, claims⟩ => old type admits claims⟩
  kept := by
    rw [kept_append_singleton, if_neg drops, List.append_nil]
    exact tracks.kept

theorem offer (tracks : policy.Tracks ignored site offers intake) {proposal : Proposal}
    (plain : proposal.kind ≠ .potentialMethodDeclaration) :
    policy.Tracks ignored site (offers ++ [⟨proposal, ignored, site⟩])
      (intake.offer proposal) := by
  have keeps := tracks.keeps_iff proposal
  have outcome := intake.outcome_offer proposal
  generalize intake.offer proposal = after at outcome
  cases outcome with
  | refused refuses =>
      apply tracks.skip
      · rw [keeps, refuses]
        exact fun kept => Bool.false_ne_true kept.1
      · intro type admits
        rw [refuses] at admits
        cases admits
  | folded admits claims claimed =>
      apply tracks.skip
      · rw [keeps]
        intro kept
        rw [kept.2 _ claims] at claimed
        cases claimed
      · intro type _ claims'
        rw [claims, Option.some.injEq] at claims'
        exact claims' ▸ claimed
  | taken admits unclaimed =>
      rw [Intake.take_of_plain _ plain]
      refine ⟨⟨tracks.unit, tracks.settings, tracks.hidden⟩, tracks.ignored, tracks.site, ?_, ?_⟩
      · intro type
        rw [tracks.claimed_append_iff, Intake.contains_claimedWith, admits]
        simp only [true_and]
      · rw [kept_append_singleton, if_pos (keeps.mpr ⟨admits, unclaimed⟩), List.map_append,
          ← tracks.kept, Array.toList_push, List.map_singleton, ← tracks.preferOwnPackage_eq]
        rfl

theorem offerAll (tracks : policy.Tracks ignored site offers intake) {proposals : List Proposal}
    (plain : ∀ proposal ∈ proposals, proposal.kind ≠ .potentialMethodDeclaration) :
    policy.Tracks ignored site (offers ++ proposals.map (⟨·, ignored, site⟩))
      (intake.offerAll proposals) := by
  induction proposals generalizing offers intake with
  | nil =>
      rw [List.map_nil, List.append_nil]
      exact tracks
  | cons proposal proposals ih =>
      have next := tracks.offer (plain proposal List.mem_cons_self)
      have rest := ih next fun other member => plain other (List.mem_cons_of_mem _ member)
      rw [List.append_assoc] at rest
      exact rest

theorem enter (tracks : policy.Tracks ignored site offers intake) (entered : Site) :
    policy.Tracks ignored entered offers (intake.enter entered) :=
  ⟨tracks.toGoverns.enter entered, tracks.ignored, rfl, tracks.claimed, tracks.kept⟩

theorem ignore (tracks : policy.Tracks ignored site offers intake) (kinds : KindSet) :
    policy.Tracks kinds site offers (intake.ignore kinds) :=
  ⟨tracks.toGoverns.ignore kinds, rfl, tracks.site, tracks.claimed, tracks.kept⟩

theorem expandWith (tracks : policy.Tracks ignored site offers intake)
    (generator : AccessorGenerator) :
    policy.Tracks ignored site offers (intake.expandWith generator) :=
  ⟨tracks.toGoverns.expandWith generator, tracks.ignored, tracks.site, tracks.claimed, tracks.kept⟩

theorem run (tracks : policy.Tracks ignored site offers intake) {steps : List Intake.Step}
    (plain : ∀ offer ∈ Offer.made ignored site steps,
      offer.proposal.kind ≠ .potentialMethodDeclaration) :
    ∃ ignored' site', policy.Tracks ignored' site' (offers ++ Offer.made ignored site steps)
      (intake.run steps) := by
  induction steps generalizing ignored site offers intake with
  | nil =>
      rw [Offer.made, List.append_nil]
      exact ⟨ignored, site, tracks⟩
  | cons step steps ih =>
      cases step with
      | enter entered => exact ih (tracks.enter entered) plain
      | ignore kinds => exact ih (tracks.ignore kinds) plain
      | expandWith generator => exact ih (tracks.expandWith generator) plain
      | offer proposal =>
          have next := tracks.offer (plain _ List.mem_cons_self)
          have rest := ih next fun other member => plain other (List.mem_cons_of_mem _ member)
          rw [List.append_assoc] at rest
          exact rest
      | offerAll proposals =>
          have next := tracks.offerAll (fun proposal member =>
            plain _ (List.mem_append_left _ (List.mem_map_of_mem member)))
          have rest := ih next fun other member => plain other (List.mem_append_right _ member)
          rw [List.append_assoc] at rest
          exact rest

end Tracks

end Policy

namespace Intake

end Intake

end ContentAssist
