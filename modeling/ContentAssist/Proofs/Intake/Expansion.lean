import ContentAssist.Proofs.Intake.History

/-! Potential methods are never kept; the accessors generated for one stand in its place. If there
are none, the intake goes on as if it had not been offered, unless it claims a type: the claim
remains when nothing is proposed for it. -/

namespace ContentAssist

namespace Intake

def EnclosedBy (intake : Intake) (proposal : Proposal) (type : String) : Prop :=
  if intake.site.extended then intake.site.enclosingType = some type
  else intake.unit.enclosingTypeAt (proposal.location + 1) = .ok (some type)

theorem enclosingType?_eq_some_iff {intake : Intake} {proposal : Proposal} {type : String} :
    intake.enclosingType? proposal = some type ↔ intake.EnclosedBy proposal type := by
  unfold enclosingType? EnclosedBy
  split
  next => exact Iff.rfl
  next =>
      unfold SourceUnit.typeAt?
      cases intake.unit.enclosingTypeAt (proposal.location + 1) with
      | ok found => simp
      | error failure => simp

/-- Nothing comes of a potential method. -/
def Fails (intake : Intake) (proposal : Proposal) : Prop :=
  ∀ generate type, intake.generator = some generate → intake.EnclosedBy proposal type →
    ∃ failure, generate (accessorRequest proposal type) = .error failure

section

variable (intake : Intake) {proposal : Proposal} {generate : AccessorGenerator} {type : String}

theorem requests_expand_of_asked (generates : intake.generator = some generate)
    (enclosed : intake.EnclosedBy proposal type) :
    (intake.expand proposal).requests =
      intake.requests.push (accessorRequest proposal type) := by
  rw [← enclosingType?_eq_some_iff] at enclosed
  unfold expand
  rw [generates, enclosed]
  dsimp only
  split <;> rfl

theorem kept_expand_of_answered (generates : intake.generator = some generate)
    (enclosed : intake.EnclosedBy proposal type) {accessors : List Proposal}
    (answered : generate (accessorRequest proposal type) = .ok accessors) :
    (intake.expand proposal).kept.toList = intake.kept.toList ++ accessors := by
  rw [← enclosingType?_eq_some_iff] at enclosed
  unfold expand
  simp only [generates, enclosed, answered, Array.toList_append]

theorem expand_of_not_asked
    (unasked : intake.generator = none ∨ ∀ type, ¬ intake.EnclosedBy proposal type) :
    intake.expand proposal = intake := by
  unfold expand
  split
  next generate type generates enclosed =>
      rcases unasked with none | unknown
      · rw [none] at generates
        cases generates
      · exact absurd (enclosingType?_eq_some_iff.mp enclosed) (unknown type)
  next => rfl

theorem exists_expand_eq_of_fails (fails : intake.Fails proposal) :
    ∃ requests, intake.expand proposal = { intake with requests } := by
  unfold expand
  split
  next generate type generates enclosed =>
      obtain ⟨failure, refused⟩ :=
        fails generate type generates (enclosingType?_eq_some_iff.mp enclosed)
      simp only [refused]
      exact ⟨_, rfl⟩
  next => exact ⟨intake.requests, rfl⟩

end

/-- No step looks at the kinds that were offered or at what was asked for. -/
def Alike (left right : Intake) : Prop :=
  ∃ offered requests, right = { left with offered, requests }

namespace Alike

variable {left right : Intake}

theorem kept (alike : left.Alike right) : right.kept = left.kept := by
  obtain ⟨_, _, rfl⟩ := alike
  rfl

theorem expand (alike : left.Alike right) (proposal : Proposal) :
    (left.expand proposal).Alike (right.expand proposal) := by
  obtain ⟨offered, requests, rfl⟩ := alike
  have enclosed : ({ left with offered, requests } : Intake).enclosingType? proposal =
      left.enclosingType? proposal := rfl
  unfold Intake.expand
  rw [enclosed]
  dsimp only
  split
  · split <;> exact ⟨_, _, rfl⟩
  · exact ⟨_, _, rfl⟩

theorem take (alike : left.Alike right) (proposal : Proposal) :
    (left.take proposal).Alike (right.take proposal) := by
  unfold Intake.take
  split
  · exact alike.expand proposal
  · obtain ⟨_, _, rfl⟩ := alike
    exact ⟨_, _, rfl⟩

theorem offer (alike : left.Alike right) (proposal : Proposal) :
    (left.offer proposal).Alike (right.offer proposal) := by
  obtain ⟨offered, requests, rfl⟩ := alike
  have admits : ({ left with offered, requests } : Intake).admits proposal =
      left.admits proposal := rfl
  have claim : ({ left with offered, requests } : Intake).claim? proposal =
      left.claim? proposal := rfl
  unfold Intake.offer
  rw [admits, claim]
  dsimp only
  split
  · split
    · apply take
      exact ⟨_, _, rfl⟩
    · split
      · exact ⟨_, _, rfl⟩
      · apply take
        exact ⟨_, _, rfl⟩
  · exact ⟨_, _, rfl⟩

theorem offerAll (alike : left.Alike right) (proposals : List Proposal) :
    (left.offerAll proposals).Alike (right.offerAll proposals) := by
  induction proposals generalizing left right with
  | nil => exact alike
  | cons proposal proposals ih => exact ih (alike.offer proposal)

theorem step (alike : left.Alike right) (step : Step) :
    (left.step step).Alike (right.step step) := by
  cases step with
  | offer proposal => exact alike.offer proposal
  | offerAll proposals => exact alike.offerAll proposals
  | enter site | ignore kinds | expandWith generator =>
      obtain ⟨_, _, rfl⟩ := alike
      exact ⟨_, _, rfl⟩

theorem run (alike : left.Alike right) (steps : List Step) :
    (left.run steps).Alike (right.run steps) := by
  induction steps generalizing left right with
  | nil => exact alike
  | cons step steps ih => exact ih (alike.step step)

end Alike

section

variable {intake : Intake} {proposal : Proposal}

theorem take_of_potential (intake : Intake)
    (potential : proposal.kind = .potentialMethodDeclaration) :
    intake.take proposal = intake.expand proposal := by
  simp only [take, potential]

def registered (intake : Intake) (proposal : Proposal) : Intake :=
  { intake with
    offered := intake.offered.insert proposal.kind
    claimed := intake.claimedWith proposal }

theorem offer_of_unclaimed (admits : intake.admits proposal = true)
    (unclaimed : ∀ type, intake.claim? proposal = some type →
      intake.claimed.contains type = false) :
    intake.offer proposal = (intake.registered proposal).take proposal := by
  have outcome := intake.outcome_offer proposal
  generalize intake.offer proposal = after at outcome ⊢
  cases outcome with
  | refused refuses =>
      rw [admits] at refuses
      cases refuses
  | folded _ claims claimed =>
      rw [unclaimed _ claims] at claimed
      cases claimed
  | taken _ _ => rfl

theorem offer_of_claimed {type : String} (claims : intake.claim? proposal = some type)
    (claimed : intake.claimed.contains type = true) :
    intake.offer proposal =
      { intake with offered := intake.offered.insert proposal.kind } := by
  have outcome := intake.outcome_offer proposal
  generalize intake.offer proposal = after at outcome ⊢
  cases outcome with
  | refused _ | folded _ _ _ => rfl
  | taken _ unclaimed =>
      rw [unclaimed _ claims] at claimed
      cases claimed

theorem kept_offer_of_unclaimed (admits : intake.admits proposal = true)
    (unclaimed : ∀ type, intake.claim? proposal = some type →
      intake.claimed.contains type = false)
    (plain : proposal.kind ≠ .potentialMethodDeclaration) :
    (intake.offer proposal).kept = intake.kept.push (intake.preferOwnPackage proposal) := by
  rw [offer_of_unclaimed admits unclaimed, take_of_plain _ plain]
  rfl

end

/-- A method that passes every test but that of its claim, if its kind is not ignored. -/
def claimant (type : String) : Proposal :=
  { kind := .methodRefWithCastedReceiver
    completion := ""
    required := [{ kind := .typeRef, completion := type }] }

theorem kept_offer_claimant (intake : Intake) (off : intake.settings.argumentGuessing = .off)
    (type : String) :
    ((intake.ignore {}).offer (claimant type)).kept =
      if intake.claimed.contains type then intake.kept
      else intake.kept.push (claimant type) := by
  have claims : (intake.ignore {}).claim? (claimant type) = some type := by
    simp only [claim?, ignore, off, if_true]
    rfl
  have admits : (intake.ignore {}).admits (claimant type) = true := by
    simp [admits, ignore, hides, isSubjectToHiding, matchesCase, claimant]
  have plain : (claimant type).kind ≠ .potentialMethodDeclaration := by
    rintro ⟨⟩
  split
  next claimed => rw [offer_of_claimed claims claimed, ignore]
  next unclaimed =>
      have free : ∀ other, (intake.ignore {}).claim? (claimant type) = some other →
          (intake.ignore {}).claimed.contains other = false := by
        intro other same
        rw [claims] at same
        cases same
        exact Bool.eq_false_iff.mpr unclaimed
      rw [kept_offer_of_unclaimed admits free plain]
      rfl

section

variable {intake : Intake} {proposal : Proposal}

theorem alike_registered (claimless : intake.claim? proposal = none) :
    intake.Alike (intake.registered proposal) := by
  have same : intake.claimedWith proposal = intake.claimed := by
    simp only [claimedWith, claimless]
  rw [registered, same]
  exact ⟨_, _, rfl⟩

theorem exists_kept_run_registered_ne {type : String} (requests : Array AccessorRequest)
    (claims : intake.claim? proposal = some type)
    (unclaimed : intake.claimed.contains type = false) :
    ∃ steps, (run { intake.registered proposal with requests } steps).kept ≠
      (intake.run steps).kept := by
  have off : intake.settings.argumentGuessing = .off := by
    unfold claim? at claims
    split at claims
    next off => exact off
    next => cases claims
  have claimed : (intake.claimedWith proposal).contains type = true :=
    (intake.contains_claimedWith proposal type).mpr (Or.inr claims)
  have dropped := kept_offer_claimant { intake.registered proposal with requests } off type
  have kept := intake.kept_offer_claimant off type
  rw [if_pos (by exact claimed)] at dropped
  rw [unclaimed, if_neg Bool.false_ne_true] at kept
  refine ⟨[.ignore {}, .offer (claimant type)], fun same => ?_⟩
  have sizes := congrArg Array.size (dropped.symm.trans (same.trans kept))
  rw [Array.size_push] at sizes
  exact absurd sizes (Nat.ne_of_lt (Nat.lt_succ_self _))

theorem kept_run_registered_iff (requests : Array AccessorRequest)
    (unclaimed : ∀ type, intake.claim? proposal = some type →
      intake.claimed.contains type = false) :
    (∀ steps, (run { intake.registered proposal with requests } steps).kept =
        (intake.run steps).kept) ↔
      intake.claim? proposal = none := by
  constructor
  · intro forgotten
    cases claims : intake.claim? proposal with
    | none => rfl
    | some type =>
        obtain ⟨steps, differ⟩ :=
          exists_kept_run_registered_ne requests claims (unclaimed type claims)
        exact absurd (forgotten steps) differ
  · intro claimless steps
    obtain ⟨offered, _, same⟩ := alike_registered claimless
    have alike : intake.Alike { intake.registered proposal with requests } := by
      rw [same]
      exact ⟨_, _, rfl⟩
    exact (alike.run steps).kept

end

end Intake

def Policy.intake (policy : Policy) (history : List Intake.Step) : Intake :=
  (Intake.start policy.unit policy.settings).run history

theorem Policy.governs_intake (policy : Policy) (history : List Intake.Step) :
    policy.Governs (policy.intake history) :=
  policy.governs_start.run history

namespace Intake

/-- A potential method that passes the tests is not kept itself. If a type that it claims is claimed
already, it is dropped without a trace. Otherwise, with a generator and a type around it, the
generator is asked once, for accessors in its place that are more relevant by 6. Where no answer
comes, whatever is kept after any further steps is what would be kept if it had never been offered,
exactly if it claims no type. -/
theorem offer_potential (policy : Policy) (history : List Step) (proposal : Proposal)
    (potential : proposal.kind = .potentialMethodDeclaration)
    (welcome : policy.Welcomes
      ⟨proposal, (policy.intake history).ignored, (policy.intake history).site⟩) :
    let intake := policy.intake history
    let after := intake.offer proposal
    (∀ type, policy.Claims proposal type → intake.claimed.contains type = true →
      after.requests = intake.requests ∧
        ∀ steps, (after.run steps).kept = (intake.run steps).kept) ∧
    ((∀ type, policy.Claims proposal type → intake.claimed.contains type = false) →
      (∀ generate type, intake.generator = some generate → intake.EnclosedBy proposal type →
        let request : AccessorRequest :=
          { enclosingType := type
            name := proposal.name
            replaceStart := proposal.replaceStart
            replaceLength := proposal.replaceEnd - proposal.replaceStart
            relevance := proposal.relevance + 6 }
        after.requests = intake.requests.push request ∧
          ∀ accessors, generate request = .ok accessors →
            after.kept.toList = intake.kept.toList ++ accessors) ∧
      (intake.generator = none ∨ (∀ type, ¬ intake.EnclosedBy proposal type) →
        after.requests = intake.requests) ∧
      (intake.Fails proposal →
        after.kept = intake.kept ∧
          ((∀ steps, (after.run steps).kept = (intake.run steps).kept) ↔
            ∀ type, ¬ policy.Claims proposal type))) := by
  intro intake after
  have governs : policy.Governs intake := policy.governs_intake history
  have claims (type : String) : intake.claim? proposal = some type ↔ policy.Claims proposal type :=
    governs.claim?_eq_some_iff proposal type
  constructor
  · intro type claim claimed
    have dropped : after = _ := offer_of_claimed ((claims type).mpr claim) claimed
    have alike : intake.Alike after := ⟨_, _, dropped⟩
    exact ⟨by rw [dropped], fun steps => (alike.run steps).kept⟩
  intro unclaimed
  have admits : intake.admits proposal = true := (governs.admits_iff proposal).mpr welcome
  have free : ∀ type, intake.claim? proposal = some type →
      intake.claimed.contains type = false :=
    fun type claim => unclaimed type ((claims type).mp claim)
  have expanded : after = (intake.registered proposal).expand proposal :=
    (offer_of_unclaimed admits free).trans (take_of_potential _ potential)
  rw [expanded]
  refine ⟨fun generate type generates enclosed => ⟨?_, fun accessors answered => ?_⟩,
    fun unasked => ?_, fun fails => ?_⟩
  · exact (intake.registered proposal).requests_expand_of_asked generates enclosed
  · exact (intake.registered proposal).kept_expand_of_answered generates enclosed answered
  · rw [(intake.registered proposal).expand_of_not_asked unasked]
    rfl
  · obtain ⟨requests, same⟩ := (intake.registered proposal).exists_expand_eq_of_fails fails
    rw [same]
    refine ⟨rfl, ?_⟩
    rw [kept_run_registered_iff requests free, Option.eq_none_iff_forall_ne_some]
    exact forall_congr' fun type => not_congr (claims type)

/-- A property for which there is an accessor, and one for which there is none. -/
theorem offer_potential_answered_and_refused :
    let accessor (relevance : Int32) : Proposal :=
      { kind := .methodDeclaration, completion := "getName()", name := "getName", relevance }
    let generate : AccessorGenerator := fun request =>
      if request.name = "getName" then .ok [accessor request.relevance]
      else .error ⟨"no such property"⟩
    let unit : SourceUnit :=
      { uri := "file:///A.java"
        enclosingTypeAt := fun offset => .ok (if offset = 41 then some "Person" else none)
        positionAt := fun _ => .ok ⟨0, 0⟩ }
    let policy : Policy := { unit, settings := { argumentGuessing := .off } }
    let potential (name : String) : Proposal :=
      { kind := .potentialMethodDeclaration
        completion := name
        name
        relevance := 20
        replaceStart := 37
        replaceEnd := 40
        location := 40 }
    let history : List Step := [.enter { token := some "g" }, .expandWith generate]
    let intake := policy.intake history
    (intake.offer (potential "getName")).kept.toList = [accessor 26] ∧
    (intake.offer (potential "getName")).requests.toList = [⟨"Person", "getName", 37, 3, 26⟩] ∧
    ∀ steps, ((intake.offer (potential "gone")).run steps).kept = (intake.run steps).kept := by
  intro accessor generate unit policy potential history intake
  have claimless (name : String) : ∀ type, ¬ policy.Claims (potential name) type := by
    rintro type ⟨-, required, ⟨front, back, split, -⟩, -⟩
    cases front <;> cases split
  have enclosed (name : String) : intake.EnclosedBy (potential name) "Person" := rfl
  obtain ⟨-, asks⟩ := offer_potential policy history (potential "getName") rfl (by decide)
  obtain ⟨asks, -, -⟩ := asks fun type claims => absurd claims (claimless _ type)
  obtain ⟨-, forgets⟩ := offer_potential policy history (potential "gone") rfl (by decide)
  obtain ⟨-, -, forgets⟩ := forgets fun type claims => absurd claims (claimless _ type)
  obtain ⟨asked, answers⟩ := asks generate "Person" rfl (enclosed _)
  have fails : intake.Fails (potential "gone") := by
    rintro _ type ⟨⟩ -
    exact ⟨_, rfl⟩
  exact ⟨answers _ rfl, by rw [asked]; rfl, (forgets fails).2.mpr (claimless _)⟩

/-- A potential method that requires a type, with nobody to generate accessors, and a
constructor of that type. Neither is kept, but alone the constructor is. -/
theorem failed_expansion_drops_constructor :
    let type : Proposal :=
      { kind := .typeRef, completion := "List", signature := some "Ljava.util.List;" }
    let potential : Proposal :=
      { kind := .potentialMethodDeclaration, completion := "get", name := "get",
        required := [type] }
    let constructor : Proposal :=
      { kind := .constructorInvocation, completion := "List()", required := [type] }
    let unit : SourceUnit :=
      { uri := "file:///A.java"
        enclosingTypeAt := fun _ => .ok none
        positionAt := fun _ => .ok ⟨0, 0⟩ }
    let settings : Settings := { caseMatching := .off, argumentGuessing := .off }
    let intake := start unit settings
    intake.admits potential = true ∧ intake.Fails potential ∧
    ((intake.offer potential).run [.offer constructor]).kept = #[] ∧
    (intake.run [.offer constructor]).kept = #[constructor] := by
  intro type potential constructor unit settings intake
  have admits : intake.admits potential = true := by decide
  have fails : intake.Fails potential := by
    rintro _ _ ⟨⟩
  have fresh : ∀ claimed, intake.claimed.contains claimed = false := by
    intro claimed
    exact Std.HashSet.contains_empty
  have expanded : intake.offer potential = intake.registered potential := by
    rw [offer_of_unclaimed admits fun claimed _ => fresh claimed, take_of_potential _ rfl,
      expand_of_not_asked _ (Or.inl rfl)]
  have claimed : (intake.registered potential).claimed.contains "Ljava.util.List;" = true :=
    (intake.contains_claimedWith potential _).mpr (Or.inr rfl)
  refine ⟨admits, fails, ?_, ?_⟩
  · have dropped : (intake.registered potential).offer constructor = _ :=
      offer_of_claimed rfl claimed
    rw [expanded, run, List.foldl_cons, step, dropped]
    rfl
  · have taken : (intake.offer constructor).kept = _ :=
      kept_offer_of_unclaimed (by decide) (fun claimed _ => fresh claimed) (by decide)
    exact taken

end Intake

end ContentAssist
