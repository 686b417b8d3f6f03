import ContentAssist.Proposal.Basic
import ContentAssist.Ranking.Verdict
import ContentAssist.Site
import ContentAssist.SourceUnit

/-! Asking the ranking providers in turn, until the request is found cancelled. Answers that do not
fit the request are left out of the verdicts. -/

namespace ContentAssist

structure RankingRequest where
  proposals : List Proposal
  site : Site
  unit : SourceUnit

abbrev Slots := List (Option Opinion)

/-- A provider may give no answer. The world it is called in holds, among other
things, whether the request is cancelled, and a call may change it. -/
abbrev RankingProvider (World : Type) := RankingRequest → World → Option Slots × World

namespace RankingRequest

def consult {World : Type} (request : RankingRequest) (cancelled : World → Bool) :
    List (RankingProvider World) → World → List (Option Slots) × World
  | [], world => ([], world)
  | provider :: others, world =>
      if cancelled world then ([], world)
      else
        let called := provider request world
        let later := request.consult cancelled others called.2
        (called.1 :: later.1, later.2)

def usable (count : Nat) (answers : List (Option Slots)) : List Slots :=
  answers.filterMap fun answer => answer.filter (·.length == count)

def verdicts (count : Nat) (answers : List Slots) : List (Option Verdict) :=
  answers.foldl (List.zipWith Verdict.merge) (List.replicate count none)

def aggregate {World : Type} (request : RankingRequest) (cancelled : World → Bool)
    (providers : List (RankingProvider World)) (world : World) :
    List (Option Verdict) × World :=
  let (answers, after) := request.consult cancelled providers world
  let count := request.proposals.length
  (verdicts count (usable count answers), after)

theorem length_of_mem_usable {count : Nat} {answers : List (Option Slots)} {slots : Slots}
    (member : slots ∈ usable count answers) : slots.length = count := by
  simp only [usable, List.mem_filterMap, Option.filter_eq_some_iff, beq_iff_eq] at member
  obtain ⟨_, _, _, same⟩ := member
  exact same

private theorem length_foldl_merge {count : Nat} (answers : List Slots)
    (fits : ∀ slots ∈ answers, slots.length = count) (verdicts : List (Option Verdict))
    (whole : verdicts.length = count) :
    (answers.foldl (List.zipWith Verdict.merge) verdicts).length = count := by
  induction answers generalizing verdicts with
  | nil => exact whole
  | cons slots answers ih =>
      apply ih
      · intro other member
        exact fits other (List.mem_cons_of_mem _ member)
      · rw [List.length_zipWith, whole, fits slots List.mem_cons_self, Nat.min_self]

theorem length_aggregate {World : Type} (request : RankingRequest) (cancelled : World → Bool)
    (providers : List (RankingProvider World)) (world : World) :
    (request.aggregate cancelled providers world).1.length = request.proposals.length := by
  apply length_foldl_merge
  · intro slots member
    exact length_of_mem_usable member
  · exact List.length_replicate

end RankingRequest

end ContentAssist
