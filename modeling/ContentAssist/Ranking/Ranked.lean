import ContentAssist.Ranking.SortKey
import ContentAssist.Ranking.Verdict

/-! Proposals with their verdicts, in the order in which they are shown. The sort is stable. -/

namespace ContentAssist

structure Ranked where
  proposal : Proposal
  verdict : Option Verdict

namespace Ranked

def score (ranked : Ranked) : Int32 :=
  match ranked.verdict with
  | some verdict => verdict.score
  | none => 0

def relevance (ranked : Ranked) : Int32 :=
  ranked.proposal.relevance + ranked.score

def key (ranked : Ranked) : SortKey :=
  SortKey.of ranked.proposal ranked.relevance

def precedes (left right : Ranked) : Bool :=
  (SortKey.compare left.key right.key).isLE

def pair : List Proposal → List (Option Verdict) → List Ranked
  | [], _ => []
  | proposal :: proposals, [] => ⟨proposal, none⟩ :: pair proposals []
  | proposal :: proposals, verdict :: verdicts => ⟨proposal, verdict⟩ :: pair proposals verdicts

/-- The proposals in order, each with its position among those given. -/
def arrange (proposals : List Proposal) (verdicts : List (Option Verdict)) :
    List (Ranked × Nat) :=
  (pair proposals verdicts).zipIdx.mergeSort fun left right => left.1.precedes right.1

def rank (proposals : List Proposal) (verdicts : List (Option Verdict)) : List Ranked :=
  (arrange proposals verdicts).map (·.1)

@[simp] theorem map_proposal_pair (proposals : List Proposal)
    (verdicts : List (Option Verdict)) :
    (pair proposals verdicts).map (·.proposal) = proposals := by
  induction proposals generalizing verdicts with
  | nil => rfl
  | cons proposal proposals ih => cases verdicts <;> simp [pair, ih]

@[simp] theorem length_pair (proposals : List Proposal) (verdicts : List (Option Verdict)) :
    (pair proposals verdicts).length = proposals.length := by
  have same := congrArg List.length (map_proposal_pair proposals verdicts)
  rwa [List.length_map] at same

theorem arrange_perm (proposals : List Proposal) (verdicts : List (Option Verdict)) :
    (arrange proposals verdicts).Perm (pair proposals verdicts).zipIdx :=
  List.mergeSort_perm _ _

theorem rank_perm (proposals : List Proposal) (verdicts : List (Option Verdict)) :
    (rank proposals verdicts).Perm (pair proposals verdicts) := by
  have arranged := (arrange_perm proposals verdicts).map (·.1)
  simpa [rank, List.zipIdx_map_fst] using arranged

end Ranked

end ContentAssist
