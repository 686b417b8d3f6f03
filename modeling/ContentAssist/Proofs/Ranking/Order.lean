import ContentAssist.Proofs.Text.Units
import ContentAssist.Ranking.Ranked
import Mathlib.Logic.Basic

/-! Parameters are counted between callables only, but the keys of proposals compare as if they
always were: of one kind either all are callable or none is, and those have no parameters. -/

namespace ContentAssist

namespace SortKey

private instance : Std.TransCmp fun left right : SortKey =>
    Text.compareText left.text right.text where
  eq_swap := Text.compareLongerFirst_swap _ _
  isLE_trans := Text.compareLongerFirst_trans

def order : SortKey → SortKey → Ordering :=
  compareLex (fun left right => compareOn SortKey.relevance right left) <|
    compareLex (compareOn fun key => key.kind.ordinal) <|
      compareLex (fun left right => Text.compareText left.text right.text)
        (compareOn SortKey.parameterCount)

instance : Std.TransCmp order :=
  inferInstanceAs (Std.TransCmp (compareLex _ (compareLex _ (compareLex _ _))))

/-- What the key of a proposal has beyond its type. -/
structure Coherent (key : SortKey) : Prop where
  callable : key.callable = (ItemKind.ofProposal key.kind {}).isCallable
  parameterCount : key.callable = false → key.parameterCount = 0

theorem coherent_of (proposal : Proposal) (relevance : Int32) :
    (SortKey.of proposal relevance).Coherent where
  callable := callable_of proposal relevance
  parameterCount := parameterCount_of_not_callable

/-- Only keys of one kind get as far as their parameters. -/
theorem compare_eq_order {left right : SortKey} (leftCoherent : left.Coherent)
    (rightCoherent : right.Coherent) : SortKey.compare left right = order left right := by
  simp only [SortKey.compare, order, compareLex, compareOn]
  congr 1
  cases kinds : Ord.compare left.kind.ordinal right.kind.ordinal with
  | lt => rfl
  | gt => rfl
  | eq =>
      have kind : left.kind = right.kind := Kind.ordinal_injective (Nat.compare_eq_eq.mp kinds)
      have callable : left.callable = right.callable := by
        rw [leftCoherent.callable, rightCoherent.callable, kind]
      congr 2
      unfold compareParameters
      cases called : right.callable with
      | true =>
          rw [callable, called]
          rfl
      | false =>
          rw [callable, called, leftCoherent.parameterCount (callable.trans called),
            rightCoherent.parameterCount called]
          rfl

end SortKey

namespace Ranked

theorem coherent_key (ranked : Ranked) : ranked.key.Coherent :=
  SortKey.coherent_of ranked.proposal ranked.relevance

theorem compare_key (left right : Ranked) :
    SortKey.compare left.key right.key = SortKey.order left.key right.key :=
  SortKey.compare_eq_order left.coherent_key right.coherent_key

theorem precedes_trans {first second third : Ranked} (before : first.precedes second)
    (after : second.precedes third) : first.precedes third := by
  rw [precedes, compare_key] at before after ⊢
  exact Std.TransCmp.isLE_trans before after

theorem not_precedes_iff (left right : Ranked) :
    ¬ left.precedes right ↔ SortKey.compare right.key left.key = .lt := by
  rw [precedes, compare_key, compare_key, Ordering.isLE_iff_ne_gt, not_not]
  exact Std.OrientedCmp.gt_iff_lt

theorem precedes_total (left right : Ranked) : left.precedes right ∨ right.precedes left := by
  by_cases first : left.precedes right
  · exact Or.inl first
  · right
    rw [precedes, (not_precedes_iff left right).mp first]
    rfl

theorem pairwise_rank (proposals : List Proposal) (verdicts : List (Option Verdict)) :
    (rank proposals verdicts).Pairwise fun left right => left.precedes right := by
  rw [rank, List.pairwise_map, arrange]
  apply List.pairwise_mergeSort
  · intro first second third before after
    exact precedes_trans before after
  · intro left right
    rw [Bool.or_eq_true]
    exact precedes_total left.1 right.1

theorem getElem?_pair (proposals : List Proposal) (verdicts : List (Option Verdict))
    (place : Nat) :
    (pair proposals verdicts)[place]? =
      proposals[place]?.map fun proposal => ⟨proposal, verdicts[place]?.join⟩ := by
  induction proposals generalizing verdicts place with
  | nil => rfl
  | cons proposal proposals ih =>
      cases verdicts with
      | nil =>
          cases place with
          | zero => rfl
          | succ place => exact ih [] place
      | cons verdict verdicts =>
          cases place with
          | zero => rfl
          | succ place => exact ih verdicts place

theorem of_mem_arrange {proposals : List Proposal} {verdicts : List (Option Verdict)}
    {ranked : Ranked} {place : Nat} (member : (ranked, place) ∈ arrange proposals verdicts) :
    proposals[place]? = some ranked.proposal ∧ ranked.verdict = verdicts[place]?.join := by
  have given := (arrange_perm proposals verdicts).mem_iff.mp member
  rw [List.mem_zipIdx_iff_getElem?, getElem?_pair, Option.map_eq_some_iff] at given
  obtain ⟨proposal, found, same⟩ := given
  dsimp only at found same
  rw [← same]
  exact ⟨found, rfl⟩

theorem places_arrange_perm (proposals : List Proposal) (verdicts : List (Option Verdict)) :
    ((arrange proposals verdicts).map (·.2)).Perm (List.range proposals.length) := by
  have arranged := (arrange_perm proposals verdicts).map (·.2)
  rwa [List.zipIdx_map_snd, length_pair, ← List.range_eq_range'] at arranged

theorem places_arrange_nodup (proposals : List Proposal) (verdicts : List (Option Verdict)) :
    ((arrange proposals verdicts).map (·.2)).Nodup :=
  (places_arrange_perm proposals verdicts).nodup_iff.mpr List.nodup_range

end Ranked

end ContentAssist
