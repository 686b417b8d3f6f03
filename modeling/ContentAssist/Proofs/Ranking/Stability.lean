import ContentAssist.Proofs.Ranking.KeyOrder
import Mathlib.Algebra.Group.Nat.Defs

/-! Ranking is a stable sort: however its input was ordered, the same keys stand in the same places,
and proposals with the same key keep the order in which they came. -/

namespace ContentAssist.Ranked

private theorem trans_precedes (first second third : Ranked)
    (before : first.precedes second = true) (after : second.precedes third = true) :
    first.precedes third = true :=
  precedes_trans before after

private theorem total_precedes (left right : Ranked) :
    (left.precedes right || right.precedes left) = true := by
  rw [Bool.or_eq_true]
  exact precedes_total left right

theorem compare_key_eq_iff (left right : Ranked) :
    SortKey.compare left.key right.key = .eq ↔ left.key = right.key :=
  SortKey.compare_eq_iff left.coherent_key right.coherent_key

theorem key_eq_of_precedes {left right : Ranked} (forward : left.precedes right)
    (backward : right.precedes left) : left.key = right.key := by
  rw [← compare_key_eq_iff]
  cases order : SortKey.compare left.key right.key with
  | eq => rfl
  | lt => exact absurd backward ((not_precedes_iff right left).mpr order)
  | gt =>
      rw [precedes, order] at forward
      cases forward

theorem precedes_of_key_eq {left right : Ranked} (same : left.key = right.key) :
    left.precedes right := by
  rw [precedes, (compare_key_eq_iff left right).mpr same]
  rfl

private theorem of_zipIdxLE {α : Type} {le : α → α → Bool} {left right : α × Nat}
    (ordered : List.zipIdxLE le left right) :
    le left.1 right.1 ∧ (le right.1 left.1 → left.2 ≤ right.2) := by
  unfold List.zipIdxLE at ordered
  split at ordered
  next forward =>
    refine ⟨forward, fun backward => ?_⟩
    rw [if_pos backward] at ordered
    exact of_decide_eq_true ordered
  next => cases ordered

private theorem zipIdxLE_numbered {α : Type} (le : α → α → Bool) {entries : List α}
    {left right : (α × Nat) × Nat} (member : left ∈ entries.zipIdx.zipIdx)
    (member' : right ∈ entries.zipIdx.zipIdx) :
    List.zipIdxLE (fun x y : α × Nat => le x.1 y.1) left right =
      List.zipIdxLE le left.1 right.1 := by
  have numbered {entry : (α × Nat) × Nat} (member : entry ∈ entries.zipIdx.zipIdx) :
      entry.1.2 = entry.2 := by
    rw [List.mem_zipIdx_iff_getElem?, List.getElem?_zipIdx, Option.map_eq_some_iff] at member
    obtain ⟨_, _, same⟩ := member
    rw [← same, Nat.zero_add]
  simp only [List.zipIdxLE, numbered member, numbered member']

theorem arrange_eq_mergeSort (proposals : List Proposal) (verdicts : List (Option Verdict)) :
    arrange proposals verdicts =
      (pair proposals verdicts).zipIdx.mergeSort (List.zipIdxLE precedes) := by
  have numbered : ∀ left ∈ (pair proposals verdicts).zipIdx.zipIdx,
      ∀ right ∈ (pair proposals verdicts).zipIdx.zipIdx,
        List.zipIdxLE (fun x y : Ranked × Nat => x.1.precedes y.1) left right =
          List.zipIdxLE precedes left.1 right.1 :=
    fun _ member _ member' => zipIdxLE_numbered precedes member member'
  rw [arrange, ← List.mergeSort_zipIdx, List.map_mergeSort numbered, List.zipIdx_map_fst]

theorem rank_eq_mergeSort (proposals : List Proposal) (verdicts : List (Option Verdict)) :
    rank proposals verdicts = (pair proposals verdicts).mergeSort precedes := by
  rw [rank, arrange_eq_mergeSort, List.mergeSort_zipIdx]

theorem pairwise_arrange (proposals : List Proposal) (verdicts : List (Option Verdict)) :
    (arrange proposals verdicts).Pairwise fun left right =>
      SortKey.compare left.1.key right.1.key = .lt ∨
        SortKey.compare left.1.key right.1.key = .eq ∧ left.2 < right.2 := by
  have sorted := List.pairwise_mergeSort (List.zipIdxLE_trans trans_precedes)
    (List.zipIdxLE_total total_precedes) (pair proposals verdicts).zipIdx
  rw [← arrange_eq_mergeSort] at sorted
  have distinct := List.pairwise_map.mp (places_arrange_nodup proposals verdicts)
  apply sorted.imp₂ _ distinct
  intro left right ordered different
  obtain ⟨forward, numbered⟩ := of_zipIdxLE ordered
  by_cases backward : right.1.precedes left.1
  · right
    exact ⟨(compare_key_eq_iff _ _).mpr (key_eq_of_precedes forward backward),
      Nat.lt_of_le_of_ne (numbered backward) different⟩
  · left
    exact (not_precedes_iff right.1 left.1).mp backward

theorem score_eq (ranked : Ranked) :
    ranked.score = (ranked.verdict.map Verdict.score).getD 0 := by
  unfold score
  cases ranked.verdict <;> rfl

theorem toInt_relevance_key (ranked : Ranked) :
    ranked.key.relevance.toInt =
      (ranked.proposal.relevance.toInt +
        ((ranked.verdict.map Verdict.score).getD 0).toInt).bmod (2 ^ 32) := by
  rw [← score_eq]
  exact Int32.toInt_add _ _

/-- A ranking is the proposals in some order of their places. Each of them keeps the
verdict given for its place, if one is, and the score is added to its relevance. Of any two
entries the one in front has the smaller key, or they have equal keys and it came first. -/
theorem rank_stable (proposals : List Proposal) (verdicts : List (Option Verdict)) :
    (arrange proposals verdicts).map (·.1) = rank proposals verdicts ∧
      ((arrange proposals verdicts).map (·.2)).Perm (List.range proposals.length) ∧
      (∀ ranked place, (ranked, place) ∈ arrange proposals verdicts →
        proposals[place]? = some ranked.proposal ∧
          ranked.verdict = verdicts[place]?.join ∧
          ranked.key.relevance.toInt =
            (ranked.proposal.relevance.toInt +
              ((verdicts[place]?.join.map Verdict.score).getD 0).toInt).bmod (2 ^ 32)) ∧
      (arrange proposals verdicts).Pairwise fun left right =>
        SortKey.compare left.1.key right.1.key = .lt ∨
          SortKey.compare left.1.key right.1.key = .eq ∧ left.2 < right.2 := by
  refine ⟨rfl, places_arrange_perm proposals verdicts, ?_,
    pairwise_arrange proposals verdicts⟩
  intro ranked place member
  obtain ⟨given, verdict⟩ := of_mem_arrange member
  refine ⟨given, verdict, ?_⟩
  rw [← verdict]
  exact ranked.toInt_relevance_key

theorem pair_map (entries : List Ranked) :
    pair (entries.map (·.proposal)) (entries.map (·.verdict)) = entries := by
  induction entries with
  | nil => rfl
  | cons entry entries ih => rw [List.map_cons, List.map_cons, pair, ih]

theorem filter_key_rank (proposals : List Proposal) (verdicts : List (Option Verdict))
    (key : SortKey) :
    (rank proposals verdicts).filter (·.key = key) =
      (pair proposals verdicts).filter (·.key = key) := by
  have tied : ((pair proposals verdicts).filter (·.key = key)).Pairwise
      fun left right => left.precedes right = true := by
    rw [List.pairwise_filter]
    apply List.pairwise_of_forall
    intro left right member member'
    rw [decide_eq_true_iff] at member member'
    exact precedes_of_key_eq (member.trans member'.symm)
  have kept := List.sublist_mergeSort trans_precedes total_precedes tied List.filter_sublist
  rw [← rank_eq_mergeSort] at kept
  have within := kept.filter fun entry => decide (entry.key = key)
  rw [List.filter_filter] at within
  simp only [Bool.and_self] at within
  have lengths := ((rank_perm proposals verdicts).filter (·.key = key)).length_eq
  exact (within.eq_of_length lengths.symm).symm

theorem pairwise_map_key_rank (proposals : List Proposal) (verdicts : List (Option Verdict)) :
    ((rank proposals verdicts).map key).Pairwise
      fun left right => (SortKey.compare left right).isLE := by
  rw [List.pairwise_map]
  exact pairwise_rank proposals verdicts

theorem map_key_rank_of_perm {proposals proposals' : List Proposal}
    {verdicts verdicts' : List (Option Verdict)}
    (perm : (pair proposals verdicts).Perm (pair proposals' verdicts')) :
    (rank proposals verdicts).map key = (rank proposals' verdicts').map key := by
  have ranked : (rank proposals verdicts).Perm (rank proposals' verdicts') :=
    (rank_perm _ _).trans (perm.trans (rank_perm _ _).symm)
  apply List.Perm.eq_of_pairwise _ (pairwise_map_key_rank _ _) (pairwise_map_key_rank _ _)
    (ranked.map key)
  intro left right member member' before after
  obtain ⟨entry, _, same⟩ := List.mem_map.mp member
  obtain ⟨entry', _, same'⟩ := List.mem_map.mp member'
  rw [← same, ← same'] at before after ⊢
  exact key_eq_of_precedes before after

theorem getElem?_of_map_key {first second : List Ranked} (keys : first.map key = second.map key)
    {entry : Ranked} (alone : ∀ other ∈ second, other.key = entry.key → other = entry)
    {place : Nat} (found : first[place]? = some entry) : second[place]? = some entry := by
  have keyed : (second.map key)[place]? = some entry.key := by
    rw [← keys, List.getElem?_map, found]
    rfl
  rw [List.getElem?_map, Option.map_eq_some_iff] at keyed
  obtain ⟨other, there, same⟩ := keyed
  rw [there, alone other (List.mem_of_getElem? there) same]

/-- However the same proposals and verdicts arrive, the keys are the same at every place,
and so is an entry that is the only one with its key. Entries with one key stand in the
order in which they arrived. -/
theorem rank_of_perm (entries others : List Ranked) (perm : entries.Perm others) :
    let first := rank (entries.map (·.proposal)) (entries.map (·.verdict))
    let second := rank (others.map (·.proposal)) (others.map (·.verdict))
    first.map key = second.map key ∧
      (∀ entry ∈ entries, (∀ other ∈ entries, other.key = entry.key → other = entry) →
        entry ∈ first ∧
          ∀ place : Nat, first[place]? = some entry ↔ second[place]? = some entry) ∧
      ∀ key, first.filter (·.key = key) = entries.filter (·.key = key) ∧
        second.filter (·.key = key) = others.filter (·.key = key) := by
  intro first second
  have listed : first.Perm entries := pair_map entries ▸ rank_perm _ _
  have listed' : second.Perm others := pair_map others ▸ rank_perm _ _
  have keys : first.map key = second.map key := by
    apply map_key_rank_of_perm
    rw [pair_map, pair_map]
    exact perm
  refine ⟨keys, ?_, ?_⟩
  · intro entry member alone
    have alone' : ∀ other ∈ second, other.key = entry.key → other = entry :=
      fun other there => alone other (perm.mem_iff.mpr (listed'.mem_iff.mp there))
    refine ⟨listed.mem_iff.mpr member, fun place => ⟨getElem?_of_map_key keys alone', ?_⟩⟩
    exact getElem?_of_map_key keys.symm fun other there => alone other (listed.mem_iff.mp there)
  · intro key
    exact ⟨(filter_key_rank _ _ key).trans (by rw [pair_map]),
      (filter_key_rank _ _ key).trans (by rw [pair_map])⟩

/-- Two entries for one field come in either order, one of them marked by a provider. They
change places and the keyword after them does not. -/
theorem rank_of_perm_reverse :
    let plain : Ranked := ⟨{ kind := .fieldRef, completion := "size" }, none⟩
    let marked : Ranked :=
      ⟨{ kind := .fieldRef, completion := "size" }, some { decorators := "★" }⟩
    let keyword : Ranked := ⟨{ kind := .keyword, completion := "while" }, none⟩
    let entries := [plain, marked, keyword]
    let first := rank (entries.map (·.proposal)) (entries.map (·.verdict))
    let second := rank (entries.reverse.map (·.proposal)) (entries.reverse.map (·.verdict))
    entries.Perm entries.reverse ∧
      (∀ other ∈ entries, other.key = keyword.key → other = keyword) ∧
      first.map key = second.map key ∧
      (∀ place : Nat, first[place]? = some keyword ↔ second[place]? = some keyword) ∧
      first.filter (·.key = plain.key) = [plain, marked] ∧
      second.filter (·.key = plain.key) = [marked, plain] := by
  intro plain marked keyword entries first second
  have perm : entries.Perm entries.reverse := (List.reverse_perm entries).symm
  have alone : ∀ other ∈ entries, other.key = keyword.key → other = keyword := by
    intro other member same
    simp only [entries, List.mem_cons, List.not_mem_nil, or_false] at member
    rcases member with rfl | rfl | rfl
    · exact absurd same (by decide)
    · exact absurd same (by decide)
    · rfl
  have tied : marked.key = plain.key := by decide
  have apart : keyword.key ≠ plain.key := by decide
  obtain ⟨keys, unique, arrival⟩ := rank_of_perm entries entries.reverse perm
  obtain ⟨arrived, arrived'⟩ := arrival plain.key
  refine ⟨perm, alone, keys, (unique keyword (by simp [entries]) alone).2, ?_, ?_⟩
  · rw [arrived]
    simp [entries, tied, apart]
  · rw [arrived']
    simp [entries, tied, apart]

end ContentAssist.Ranked
