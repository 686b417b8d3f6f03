import ContentAssist.Proofs.Ranking.Aggregation
import ContentAssist.Proofs.Ranking.Stability

/-! The order in which providers are registered changes no score and no place. Notes are the same as
well where no key is noted twice, and only the decorators follow the order. -/

namespace ContentAssist

namespace Opinion

def HasNote (opinion : Opinion) (key : String) : Prop :=
  ∃ notes ∈ opinion.notes, key ∈ notes

def Apart (first second : Opinion) : Prop :=
  ∀ key, first.HasNote key → ¬ second.HasNote key

theorem Apart.symm {first second : Opinion} (apart : first.Apart second) : second.Apart first :=
  fun key noted noted' => apart key noted' noted

theorem note?_eq_none_iff (opinion : Opinion) (key : String) :
    opinion.notes.bind (·[key]?) = none ↔ ¬ opinion.HasNote key := by
  unfold HasNote
  cases opinion.notes <;> simp

end Opinion

namespace Verdict

theorem exists_totals_of_perm {opinions others : List Opinion} (perm : opinions.Perm others) :
    ofOpinions opinions = none ∧ ofOpinions others = none ∨
      ∃ verdict verdict', ofOpinions opinions = some verdict ∧ ofOpinions others = some verdict' ∧
        verdict.Totals opinions ∧ verdict'.Totals others := by
  cases given : ofOpinions opinions with
  | none =>
      left
      refine ⟨rfl, ?_⟩
      rw [ofOpinions_eq_none_iff] at given ⊢
      rw [given] at perm
      exact perm.nil_eq.symm
  | some verdict =>
      right
      cases given' : ofOpinions others with
      | none =>
          rw [ofOpinions_eq_none_iff] at given'
          rw [given'] at perm
          rw [(ofOpinions_eq_none_iff opinions).mpr perm.eq_nil] at given
          cases given
      | some verdict' =>
          exact ⟨verdict, verdict', rfl, rfl, totals_of_ofOpinions given,
            totals_of_ofOpinions given'⟩

theorem score_ofOpinions_of_perm {opinions others : List Opinion} (perm : opinions.Perm others) :
    (ofOpinions opinions).map (·.score) = (ofOpinions others).map (·.score) := by
  rcases exists_totals_of_perm perm with ⟨none, none'⟩ |
    ⟨verdict, verdict', some, some', totals, totals'⟩
  · rw [none, none']
  · have sums := (perm.map fun opinion : Opinion => opinion.score.toInt).sum_eq
    have same : verdict.score = verdict'.score :=
      Int32.toInt_inj.mp (by rw [totals.score, totals'.score, sums])
    rw [some, some', Option.map_some, Option.map_some, same]

private theorem note?_of_perm {opinions others : List Opinion} (perm : opinions.Perm others)
    (apart : opinions.Pairwise Opinion.Apart) (key : String) :
    (opinions.findSome? fun opinion => opinion.notes.bind (·[key]?)) =
      others.findSome? fun opinion => opinion.notes.bind (·[key]?) := by
  induction perm with
  | nil => rfl
  | cons opinion _ ih =>
      rw [List.findSome?_cons, List.findSome?_cons, ih apart.of_cons]
  | swap first second rest =>
      have alone : second.Apart first := List.rel_of_pairwise_cons apart List.mem_cons_self
      by_cases noted : second.HasNote key
      · have silent := (first.note?_eq_none_iff key).mpr (alone key noted)
        simp only [List.findSome?_cons, silent]
      · have silent := (second.note?_eq_none_iff key).mpr noted
        simp only [List.findSome?_cons, silent]
  | trans before _ ih ih' =>
      have apart' := (before.pairwise_iff fun apart => apart.symm).mp apart
      exact (ih apart).trans (ih' apart')

theorem notes_ofOpinions_of_perm {opinions others : List Opinion} (perm : opinions.Perm others)
    (apart : opinions.Pairwise Opinion.Apart) :
    (ofOpinions opinions).map (·.notes) = (ofOpinions others).map (·.notes) := by
  rcases exists_totals_of_perm perm with ⟨none, none'⟩ |
    ⟨verdict, verdict', some, some', totals, totals'⟩
  · rw [none, none']
  · have reversed : opinions.reverse.Pairwise Opinion.Apart :=
      List.pairwise_reverse.mpr (apart.imp fun apart => apart.symm)
    have perm' : opinions.reverse.Perm others.reverse :=
      (List.reverse_perm opinions).trans (perm.trans (List.reverse_perm others).symm)
    have same : verdict.notes = verdict'.notes := by
      apply Std.ExtTreeMap.ext_getElem?
      intro key
      rw [totals.notes, totals'.notes, note?_of_perm perm' reversed]
    rw [some, some', Option.map_some, Option.map_some, same]

end Verdict

namespace Ranked

def standing (ranked : Ranked) : Proposal × Int32 :=
  (ranked.proposal, ranked.relevance)

theorem map_standing_pair (proposals : List Proposal) {verdicts others : List (Option Verdict)}
    (scores : verdicts.map (Option.map Verdict.score) = others.map (Option.map Verdict.score)) :
    (pair proposals verdicts).map standing = (pair proposals others).map standing := by
  apply List.ext_getElem?
  intro place
  have score : verdicts[place]?.join.map Verdict.score = others[place]?.join.map Verdict.score := by
    have found := congrArg (·[place]?.join) scores
    rwa [List.getElem?_map, List.getElem?_map, Option.join_map_eq_map_join,
      Option.join_map_eq_map_join] at found
  simp only [List.getElem?_map, getElem?_pair, Option.map_map]
  congr 1
  funext proposal
  simp only [Function.comp_apply, standing, relevance, score_eq, score]

/-- A ranking reads no more of the verdicts than their scores. -/
theorem map_standing_arrange (proposals : List Proposal) {verdicts others : List (Option Verdict)}
    (scores : verdicts.map (Option.map Verdict.score) = others.map (Option.map Verdict.score)) :
    (arrange proposals verdicts).map (Prod.map standing id) =
      (arrange proposals others).map (Prod.map standing id) := by
  have sorted (given : List (Ranked × Nat)) :
      (given.mergeSort fun left right => left.1.precedes right.1).map (Prod.map standing id) =
        (given.map (Prod.map standing id)).mergeSort fun left right =>
          (SortKey.compare (SortKey.of left.1.1 left.1.2) (SortKey.of right.1.1 right.1.2)).isLE :=
    List.map_mergeSort fun _ _ _ _ => rfl
  rw [arrange, arrange, sorted, sorted, ← List.zipIdx_map, ← List.zipIdx_map,
    map_standing_pair proposals scores]

theorem map_standing_rank (proposals : List Proposal) {verdicts others : List (Option Verdict)}
    (scores : verdicts.map (Option.map Verdict.score) = others.map (Option.map Verdict.score)) :
    (rank proposals verdicts).map standing = (rank proposals others).map standing := by
  have standings := congrArg (List.map Prod.fst) (map_standing_arrange proposals scores)
  rw [List.map_map, List.map_map] at standings
  rw [rank, rank, List.map_map, List.map_map]
  exact standings

theorem map_place_arrange (proposals : List Proposal) {verdicts others : List (Option Verdict)}
    (scores : verdicts.map (Option.map Verdict.score) = others.map (Option.map Verdict.score)) :
    (arrange proposals verdicts).map (·.2) = (arrange proposals others).map (·.2) := by
  have places := congrArg (List.map Prod.snd) (map_standing_arrange proposals scores)
  rw [List.map_map, List.map_map] at places
  exact places

end Ranked

namespace RankingRequest

variable {World : Type}

/-- The provider answers in one way, whatever world it is called in. -/
def Steady (request : RankingRequest) (provider : RankingProvider World) : Prop :=
  ∀ world world', (provider request world).1 = (provider request world').1

theorem answers_consult {request : RankingRequest} {cancelled : World → Bool}
    (never : ∀ world, cancelled world = false) {providers : List (RankingProvider World)}
    (steady : ∀ provider ∈ providers, request.Steady provider) (world sample : World) :
    (request.consult cancelled providers world).1 =
      providers.map fun provider => (provider request sample).1 := by
  induction providers generalizing world with
  | nil => rfl
  | cons provider others ih =>
      have asked : ¬ cancelled world = true := Bool.eq_false_iff.mp (never world)
      rw [consult, if_neg asked, List.map_cons]
      dsimp only
      rw [steady provider List.mem_cons_self world sample,
        ih fun other member => steady other (List.mem_cons_of_mem _ member)]

def heard (request : RankingRequest) (cancelled : World → Bool)
    (providers : List (RankingProvider World)) (world : World) (place : Nat) : List Opinion :=
  opinionsAt (usable request.proposals.length (request.consult cancelled providers world).1) place

theorem getElem?_aggregate (request : RankingRequest) (cancelled : World → Bool)
    (providers : List (RankingProvider World)) (world : World) {place : Nat}
    (inside : place < request.proposals.length) :
    (request.aggregate cancelled providers world).1[place]? =
      some (Verdict.ofOpinions (request.heard cancelled providers world place)) :=
  getElem?_verdicts inside fun _ member => length_of_mem_usable member

theorem heard_of_perm {request : RankingRequest} {cancelled : World → Bool}
    (never : ∀ world, cancelled world = false) {providers others : List (RankingProvider World)}
    (steady : ∀ provider ∈ providers, request.Steady provider) (perm : providers.Perm others)
    (world world' : World) (place : Nat) :
    (request.heard cancelled providers world place).Perm
      (request.heard cancelled others world' place) := by
  have steady' : ∀ provider ∈ others, request.Steady provider :=
    fun provider member => steady provider (perm.mem_iff.mpr member)
  unfold heard
  rw [answers_consult never steady world world, answers_consult never steady' world' world]
  exact ((perm.map _).filterMap _).filterMap _

theorem scores_aggregate_of_perm {request : RankingRequest} {cancelled : World → Bool}
    (never : ∀ world, cancelled world = false) {providers others : List (RankingProvider World)}
    (steady : ∀ provider ∈ providers, request.Steady provider) (perm : providers.Perm others)
    (world world' : World) :
    (request.aggregate cancelled providers world).1.map (Option.map Verdict.score) =
      (request.aggregate cancelled others world').1.map (Option.map Verdict.score) := by
  apply List.ext_getElem?
  intro place
  rw [List.getElem?_map, List.getElem?_map]
  by_cases inside : place < request.proposals.length
  · rw [getElem?_aggregate _ _ _ _ inside, getElem?_aggregate _ _ _ _ inside, Option.map_some,
      Option.map_some,
      Verdict.score_ofOpinions_of_perm (heard_of_perm never steady perm world world' place)]
  · rw [List.getElem?_eq_none, List.getElem?_eq_none]
    · rw [length_aggregate]
      exact Nat.not_lt.mp inside
    · rw [length_aggregate]
      exact Nat.not_lt.mp inside

/-- If no request is ever cancelled and no provider minds what others have done, the order of the
providers changes no score, not even where a sum wraps around, and so no place in the ranking. Nor
does it change the notes on a proposal if no two of the opinions on it have notes under one key. The
decorators stand in the order of the opinions. -/
theorem aggregate_of_perm (request : RankingRequest) (cancelled : World → Bool)
    (never : ∀ world, cancelled world = false) (providers others : List (RankingProvider World))
    (steady : ∀ provider ∈ providers, request.Steady provider) (perm : providers.Perm others)
    (world world' : World) :
    let first := (request.aggregate cancelled providers world).1
    let second := (request.aggregate cancelled others world').1
    let ranking := Ranked.rank request.proposals first
    let ranking' := Ranked.rank request.proposals second
    first.map (Option.map Verdict.score) = second.map (Option.map Verdict.score) ∧
      ranking.map (fun ranked => (ranked.proposal, ranked.relevance)) =
        ranking'.map (fun ranked => (ranked.proposal, ranked.relevance)) ∧
      (Ranked.arrange request.proposals first).map (·.2) =
        (Ranked.arrange request.proposals second).map (·.2) ∧
      ∀ place < request.proposals.length,
        let opinions := request.heard cancelled providers world place
        let opinions' := request.heard cancelled others world' place
        opinions.Perm opinions' ∧
          (∀ verdict ∈ first[place]?.join,
            verdict.decorators = String.join (opinions.filterMap (·.decorator))) ∧
          (∀ verdict ∈ second[place]?.join,
            verdict.decorators = String.join (opinions'.filterMap (·.decorator))) ∧
          (opinions.Pairwise Opinion.Apart →
            first[place]?.join.map (·.notes) = second[place]?.join.map (·.notes)) := by
  intro first second ranking ranking'
  have scores := scores_aggregate_of_perm never steady perm world world'
  refine ⟨scores, Ranked.map_standing_rank request.proposals scores,
    Ranked.map_place_arrange request.proposals scores, ?_⟩
  intro place inside opinions opinions'
  have heard := heard_of_perm never steady perm world world' place
  have given : first[place]? = some (Verdict.ofOpinions opinions) :=
    request.getElem?_aggregate cancelled providers world inside
  have given' : second[place]? = some (Verdict.ofOpinions opinions') :=
    request.getElem?_aggregate cancelled others world' inside
  rw [given, given', Option.join_some, Option.join_some]
  refine ⟨heard, ?_, ?_, Verdict.notes_ofOpinions_of_perm heard⟩
  · intro verdict found
    exact (Verdict.totals_of_ofOpinions found).decorators
  · intro verdict found
    exact (Verdict.totals_of_ofOpinions found).decorators

/-- Two providers whose scores wrap around together, and a third whose answer does not fit.
All of them count their calls, and the last is asked first or last. -/
theorem aggregate_of_perm_wrapped :
    let proposals : List Proposal :=
      [{ kind := .keyword, completion := "while" }, { kind := .keyword, completion := "with" }]
    let request : RankingRequest :=
      { proposals
        site := {}
        unit :=
          { uri := "file:///A.java"
            enclosingTypeAt := fun _ => .ok none
            positionAt := fun _ => .ok {} } }
    let quick : Opinion := { score := 2147483647, notes := some ((∅ : Notes).insert "time" "1") }
    let liked : Opinion := { score := 1, notes := some ((∅ : Notes).insert "votes" "9") }
    let providers : List (RankingProvider Nat) :=
      [fun _ calls => (some [some quick, none], calls + 1),
       fun _ calls => (some [some liked, some liked], calls + 1),
       fun _ calls => (some [some liked], calls + 1)]
    let first := (request.aggregate (fun _ => false) providers 0).1
    let second := (request.aggregate (fun _ => false) providers.reverse 0).1
    (∀ provider ∈ providers, request.Steady provider) ∧
      first.map (Option.map Verdict.score) = [some (-2147483648), some 1] ∧
      second.map (Option.map Verdict.score) = [some (-2147483648), some 1] ∧
      (Ranked.rank proposals second).map (·.proposal.completion) =
        (Ranked.rank proposals first).map (·.proposal.completion) ∧
      first[0]?.join.map (·.notes) = second[0]?.join.map (·.notes) := by
  intro proposals request quick liked providers first second
  have steady : ∀ provider ∈ providers, request.Steady provider := by
    intro provider member
    simp only [providers, List.mem_cons, List.not_mem_nil, or_false] at member
    rcases member with rfl | rfl | rfl <;> exact fun _ _ => rfl
  have heard : request.heard (fun _ => false) providers 0 0 = [quick, liked] := rfl
  have apart : [quick, liked].Pairwise Opinion.Apart := by
    refine List.pairwise_pair.mpr ?_
    rintro key ⟨_, ⟨⟩, listed⟩ ⟨_, ⟨⟩, listed'⟩
    simp only [Std.ExtTreeMap.mem_insert, Std.ExtTreeMap.not_mem_empty, or_false,
      Std.LawfulEqOrd.compare_eq_iff_eq] at listed listed'
    exact absurd (listed.trans listed'.symm) (by decide)
  obtain ⟨scores, ranking, _, same⟩ := request.aggregate_of_perm (fun _ => false) (fun _ => rfl)
    providers providers.reverse steady (List.reverse_perm providers).symm 0 0
  have wrapped : first.map (Option.map Verdict.score) = [some (-2147483648), some 1] := by cbv
  refine ⟨steady, wrapped, scores.symm.trans wrapped, ?_, ?_⟩
  · have completions := congrArg (List.map fun standing => standing.1.completion) ranking
    rw [List.map_map, List.map_map] at completions
    exact completions.symm
  · exact (same 0 (by decide)).2.2.2 (heard ▸ apart)

end RankingRequest

end ContentAssist
