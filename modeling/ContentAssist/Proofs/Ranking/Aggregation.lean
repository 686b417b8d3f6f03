import ContentAssist.Proofs.Ranking.Consultation
import Mathlib

/-! What the answers of the providers come to. A verdict adds up what the fitting answers have at
its place, and there is none where they have nothing. -/

namespace ContentAssist

namespace Verdict

structure Totals (verdict : Verdict) (opinions : List Opinion) : Prop where
  score : verdict.score.toInt =
    (opinions.map fun opinion : Opinion => opinion.score.toInt).sum.bmod (2 ^ 32)
  decorators : verdict.decorators = String.join (opinions.filterMap (·.decorator))
  notes : ∀ key : String,
    verdict.notes[key]? = opinions.reverse.findSome? fun opinion => opinion.notes.bind (·[key]?)

theorem toInt_score_foldl_add (verdict : Verdict) (opinions : List Opinion) :
    (opinions.foldl add verdict).score.toInt =
      (verdict.score.toInt + (opinions.map (·.score.toInt)).sum).bmod (2 ^ 32) := by
  induction opinions generalizing verdict with
  | nil =>
      rw [List.map_nil, List.sum_nil, Int.add_zero]
      exact verdict.score.toInt_bmod_size.symm
  | cons opinion opinions ih =>
      rw [List.foldl_cons, ih, add, Int32.toInt_add, Int.bmod_add_bmod, List.map_cons,
        List.sum_cons, Int.add_assoc]

theorem decorators_foldl_add (verdict : Verdict) (opinions : List Opinion) :
    (opinions.foldl add verdict).decorators =
      verdict.decorators ++ String.join (opinions.filterMap (·.decorator)) := by
  induction opinions generalizing verdict with
  | nil => exact String.append_empty.symm
  | cons opinion opinions ih =>
      rw [List.foldl_cons, ih, add]
      cases marked : opinion.decorator with
      | none => simp [marked]
      | some mark => simp [marked, String.append_assoc]

/-- Later opinions are asked first, and what was there before them last. -/
theorem getElem?_notes_foldl_add (verdict : Verdict) (opinions : List Opinion) (key : String) :
    (opinions.foldl add verdict).notes[key]? =
      (opinions.reverse.findSome? fun opinion => opinion.notes.bind (·[key]?)).or
        verdict.notes[key]? := by
  induction opinions generalizing verdict with
  | nil => rfl
  | cons opinion opinions ih =>
      have own : (opinion.notes.getD ∅)[key]? = opinion.notes.bind (·[key]?) := by
        cases opinion.notes <;> simp
      rw [List.foldl_cons, ih, add, Std.ExtTreeMap.getElem?_union, own, List.reverse_cons,
        List.findSome?_append, List.findSome?_singleton, Option.or_assoc]

theorem totals_foldl_add (opinions : List Opinion) :
    (opinions.foldl add {}).Totals opinions where
  score := by
    have total := toInt_score_foldl_add {} opinions
    rwa [Int32.toInt_zero, Int.zero_add] at total
  decorators := by
    have joined := decorators_foldl_add {} opinions
    rwa [String.empty_append] at joined
  notes key := by
    have found := getElem?_notes_foldl_add {} opinions key
    rwa [Std.ExtTreeMap.getElem?_empty, Option.or_none] at found

theorem ofOpinions_eq_none_iff (opinions : List Opinion) :
    ofOpinions opinions = none ↔ opinions = [] := by
  cases opinions <;> simp [ofOpinions]

theorem totals_of_ofOpinions {opinions : List Opinion} {verdict : Verdict}
    (given : ofOpinions opinions = some verdict) : verdict.Totals opinions := by
  unfold ofOpinions at given
  split at given
  · cases given
  · cases given
    exact totals_foldl_add opinions

end Verdict

namespace RankingRequest

variable {World : Type}

/-- Providers are called one after the other, each once, until the request is found cancelled. The
verdicts are as many as the proposals and depend on the answers with that many slots only: a
proposal has none if nobody has an opinion at its place, and else the verdict that adds up the
opinions there, in the order of the calls. -/
theorem aggregate_totals (request : RankingRequest) (cancelled : World → Bool)
    (providers : List (RankingProvider World)) (world : World) :
    let count := request.proposals.length
    let result := request.aggregate cancelled providers world
    ∃ calls skipped,
      Consultation request cancelled world providers calls skipped ∧
      result.2 = worldAfter world calls ∧
      result.1.length = count ∧
      let fitting := (calls.filterMap (·.answer)).filter (·.length = count)
      ∀ place < count,
        (result.1[place]? = some none ↔ ∀ slots ∈ fitting, slots[place]? = some none) ∧
        ∀ verdict, result.1[place]? = some (some verdict) →
          verdict.Totals (opinionsAt fitting place) := by
  intro count result
  obtain ⟨calls, skipped, consultation⟩ :=
    request.exists_consultation cancelled providers world
  refine ⟨calls, skipped, consultation, ?_, request.length_aggregate cancelled providers world, ?_⟩
  · exact congrArg Prod.snd consultation.consult_eq
  · intro fitting place inside
    have fits : ∀ slots ∈ fitting, slots.length = count :=
      fun slots member => of_decide_eq_true (List.mem_filter.mp member).2
    have given : result.1[place]? = some (Verdict.ofOpinions (opinionsAt fitting place)) := by
      have merged : result.1 = verdicts count fitting :=
        congrArg (verdicts count) (consultation.usable_consult count)
      rw [merged]
      exact getElem?_verdicts inside fits
    rw [given]
    constructor
    · rw [Option.some.injEq, Verdict.ofOpinions_eq_none_iff]
      exact opinionsAt_eq_nil_iff inside fits
    · intro verdict found
      exact Verdict.totals_of_ofOpinions (Option.some.inj found)

example :
    let request : RankingRequest :=
      { proposals := [{ kind := .keyword, completion := "new" }]
        site := {}
        unit :=
          { uri := "file:///A.java"
            enclosingTypeAt := fun _ => .ok none
            positionAt := fun _ => .ok {} } }
    let hasty : RankingProvider Bool := fun _ _ => (some [some { score := 3 }], true)
    let late : RankingProvider Bool := fun _ _ => (some [some { score := 5 }], true)
    (request.aggregate id [hasty, late] false).1.map (·.map (·.score)) = [some 3] := rfl

end RankingRequest

end ContentAssist
