import ContentAssist.Ranking.Consultation

/-! The verdict on a proposal is made of the opinions on that proposal alone, in the order of the
providers, who are called one after the other until the request is found cancelled. -/

namespace ContentAssist

namespace Verdict

def ofOpinions (opinions : List Opinion) : Option Verdict :=
  if opinions.isEmpty then none else some (opinions.foldl add {})

theorem foldl_merge_some (verdict : Verdict) (slots : List (Option Opinion)) :
    slots.foldl merge (some verdict) = some ((slots.filterMap id).foldl add verdict) := by
  induction slots generalizing verdict with
  | nil => rfl
  | cons slot slots ih =>
      cases slot with
      | none => exact ih verdict
      | some opinion => exact ih (verdict.add opinion)

theorem foldl_merge_none (slots : List (Option Opinion)) :
    slots.foldl merge none = ofOpinions (slots.filterMap id) := by
  induction slots with
  | nil => rfl
  | cons slot slots ih =>
      cases slot with
      | none => exact ih
      | some opinion => exact foldl_merge_some (add {} opinion) slots

def noted (opinions : List Opinion) : Option Notes :=
  if opinions.isEmpty then none
  else some (opinions.foldl (fun notes opinion => notes ∪ opinion.notes.getD ∅) ∅)

theorem noted_eq_none_iff (opinions : List Opinion) : noted opinions = none ↔ opinions = [] := by
  cases opinions <;> simp [noted]

theorem notes_foldl_add (verdict : Verdict) (opinions : List Opinion) :
    (opinions.foldl add verdict).notes =
      opinions.foldl (fun notes opinion => notes ∪ opinion.notes.getD ∅) verdict.notes := by
  induction opinions generalizing verdict with
  | nil => rfl
  | cons opinion opinions ih => exact ih (verdict.add opinion)

theorem map_notes_ofOpinions (opinions : List Opinion) :
    (ofOpinions opinions).map (·.notes) = noted opinions := by
  unfold ofOpinions noted
  split
  · rfl
  · exact congrArg some (notes_foldl_add {} opinions)

end Verdict

namespace RankingRequest

def opinionsAt (answers : List Slots) (place : Nat) : List Opinion :=
  answers.filterMap fun slots => slots[place]?.join

theorem opinionsAt_eq_nil_iff {count place : Nat} {answers : List Slots} (inside : place < count)
    (fits : ∀ slots ∈ answers, slots.length = count) :
    opinionsAt answers place = [] ↔ ∀ slots ∈ answers, slots[place]? = some none := by
  rw [opinionsAt, List.filterMap_eq_nil_iff]
  constructor
  · intro silent slots member
    have within : place < slots.length := fits slots member ▸ inside
    have empty := silent slots member
    rw [List.getElem?_eq_getElem within] at empty ⊢
    exact congrArg some empty
  · intro silent slots member
    rw [silent slots member]
    rfl

private theorem getElem?_foldl_merge {place : Nat} {answers : List Slots}
    (fits : ∀ slots ∈ answers, place < slots.length) {verdicts : List (Option Verdict)}
    {verdict : Option Verdict} (found : verdicts[place]? = some verdict) :
    (answers.foldl (List.zipWith Verdict.merge) verdicts)[place]? =
      some ((answers.map fun slots => slots[place]?.join).foldl Verdict.merge verdict) := by
  induction answers generalizing verdicts verdict with
  | nil => exact found
  | cons slots answers ih =>
      have within := fits slots List.mem_cons_self
      apply ih
      · intro other member
        exact fits other (List.mem_cons_of_mem _ member)
      · simp only [List.getElem?_zipWith, found, List.getElem?_eq_getElem within,
          Option.join_some]

theorem getElem?_verdicts {count place : Nat} {answers : List Slots} (inside : place < count)
    (fits : ∀ slots ∈ answers, slots.length = count) :
    (verdicts count answers)[place]? = some (Verdict.ofOpinions (opinionsAt answers place)) := by
  have none : (List.replicate count none : List (Option Verdict))[place]? = some none := by
    rw [List.getElem?_replicate, if_pos inside]
  have within : ∀ slots ∈ answers, place < slots.length := by
    intro slots member
    rw [fits slots member]
    exact inside
  rw [verdicts, getElem?_foldl_merge within none, Verdict.foldl_merge_none, List.filterMap_map]
  rfl

end RankingRequest

/-- Where asking whether the request is cancelled changes the world, the change counts as part of
the call that follows. -/
structure ProviderCall (World : Type) where
  provider : RankingProvider World
  before : World
  answer : Option Slots
  after : World

namespace RankingRequest

variable {World : Type}

def worldAfter (world : World) (calls : List (ProviderCall World)) : World :=
  calls.foldl (fun _ call => call.after) world

/-- Each call finds the world that the call before has left, not cancelled, and whoever is skipped
is skipped because the request was cancelled then. -/
structure Consultation (request : RankingRequest) (cancelled : World → Bool) (world : World)
    (providers : List (RankingProvider World)) (calls : List (ProviderCall World))
    (skipped : List (RankingProvider World)) : Prop where
  covered : calls.map (·.provider) ++ skipped = providers
  called : ∀ front call back, calls = front ++ call :: back →
    call.before = worldAfter world front ∧ cancelled call.before = false ∧
      call.provider request call.before = (call.answer, call.after)
  ended : skipped = [] ∨ cancelled (worldAfter world calls) = true

namespace Consultation

variable {request : RankingRequest} {cancelled : World → Bool} {world : World}

theorem skip {providers : List (RankingProvider World)}
    (ended : providers = [] ∨ cancelled world = true) :
    Consultation request cancelled world providers [] providers where
  covered := rfl
  called front call back same := absurd same.symm (by simp)
  ended := ended

theorem call {provider : RankingProvider World} {others : List (RankingProvider World)}
    {calls : List (ProviderCall World)} {skipped : List (RankingProvider World)}
    (asked : cancelled world = false)
    (later : Consultation request cancelled (provider request world).2 others calls skipped) :
    Consultation request cancelled world (provider :: others)
      (⟨provider, world, (provider request world).1, (provider request world).2⟩ :: calls)
      skipped where
  covered := congrArg (provider :: ·) later.covered
  called front call back same := by
    cases front with
    | nil =>
        cases same
        exact ⟨rfl, asked, rfl⟩
    | cons first front =>
        cases same
        exact later.called front call back rfl
  ended := later.ended

/-- The loop goes by the only consultation there is. -/
theorem consult_eq {providers skipped : List (RankingProvider World)}
    {calls : List (ProviderCall World)}
    (consultation : Consultation request cancelled world providers calls skipped) :
    request.consult cancelled providers world =
      (calls.map (·.answer), worldAfter world calls) := by
  induction calls generalizing providers world with
  | nil =>
      cases consultation.covered
      rcases consultation.ended with none | stopped
      · rw [none]
        rfl
      · cases skipped with
        | nil => rfl
        | cons provider others => exact if_pos stopped
  | cons first calls ih =>
      obtain ⟨found, asked, answered⟩ := consultation.called [] first calls rfl
      have later : Consultation request cancelled first.after (calls.map (·.provider) ++ skipped)
          calls skipped :=
        { covered := rfl
          called := fun front call back same =>
            consultation.called (first :: front) call back (congrArg (first :: ·) same)
          ended := consultation.ended }
      cases consultation.covered
      have before : first.before = world := found
      rw [before] at asked answered
      rw [List.map_cons, List.cons_append, consult, if_neg (Bool.not_eq_true _ ▸ asked), answered]
      dsimp only
      rw [ih later]
      rfl

theorem usable_consult {providers skipped : List (RankingProvider World)}
    {calls : List (ProviderCall World)}
    (consultation : Consultation request cancelled world providers calls skipped) (count : Nat) :
    usable count (request.consult cancelled providers world).1 =
      (calls.filterMap (·.answer)).filter (·.length = count) := by
  rw [consultation.consult_eq, usable, List.filterMap_map, List.filter_filterMap]
  rfl

end Consultation

theorem exists_consultation (request : RankingRequest) (cancelled : World → Bool)
    (providers : List (RankingProvider World)) (world : World) :
    ∃ calls skipped, Consultation request cancelled world providers calls skipped := by
  induction providers generalizing world with
  | nil => exact ⟨[], [], .skip (Or.inl rfl)⟩
  | cons provider others ih =>
      cases stopped : cancelled world with
      | true => exact ⟨[], _, .skip (Or.inr stopped)⟩
      | false =>
          obtain ⟨calls, skipped, later⟩ := ih (provider request world).2
          exact ⟨_, skipped, .call stopped later⟩

end RankingRequest

end ContentAssist
