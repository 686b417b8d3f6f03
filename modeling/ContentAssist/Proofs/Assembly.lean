import ContentAssist.Assistant
import ContentAssist.Proofs.Ranking.Order

/-! Nothing is lost and nothing is listed twice: proposals are tried in their order, each once,
until the list is full, and each trial that succeeds takes the next index. -/

namespace ContentAssist

structure Trial where
  ranked : Ranked
  outcome : Except Failure Item

namespace Trial

def emitted? (trial : Trial) : Option (Ranked × Item) :=
  match trial.outcome with
  | .ok item => some (trial.ranked, item)
  | .error _ => none

def emitted (trials : List Trial) : List (Ranked × Item) :=
  trials.filterMap emitted?

def failed (trials : List Trial) : List Ranked :=
  (trials.filter fun trial => trial.emitted?.isNone).map (·.ranked)

theorem emitted_append (front back : List Trial) :
    emitted (front ++ back) = emitted front ++ emitted back :=
  List.filterMap_append

theorem emitted?_eq_some_iff (trial : Trial) (ranked : Ranked) (item : Item) :
    trial.emitted? = some (ranked, item) ↔ trial = ⟨ranked, .ok item⟩ := by
  obtain ⟨other, outcome⟩ := trial
  cases outcome <;> simp [emitted?]

theorem exists_split {trials : List Trial} {index : Nat} {made : Ranked × Item}
    (found : (emitted trials)[index]? = some made) :
    ∃ front trial back, trials = front ++ trial :: back ∧
      (emitted front).length = index ∧ trial.emitted? = some made := by
  induction trials generalizing index with
  | nil => cases found
  | cons trial trials ih =>
      rw [← List.singleton_append, emitted_append] at found
      cases outcome : trial.emitted? with
      | none =>
          have unmade : emitted [trial] = [] := by simp [emitted, outcome]
          rw [unmade, List.nil_append] at found
          obtain ⟨front, other, back, same, length, emits⟩ := ih found
          refine ⟨trial :: front, other, back, congrArg _ same, ?_, emits⟩
          rw [← List.singleton_append, emitted_append, unmade, List.nil_append, length]
      | some entry =>
          have first : emitted [trial] = [entry] := by simp [emitted, outcome]
          rw [first] at found
          cases index with
          | zero =>
              cases found
              exact ⟨[], trial, trials, rfl, rfl, outcome⟩
          | succ index =>
              obtain ⟨front, other, back, same, length, emits⟩ := ih found
              refine ⟨trial :: front, other, back, congrArg _ same, ?_, emits⟩
              rw [← List.singleton_append, emitted_append, first, List.singleton_append,
                List.length_cons, length]

theorem emitted_failed_perm (trials : List Trial) :
    ((emitted trials).map (·.1) ++ failed trials).Perm (trials.map (·.ranked)) := by
  induction trials with
  | nil => exact .nil
  | cons trial trials ih =>
      obtain ⟨ranked, outcome⟩ := trial
      cases outcome with
      | ok item => exact ih.cons ranked
      | error failure => exact List.perm_middle.trans (ih.cons ranked)

theorem length_emitted (trials : List Trial) :
    (emitted trials).length + (failed trials).length = trials.length := by
  have lengths := (emitted_failed_perm trials).length_eq
  rwa [List.length_append, List.length_map, List.length_map] at lengths

theorem emitted_sublist (trials : List Trial) :
    ((emitted trials).map (·.1)).Sublist (trials.map (·.ranked)) := by
  induction trials with
  | nil => exact .slnil
  | cons trial trials ih =>
      obtain ⟨ranked, outcome⟩ := trial
      cases outcome with
      | ok item => exact ih.cons_cons ranked
      | error failure => exact ih.cons ranked

end Trial

namespace Assembly

variable {present : Ranked → Nat → Except Failure Item}

/-- How a list with room for `limit` items is filled once `index` items are there: the
trials made, in order, and the proposals left over. -/
structure Course (present : Ranked → Nat → Except Failure Item) (limit index : Nat)
    (ranked : List Ranked) (trials : List Trial) (untried : List Ranked) : Prop where
  covered : trials.map (·.ranked) ++ untried = ranked
  outcome : ∀ front trial back, trials = front ++ trial :: back →
    trial.outcome = present trial.ranked (index + (Trial.emitted front).length)
  room : ∀ front trial back, trials = front ++ trial :: back →
    index + (Trial.emitted front).length < limit
  ended : untried = [] ∨ limit ≤ index + (Trial.emitted trials).length

namespace Course

variable {limit index : Nat} {ranked untried : List Ranked} {trials : List Trial}

theorem nil (limit index : Nat) : Course present limit index [] [] [] where
  covered := rfl
  outcome front trial back same := absurd same.symm (by simp)
  room front trial back same := absurd same.symm (by simp)
  ended := Or.inl rfl

theorem full (ended : limit ≤ index) (ranked : List Ranked) :
    Course present limit index ranked [] ranked where
  covered := rfl
  outcome front trial back same := absurd same.symm (by simp)
  room front trial back same := absurd same.symm (by simp)
  ended := Or.inr ended

theorem cons {head : Ranked} {outcome : Except Failure Item} (room : index < limit)
    (made : outcome = present head index)
    (course : Course present limit (index + (Trial.emitted [⟨head, outcome⟩]).length) ranked
      trials untried) :
    Course present limit index (head :: ranked) (⟨head, outcome⟩ :: trials) untried := by
  have split (others : List Trial) : (Trial.emitted (⟨head, outcome⟩ :: others)).length =
      (Trial.emitted [⟨head, outcome⟩]).length + (Trial.emitted others).length := by
    rw [← List.length_append, ← Trial.emitted_append, List.singleton_append]
  refine ⟨?_, ?_, ?_, ?_⟩
  · rw [List.map_cons, List.cons_append, course.covered]
  · intro front other back same
    cases front with
    | nil =>
        cases same
        exact made
    | cons first front =>
        cases same
        rw [split, ← Nat.add_assoc]
        exact course.outcome front other back rfl
  · intro front other back same
    cases front with
    | nil => exact room
    | cons first front =>
        cases same
        rw [split, ← Nat.add_assoc]
        exact course.room front other back rfl
  · rcases course.ended with none | full
    · exact Or.inl none
    · right
      rw [split, ← Nat.add_assoc]
      exact full

theorem length_eq (course : Course present limit index ranked trials untried) :
    trials.length + untried.length = ranked.length := by
  rw [← course.covered, List.length_append, List.length_map]

theorem present_emitted (course : Course present limit index ranked trials untried)
    {position : Nat} {head : Ranked} {item : Item}
    (found : (Trial.emitted trials)[position]? = some (head, item)) :
    present head (index + position) = .ok item := by
  obtain ⟨front, trial, back, same, length, emits⟩ := Trial.exists_split found
  have made := course.outcome front trial back same
  rw [Trial.emitted?_eq_some_iff] at emits
  rw [emits, length] at made
  exact made.symm

theorem length_emitted_le (course : Course present limit index ranked trials untried)
    (start : index ≤ limit) : index + (Trial.emitted trials).length ≤ limit := by
  rcases List.eq_nil_or_concat trials with none | ⟨front, last, same⟩
  · rw [none]
    exact start
  · rw [List.concat_eq_append] at same
    have room := course.room front last [] same
    have single : (Trial.emitted [last]).length ≤ 1 := List.length_filterMap_le _ _
    rw [same, Trial.emitted_append, List.length_append]
    omega

/-- Room for more items than there are proposals is room for all of them. -/
theorem of_min (course : Course present (min limit ranked.length) 0 ranked trials untried) :
    Course present limit 0 ranked trials untried where
  covered := course.covered
  outcome := course.outcome
  room front trial back same :=
    Nat.lt_of_lt_of_le (course.room front trial back same) (Nat.min_le_left _ _)
  ended := by
    rcases course.ended with none | full
    · exact Or.inl none
    · have lengths := course.length_eq
      have made := Trial.length_emitted trials
      by_cases wide : ranked.length ≤ limit
      · left
        apply List.eq_nil_of_length_eq_zero
        omega
      · right
        omega

end Course

theorem exists_course (present : Ranked → Nat → Except Failure Item) (limit index : Nat)
    (ranked : List Ranked) :
    ∃ trials untried, Course present limit index ranked trials untried ∧
      (fill present limit index ranked).emitted = Trial.emitted trials ∧
      (fill present limit index ranked).consumed = trials.length := by
  fun_induction fill present limit index ranked with
  | case1 index => exact ⟨[], [], Course.nil limit index, rfl, rfl⟩
  | case2 index head later full => exact ⟨[], head :: later, Course.full full _, rfl, rfl⟩
  | case3 index head later room item presented ih =>
      obtain ⟨trials, untried, course, emitted, consumed⟩ := ih
      refine ⟨⟨head, .ok item⟩ :: trials, untried,
        Course.cons (Nat.lt_of_not_le room) presented.symm course, ?_, ?_⟩
      · rw [withItem, emitted]
        rfl
      · rw [withItem, consumed, List.length_cons]
  | case4 index head later room failure failed ih =>
      obtain ⟨trials, untried, course, emitted, consumed⟩ := ih
      refine ⟨⟨head, .error failure⟩ :: trials, untried,
        Course.cons (Nat.lt_of_not_le room) failed.symm course, ?_, ?_⟩
      · rw [withFailure, emitted]
        rfl
      · rw [withFailure, consumed, List.length_cons]

end Assembly

/-- All that an answer depends on but the archive. -/
structure Request (World : Type) where
  assistant : Assistant World
  cancelled : World → Bool
  selection : Selection
  client : Client
  writer : ItemWriter
  world : World

namespace Request

variable {World : Type}

def answer (request : Request World) (archive : Archive) : Completion World :=
  request.assistant.complete request.cancelled request.selection request.client request.writer
    archive request.world

def verdicts (request : Request World) : List (Option Verdict) :=
  (request.selection.rankingRequest.aggregate request.cancelled request.assistant.providers
    request.world).1

def ranked (request : Request World) : List Ranked :=
  Ranked.rank request.selection.proposals request.verdicts

def presenter (request : Request World) (archive : Archive) : Presenter :=
  { client := request.client, writer := request.writer, response := archive.nextId }

def defaults (request : Request World) (archive : Archive) : ItemDefaults :=
  (request.presenter archive).defaultsFor request.ranked request.selection.cursorLine?

def present (request : Request World) (archive : Archive) (ranked : Ranked) (index : Nat) :
    Except Failure Item :=
  (request.presenter archive).present ranked index (request.defaults archive)

theorem assembly_answer (request : Request World) (archive : Archive) :
    (request.answer archive).assembly =
      Assembly.fill (request.present archive)
        (min request.selection.limit request.ranked.length) 0 request.ranked := rfl

theorem items_answer (request : Request World) (archive : Archive) :
    (request.answer archive).list.items = (request.answer archive).assembly.items := rfl

theorem isIncomplete_answer (request : Request World) (archive : Archive) :
    (request.answer archive).list.isIncomplete =
      (request.answer archive).assembly.isIncomplete request.ranked.length := rfl

theorem map_proposal_ranked_perm (request : Request World) :
    (request.ranked.map (·.proposal)).Perm request.selection.proposals := by
  have arranged := (Ranked.rank_perm request.selection.proposals request.verdicts).map (·.proposal)
  rwa [Ranked.map_proposal_pair] at arranged

theorem exists_course (request : Request World) (archive : Archive) :
    ∃ trials untried,
      Assembly.Course (request.present archive) request.selection.limit 0 request.ranked trials
        untried ∧
      (request.answer archive).assembly.emitted = Trial.emitted trials ∧
      (request.answer archive).assembly.consumed = trials.length := by
  obtain ⟨trials, untried, course, emitted, consumed⟩ :=
    Assembly.exists_course (request.present archive)
      (min request.selection.limit request.ranked.length) 0 request.ranked
  refine ⟨trials, untried, course.of_min, ?_, ?_⟩
  · rw [assembly_answer, emitted]
  · rw [assembly_answer, consumed]

theorem present_of_emitted {request : Request World} {archive : Archive} {index : Nat}
    {ranked : Ranked} {item : Item}
    (listed : (request.answer archive).assembly.emitted[index]? = some (ranked, item)) :
    request.present archive ranked index = .ok item := by
  obtain ⟨trials, untried, course, emitted, -⟩ := request.exists_course archive
  have presented := course.present_emitted (emitted ▸ listed)
  rwa [Nat.zero_add] at presented

theorem getElem?_items_of_emitted {request : Request World} {archive : Archive} {index : Nat}
    {made : Ranked × Item}
    (listed : (request.answer archive).assembly.emitted[index]? = some made) :
    (request.answer archive).list.items[index]? = some made.2 := by
  rw [items_answer, Assembly.items, List.getElem?_map, listed, Option.map_some]

theorem exists_emitted {request : Request World} {archive : Archive} {index : Nat} {item : Item}
    (found : (request.answer archive).list.items[index]? = some item) :
    ∃ ranked, (request.answer archive).assembly.emitted[index]? = some (ranked, item) ∧
      request.present archive ranked index = .ok item := by
  rw [items_answer, Assembly.items, List.getElem?_map, Option.map_eq_some_iff] at found
  obtain ⟨⟨ranked, made⟩, emitted, same⟩ := found
  cases same
  exact ⟨ranked, emitted, present_of_emitted emitted⟩

theorem length_items_le (request : Request World) (archive : Archive) :
    (request.answer archive).list.items.length ≤ request.selection.limit := by
  obtain ⟨trials, untried, course, emitted, -⟩ := request.exists_course archive
  have within := course.length_emitted_le (Nat.zero_le _)
  rwa [Nat.zero_add, ← emitted, ← List.length_map Prod.snd] at within

theorem emitted_sublist (request : Request World) (archive : Archive) :
    ((request.answer archive).assembly.emitted.map (·.1)).Sublist request.ranked := by
  obtain ⟨trials, untried, course, emitted, -⟩ := request.exists_course archive
  rw [emitted, ← course.covered]
  exact (Trial.emitted_sublist trials).trans (List.sublist_append_left _ untried)

theorem length_ranked (request : Request World) :
    request.ranked.length = request.selection.proposals.length := by
  have lengths := request.map_proposal_ranked_perm.length_eq
  rwa [List.length_map] at lengths

theorem isIncomplete_iff (request : Request World) (archive : Archive) {trials : List Trial}
    {untried : List Ranked}
    (covered : trials.length + untried.length = request.ranked.length)
    (consumed : (request.answer archive).assembly.consumed = trials.length) :
    (request.answer archive).list.isIncomplete = true ↔ untried ≠ [] := by
  rw [isIncomplete_answer, Assembly.isIncomplete, decide_eq_true_iff, consumed,
    ← List.length_pos_iff]
  omega

/-- An answer tries the ranked proposals in order from their start, as long as there is room. Those
with an item, those that failed and those not tried are together the selected ones, each as often as
it was selected. Nothing untried comes strictly before an item of the list, and the list is
incomplete exactly if something is untried. -/
theorem answer_partition (request : Request World) (archive : Archive) :
    let answer := request.answer archive
    let limit := request.selection.limit
    let total := request.selection.proposals.length
    request.ranked.Pairwise (fun left right => left.precedes right) ∧
    ∃ trials untried,
      trials.map (·.ranked) ++ untried = request.ranked ∧
      (∀ front trial back, trials = front ++ trial :: back →
        (Trial.emitted front).length < limit ∧
          trial.outcome =
            request.present archive trial.ranked (Trial.emitted front).length) ∧
      ((Trial.emitted trials).length = limit ∨ untried = []) ∧
      answer.list.items = (Trial.emitted trials).map (·.2) ∧
      (∀ index ranked item, (Trial.emitted trials)[index]? = some (ranked, item) →
        request.present archive ranked index = .ok item) ∧
      (((Trial.emitted trials).map (·.1) ++ Trial.failed trials ++ untried).map
        (·.proposal)).Perm request.selection.proposals ∧
      untried <:+ request.ranked ∧
      (∀ made ∈ Trial.emitted trials, ∀ left ∈ untried,
        SortKey.compare left.key made.1.key ≠ .lt) ∧
      answer.list.items.length ≤ limit ∧
      (answer.list.items.length < limit → untried = []) ∧
      (answer.list.isIncomplete = true ↔ untried ≠ []) ∧
      (Trial.failed trials = [] →
        answer.list.items.length = min total limit ∧
          (answer.list.isIncomplete = true ↔ limit < total)) := by
  intro answer limit total
  obtain ⟨trials, untried, course, emitted, consumed⟩ := request.exists_course archive
  have sorted := Ranked.pairwise_rank request.selection.proposals request.verdicts
  have items : answer.list.items = (Trial.emitted trials).map (·.2) := by
    rw [← emitted]
    rfl
  have itemCount : answer.list.items.length = (Trial.emitted trials).length := by
    rw [items, List.length_map]
  have bounded : (Trial.emitted trials).length ≤ limit := by
    have within := course.length_emitted_le (Nat.zero_le _)
    rwa [Nat.zero_add] at within
  have ended : (Trial.emitted trials).length = limit ∨ untried = [] := by
    rcases course.ended with none | full
    · exact Or.inr none
    · rw [Nat.zero_add] at full
      exact Or.inl (Nat.le_antisymm bounded full)
  have incomplete := request.isIncomplete_iff archive course.length_eq consumed
  refine ⟨sorted, trials, untried, course.covered, ?_, ended, items, ?_, ?_, ?_, ?_, ?_, ?_,
    incomplete, ?_⟩
  · intro front trial back same
    have room := course.room front trial back same
    have made := course.outcome front trial back same
    rw [Nat.zero_add] at room made
    exact ⟨room, made⟩
  · intro index ranked item found
    have made := course.present_emitted found
    rwa [Nat.zero_add] at made
  · have tried := (Trial.emitted_failed_perm trials).append_right untried
    rw [course.covered] at tried
    exact (tried.map (·.proposal)).trans request.map_proposal_ranked_perm
  · exact ⟨trials.map (·.ranked), course.covered⟩
  · intro made member left remains
    have tried : made.1 ∈ trials.map (·.ranked) :=
      (Trial.emitted_sublist trials).subset (List.mem_map_of_mem member)
    have inOrder : (trials.map (·.ranked) ++ untried).Pairwise
        (fun left right => left.precedes right) := course.covered ▸ sorted
    have ahead : made.1.precedes left :=
      (List.pairwise_append.mp inOrder).2.2 made.1 tried left remains
    intro before
    exact (Ranked.not_precedes_iff made.1 left).mpr before ahead
  · rw [itemCount]
    exact bounded
  · intro short
    rw [itemCount] at short
    exact ended.resolve_left (Nat.ne_of_lt short)
  · intro unfailed
    have counts := Trial.length_emitted trials
    have covered := course.length_eq
    rw [unfailed, List.length_nil, Nat.add_zero] at counts
    rw [length_ranked] at covered
    rw [incomplete, itemCount, ← List.length_pos_iff]
    rcases ended with full | none
    · omega
    · rw [none, List.length_nil] at covered
      rw [none, List.length_nil]
      omega

end Request

end ContentAssist
