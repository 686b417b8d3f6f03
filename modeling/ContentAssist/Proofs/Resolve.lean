import ContentAssist.Proofs.Assembly
import ContentAssist.Proofs.Presentation
import ContentAssist.Proofs.Ranking.Consultation

/-! An item of the latest answer is traced back to the proposal it was made of, and an item of an
earlier answer to none. -/

namespace ContentAssist

structure ItemWriter.KeepsData (writer : ItemWriter) : Prop where
  describe : ∀ proposal item described,
    writer.describe proposal item = .ok described → described.data = item.data
  place : ∀ proposal item placed,
    writer.place proposal item = .ok placed → placed.data = item.data

namespace Presenter

theorem data_blankItem (presenter : Presenter) (proposal : Proposal) (index : Nat) :
    (presenter.blankItem proposal index).data =
      some (ResolveKey.toJson { response := presenter.response, index }) := by
  unfold blankItem markDeprecated
  dsimp only
  split
  · split <;> rfl
  · rfl

theorem data_write {presenter : Presenter} (keeps : presenter.writer.KeepsData)
    {ranked : Ranked} {index : Nat} {item : Item}
    (written : presenter.write ranked index = .ok item) :
    item.data = some (ResolveKey.toJson { response := presenter.response, index }) := by
  unfold write at written
  split at written
  next => cases written
  next described wrote =>
      have kept := keeps.describe _ _ _ wrote
      have placed := keeps.place _ _ _ written
      rw [placed]
      exact kept.trans (presenter.data_blankItem ranked.proposal index)

theorem data_present {presenter : Presenter} (keeps : presenter.writer.KeepsData)
    {ranked : Ranked} {index : Nat} {defaults : ItemDefaults} {item : Item}
    (presented : presenter.present ranked index defaults = .ok item) :
    item.data = some (ResolveKey.toJson { response := presenter.response, index }) := by
  obtain ⟨written, _, _, _, _, _, wrote, same⟩ := exists_written presented
  rw [same]
  exact (data_write keeps wrote :)

end Presenter

theorem Response.foldl_pushEmitted (response : Response) (emitted : List (Ranked × Item)) :
    emitted.foldl .pushEmitted response =
      { response with
        proposals := response.proposals ++ (emitted.map (·.1.proposal)).toArray
        items := response.items ++ (emitted.map (·.2)).toArray
        notes := response.notes ++
          (emitted.map fun made => made.1.verdict.map (·.notes)).toArray } := by
  induction emitted generalizing response with
  | nil => simp
  | cons made emitted ih => simp [ih, pushEmitted, push]

namespace Request

variable {World : Type}

def filed (request : Request World) (archive : Archive) : Response :=
  (request.answer archive).assembly.emitted.foldl .pushEmitted
    (archive.clear.newResponse request.selection.site.offset request.selection.site
      request.selection.unit.uri).1

theorem id_filed (request : Request World) (archive : Archive) :
    (request.filed archive).id = archive.nextId := by
  rw [filed, Response.foldl_pushEmitted]
  rfl

theorem proposals_filed (request : Request World) (archive : Archive) :
    (request.filed archive).proposals.toList =
      (request.answer archive).assembly.emitted.map (·.1.proposal) := by
  rw [filed, Response.foldl_pushEmitted, Array.toList_append]
  rfl

theorem items_filed (request : Request World) (archive : Archive) :
    (request.filed archive).items.toList = (request.answer archive).list.items := by
  rw [filed, Response.foldl_pushEmitted, Array.toList_append]
  rfl

theorem notes_filed (request : Request World) (archive : Archive) :
    (request.filed archive).notes.toList =
      (request.answer archive).assembly.emitted.map fun made => made.1.verdict.map (·.notes) := by
  rw [filed, Response.foldl_pushEmitted, Array.toList_append]
  rfl

theorem getElem?_proposals_filed {request : Request World} {archive : Archive} {index : Nat}
    {made : Ranked × Item}
    (found : (request.answer archive).assembly.emitted[index]? = some made) :
    (request.filed archive).proposals[index]? = some made.1.proposal := by
  rw [← Array.getElem?_toList, proposals_filed, List.getElem?_map, found, Option.map_some]

theorem getElem?_notes_filed {request : Request World} {archive : Archive} {index : Nat}
    {made : Ranked × Item}
    (found : (request.answer archive).assembly.emitted[index]? = some made) :
    (request.filed archive).notes[index]? = some (made.1.verdict.map (·.notes)) := by
  rw [← Array.getElem?_toList, notes_filed, List.getElem?_map, found, Option.map_some]

theorem size_items_filed (request : Request World) (archive : Archive) :
    (request.filed archive).items.size = (request.answer archive).assembly.emitted.length := by
  rw [← Array.length_toList, items_filed]
  exact List.length_map _

theorem size_proposals_filed (request : Request World) (archive : Archive) :
    (request.filed archive).proposals.size = (request.filed archive).items.size := by
  rw [size_items_filed, ← Array.length_toList, proposals_filed, List.length_map]

theorem size_notes_filed (request : Request World) (archive : Archive) :
    (request.filed archive).notes.size = (request.filed archive).items.size := by
  rw [size_items_filed, ← Array.length_toList, notes_filed, List.length_map]

theorem get?_answer (request : Request World) (archive : Archive) (id : UInt64) :
    (request.answer archive).archive.get? id =
      if archive.nextId = id then some (request.filed archive) else none := by
  have opened : (request.answer archive).archive =
      (archive.clear.newResponse request.selection.site.offset request.selection.site
        request.selection.unit.uri).2.file (request.filed archive) := rfl
  rw [opened, Archive.get?_file, id_filed]
  exact congrArg (ite _ _) (archive.get?_clear id)

theorem size_answer (request : Request World) (archive : Archive) :
    (request.answer archive).archive.size = 1 :=
  archive.size_file_clear (request.filed archive)

/-- The answers with one slot for each proposal, in the order of the calls. -/
def Hears (request : Request World) (fitting : List Slots) : Prop :=
  ∃ calls skipped,
    RankingRequest.Consultation request.selection.rankingRequest request.cancelled request.world
      request.assistant.providers calls skipped ∧
    fitting =
      (calls.filterMap (·.answer)).filter (·.length = request.selection.proposals.length)

theorem hears_iff {request : Request World} {fitting : List Slots} :
    request.Hears fitting ↔
      fitting = RankingRequest.usable request.selection.proposals.length
        (request.selection.rankingRequest.consult request.cancelled request.assistant.providers
          request.world).1 := by
  constructor
  · intro ⟨calls, skipped, consultation, same⟩
    rw [consultation.usable_consult]
    exact same
  · intro same
    obtain ⟨calls, skipped, consultation⟩ := RankingRequest.exists_consultation
      request.selection.rankingRequest request.cancelled request.assistant.providers request.world
    refine ⟨calls, skipped, consultation, ?_⟩
    rw [same, consultation.usable_consult]

theorem exists_hears (request : Request World) : ∃ fitting, request.Hears fitting :=
  ⟨_, hears_iff.mpr rfl⟩

namespace Hears

variable {request : Request World} {fitting : List Slots}

theorem length_eq (heard : request.Hears fitting) :
    ∀ slots ∈ fitting, slots.length = request.selection.proposals.length := by
  obtain ⟨_, _, _, same⟩ := heard
  intro slots member
  rw [same] at member
  exact of_decide_eq_true (List.mem_filter.mp member).2

theorem noted_eq_none_iff (heard : request.Hears fitting) {place : Nat}
    (inside : place < request.selection.proposals.length) :
    Verdict.noted (RankingRequest.opinionsAt fitting place) = none ↔
      ∀ slots ∈ fitting, slots[place]? = some none := by
  rw [Verdict.noted_eq_none_iff]
  exact RankingRequest.opinionsAt_eq_nil_iff inside heard.length_eq

theorem map_notes_verdicts (heard : request.Hears fitting) {place : Nat}
    (inside : place < request.selection.proposals.length) :
    request.verdicts[place]?.join.map (·.notes) =
      Verdict.noted (RankingRequest.opinionsAt fitting place) := by
  have given : request.verdicts =
      RankingRequest.verdicts request.selection.proposals.length fitting := by
    rw [hears_iff.mp heard]
    rfl
  rw [given, RankingRequest.getElem?_verdicts inside heard.length_eq, Option.join_some,
    Verdict.map_notes_ofOpinions]

end Hears

theorem exists_places (request : Request World) (archive : Archive) :
    ∃ places : List Nat, places.Nodup ∧
      places.length = (request.answer archive).assembly.emitted.length ∧
      ∀ index place : Nat, places[index]? = some place → ∃ made : Ranked × Item,
        (request.answer archive).assembly.emitted[index]? = some made ∧
        (made.1, place) ∈ Ranked.arrange request.selection.proposals request.verdicts := by
  have kept := request.emitted_sublist archive
  rw [ranked, Ranked.rank, List.sublist_map_iff] at kept
  obtain ⟨chosen, inOrder, same⟩ := kept
  have lengths := congrArg List.length same
  rw [List.length_map, List.length_map] at lengths
  refine ⟨chosen.map (·.2), ?_, ?_, ?_⟩
  · exact (Ranked.places_arrange_nodup _ _).sublist (inOrder.map _)
  · rw [List.length_map, lengths]
  · intro index place found
    rw [List.getElem?_map, Option.map_eq_some_iff] at found
    obtain ⟨entry, found, placed⟩ := found
    have ranked := congrArg (·[index]?) same
    simp only [List.getElem?_map, found, Option.map_some, Option.map_eq_some_iff] at ranked
    obtain ⟨made, isMade, proposal⟩ := ranked
    refine ⟨made, isMade, ?_⟩
    rw [proposal, ← placed]
    exact inOrder.subset (List.mem_of_getElem? found)

end Request

/-- An answer is given, or a response takes a number and is filed in another archive. -/
inductive Event (World : Type) where
  | call (request : Request World)
  | elsewhere (offset : Nat) (site : Site) (uri : String)

structure Call (World : Type) where
  request : Request World
  before : Archive

variable {World : Type}

def Call.answer (call : Call World) : Completion World :=
  call.request.answer call.before

namespace Archive

def after (archive : Archive) : Event World → Archive
  | .call request => (request.answer archive).archive
  | .elsewhere offset site uri => (archive.newResponse offset site uri).2

def afterAll (archive : Archive) (events : List (Event World)) : Archive :=
  events.foldl after archive

theorem afterAll_cons (archive : Archive) (event : Event World) (events : List (Event World)) :
    archive.afterAll (event :: events) = (archive.after event).afterAll events := rfl

def calls (archive : Archive) : List (Event World) → List (Call World)
  | [] => []
  | .call request :: events => ⟨request, archive⟩ :: calls (archive.after (.call request)) events
  | .elsewhere offset site uri :: events => calls (archive.newResponse offset site uri).2 events

/-- None of the next `count` numbers is this one. -/
def Spares (archive : Archive) (id : UInt64) (count : Nat) : Prop :=
  ∀ step < count, archive.nextId + UInt64.ofNat step ≠ id

theorem nextId_after (archive : Archive) (event : Event World) :
    (archive.after event).nextId = archive.nextId + 1 := by
  cases event <;> rfl

theorem Spares.nextId_ne {archive : Archive} {id : UInt64} {count : Nat}
    (spares : archive.Spares id (count + 1)) : archive.nextId ≠ id := by
  have first := spares 0 (Nat.succ_pos count)
  simpa using first

theorem Spares.after {archive : Archive} {id : UInt64} {count : Nat}
    (spares : archive.Spares id (count + 1)) (event : Event World) :
    (archive.after event).Spares id count := by
  intro step early
  have later := spares (step + 1) (Nat.succ_lt_succ early)
  rw [nextId_after, UInt64.add_assoc, UInt64.add_comm 1]
  simpa using later

/-- Only after 2^64 responses would the number come back. -/
theorem spares_given (archive : Archive) (event : Event World) {count : Nat}
    (few : count < UInt64.size) : (archive.after event).Spares archive.nextId count := by
  intro step early same
  rw [nextId_after] at same
  have numbers := congrArg UInt64.toNat same
  simp only [UInt64.toNat_add, UInt64.toNat_ofNat', UInt64.toNat_one] at numbers
  have small := archive.nextId.toNat_lt_size
  rw [UInt64.size] at few small
  omega

theorem get?_afterAll_of_calls_eq_nil {archive : Archive} {events : List (Event World)}
    (none : archive.calls events = []) (id : UInt64) :
    (archive.afterAll events).get? id = archive.get? id := by
  induction events generalizing archive with
  | nil => rfl
  | cons event events ih =>
      cases event with
      | call request => cases none
      | elsewhere offset site uri => exact ih none

theorem get?_afterAll_of_calls_ne_nil {archive : Archive} {events : List (Event World)}
    {id : UInt64} (spares : archive.Spares id events.length) (called : archive.calls events ≠ []) :
    (archive.afterAll events).get? id = none := by
  induction events generalizing archive with
  | nil => exact absurd rfl called
  | cons event events ih =>
      have later := spares.after event
      by_cases more : (archive.after event).calls events = []
      · cases event with
        | call request =>
            have gone := request.get?_answer archive id
            rw [if_neg spares.nextId_ne] at gone
            exact (get?_afterAll_of_calls_eq_nil more id).trans gone
        | elsewhere offset site uri => exact absurd more called
      · exact ih later more

theorem call_mem_of_mem_calls {archive : Archive} {events : List (Event World)}
    {call : Call World} (member : call ∈ archive.calls events) :
    .call call.request ∈ events := by
  induction events generalizing archive with
  | nil => cases member
  | cons event events ih =>
      cases event with
      | call request =>
          rcases List.mem_cons.mp member with same | later
          · subst same
            exact List.mem_cons_self
          · exact List.mem_cons_of_mem _ (ih later)
      | elsewhere offset site uri => exact List.mem_cons_of_mem _ (ih member)

/-- After a run, the number of the last call leads to its response, and any earlier one nowhere. -/
theorem get?_afterAll_call {archive : Archive} {events : List (Event World)}
    (few : events.length < UInt64.size) {position : Nat} {call : Call World}
    (found : (archive.calls events)[position]? = some call) :
    (archive.afterAll events).get? call.before.nextId =
      if position + 1 = (archive.calls events).length then
        some (call.request.filed call.before)
      else none := by
  induction events generalizing archive position with
  | nil => cases found
  | cons event events ih =>
      have fewer : events.length < UInt64.size := Nat.lt_of_succ_lt few
      cases event with
      | elsewhere offset site uri => exact ih fewer found
      | call request =>
          cases position with
          | succ position =>
              rw [afterAll_cons, ih fewer found, calls, List.length_cons]
              simp only [Nat.add_right_cancel_iff]
          | zero =>
              cases found
              have spares := archive.spares_given (.call request) fewer
              rw [afterAll_cons]
              by_cases more : (archive.after (.call request)).calls events = []
              · rw [calls, more, List.length_singleton, if_pos (by rfl)]
                have kept := get?_afterAll_of_calls_eq_nil more archive.nextId
                have filed := request.get?_answer archive archive.nextId
                rw [if_pos rfl] at filed
                exact kept.trans filed
              · have longer : 0 + 1 ≠ (archive.calls (.call request :: events)).length := by
                  have some := List.length_pos_iff.mpr more
                  rw [calls, List.length_cons]
                  omega
                rw [if_neg longer]
                exact get?_afterAll_of_calls_ne_nil spares more

/-- Whatever answers are given from one archive, the key of an item leads back to its
proposal as long as no later answer is given, and after that to none. After each answer
the archive holds its response only, and keeps with every item its proposal and what the
providers noted at the place of that proposal in the selection. -/
theorem resolve_afterAll (archive : Archive) (events : List (Event World))
    (few : events.length < UInt64.size)
    (keeps : ∀ request, .call request ∈ events → request.writer.KeepsData) :
    (∀ (position index : Nat) (call : Call World) (item : Item),
      (archive.calls events)[position]? = some call →
      call.answer.list.items[index]? = some item →
      ∃ ranked key,
        call.answer.assembly.emitted[index]? = some (ranked, item) ∧
        call.request.present call.before ranked index = .ok item ∧
        item.data.bind ResolveKey.ofJson? = some key ∧
        (archive.afterAll events).proposal? key.response key.index =
          if position + 1 = (archive.calls events).length then some ranked.proposal
          else none) ∧
    ∀ call ∈ archive.calls events,
      call.answer.archive.size = 1 ∧
      ∃ (response : Response) (places : List Nat) (fitting : List Slots),
        call.request.Hears fitting ∧
        call.answer.archive.get? response.id = some response ∧
        response.items.toList = call.answer.list.items ∧
        response.proposals.size = response.items.size ∧
        response.notes.size = response.items.size ∧
        places.Nodup ∧ places.length = response.items.size ∧
        ∀ index place : Nat, places[index]? = some place →
          (∃ ranked item,
            call.answer.assembly.emitted[index]? = some (ranked, item) ∧
            call.request.selection.proposals[place]? = some ranked.proposal ∧
            response.proposals[index]? = some ranked.proposal) ∧
          response.notes[index]? =
            some (Verdict.noted (RankingRequest.opinionsAt fitting place)) ∧
          (Verdict.noted (RankingRequest.opinionsAt fitting place) = none ↔
            ∀ slots ∈ fitting, slots[place]? = some none) := by
  constructor
  · intro position index call item isCall isItem
    obtain ⟨ranked, emitted, presented⟩ := Request.exists_emitted isItem
    have kept : call.request.writer.KeepsData :=
      keeps _ (call_mem_of_mem_calls (List.mem_of_getElem? isCall))
    have data := Presenter.data_present kept presented
    refine ⟨ranked, ⟨call.before.nextId, index⟩, emitted, presented, ?_, ?_⟩
    · rw [data, Option.bind_some]
      exact ResolveKey.ofJson?_toJson _
    · rw [proposal?, get?_afterAll_call few isCall]
      by_cases last : position + 1 = (archive.calls events).length
      · rw [if_pos last, if_pos last, Option.bind_some]
        exact Request.getElem?_proposals_filed emitted
      · rw [if_neg last, if_neg last, Option.bind_none]
  · intro call _
    obtain ⟨places, distinct, placed, origin⟩ := call.request.exists_places call.before
    obtain ⟨fitting, heard⟩ := call.request.exists_hears
    refine ⟨call.request.size_answer call.before, call.request.filed call.before, places, fitting,
      heard, ?_, call.request.items_filed call.before,
      call.request.size_proposals_filed call.before, call.request.size_notes_filed call.before,
      distinct, ?_, ?_⟩
    · have stored := call.request.get?_answer call.before call.before.nextId
      rw [if_pos rfl] at stored
      rw [Request.id_filed]
      exact stored
    · rw [placed, Request.size_items_filed]
    · intro index place found
      obtain ⟨made, emitted, arranged⟩ := origin index place found
      obtain ⟨selected, verdict⟩ := Ranked.of_mem_arrange arranged
      have inside : place < call.request.selection.proposals.length :=
        (List.getElem?_eq_some_iff.mp selected).1
      refine ⟨⟨made.1, made.2, emitted, selected, Request.getElem?_proposals_filed emitted⟩, ?_,
        heard.noted_eq_none_iff inside⟩
      rw [Request.getElem?_notes_filed emitted, verdict, heard.map_notes_verdicts inside]

/-! A method that cannot be placed and a field after it, each with a note on what it inserts. -/

def unplacedMethod : Proposal :=
  { kind := .methodRef, completion := "add()", relevance := 2 }

def placedField (text : String) : Proposal :=
  { kind := .fieldRef, completion := text, relevance := 1 }

def insertsNote (text : String) : Notes :=
  (∅ : Notes).insert "inserts" text

def methodAndField (text : String) : Request Unit :=
  { assistant :=
      { providers := [fun asked world =>
          (some (asked.proposals.map fun proposal =>
            some { notes := some (insertsNote proposal.completion) }), world)] }
    cancelled := fun _ => false
    selection :=
      { unit :=
          { uri := "file:///A.java"
            enclosingTypeAt := fun _ => .ok none
            positionAt := fun _ => .ok ⟨0, 0⟩ }
        site := {}
        proposals := [unplacedMethod, placedField text]
        offered := {}
        limit := 5 }
    client := {}
    writer :=
      { describe := fun proposal item => .ok { item with label := proposal.completion }
        methodDescription := fun _ => ""
        place := fun proposal item =>
          if proposal.kind = .methodRef then .error ⟨"no place"⟩ else .ok item }
    world := () }

theorem keepsData_methodAndField (text : String) : (methodAndField text).writer.KeepsData := by
  constructor
  · rintro _ item described ⟨⟩
    rfl
  · intro proposal item placed wrote
    simp only [methodAndField] at wrote
    split at wrote
    · cases wrote
    · cases wrote
      rfl

theorem emitted_methodAndField (text : String) (before : Archive) :
    ∃ verdict item,
      ((methodAndField text).answer before).assembly.emitted =
        [(⟨placedField text, verdict⟩, item)] ∧
      ((methodAndField text).answer before).list.items = [item] := by
  obtain ⟨first, second, score, score', given⟩ : ∃ first second : Verdict,
      first.score = 0 ∧ second.score = 0 ∧
        Ranked.pair (methodAndField text).selection.proposals (methodAndField text).verdicts =
          [⟨unplacedMethod, some first⟩, ⟨placedField text, some second⟩] :=
    ⟨_, _, rfl, rfl, rfl⟩
  have ahead : Ranked.precedes ⟨unplacedMethod, some first⟩ ⟨placedField text, some second⟩ := by
    simp only [Ranked.precedes, Ranked.key, Ranked.relevance, Ranked.score, score, score']
    rfl
  have ranked : (methodAndField text).ranked =
      [⟨unplacedMethod, some first⟩, ⟨placedField text, some second⟩] := by
    rw [Request.ranked, Ranked.rank, Ranked.arrange, given, List.mergeSort_of_pairwise]
    · rfl
    · exact List.pairwise_pair.mpr ahead
  obtain ⟨failure, failed⟩ : ∃ failure,
      (methodAndField text).present before ⟨unplacedMethod, some first⟩ 0 = .error failure :=
    ⟨_, rfl⟩
  obtain ⟨item, presented⟩ : ∃ item,
      (methodAndField text).present before ⟨placedField text, some second⟩ 0 = .ok item :=
    ⟨_, rfl⟩
  have emitted : ((methodAndField text).answer before).assembly.emitted =
      [(⟨placedField text, some second⟩, item)] := by
    rw [Request.assembly_answer, ranked, List.length_cons, List.length_singleton]
    simp only [Assembly.fill, failed, presented]
    rfl
  refine ⟨some second, item, emitted, ?_⟩
  rw [Request.items_answer, Assembly.items, emitted, List.map_singleton]

theorem noted_methodAndField {text : String} {fitting : List Slots}
    (heard : (methodAndField text).Hears fitting) :
    Verdict.noted (RankingRequest.opinionsAt fitting 1) = some (insertsNote text) := by
  have alone : (∅ : Notes) ∪ insertsNote text = insertsNote text := by
    apply Std.ExtTreeMap.ext_getElem?
    intro key
    rw [Std.ExtTreeMap.getElem?_union, Std.ExtTreeMap.getElem?_empty, Option.or_none]
  rw [Request.hears_iff.mp heard]
  exact congrArg some alone

/-- Both answers have an item at index 0, made of the proposal at place 1. That of the first is not
mistaken for that of the second, and the note kept with it is the one on that proposal. -/
theorem resolve_afterAll_superseded :
    let events : List (Event Unit) :=
      [.call (methodAndField "size"), .elsewhere 0 {} "file:///B.java",
        .call (methodAndField "length")]
    let archive : Archive := {}
    events.length < UInt64.size ∧
    (∀ request, .call request ∈ events → request.writer.KeepsData) ∧
    ∃ first second item item' key key' response,
      archive.calls events = [first, second] ∧
      first.answer.list.items = [item] ∧ second.answer.list.items = [item'] ∧
      item.data.bind ResolveKey.ofJson? = some key ∧
      item'.data.bind ResolveKey.ofJson? = some key' ∧
      (archive.afterAll events).proposal? key.response key.index = none ∧
      (archive.afterAll events).proposal? key'.response key'.index =
        some (placedField "length") ∧
      second.answer.archive.get? response.id = some response ∧
      response.items.toList = [item'] ∧
      response.notes[0]? = some (some (insertsNote "length")) := by
  intro events archive
  have few : events.length < UInt64.size := by decide
  have keeps : ∀ request, .call request ∈ events → request.writer.KeepsData := by
    intro request member
    simp only [events, List.mem_cons, Event.call.injEq, reduceCtorEq, List.not_mem_nil,
      or_false, false_or] at member
    rcases member with first | second
    · rw [first]
      exact keepsData_methodAndField "size"
    · rw [second]
      exact keepsData_methodAndField "length"
  obtain ⟨resolved, filed⟩ := resolve_afterAll archive events few keeps
  let first : Call Unit := ⟨methodAndField "size", archive⟩
  let second : Call Unit := ⟨methodAndField "length", archive.afterAll (events.take 2)⟩
  obtain ⟨_, item, -, listed⟩ := emitted_methodAndField "size" first.before
  obtain ⟨verdict, item', emitted, listed'⟩ := emitted_methodAndField "length" second.before
  obtain ⟨_, key, -, -, decoded, nowhere⟩ :=
    resolved 0 0 first item rfl (congrArg (·[0]?) listed)
  obtain ⟨_, key', made, -, decoded', found⟩ :=
    resolved 1 0 second item' rfl (congrArg (·[0]?) listed')
  rw [Call.answer, emitted] at made
  cases made
  obtain ⟨-, response, places, fitting, heard, kept, items, -, -, -, placed, aligned⟩ :=
    filed second (List.mem_cons_of_mem _ List.mem_cons_self)
  have single : response.items.toList = [item'] := items.trans listed'
  obtain ⟨place, only⟩ : ∃ place, places = [place] := by
    rw [← Array.length_toList, single] at placed
    exact List.length_eq_one_iff.mp placed
  obtain ⟨⟨_, _, made, selected, -⟩, notes, -⟩ := aligned 0 place (congrArg (·[0]?) only)
  rw [Call.answer, emitted] at made
  cases made
  have atOne : place = 1 := by
    cases place with
    | zero => cases selected
    | succ place =>
        cases place with
        | zero => rfl
        | succ place => cases selected
  have noted : response.notes[0]? = some (some (insertsNote "length")) := by
    rw [notes, atOne, noted_methodAndField heard]
  exact ⟨few, keeps, first, second, item, item', key, key', response, rfl, listed, listed',
    decoded, decoded', nowhere, found, kept, single, noted⟩

end Archive

end ContentAssist
