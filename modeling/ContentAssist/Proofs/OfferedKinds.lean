import ContentAssist.Proofs.Assembly
import ContentAssist.Proofs.Intake.History

/-! The kinds that a list names in the data it shares are those of all proposals that were offered
to the intake, whatever became of them, and nothing else in an answer depends on them. -/

namespace ContentAssist

namespace KindSet

theorem pairwise_toList (kinds : KindSet) :
    kinds.toList.Pairwise fun left right => left.ordinal < right.ordinal := by
  have all : Kind.all.Pairwise fun left right => left.ordinal < right.ordinal := by decide
  exact all.filter _

theorem isEmpty_iff_forall_contains_eq_false (kinds : KindSet) :
    kinds.isEmpty = true ↔ ∀ kind, kinds.contains kind = false := by
  rw [← toList_eq_nil_iff, List.eq_nil_iff_forall_not_mem]
  simp only [mem_toList, Bool.not_eq_true]

end KindSet

namespace Intake

theorem contains_offered_offerAll (intake : Intake) (proposals : List Proposal) (kind : Kind) :
    (intake.offerAll proposals).offered.contains kind = true ↔
      intake.offered.contains kind = true ∨ ∃ proposal ∈ proposals, proposal.kind = kind := by
  induction proposals generalizing intake with
  | nil => simp [offerAll]
  | cons proposal proposals ih =>
      rw [offerAll_cons, ih, offered_offer, KindSet.contains_insert, Bool.or_eq_true, beq_iff_eq,
        List.exists_mem_cons_iff, eq_comm (a := kind), or_left_comm, or_assoc]

theorem contains_offered_run (intake : Intake) (ignored : KindSet) (site : Site)
    (steps : List Step) (kind : Kind) :
    (intake.run steps).offered.contains kind = true ↔
      intake.offered.contains kind = true ∨
        ∃ offer ∈ Offer.made ignored site steps, offer.proposal.kind = kind := by
  induction steps generalizing intake ignored site with
  | nil => simp [run, Offer.made]
  | cons step steps ih =>
      change ((intake.step step).run steps).offered.contains kind = true ↔ _
      cases step with
      | enter entered => exact ih _ ignored entered
      | ignore kinds => exact ih _ kinds site
      | expandWith generator => exact ih _ ignored site
      | offer proposal =>
          rw [ih _ ignored site, Intake.step, offered_offer, KindSet.contains_insert,
            Bool.or_eq_true, beq_iff_eq, Offer.made, List.exists_mem_cons_iff,
            eq_comm (a := kind), or_left_comm, or_assoc]
      | offerAll proposals =>
          rw [ih _ ignored site, Intake.step, contains_offered_offerAll, Offer.made]
          simp only [List.mem_append, List.mem_map, or_and_right, exists_or,
            exists_exists_and_eq_and, or_assoc]

theorem contains_offered_start (unit : SourceUnit) (settings : Settings) (steps : List Step)
    (kind : Kind) :
    ((start unit settings).run steps).offered.contains kind = true ↔
      ∃ offer ∈ Offer.made {} {} steps, offer.proposal.kind = kind := by
  rw [contains_offered_run _ {} {}]
  exact or_iff_right Bool.false_ne_true

theorem isEmpty_offered_start (unit : SourceUnit) (settings : Settings) (steps : List Step) :
    ((start unit settings).run steps).offered.isEmpty = true ↔ Offer.made {} {} steps = [] := by
  rw [KindSet.isEmpty_iff_forall_contains_eq_false, List.eq_nil_iff_forall_not_mem]
  simp only [← Bool.not_eq_true, contains_offered_start]
  constructor
  · intro none offer made
    exact none _ ⟨offer, made, rfl⟩
  · intro none kind ⟨offer, made, _⟩
    exact none offer made

end Intake

namespace ItemDefaults

theorem exists_recordKinds (defaults : ItemDefaults) (kinds : KindSet) :
    ∃ data, defaults.recordKinds kinds = { defaults with data } := by
  unfold recordKinds
  split
  next => exact ⟨defaults.data, rfl⟩
  next => exact ⟨_, rfl⟩

theorem recordKinds_of_ne_empty {kinds : KindSet} (filled : kinds.isEmpty = false)
    (defaults : ItemDefaults) :
    defaults.recordKinds kinds =
      { defaults with data := some (dataWithKinds kinds defaults.data) } := by
  rw [recordKinds, filled]
  rfl

theorem exists_dataWithKinds (kinds : KindSet) (data : Option Json) :
    ∃ members, dataWithKinds kinds data = .object members ∧
      Json.lookup kindsKey members = some (kindsJson kinds) ∧
      ∀ key, key ≠ kindsKey → Json.lookup key members = data.bind (·.member? key) := by
  have own := member?_dataWithKinds_self kinds data
  unfold dataWithKinds at own ⊢
  split at own
  next members => exact ⟨_, rfl, own, fun key other => Json.lookup_assign_of_ne other _ _⟩
  next noObject =>
      refine ⟨_, rfl, own, fun key other => ?_⟩
      rw [Json.lookup, if_neg other.symm, Json.lookup]
      cases data with
      | none => rfl
      | some value =>
          cases value with
          | object members => exact absurd rfl (noObject members)
          | _ => rfl

theorem foldl_recordKinds_filter (defaults : ItemDefaults) (sets : List KindSet) :
    (sets.filter fun kinds => !kinds.isEmpty).foldl recordKinds defaults =
      sets.foldl recordKinds defaults := by
  rw [List.foldl_filter]
  congr
  funext defaults kinds
  cases empty : kinds.isEmpty with
  | true => exact (recordKinds_of_isEmpty empty defaults).symm
  | false => rfl

theorem exists_foldl_recordKinds_concat (defaults : ItemDefaults) {sets : List KindSet}
    (filled : ∀ kinds ∈ sets, kinds.isEmpty = false) {kinds : KindSet}
    (last : kinds.isEmpty = false) :
    ∃ members,
      (sets ++ [kinds]).foldl recordKinds defaults =
        { defaults with data := some (.object members) } ∧
      Json.lookup kindsKey members = some (kindsJson kinds) ∧
      ∀ key, key ≠ kindsKey → Json.lookup key members = defaults.data.bind (·.member? key) := by
  induction sets using List.reverseRecOn generalizing kinds with
  | nil =>
      obtain ⟨members, object, own, others⟩ := exists_dataWithKinds kinds defaults.data
      refine ⟨members, ?_, own, others⟩
      rw [List.nil_append, List.foldl_cons, List.foldl_nil, recordKinds_of_ne_empty last, object]
  | append_singleton sets before ih =>
      obtain ⟨earlier, recorded, -, kept⟩ :=
        ih (fun other member => filled other (List.mem_append_left _ member))
          (filled before (List.mem_append_right _ List.mem_cons_self))
      obtain ⟨members, object, own, others⟩ := exists_dataWithKinds kinds (some (.object earlier))
      refine ⟨members, ?_, own, fun key other => (others key other).trans (kept key other)⟩
      rw [List.foldl_append, recorded, List.foldl_cons, List.foldl_nil,
        recordKinds_of_ne_empty last, object]

theorem foldl_recordKinds (defaults : ItemDefaults) (sets : List KindSet) :
    let recorded := sets.foldl recordKinds defaults
    let filled := sets.filter fun kinds => !kinds.isEmpty
    (filled = [] → recorded = defaults) ∧
    ∀ kinds, filled.getLast? = some kinds →
      ∃ members, recorded = { defaults with data := some (.object members) } ∧
        Json.lookup kindsKey members = some (kindsJson kinds) ∧
        ∀ key, key ≠ kindsKey →
          Json.lookup key members = defaults.data.bind (·.member? key) := by
  intro recorded filled
  have same : recorded = filled.foldl recordKinds defaults :=
    (foldl_recordKinds_filter defaults sets).symm
  have nonempty : ∀ kinds ∈ filled, kinds.isEmpty = false := by
    intro kinds member
    have passed := (List.mem_filter.mp member).2
    rwa [Bool.not_eq_true'] at passed
  constructor
  · intro none
    rw [same, none, List.foldl_nil]
  · intro kinds last
    obtain ⟨front, split⟩ := List.getLast?_eq_some_iff.mp last
    rw [same, split]
    rw [split] at nonempty
    exact exists_foldl_recordKinds_concat defaults
      (fun other member => nonempty other (List.mem_append_left _ member))
      (nonempty kinds (List.mem_append_right _ List.mem_cons_self))

end ItemDefaults

theorem Presenter.data_seedDefaults (presenter : Presenter) (first : Proposal)
    (cursorLine : Option UInt32) : (presenter.seedDefaults first cursorLine).data = none := by
  unfold seedDefaults
  dsimp only
  split
  next => rfl
  next => split <;> rfl

namespace Request

variable {World : Type}

theorem data_defaults (request : Request World) (archive : Archive) :
    (request.defaults archive).data = none := by
  unfold defaults Presenter.defaultsFor
  cases request.ranked with
  | nil => rfl
  | cons first later => exact Presenter.data_seedDefaults _ first.proposal _

theorem defaults_answer (request : Request World) (archive : Archive) :
    (request.answer archive).list.defaults =
      (request.defaults archive).recordKinds request.selection.offered := rfl

theorem data_answer (request : Request World) (archive : Archive) :
    (request.answer archive).list.defaults.data =
      if request.selection.offered.isEmpty then none
      else some (.object
        [(ItemDefaults.kindsKey, ItemDefaults.kindsJson request.selection.offered)]) := by
  rw [defaults_answer]
  split
  next empty => rw [ItemDefaults.recordKinds_of_isEmpty empty, data_defaults]
  next filled =>
      rw [ItemDefaults.recordKinds_of_ne_empty (Bool.eq_false_iff.mpr filled), data_defaults]
      rfl

/-- Kinds are recorded in the shared data and tell on nothing else in an answer. -/
theorem answer_withOffered (request : Request World) (archive : Archive) (offered : KindSet) :
    let answer := request.answer archive
    let other : Request World :=
      { request with selection := { request.selection with offered } }
    other.answer archive =
      { answer with
        list := { answer.list with
          defaults := { answer.list.defaults with
            data := (other.answer archive).list.defaults.data } } } := by
  intro answer other
  obtain ⟨data, same⟩ :=
    (request.defaults archive).exists_recordKinds request.selection.offered
  obtain ⟨data', same'⟩ := (request.defaults archive).exists_recordKinds offered
  have list : answer.list.defaults = { request.defaults archive with data } := same
  have list' : (other.answer archive).list.defaults =
      { request.defaults archive with data := data' } := same'
  have reduced : other.answer archive =
      { answer with list := { answer.list with
          defaults := (other.answer archive).list.defaults } } := rfl
  rw [reduced, list, list']

end Request

/-- The data of a list is there exactly if something was offered to the intake. It then is an object
which names the kinds of all offers, dropped ones included, in ascending order and each once, and
with other kinds the answer would be the same in all but this. Of sets of kinds recorded one after
the other, the last that is not empty stays, with all other members of shared data. -/
theorem advertised_kinds {World : Type} (assistant : Assistant World)
    (cancelled : World → Bool) (unit : SourceUnit) (settings : Settings)
    (steps : List Intake.Step) (client : Client) (writer : ItemWriter) (archive : Archive)
    (world : World) :
    let offers := Offer.made {} {} steps
    let selection := ((Intake.start unit settings).run steps).finish
    let request : Request World := { assistant, cancelled, selection, client, writer, world }
    let answer := request.answer archive
    (answer.list.defaults.data = none ↔ offers = []) ∧
    (offers ≠ [] → ∃ kinds : List Kind,
      answer.list.defaults.data =
        some (.object [("completionKinds", .array (kinds.map fun kind => .ofNat kind.ordinal))]) ∧
      (kinds.Pairwise fun left right => left.ordinal < right.ordinal) ∧
      ∀ kind, kind ∈ kinds ↔ ∃ offer ∈ offers, offer.proposal.kind = kind) ∧
    (∀ offered : KindSet,
      let other : Request World := { request with selection := { selection with offered } }
      other.answer archive =
        { answer with
          list := { answer.list with
            defaults := { answer.list.defaults with
              data := (other.answer archive).list.defaults.data } } }) ∧
    ∀ (start : ItemDefaults) (sets : List KindSet),
      let recorded := sets.foldl ItemDefaults.recordKinds start
      let filled := sets.filter fun kinds => !kinds.isEmpty
      (filled = [] → recorded = start) ∧
      ∀ kinds, filled.getLast? = some kinds →
        ∃ members, recorded = { start with data := some (.object members) } ∧
          Json.lookup "completionKinds" members =
            some (.array (kinds.toList.map fun kind => .ofNat kind.ordinal)) ∧
          ∀ key, key ≠ "completionKinds" →
            Json.lookup key members = start.data.bind (·.member? key) := by
  intro offers selection request answer
  have offered : selection.offered.isEmpty = true ↔ offers = [] :=
    Intake.isEmpty_offered_start unit settings steps
  have data := request.data_answer archive
  refine ⟨?_, fun made => ?_, request.answer_withOffered archive,
    ItemDefaults.foldl_recordKinds⟩
  · rw [← offered]
    refine data ▸ ?_
    split
    next empty => exact iff_of_true rfl empty
    next filled => exact iff_of_false nofun filled
  · have filled : ¬ request.selection.offered.isEmpty = true := fun empty =>
      made (offered.mp empty)
    rw [if_neg filled] at data
    refine ⟨selection.offered.toList, data, selection.offered.pairwise_toList, fun kind => ?_⟩
    rw [KindSet.mem_toList]
    exact Intake.contains_offered_start unit settings steps kind

end ContentAssist
