import ContentAssist.Proofs.Assembly
import ContentAssist.Proofs.Presentation
import ContentAssist.Proofs.Text.Decimal
import Mathlib

/-! The sort texts of a list stand in its order: relevance never rises from one item to the next,
and among items of one relevance the index decides. -/

namespace ContentAssist

open Text (units)

theorem units_sortText (relevance : Int32) (index : Nat) :
    units (sortText relevance index).toList =
      units (Text.Decimal.padded 10 (maxRelevance - relevance.toInt).toNat) ++
        units (Text.Decimal.padded 5 index) := by
  rw [sortText, String.toList_ofList, sortTextChars, Text.units_append]

theorem distance_lt (relevance : Int32) :
    (maxRelevance - relevance.toInt).toNat < 10 ^ 10 := by
  have low := relevance.le_toInt
  rw [maxRelevance]
  omega

theorem sortText_lt_of_relevance_lt {left right : Int32} (lower : right < left)
    (index index' : Nat) :
    units (sortText left index).toList < units (sortText right index').toList := by
  have apart : (maxRelevance - left.toInt).toNat < (maxRelevance - right.toInt).toNat := by
    have high := left.toInt_lt
    have less := Int32.lt_iff_toInt_lt.mp lower
    rw [maxRelevance]
    omega
  rw [units_sortText, units_sortText]
  apply Text.append_lt_append _ (Text.Decimal.units_padded_lt (distance_lt right) apart)
  rw [Text.Decimal.length_units_padded (by decide) (distance_lt left),
    Text.Decimal.length_units_padded (by decide) (distance_lt right)]

theorem sortText_lt_of_index_lt (relevance : Int32) {index index' : Nat} (few : index' < 100000)
    (before : index < index') :
    units (sortText relevance index).toList < units (sortText relevance index').toList := by
  rw [units_sortText, units_sortText]
  exact List.append_left_lt (Text.Decimal.units_padded_lt few before)

theorem sortText_lt_of_overflow (relevance : Int32) :
    units (sortText relevance 100000).toList < units (sortText relevance 99999).toList := by
  have overflow : units (Text.Decimal.padded 5 100000) < units (Text.Decimal.padded 5 99999) := by
    decide +kernel
  rw [units_sortText, units_sortText]
  exact List.append_left_lt overflow

/-- The text to sort by is left to the assistant, which sets it before an item is placed. -/
def ItemWriter.KeepsSortText (writer : ItemWriter) : Prop :=
  ∀ proposal item placed, writer.place proposal item = .ok placed → placed.sortText = item.sortText

theorem Presenter.sortText_present {presenter : Presenter}
    (keeps : presenter.writer.KeepsSortText) {ranked : Ranked} {index : Nat}
    {defaults : ItemDefaults} {item : Item}
    (presented : presenter.present ranked index defaults = .ok item) :
    item.sortText = some (sortText ranked.relevance index) := by
  obtain ⟨written, _, _, _, _, _, wrote, same⟩ := exists_written presented
  rw [same]
  unfold write at wrote
  split at wrote
  · cases wrote
  · exact keeps _ _ _ wrote

/-- What an editor that sorts items by their texts shows first. -/
def Item.SortsBefore (left right : Item) : Prop :=
  ∃ text text', left.sortText = some text ∧ right.sortText = some text' ∧
    units text.toList < units text'.toList

theorem Item.SortsBefore.asymm {left right : Item} (before : left.SortsBefore right) :
    ¬ right.SortsBefore left := by
  obtain ⟨text, text', first, second, lower⟩ := before
  intro ⟨other, other', second', first', higher⟩
  rw [second] at second'
  rw [first] at first'
  cases second'
  cases first'
  exact List.lt_asymm lower higher

theorem Item.eq_of_perm_of_sorted {items shown : List Item}
    (inOrder : items.Pairwise SortsBefore) (perm : shown.Perm items)
    (sorted : shown.Pairwise fun left right => ¬ right.SortsBefore left) : shown = items := by
  apply List.Perm.eq_of_pairwise _ sorted (inOrder.imp Item.SortsBefore.asymm) perm
  intro left right member member' notAfter notBefore
  obtain ⟨place, within, same⟩ := List.mem_iff_getElem.mp (perm.mem_iff.mp member)
  obtain ⟨place', within', same'⟩ := List.mem_iff_getElem.mp member'
  rcases Nat.lt_trichotomy place place' with before | tied | after
  · have sorts := List.pairwise_iff_getElem.mp inOrder place place' within within' before
    rw [same, same'] at sorts
    exact absurd sorts notBefore
  · subst tied
    exact same.symm.trans same'
  · have sorts := List.pairwise_iff_getElem.mp inOrder place' place within' within after
    rw [same, same'] at sorts
    exact absurd sorts notAfter

theorem Ranked.relevance_le_of_precedes {left right : Ranked} (before : left.precedes right) :
    right.relevance ≤ left.relevance := by
  rw [precedes, SortKey.compare, Ordering.isLE_then_iff_and] at before
  exact Std.isLE_compare.mp before.1

namespace Request

variable {World : Type}

theorem pairwise_sortsBefore_items (request : Request World) (archive : Archive)
    (few : request.selection.limit ≤ 100000) (keeps : request.writer.KeepsSortText) :
    (request.answer archive).list.items.Pairwise Item.SortsBefore := by
  rw [List.pairwise_iff_getElem]
  intro place place' within within' before
  obtain ⟨left, made, presented⟩ := exists_emitted (List.getElem?_eq_getElem within)
  obtain ⟨right, made', presented'⟩ := exists_emitted (List.getElem?_eq_getElem within')
  have ahead : left.precedes right := by
    have inOrder := (Ranked.pairwise_rank _ _).sublist (request.emitted_sublist archive)
    obtain ⟨inside, same⟩ := List.getElem?_eq_some_iff.mp made
    obtain ⟨inside', same'⟩ := List.getElem?_eq_some_iff.mp made'
    have ordered := List.pairwise_iff_getElem.mp (List.pairwise_map.mp inOrder) place place'
      inside inside' before
    rwa [same, same'] at ordered
  have numbered : place' < 100000 :=
    Nat.lt_of_lt_of_le within' (Nat.le_trans (request.length_items_le archive) few)
  refine ⟨_, _, Presenter.sortText_present keeps presented,
    Presenter.sortText_present keeps presented', ?_⟩
  by_cases same : right.relevance = left.relevance
  · rw [same]
    exact sortText_lt_of_index_lt left.relevance numbered before
  · have lower : right.relevance < left.relevance :=
      Std.lt_of_le_of_ne (Ranked.relevance_le_of_precedes ahead) same
    exact sortText_lt_of_relevance_lt lower place place'

/-- A list of at most 100000 items is in the order of their sort texts, unit by unit, so
that an editor which sorts its items by them shows the list as it was made. With one index
more the order of the texts is no longer that of the list. -/
theorem sortText_restores_order (request : Request World) (archive : Archive)
    (few : request.selection.limit ≤ 100000) (keeps : request.writer.KeepsSortText) :
    let items := (request.answer archive).list.items
    items.Pairwise Item.SortsBefore ∧
      (∀ shown : List Item, shown.Perm items →
        shown.Pairwise (fun left right => ¬ right.SortsBefore left) → shown = items) ∧
      ∀ relevance,
        units (sortText relevance 100000).toList < units (sortText relevance 99999).toList := by
  intro items
  have inOrder := request.pairwise_sortsBefore_items archive few keeps
  refine ⟨inOrder, ?_, sortText_lt_of_overflow⟩
  intro shown perm sorted
  exact Item.eq_of_perm_of_sorted inOrder perm sorted

/-- The score of a provider takes the relevance of one proposal beyond the highest one, so
that it wraps around, and another proposal cannot be presented. -/
theorem sortText_restores_order_wrapped :
    let writer : ItemWriter :=
      { describe := fun proposal item => .ok { item with label := proposal.completion }
        methodDescription := fun _ => ""
        place := fun proposal item =>
          if proposal.completion = "" then .error ⟨"nothing to insert"⟩ else .ok item }
    let provider : RankingProvider Unit :=
      fun _ world => (some [some { score := 2147483647 }, none, none], world)
    let request : Request Unit :=
      { assistant := { providers := [provider] }
        cancelled := fun _ => false
        selection :=
          { unit :=
              { uri := "file:///A.java"
                enclosingTypeAt := fun _ => .ok none
                positionAt := fun _ => .ok {} }
            site := {}
            proposals :=
              [{ kind := .fieldRef, completion := "size", relevance := 3 },
               { kind := .fieldRef, completion := "", relevance := 2 },
               { kind := .fieldRef, completion := "length", relevance := 1 }]
            offered := {}
            limit := 100000 }
        client := {}
        writer
        world := () }
    let items := (request.answer {}).list.items
    request.selection.limit ≤ 100000 ∧ request.writer.KeepsSortText ∧
      items.map (·.sortText) = [some "214748364600000", some "429496729300001"] ∧
      items.Pairwise Item.SortsBefore ∧
      ∀ shown : List Item, shown.Perm items →
        shown.Pairwise (fun left right => ¬ right.SortsBefore left) → shown = items := by
  intro writer provider request items
  have few : request.selection.limit ≤ 100000 := Nat.le_refl _
  have keeps : request.writer.KeepsSortText := by
    intro proposal item placed wrote
    simp only [request, writer] at wrote
    split at wrote
    · cases wrote
    · cases wrote
      rfl
  obtain ⟨inOrder, restored, -⟩ := request.sortText_restores_order {} few keeps
  have texts : items.map (·.sortText) = [some "214748364600000", some "429496729300001"] := by
    simp only [items, request, provider, writer]
    cbv
  exact ⟨few, keeps, texts, inOrder, restored⟩

end Request

end ContentAssist
