import ContentAssist.Proofs.Ranking.Order
import ContentAssist.Proofs.Text.Units

/-! The keys of proposals are in a linear order: keys that compare equal are the same key. On
records that no proposal has, the comparison is no order. -/

namespace ContentAssist.SortKey

theorem Coherent.ext {left right : SortKey} (leftCoherent : left.Coherent)
    (rightCoherent : right.Coherent) (relevance : left.relevance = right.relevance)
    (kind : left.kind = right.kind) (text : left.text = right.text)
    (parameterCount : left.parameterCount = right.parameterCount) : left = right := by
  have callable : left.callable = right.callable := by
    rw [leftCoherent.callable, rightCoherent.callable, kind]
  cases left
  cases right
  cases relevance
  cases kind
  cases text
  cases parameterCount
  cases callable
  rfl

theorem compare_eq_iff {left right : SortKey} (leftCoherent : left.Coherent)
    (rightCoherent : right.Coherent) : SortKey.compare left right = .eq ↔ left = right := by
  rw [compare_eq_order leftCoherent rightCoherent]
  constructor
  · intro same
    simp only [order, compareLex, compareOn, Ordering.then_eq_eq,
      Std.LawfulEqOrd.compare_eq_iff_eq, Text.compareText_eq_iff] at same
    obtain ⟨relevance, kind, text, parameterCount⟩ := same
    exact leftCoherent.ext rightCoherent relevance.symm (Kind.ordinal_injective kind) text
      parameterCount
  · intro same
    rw [same]
    exact Std.ReflCmp.compare_self

theorem order_lt_iff {first second third : SortKey} (before : (order first second).isLE)
    (after : (order second third).isLE) :
    order first third = .lt ↔ order first second = .lt ∨ order second third = .lt := by
  constructor
  · intro strict
    cases start : order first second with
    | lt => exact Or.inl rfl
    | eq => exact Or.inr (Std.TransCmp.congr_left start ▸ strict)
    | gt =>
        rw [start] at before
        cases before
  · intro strict
    rcases strict with strict | strict
    · exact Std.TransCmp.lt_of_lt_of_isLE strict after
    · exact Std.TransCmp.lt_of_isLE_of_lt before strict

/-- Between the keys of any proposals the comparison is a linear order: turning it around
reverses it, it is transitive, and it tells any two keys apart. -/
theorem linear_compare_of (first second third : Proposal)
    (relevance relevance' relevance'' : Int32) :
    let a := SortKey.of first relevance
    let b := SortKey.of second relevance'
    let c := SortKey.of third relevance''
    SortKey.compare a b = (SortKey.compare b a).swap ∧
      ((SortKey.compare a b).isLE → (SortKey.compare b c).isLE →
        (SortKey.compare a c).isLE ∧
          (SortKey.compare a c = .lt ↔
            SortKey.compare a b = .lt ∨ SortKey.compare b c = .lt)) ∧
      (SortKey.compare a b = .eq ↔ a = b) := by
  intro a b c
  have coherentA : a.Coherent := coherent_of first relevance
  have coherentB : b.Coherent := coherent_of second relevance'
  have coherentC : c.Coherent := coherent_of third relevance''
  refine ⟨?_, ?_, compare_eq_iff coherentA coherentB⟩
  · rw [compare_eq_order coherentA coherentB, compare_eq_order coherentB coherentA]
    exact Std.OrientedCmp.eq_swap
  · rw [compare_eq_order coherentA coherentB, compare_eq_order coherentB coherentC,
      compare_eq_order coherentA coherentC]
    intro before after
    exact ⟨Std.TransCmp.isLE_trans before after, order_lt_iff before after⟩

-- A key that is callable or not whatever its kind ties with callables of any length.
example :
    let get (callable : Bool) (parameterCount : Nat) : SortKey :=
      { relevance := 0, kind := .methodRef, text := "get", callable, parameterCount }
    SortKey.compare (get true 2) (get false 0) = .eq ∧
      SortKey.compare (get false 0) (get true 1) = .eq ∧
      SortKey.compare (get true 2) (get true 1) = .gt := by
  decide

end ContentAssist.SortKey
