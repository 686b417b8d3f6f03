import ContentAssist.Text.Decimal
import ContentAssist.Text.Units
import Mathlib.Algebra.Group.Nat.Defs

/-! Numerals filled up to one width stand in the order of their numbers. -/

namespace ContentAssist.Text

theorem append_lt_append {front front' : List Nat} (lengths : front.length = front'.length)
    (lower : front < front') (back back' : List Nat) : front ++ back < front' ++ back' := by
  induction front generalizing front' with
  | nil =>
      cases front' with
      | nil => cases lower
      | cons => cases lengths
  | cons unit front ih =>
      cases front' with
      | nil => cases lengths
      | cons other front' =>
          rw [List.cons_append, List.cons_append, List.cons_lt_cons_iff]
          rcases List.cons_lt_cons_iff.mp lower with first | ⟨same, later⟩
          · exact Or.inl first
          · exact Or.inr ⟨same, ih (Nat.succ.inj lengths) later⟩

namespace Decimal

theorem charUnits_digit {value : Nat} (small : value < 10) :
    charUnits (digit value) = [0x30 + value] := by
  have cases : ∀ v : Fin 10, charUnits (digit v.val) = [0x30 + v.val] := by decide
  exact cases ⟨value, small⟩

theorem padded_one {number : Nat} (small : number < 10) : padded 1 number = [digit number] := by
  rw [padded, digits, if_pos small]
  rfl

theorem padded_succ {width : Nat} (wide : 0 < width) (number : Nat) :
    padded (width + 1) number = padded width (number / 10) ++ [digit (number % 10)] := by
  rw [padded, padded, digits]
  by_cases small : number < 10
  · obtain ⟨narrower, same⟩ := Nat.exists_eq_succ_of_ne_zero (Nat.ne_of_gt wide)
    subst same
    rw [if_pos small, Nat.div_eq_of_lt small, Nat.mod_eq_of_lt small, digits, if_pos (by decide)]
    simp [List.leftpad, List.replicate_succ', digit]
  · rw [if_neg small]
    simp [List.leftpad]

theorem units_padded_succ {width : Nat} (wide : 0 < width) (number : Nat) :
    units (padded (width + 1) number) =
      units (padded width (number / 10)) ++ [0x30 + number % 10] := by
  rw [padded_succ wide, units_append, units_cons, units_nil, List.append_nil,
    charUnits_digit (Nat.mod_lt _ (by decide))]

theorem units_padded_one {number : Nat} (small : number < 10) :
    units (padded 1 number) = [0x30 + number] := by
  rw [padded_one small, units_cons, units_nil, List.append_nil, charUnits_digit small]

theorem div_lt_pow {width number : Nat} (fits : number < 10 ^ (width + 1)) :
    number / 10 < 10 ^ width := by
  rw [Nat.pow_succ] at fits
  exact Nat.div_lt_of_lt_mul (Nat.mul_comm _ _ ▸ fits)

theorem length_units_padded {width number : Nat} (wide : 0 < width)
    (fits : number < 10 ^ width) : (units (padded width number)).length = width := by
  induction width generalizing number with
  | zero => cases wide
  | succ width ih =>
      rcases Nat.eq_zero_or_pos width with single | wider
      · subst single
        rw [units_padded_one fits, List.length_singleton]
      · rw [units_padded_succ wider, List.length_append, List.length_singleton,
          ih wider (div_lt_pow fits)]

theorem units_padded_lt {width left right : Nat} (fits : right < 10 ^ width)
    (lower : left < right) : units (padded width left) < units (padded width right) := by
  induction width generalizing left right with
  | zero => omega
  | succ width ih =>
      rcases Nat.eq_zero_or_pos width with single | wider
      · subst single
        rw [units_padded_one (Nat.lt_trans lower fits), units_padded_one fits,
          List.cons_lt_cons_iff]
        exact Or.inl (Nat.add_lt_add_left lower _)
      · rw [units_padded_succ wider, units_padded_succ wider]
        have fits' := div_lt_pow fits
        rcases Nat.lt_or_eq_of_le (Nat.div_le_div_right (c := 10) (Nat.le_of_lt lower)) with
          before | same
        · apply append_lt_append _ (ih fits' before)
          rw [length_units_padded wider (Nat.lt_trans before fits'),
            length_units_padded wider fits']
        · rw [same]
          apply List.append_left_lt
          rw [List.cons_lt_cons_iff]
          left
          omega

end Decimal

end ContentAssist.Text
