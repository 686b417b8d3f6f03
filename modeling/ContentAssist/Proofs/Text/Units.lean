import ContentAssist.Text.Units

/-! Texts are totally preordered by their code units, and code units tell texts apart: a high
surrogate is no character, so the units of one never begin those of another. -/

namespace ContentAssist.Text

theorem compareLongerFirst_swap (left right : List Nat) :
    compareLongerFirst left right = (compareLongerFirst right left).swap := by
  induction left generalizing right with
  | nil => cases right <;> rfl
  | cons unit left ih =>
      cases right with
      | nil => rfl
      | cons other right =>
          rw [compareLongerFirst, compareLongerFirst, Ordering.swap_then, ← ih right,
            ← Std.OrientedOrd.eq_swap]

theorem compareLongerFirst_trans {first second third : List Nat}
    (before : (compareLongerFirst first second).isLE)
    (after : (compareLongerFirst second third).isLE) :
    (compareLongerFirst first third).isLE := by
  induction first generalizing second third with
  | nil =>
      cases second with
      | nil => exact after
      | cons => cases before
  | cons x first ih =>
      cases third with
      | nil => rfl
      | cons z third =>
          cases second with
          | nil => cases after
          | cons y second =>
              simp only [compareLongerFirst, Ordering.isLE_then_iff_or, Nat.compare_eq_lt,
                Nat.compare_eq_eq] at before after ⊢
              rcases before with lower | ⟨same, before⟩
              · left
                omega
              · rcases after with higher | ⟨same', after⟩
                · left
                  omega
                · right
                  exact ⟨same.trans same', ih before after⟩

instance : Std.TransCmp compareText where
  eq_swap := compareLongerFirst_swap _ _
  isLE_trans := compareLongerFirst_trans

theorem toNat_outside_surrogates (c : Char) : c.toNat < 0xD800 ∨ 0xDFFF < c.toNat := by
  rcases c.valid with low | high
  · exact Or.inl low
  · exact Or.inr high.1

theorem toNat_lt (c : Char) : c.toNat < 0x110000 := by
  rcases c.valid with low | high
  · exact Nat.lt_trans low (by decide)
  · exact high.2

theorem charUnits_append_inj {first second : Char} {rest rest' : List Nat}
    (same : charUnits first ++ rest = charUnits second ++ rest') :
    first = second ∧ rest = rest' := by
  have outside := toNat_outside_surrogates first
  have outside' := toNat_outside_surrogates second
  have bound := toNat_lt first
  have bound' := toNat_lt second
  unfold charUnits at same
  split at same <;> split at same
  · simp only [List.cons_append, List.nil_append, List.cons.injEq] at same
    exact ⟨Char.toNat_inj.mp same.1, same.2⟩
  · simp only [List.cons_append, List.nil_append, List.cons.injEq] at same
    omega
  · simp only [List.cons_append, List.nil_append, List.cons.injEq] at same
    omega
  · simp only [List.cons_append, List.nil_append, List.cons.injEq] at same
    obtain ⟨high, low, rests⟩ := same
    exact ⟨Char.toNat_inj.mp (by omega), rests⟩

theorem units_injective {left right : List Char} (same : units left = units right) :
    left = right := by
  induction left generalizing right with
  | nil =>
      cases right with
      | nil => rfl
      | cons c right =>
          exact absurd (List.append_eq_nil_iff.mp same.symm).1 (charUnits_ne_nil c)
  | cons c left ih =>
      cases right with
      | nil => exact absurd (List.append_eq_nil_iff.mp same).1 (charUnits_ne_nil c)
      | cons d right =>
          obtain ⟨first, rest⟩ := charUnits_append_inj same
          rw [first, ih rest]

theorem compareLongerFirst_eq_iff (left right : List Nat) :
    compareLongerFirst left right = .eq ↔ left = right := by
  induction left generalizing right with
  | nil => cases right <;> simp [compareLongerFirst]
  | cons unit left ih =>
      cases right with
      | nil => simp [compareLongerFirst]
      | cons other right =>
          rw [compareLongerFirst, Ordering.then_eq_eq, Nat.compare_eq_eq, ih, List.cons.injEq]

theorem compareText_eq_iff (left right : String) :
    compareText left right = .eq ↔ left = right := by
  rw [compareText, compareLongerFirst_eq_iff]
  constructor
  · intro same
    exact String.toList_inj.mp (units_injective same)
  · intro same
    rw [same]

end ContentAssist.Text
