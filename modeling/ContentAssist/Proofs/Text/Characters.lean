import ContentAssist.Proofs.Text.Units

/-! The order of texts told by characters. The first two that differ decide, by their code points
unless one is written with surrogates and the other comes after all surrogates. -/

namespace ContentAssist.Text

def IsSupplementary (c : Char) : Prop :=
  0x10000 ≤ c.toNat

/-- A single unit above all surrogates. -/
def FollowsSurrogates (c : Char) : Prop :=
  0xE000 ≤ c.toNat ∧ c.toNat ≤ 0xFFFF

instance (c : Char) : Decidable (IsSupplementary c) :=
  inferInstanceAs (Decidable (_ ≤ _))

instance (c : Char) : Decidable (FollowsSurrogates c) :=
  inferInstanceAs (Decidable (_ ∧ _))

def compareChars (left right : Char) : Ordering :=
  if IsSupplementary left ∧ FollowsSurrogates right then .lt
  else if FollowsSurrogates left ∧ IsSupplementary right then .gt
  else compare left.toNat right.toNat

private theorem not_supplementary_of_followsSurrogates {c : Char} (late : FollowsSurrogates c) :
    ¬ IsSupplementary c := by
  have single := late.2
  unfold IsSupplementary
  omega

theorem compareChars_swap (left right : Char) :
    compareChars left right = (compareChars right left).swap := by
  unfold compareChars
  by_cases early : IsSupplementary left ∧ FollowsSurrogates right
  · have other : ¬ (IsSupplementary right ∧ FollowsSurrogates left) :=
      fun both => not_supplementary_of_followsSurrogates early.2 both.1
    rw [if_pos early, if_neg other, if_pos early.symm]
    rfl
  · by_cases late : FollowsSurrogates left ∧ IsSupplementary right
    · rw [if_neg early, if_pos late, if_pos late.symm]
      rfl
    · rw [if_neg early, if_neg late, if_neg (late ∘ And.symm), if_neg (early ∘ And.symm)]
      exact Std.OrientedOrd.eq_swap

private theorem compareLongerFirst_of_lt {unit other : Nat} (below : unit < other)
    (rest rest' : List Nat) : compareLongerFirst (unit :: rest) (other :: rest') = .lt := by
  rw [compareLongerFirst, Nat.compare_eq_lt.mpr below]
  rfl

private theorem charUnits_of_single {c : Char} (single : c.toNat < 0x10000) :
    charUnits c = [c.toNat] :=
  if_pos single

private theorem charUnits_of_pair {c : Char} (pair : 0x10000 ≤ c.toNat) :
    charUnits c =
      [0xD800 + (c.toNat - 0x10000) / 0x400, 0xDC00 + (c.toNat - 0x10000) % 0x400] :=
  if_neg (Nat.not_lt.mpr pair)

private theorem compareLongerFirst_charUnits_of_lt {left right : Char}
    (below : left.toNat < right.toNat) (rest rest' : List Nat) :
    compareLongerFirst (charUnits left ++ rest) (charUnits right ++ rest') =
      compareChars left right := by
  have outside := toNat_outside_surrogates left
  have bound := toNat_lt right
  by_cases late : FollowsSurrogates left ∧ IsSupplementary right
  · have trails : compareChars left right = .gt := by
      unfold compareChars
      rw [if_neg fun early => not_supplementary_of_followsSurrogates late.1 early.1, if_pos late]
    obtain ⟨⟨above, single⟩, pair⟩ := late
    rw [trails, charUnits_of_single (Nat.lt_succ_of_le single), charUnits_of_pair pair,
      compareLongerFirst_swap]
    exact congrArg Ordering.swap (compareLongerFirst_of_lt (by omega) _ rest)
  · have leads : compareChars left right = .lt := by
      unfold compareChars
      rw [if_neg late, Nat.compare_eq_lt.mpr below, ite_self]
    rw [leads]
    by_cases single : right.toNat < 0x10000
    · rw [charUnits_of_single single, charUnits_of_single (by omega)]
      exact compareLongerFirst_of_lt below rest rest'
    · by_cases single' : left.toNat < 0x10000
      · rw [charUnits_of_single single', charUnits_of_pair (Nat.not_lt.mp single)]
        apply compareLongerFirst_of_lt
        unfold FollowsSurrogates IsSupplementary at late
        omega
      · rw [charUnits_of_pair (Nat.not_lt.mp single), charUnits_of_pair (Nat.not_lt.mp single')]
        by_cases shared : (left.toNat - 0x10000) / 0x400 = (right.toNat - 0x10000) / 0x400
        · rw [shared]
          refine (compareLongerFirst_append [_] _ _).trans (compareLongerFirst_of_lt ?_ _ _)
          omega
        · apply compareLongerFirst_of_lt
          omega

theorem compareLongerFirst_charUnits {left right : Char} (different : left ≠ right)
    (rest rest' : List Nat) :
    compareLongerFirst (charUnits left ++ rest) (charUnits right ++ rest') =
      compareChars left right := by
  have codes : left.toNat ≠ right.toNat := fun same => different (Char.toNat_inj.mp same)
  rcases Nat.lt_or_gt_of_ne codes with below | above
  · exact compareLongerFirst_charUnits_of_lt below rest rest'
  · rw [compareLongerFirst_swap, compareLongerFirst_charUnits_of_lt above rest' rest,
      ← compareChars_swap]

/-- No surrogate pair is cut. -/
theorem units_prefix_iff (front text : List Char) : units front <+: units text ↔ front <+: text := by
  constructor
  · intro begins
    induction front generalizing text with
    | nil => exact List.nil_prefix
    | cons c front ih =>
        obtain ⟨tail, same⟩ := begins
        rw [units_cons, List.append_assoc] at same
        cases text with
        | nil => exact absurd (List.append_eq_nil_iff.mp same).1 (charUnits_ne_nil c)
        | cons d text =>
            obtain ⟨first, rest⟩ := charUnits_append_inj same
            rw [first]
            exact List.cons_prefix_cons.mpr ⟨rfl, ih text ⟨tail, rest⟩⟩
  · rintro ⟨rest, same⟩
    rw [← same, units_append]
    exact List.prefix_append _ _

theorem compareLongerFirst_nil_units {text : List Char} (filled : text ≠ []) :
    compareLongerFirst [] (units text) = .gt := by
  cases written : units text with
  | nil =>
      have same : units text = units [] := written
      exact absurd (units_injective same) filled
  | cons unit rest => rfl

theorem compareText_of_prefix {front text : String} (begins : front.toList <+: text.toList)
    (different : front ≠ text) : compareText front text = .gt := by
  obtain ⟨rest, same⟩ := begins
  have filled : rest ≠ [] := by
    intro empty
    rw [empty, List.append_nil] at same
    exact different (String.toList_inj.mp same)
  rw [compareText, ← same, units_append]
  have ends := compareLongerFirst_append (units front.toList) [] (units rest)
  rw [List.append_nil] at ends
  rw [ends, compareLongerFirst_nil_units filled]

theorem compareText_swap (left right : String) :
    compareText left right = (compareText right left).swap :=
  Std.OrientedCmp.eq_swap

theorem compareText_of_difference {left right : String} {common rest rest' : List Char}
    {c d : Char} (first : left.toList = common ++ c :: rest)
    (second : right.toList = common ++ d :: rest') (different : c ≠ d) :
    compareText left right = compareChars c d := by
  rw [compareText, first, second, units_append, units_append, compareLongerFirst_append,
    units_cons, units_cons, compareLongerFirst_charUnits different]

/-- Texts compare as equal only with themselves, and a text that begins another comes after
it. Otherwise the first two characters that differ decide. The units of a text never begin
those of another unless its characters do. -/
theorem compareText_characters (left right : String) :
    (compareText left right = .eq ↔ left = right) ∧
      (left.toList <+: right.toList → left ≠ right → compareText left right = .gt) ∧
      (right.toList <+: left.toList → left ≠ right → compareText left right = .lt) ∧
      (∀ common c d rest rest', left.toList = common ++ c :: rest →
        right.toList = common ++ d :: rest' → c ≠ d →
          compareText left right = compareChars c d) ∧
      (units left.toList <+: units right.toList ↔ left.toList <+: right.toList) := by
  refine ⟨compareText_eq_iff left right, compareText_of_prefix, ?_, ?_, units_prefix_iff _ _⟩
  · intro begins different
    rw [compareText_swap, compareText_of_prefix begins different.symm]
    rfl
  · intro common c d rest rest' first second different
    exact compareText_of_difference first second different

example : compareText "a😀" "aﬁ" = .lt ∧ compare '😀'.toNat 'ﬁ'.toNat = .gt := by
  decide

end ContentAssist.Text
