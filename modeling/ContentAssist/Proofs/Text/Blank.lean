import ContentAssist.Text.Blank

/-! Trimming takes off the blanks at both ends of a text and nothing else. -/

namespace ContentAssist.Text

/-- The core of a text, with blanks around it and none at its ends. -/
structure Trims (text core : List Char) : Prop where
  surrounded : ∃ lead trail, text = lead ++ core ++ trail ∧
    (∀ c ∈ lead, isBlank c) ∧ ∀ c ∈ trail, isBlank c
  first : ∀ c, core.head? = some c → isBlank c = false
  last : ∀ c, core.getLast? = some c → isBlank c = false

private theorem dropWhile_of_head {text : List Char}
    (first : ∀ c, text.head? = some c → isBlank c = false) : text.dropWhile isBlank = text := by
  cases text with
  | nil => rfl
  | cons c text => rw [List.dropWhile_cons_of_neg (by simp [first c rfl])]

private theorem head_dropWhile (text : List Char) (c : Char)
    (found : (text.dropWhile isBlank).head? = some c) : isBlank c = false := by
  have head := List.head?_dropWhile_not isBlank text
  rw [found] at head
  exact head

theorem Trims.trimChars_eq {text core : List Char} (trims : Trims text core) :
    trimChars text = core := by
  obtain ⟨lead, trail, same, blank, blank'⟩ := trims.surrounded
  cases core with
  | nil =>
      apply trimChars_of_all
      intro c member
      rw [same, List.append_nil, List.mem_append] at member
      exact member.elim (blank c) (blank' c)
  | cons c rest =>
      have back : ∀ other ∈ trail.reverse, isBlank other :=
        fun other member => blank' other (List.mem_reverse.mp member)
      have last : (c :: rest).reverse.dropWhile isBlank = (c :: rest).reverse :=
        dropWhile_of_head fun other found =>
          trims.last other (by rwa [List.head?_reverse] at found)
      have front : ((c :: rest) ++ trail).dropWhile isBlank = (c :: rest) ++ trail :=
        dropWhile_of_head fun other found => trims.first other found
      rw [trimChars, same, List.append_assoc, List.dropWhile_append_of_pos blank, front,
        List.reverse_append, List.dropWhile_append_of_pos back, last, List.reverse_reverse]

private theorem trimChars_append_trail (text : List Char) :
    trimChars text ++ ((text.dropWhile isBlank).reverse.takeWhile isBlank).reverse =
      text.dropWhile isBlank := by
  rw [trimChars, ← List.reverse_append, List.takeWhile_append_dropWhile, List.reverse_reverse]

theorem trims_trimChars (text : List Char) : Trims text (trimChars text) where
  surrounded := by
    have blank (passed : List Char) : ∀ c ∈ passed.takeWhile isBlank, isBlank c :=
      fun c member => List.all_eq_true.mp List.all_takeWhile c member
    refine ⟨text.takeWhile isBlank,
      ((text.dropWhile isBlank).reverse.takeWhile isBlank).reverse, ?_, blank text, ?_⟩
    · rw [List.append_assoc, trimChars_append_trail, List.takeWhile_append_dropWhile]
    · intro c member
      exact blank _ c (List.mem_reverse.mp member)
  first c found := by
    apply head_dropWhile text c
    rw [← trimChars_append_trail, List.head?_append, found, Option.some_or]
  last c found := by
    rw [trimChars, List.getLast?_reverse] at found
    exact head_dropWhile _ c found

theorem trims_iff {text core : List Char} : Trims text core ↔ trimChars text = core :=
  ⟨Trims.trimChars_eq, fun same => same ▸ trims_trimChars text⟩

theorem trimBlank_eq_iff {text core : String} :
    trimBlank text = core ↔ Trims text.toList core.toList := by
  rw [trims_iff, trimBlank, ← String.toList_inj, String.toList_ofList]

end ContentAssist.Text
