import ContentAssist.Proofs.Signature.Reading

/-! The name of a class as it is read off its signature. The pieces of a name hold no angle bracket,
so cutting the shown type at the first one gives back the name. -/

namespace ContentAssist.TypeSignature

def EncodesClass (signature name : String) : Prop :=
  ∃ arguments, ofText? signature.toList = some (.object name.toList arguments)

/-- What follows the last dot of a name, or the name itself if it has none. -/
inductive LastPart (name : String) : String → Prop
  | whole (plain : '.' ∉ name.toList) : LastPart name name
  | dotted {front last : List Char} (split : name.toList = front ++ '.' :: last)
      (plain : '.' ∉ last) : LastPart name (String.ofList last)

theorem ClassBody.isNameChar_of_mem_name : (body : ClassBody) →
    ∀ c ∈ ['.'].intercalate body.pieces, isNameChar c
  | .plain piece => by
      rw [pieces, intercalate_singleton]
      exact piece.plain
  | .applied piece _ => by
      rw [pieces, intercalate_singleton]
      exact piece.plain
  | .member piece _ inner => by
      intro c found
      rw [pieces, intercalate_cons inner.pieces_ne_nil, List.mem_append, List.mem_cons] at found
      rcases found with first | dot | later
      · exact piece.plain c first
      · subst dot
        decide
      · exact inner.isNameChar_of_mem_name c later

theorem isNameChar_of_object {text name : List Char} {arguments : List TypeSignature}
    (encoded : ofText? text = some (.object name arguments)) : ∀ c ∈ name, isNameChar c := by
  obtain ⟨derivation, -, tree⟩ := ofText?_eq_some_iff_derives.mp encoded
  cases derivation with
  | object lead body =>
      rw [Derivation.tree, object.injEq] at tree
      rw [← tree.1]
      exact body.isNameChar_of_mem_name
  | _ => cases tree

theorem erased_spell_object {name : List Char} (plain : ∀ c ∈ name, isNameChar c)
    (arguments : List TypeSignature) : erased (spell (.object name arguments)) = name := by
  have passed : ∀ c ∈ name, (c != '<') = true := by
    intro c member
    have both := plain c member
    rw [isNameChar, Bool.and_eq_true] at both
    exact both.1
  rw [spell, erased, List.takeWhile_append_of_pos passed]
  cases arguments with
  | nil => exact List.append_nil name
  | cons first others =>
      rw [spellEach, bracketed, List.cons_append, List.cons_append,
        List.takeWhile_cons_of_neg (by decide), List.append_nil]

theorem exists_last_dot {name : List Char} (dotted : '.' ∈ name) :
    ∃ front last, name = front ++ '.' :: last ∧ '.' ∉ last := by
  induction name with
  | nil => cases dotted
  | cons c name ih =>
      by_cases later : '.' ∈ name
      · obtain ⟨front, last, split, plain⟩ := ih later
        exact ⟨c :: front, last, by rw [split, List.cons_append], plain⟩
      · have first : '.' = c := (List.mem_cons.mp dotted).resolve_right later
        exact ⟨[], name, by rw [first, List.nil_append], later⟩

theorem lastPart_afterLastDot (name : String) :
    LastPart name (String.ofList (afterLastDot name.toList)) := by
  by_cases dotted : '.' ∈ name.toList
  · obtain ⟨front, last, split, plain⟩ := exists_last_dot dotted
    rw [split, afterLastDot_append plain]
    exact .dotted split plain
  · rw [afterLastDot_of_no_dot dotted, String.ofList_toList]
    exact .whole dotted

theorem lastPart_iff {name part : String} :
    LastPart name part ↔ String.ofList (afterLastDot name.toList) = part := by
  constructor
  · intro last
    cases last with
    | whole plain => rw [afterLastDot_of_no_dot plain, String.ofList_toList]
    | dotted split plain => rw [split, afterLastDot_append plain]
  · intro last
    rw [← last]
    exact lastPart_afterLastDot name

namespace EncodesClass

variable {signature name : String}

theorem erased_readableChars (names : EncodesClass signature name) :
    erased (readableChars signature.toList) = name.toList := by
  obtain ⟨arguments, encoded⟩ := names
  rw [readableChars_of_ofText? encoded]
  exact erased_spell_object (isNameChar_of_object encoded) arguments

theorem erased_readable (names : EncodesClass signature name) :
    erased (readable signature).toList = name.toList := by
  rw [readable, String.toList_ofList]
  exact names.erased_readableChars

theorem erased_name (names : EncodesClass signature name) : erased name.toList = name.toList := by
  obtain ⟨_, encoded⟩ := names
  have bare := erased_spell_object (isNameChar_of_object encoded) []
  rwa [spell, spellEach, bracketed, List.append_nil] at bare

theorem simpleName_eq (names : EncodesClass signature name) :
    simpleName signature = String.ofList (afterLastDot name.toList) := by
  rw [simpleName, names.erased_readableChars]

end EncodesClass

/-- A class goes by the last part of its name, and any other text by the last part of what is
shown of it before an angle bracket. -/
inductive HasSimpleName (signature : String) : String → Prop
  | ofClass {name simple : String} (names : EncodesClass signature name)
      (last : LastPart name simple) : HasSimpleName signature simple
  | ofOther {simple : String} (foreign : ∀ name, ¬ EncodesClass signature name)
      (last : LastPart (String.ofList ((readable signature).toList.takeWhile (· != '<'))) simple) :
      HasSimpleName signature simple

theorem hasSimpleName_iff {signature simple : String} :
    HasSimpleName signature simple ↔ simpleName signature = simple := by
  have shown : simpleName signature = String.ofList (afterLastDot
      (String.ofList ((readable signature).toList.takeWhile (· != '<'))).toList) := by
    rw [String.toList_ofList, readable, String.toList_ofList]
    rfl
  constructor
  · intro named
    cases named with
    | ofClass names last => rw [names.simpleName_eq, lastPart_iff.mp last]
    | ofOther foreign last => rw [shown, lastPart_iff.mp last]
  · intro same
    by_cases encoded : ∃ name, EncodesClass signature name
    · obtain ⟨name, names⟩ := encoded
      rw [names.simpleName_eq] at same
      exact .ofClass names (lastPart_iff.mpr same)
    · rw [shown] at same
      exact .ofOther (not_exists.mp encoded) (lastPart_iff.mpr same)

end ContentAssist.TypeSignature
