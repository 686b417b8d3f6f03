import ContentAssist.Proofs.Signature.Grammar
import ContentAssist.Signature.Readable

/-! The reader of encoded types accepts exactly what the grammar derives: it reads every word,
whatever follows it, and reads nothing else. -/

namespace ContentAssist.TypeSignature

/-! ### Every word is read -/

private theorem span_append {p : Char → Bool} {front : List Char} {stop : Char}
    (passed : ∀ c ∈ front, p c) (stops : p stop = false) (rest : List Char) :
    (front ++ stop :: rest).takeWhile p = front ∧
      (front ++ stop :: rest).dropWhile p = stop :: rest := by
  constructor
  · rw [List.takeWhile_append_of_pos passed, List.takeWhile_cons_of_neg (by simp [stops]),
      List.append_nil]
  · rw [List.dropWhile_append_of_pos passed, List.dropWhile_cons_of_neg (by simp [stops])]

theorem VariableName.span (name : VariableName) (rest : List Char) :
    (name.chars ++ ';' :: rest).takeWhile (· != ';') = name.chars ∧
      (name.chars ++ ';' :: rest).dropWhile (· != ';') = ';' :: rest := by
  apply span_append
  · intro c member
    have different : c ≠ ';' := fun same => name.plain (same ▸ member)
    simpa using different
  · decide

theorem readObject?_plain (piece : Piece) (name : List Char) (arguments : List TypeSignature)
    (rest : List Char) :
    readObject? name arguments (piece.chars ++ ';' :: rest) =
      some (.object (name ++ piece.chars) arguments, rest) := by
  have split := span_append piece.plain (by decide : isNameChar ';' = false) rest
  rw [readObject?_eq, split.1, split.2]
  exact if_pos rfl

theorem readObject?_block (piece : Piece) (name : List Char) (arguments : List TypeSignature)
    {text : List Char} {inner : List TypeSignature} {next : Char} {after : List Char}
    (block : readUntil? '>' text = some (inner, next :: after)) :
    readObject? name arguments (piece.chars ++ '<' :: text) =
      if next = '.' then readObject? (name ++ piece.chars ++ ['.']) inner after
      else if next = ';' then some (.object (name ++ piece.chars) inner, after)
      else none := by
  have split := span_append piece.plain (by decide : isNameChar '<' = false) text
  have bracket : ¬ '<' = ';' := by decide
  rw [readObject?_eq, split.1, split.2]
  simp only [if_neg bracket, block]
  by_cases dot : next = '.'
  · subst dot
    rfl
  · by_cases semicolon : next = ';'
    · subst semicolon
      rfl
    · simp [dot, semicolon]

theorem ClassBody.pieces_ne_nil (body : ClassBody) : body.pieces ≠ [] := by
  cases body <;> exact List.cons_ne_nil _ _

theorem intercalate_singleton (only : List Char) : ['.'].intercalate [only] = only := by
  simp [List.intercalate]

theorem intercalate_cons {first : List Char} {others : List (List Char)} (more : others ≠ []) :
    ['.'].intercalate (first :: others) = first ++ '.' :: ['.'].intercalate others := by
  cases others with
  | nil => exact absurd rfl more
  | cons second others => rfl

def wordLeads : List Char :=
  ['L', 'Q', 'T', '[', '*', '+', '-'] ++ Primitive.all.map Primitive.code

theorem Derivation.exists_word_eq_cons (derivation : Derivation) :
    ∃ lead ∈ wordLeads, ∃ word, derivation.word = lead :: word := by
  cases derivation with
  | primitive type =>
      refine ⟨type.code, ?_, [], rfl⟩
      cases type <;> decide
  | unbounded => exact ⟨'*', by decide, [], rfl⟩
  | array element => exact ⟨'[', by decide, element.word, rfl⟩
  | bounded bound inner =>
      refine ⟨bound.code, ?_, inner.word, rfl⟩
      cases bound <;> decide
  | «variable» name => exact ⟨'T', by decide, name.chars ++ [';'], rfl⟩
  | object lead body =>
      refine ⟨lead.code, ?_, body.word, rfl⟩
      cases lead <;> decide

theorem angle_foreign : '>' ∉ wordLeads := by
  decide

theorem readUntil?_word_append (derivation : Derivation) {close : Char}
    (foreign : close ∉ wordLeads) (text : List Char) :
    readUntil? close (derivation.word ++ text) =
      (read? (derivation.word ++ text)).bind fun first =>
        (readUntil? close first.2).map fun later => (first.1 :: later.1, later.2) := by
  obtain ⟨lead, isLead, word, written⟩ := derivation.exists_word_eq_cons
  have further : lead ≠ close := fun same => foreign (same ▸ isLead)
  rw [written, List.cons_append]
  exact readUntil?_cons further _

mutual

theorem read?_word_append : (derivation : Derivation) → (rest : List Char) →
    read? (derivation.word ++ rest) = some (derivation.tree, rest)
  | .primitive type, rest => by
      exact read?_primitive type rest
  | .unbounded, rest => by
      exact read?_unbounded rest
  | .array element, rest => by
      rw [Derivation.word, List.cons_append, read?_array, read?_word_append element rest]
      rfl
  | .bounded bound inner, rest => by
      rw [Derivation.word, List.cons_append, read?_bounded, read?_word_append inner rest]
      rfl
  | .variable name, rest => by
      have split := name.span rest
      rw [Derivation.word, List.cons_append, List.append_assoc, List.singleton_append,
        read?_variable, split.1, split.2]
      rfl
  | .object lead body, rest => by
      have isLead : lead.code = 'L' ∨ lead.code = 'Q' := by cases lead <;> decide
      rw [Derivation.word, List.cons_append, read?_object isLead,
        readObject?_word_append body [] [] rest]
      rfl

theorem readObject?_word_append : (body : ClassBody) → (name : List Char) →
    (arguments : List TypeSignature) → (rest : List Char) →
    readObject? name arguments (body.word ++ rest) =
      some (.object (name ++ ['.'].intercalate body.pieces) (body.blocks.getLastD arguments), rest)
  | .plain piece, name, arguments, rest => by
      rw [ClassBody.word, List.append_assoc, List.singleton_append, readObject?_plain,
        ClassBody.pieces, intercalate_singleton]
      rfl
  | .applied piece inner, name, arguments, rest => by
      have block := readUntil?_words_append inner angle_foreign (';' :: rest)
      simp only [ClassBody.word, List.append_assoc, List.cons_append, List.nil_append]
      rw [readObject?_block piece name arguments block, ClassBody.pieces, intercalate_singleton]
      rfl
  | .member piece inner later, name, arguments, rest => by
      have block := readUntil?_words_append inner angle_foreign ('.' :: (later.word ++ rest))
      simp only [ClassBody.word, List.append_assoc, List.cons_append]
      rw [readObject?_block piece name arguments block, if_pos rfl,
        readObject?_word_append later _ (trees inner) rest, ClassBody.pieces,
        intercalate_cons later.pieces_ne_nil, ClassBody.blocks, List.getLastD_cons]
      simp only [List.append_assoc, List.singleton_append]

theorem readUntil?_words_append : (derivations : List Derivation) → {close : Char} →
    (foreign : close ∉ wordLeads) → (rest : List Char) →
    readUntil? close (words derivations ++ close :: rest) = some (trees derivations, rest)
  | [], close, _, rest => by
      exact readUntil?_close close rest
  | first :: others, close, foreign, rest => by
      rw [words, List.append_assoc, readUntil?_word_append first foreign,
        read?_word_append first (words others ++ close :: rest), Option.bind_some,
        readUntil?_words_append others foreign rest]
      rfl

end

/-! ### Nothing else is read -/

theorem takeWhile_append_of_dropWhile {p : Char → Bool} {text rest : List Char}
    {stop : Char} (ends : text.dropWhile p = stop :: rest) :
    text.takeWhile p ++ stop :: rest = text := by
  rw [← ends, List.takeWhile_append_dropWhile]

theorem passed_of_mem_takeWhile {p : Char → Bool} {text : List Char} :
    ∀ c ∈ text.takeWhile p, p c :=
  List.all_eq_true.mp List.all_takeWhile

theorem not_of_dropWhile {p : Char → Bool} {text rest : List Char} {stop : Char}
    (ends : text.dropWhile p = stop :: rest) : p stop = false := by
  have stops := List.head?_dropWhile_not p text
  rw [ends] at stops
  simpa using stops

def firstPiece (text : List Char) : Piece :=
  { chars := text.takeWhile isNameChar
    plain := passed_of_mem_takeWhile }

theorem readObject?_cases {name text : List Char} {arguments : List TypeSignature}
    {type : TypeSignature} {rest : List Char}
    (found : readObject? name arguments text = some (type, rest)) :
    ((firstPiece text).chars ++ ';' :: rest = text ∧
      type = .object (name ++ (firstPiece text).chars) arguments) ∨
    ∃ block inner next after, (firstPiece text).chars ++ '<' :: block = text ∧
      readUntil? '>' block = some (inner, next :: after) ∧
      ((next = ';' ∧ rest = after ∧ type = .object (name ++ (firstPiece text).chars) inner) ∨
        (next = '.' ∧ readObject? (name ++ (firstPiece text).chars ++ ['.']) inner after =
          some (type, rest))) := by
  rw [readObject?_eq] at found
  split at found
  next => cases found
  next stop following ends =>
      have whole := takeWhile_append_of_dropWhile ends
      by_cases semicolon : stop = ';'
      · subst semicolon
        rw [if_pos rfl] at found
        cases found
        exact Or.inl ⟨whole, rfl⟩
      · have bracket : stop = '<' := by
          have stops := not_of_dropWhile ends
          simpa [isNameChar, semicolon] using stops
        subst bracket
        rw [if_neg semicolon] at found
        refine Or.inr ⟨following, ?_⟩
        split at found
        next inner after read => exact ⟨inner, '.', after, whole, read, Or.inr ⟨rfl, found⟩⟩
        next inner after read =>
            cases found
            exact ⟨inner, ';', rest, whole, read, Or.inl ⟨rfl, rfl, rfl⟩⟩
        next => cases found

theorem exists_variable_of_read? {text : List Char} {type : TypeSignature} {rest : List Char}
    (found : read? ('T' :: text) = some (type, rest)) :
    ∃ name : VariableName, 'T' :: (name.chars ++ ';' :: rest) = 'T' :: text ∧
      type = .variable name.chars := by
  rw [read?_variable] at found
  split at found
  next => cases found
  next stop after ends =>
      cases found
      have semicolon : stop = ';' := by simpa using not_of_dropWhile ends
      subst semicolon
      refine ⟨⟨text.takeWhile (· != ';'), ?_⟩, ?_, rfl⟩
      · intro member
        have passed := passed_of_mem_takeWhile _ member
        simp at passed
      · exact congrArg (List.cons 'T') (takeWhile_append_of_dropWhile ends)

-- By recursion on the length of the text. A list of types reads its first one from the
-- same text, so it counts as one more.
mutual

theorem exists_derivation_of_read? : (text : List Char) → {type : TypeSignature} →
    {rest : List Char} → read? text = some (type, rest) →
    ∃ derivation : Derivation, derivation.word ++ rest = text ∧ derivation.tree = type
  | [], type, rest, found => by
      rw [read?_nil] at found
      cases found
  | lead :: text, type, rest, found => by
      by_cases isObject : lead = 'L' ∨ lead = 'Q'
      · rw [read?_object isObject] at found
        obtain ⟨body, written, same⟩ := exists_body_of_readObject? text found
        rw [List.nil_append] at same
        rcases isObject with resolved | unresolved
        · subst resolved
          exact ⟨.object .resolved body, congrArg (List.cons 'L') written, same.symm⟩
        · subst unresolved
          exact ⟨.object .unresolved body, congrArg (List.cons 'Q') written, same.symm⟩
      by_cases isVariable : lead = 'T'
      · subst isVariable
        obtain ⟨name, written, same⟩ := exists_variable_of_read? found
        refine ⟨.variable name, ?_, same.symm⟩
        rw [Derivation.word, List.cons_append, List.append_assoc, List.singleton_append, written]
      by_cases isArray : lead = '['
      · subst isArray
        rw [read?_array, Option.map_eq_some_iff] at found
        obtain ⟨⟨element, after⟩, inner, same⟩ := found
        obtain ⟨derivation, written, tree⟩ := exists_derivation_of_read? text inner
        cases same
        exact ⟨.array derivation, congrArg (List.cons '[') written, congrArg _ tree⟩
      by_cases isUnbounded : lead = '*'
      · subst isUnbounded
        rw [read?_unbounded] at found
        cases found
        exact ⟨.unbounded, rfl, rfl⟩
      by_cases isBounded : ∃ bound : Bound, lead = bound.code
      · obtain ⟨bound, same⟩ := isBounded
        subst same
        rw [read?_bounded, Option.map_eq_some_iff] at found
        obtain ⟨⟨limit, after⟩, inner, same⟩ := found
        obtain ⟨derivation, written, tree⟩ := exists_derivation_of_read? text inner
        cases same
        exact ⟨.bounded bound derivation, congrArg (List.cons bound.code) written,
          congrArg _ tree⟩
      rw [read?_other isObject isVariable isArray isUnbounded (not_exists.mp isBounded),
        Option.map_eq_some_iff] at found
      obtain ⟨primitive, encoded, same⟩ := found
      cases same
      exact ⟨.primitive primitive,
        congrArg (List.cons · text) (Primitive.code_of_ofCode? encoded), rfl⟩
termination_by text => (text.length, 0)

theorem exists_body_of_readObject? : (text : List Char) → {name : List Char} →
    {arguments : List TypeSignature} → {type : TypeSignature} → {rest : List Char} →
    readObject? name arguments text = some (type, rest) →
    ∃ body : ClassBody, body.word ++ rest = text ∧
      type = .object (name ++ ['.'].intercalate body.pieces) (body.blocks.getLastD arguments)
  | text, name, arguments, type, rest, found => by
      rcases readObject?_cases found with ⟨written, same⟩ |
        ⟨block, inner, next, after, written, read, ends⟩
      · refine ⟨.plain (firstPiece text), ?_, ?_⟩
        · rw [ClassBody.word, List.append_assoc, List.singleton_append, written]
        · rw [ClassBody.pieces, intercalate_singleton]
          exact same
      · have blockShorter : block.length < text.length := by
          rw [← written, List.length_append, List.length_cons]
          omega
        have restShorter := length_readUntil? read
        have afterShorter : after.length < text.length := by
          rw [List.length_cons] at restShorter
          omega
        obtain ⟨derivations, listed, types⟩ := exists_words_of_readUntil? block read
        rcases ends with ⟨semicolon, same, object⟩ | ⟨dot, later⟩
        · subst semicolon same
          refine ⟨.applied (firstPiece text) derivations, ?_, ?_⟩
          · simp only [ClassBody.word, List.append_assoc, List.cons_append, List.nil_append]
            rw [listed, written]
          · rw [ClassBody.pieces, intercalate_singleton, ClassBody.blocks, types]
            exact object
        · subst dot
          obtain ⟨body, continued, object⟩ := exists_body_of_readObject? after later
          refine ⟨.member (firstPiece text) derivations body, ?_, ?_⟩
          · simp only [ClassBody.word, List.append_assoc, List.cons_append]
            rw [continued, listed, written]
          · rw [ClassBody.pieces, intercalate_cons body.pieces_ne_nil, ClassBody.blocks,
              List.getLastD_cons, types, object]
            simp only [List.append_assoc, List.singleton_append]
termination_by text => (text.length, 0)

theorem exists_words_of_readUntil? : (text : List Char) → {close : Char} →
    {types : List TypeSignature} → {rest : List Char} →
    readUntil? close text = some (types, rest) →
    ∃ derivations : List Derivation, words derivations ++ close :: rest = text ∧
      trees derivations = types
  | [], close, types, rest, found => by
      rw [readUntil?_nil] at found
      cases found
  | c :: text, close, types, rest, found => by
      by_cases closes : c = close
      · subst closes
        rw [readUntil?_close] at found
        cases found
        exact ⟨[], rfl, rfl⟩
      · rw [readUntil?_cons closes, Option.bind_eq_some_iff] at found
        obtain ⟨⟨type, after⟩, first, found⟩ := found
        rw [Option.map_eq_some_iff] at found
        obtain ⟨⟨later, last⟩, others, same⟩ := found
        cases same
        have shorter := length_read? first
        obtain ⟨derivation, written, tree⟩ := exists_derivation_of_read? (c :: text) first
        obtain ⟨derivations, listed, types⟩ := exists_words_of_readUntil? after others
        refine ⟨derivation :: derivations, ?_, ?_⟩
        · rw [words, List.append_assoc, listed, written]
        · rw [trees, tree, types]
termination_by text => (text.length, 1)

end

/-! ### One derivation for every word -/

theorem Piece.eq_of_append {left right : Piece} {stop stop' : Char} {rest rest' : List Char}
    (same : left.chars ++ stop :: rest = right.chars ++ stop' :: rest')
    (stops : isNameChar stop = false) (stops' : isNameChar stop' = false) :
    left = right ∧ stop = stop' ∧ rest = rest' := by
  have splitLeft := span_append left.plain stops rest
  have splitRight := span_append right.plain stops' rest'
  rw [same] at splitLeft
  have chars : left.chars = right.chars := splitLeft.1.symm.trans splitRight.1
  have tails := splitLeft.2.symm.trans splitRight.2
  rw [List.cons.injEq] at tails
  refine ⟨?_, tails⟩
  cases left
  cases right
  cases chars
  rfl

/-- What follows a word tells where the word ends. -/
theorem Derivation.tree_eq_of_word_append {left right : Derivation} {rest rest' : List Char}
    (same : left.word ++ rest = right.word ++ rest') :
    left.tree = right.tree ∧ rest = rest' ∧ left.word = right.word := by
  have readLeft := read?_word_append left rest
  have readRight := read?_word_append right rest'
  rw [same, readRight, Option.some.injEq, Prod.mk.injEq] at readLeft
  obtain ⟨trees, rests⟩ := readLeft
  subst rests
  exact ⟨trees.symm, rfl, List.append_cancel_right same⟩

theorem Derivation.tree_eq_of_word {left right : Derivation} (same : left.word = right.word) :
    left.tree = right.tree :=
  (tree_eq_of_word_append (congrArg (· ++ []) same)).1

theorem words_eq_of_append {left right : List Derivation} {close : Char}
    (foreign : close ∉ wordLeads) {rest rest' : List Char}
    (same : words left ++ close :: rest = words right ++ close :: rest') :
    rest = rest' ∧ words left = words right := by
  have readLeft := readUntil?_words_append left foreign rest
  have readRight := readUntil?_words_append right foreign rest'
  rw [same, readRight, Option.some.injEq, Prod.mk.injEq] at readLeft
  obtain ⟨_, rests⟩ := readLeft
  subst rests
  exact ⟨rfl, List.append_cancel_right same⟩

mutual

theorem Derivation.eq_of_word : (left right : Derivation) → left.word = right.word → left = right
  | .primitive type, right, same => by
      have trees := Derivation.tree_eq_of_word same
      cases right with
      | primitive other =>
          cases trees
          rfl
      | _ => cases trees
  | .unbounded, right, same => by
      have trees := Derivation.tree_eq_of_word same
      cases right with
      | unbounded => rfl
      | _ => cases trees
  | .array element, right, same => by
      have trees := Derivation.tree_eq_of_word same
      cases right with
      | array other =>
          have inner := Derivation.eq_of_word element other (List.tail_eq_of_cons_eq same)
          rw [inner]
      | _ => cases trees
  | .bounded bound inner, right, same => by
      have trees := Derivation.tree_eq_of_word same
      cases right with
      | bounded other limit =>
          have inners := Derivation.eq_of_word inner limit (List.tail_eq_of_cons_eq same)
          rw [Derivation.tree, Derivation.tree, TypeSignature.bounded.injEq] at trees
          rw [inners, trees.1]
      | _ => cases trees
  | .variable name, right, same => by
      have trees := Derivation.tree_eq_of_word same
      cases right with
      | «variable» other =>
          cases name
          cases other
          cases trees
          rfl
      | _ => cases trees
  | .object lead body, right, same => by
      have trees := Derivation.tree_eq_of_word same
      cases right with
      | object other inner =>
          have bodies := ClassBody.eq_of_word body inner (List.tail_eq_of_cons_eq same)
          have codes := List.head_eq_of_cons_eq same
          rw [bodies, ClassLead.code_injective codes]
      | _ => cases trees

theorem ClassBody.eq_of_word : (left right : ClassBody) → left.word = right.word → left = right
  | .plain piece, .plain piece', same => by
      obtain ⟨pieces, -, -⟩ := Piece.eq_of_append same rfl rfl
      rw [pieces]
  | .plain piece, .applied piece' inner', same => by
      obtain ⟨-, stops, -⟩ := Piece.eq_of_append same rfl rfl
      cases stops
  | .plain piece, .member piece' inner' later', same => by
      obtain ⟨-, stops, -⟩ := Piece.eq_of_append same rfl rfl
      cases stops
  | .applied piece inner, .plain piece', same => by
      obtain ⟨-, stops, -⟩ := Piece.eq_of_append same rfl rfl
      cases stops
  | .applied piece inner, .applied piece' inner', same => by
      obtain ⟨pieces, -, blocks⟩ := Piece.eq_of_append same rfl rfl
      obtain ⟨-, listed⟩ := words_eq_of_append angle_foreign blocks
      rw [pieces, eq_of_words inner inner' listed]
  | .applied piece inner, .member piece' inner' later', same => by
      obtain ⟨-, -, blocks⟩ := Piece.eq_of_append same rfl rfl
      obtain ⟨ends, -⟩ := words_eq_of_append angle_foreign blocks
      cases ends
  | .member piece inner later, .plain piece', same => by
      obtain ⟨-, stops, -⟩ := Piece.eq_of_append same rfl rfl
      cases stops
  | .member piece inner later, .applied piece' inner', same => by
      obtain ⟨-, -, blocks⟩ := Piece.eq_of_append same rfl rfl
      obtain ⟨ends, -⟩ := words_eq_of_append angle_foreign blocks
      cases ends
  | .member piece inner later, .member piece' inner' later', same => by
      obtain ⟨pieces, -, blocks⟩ := Piece.eq_of_append same rfl rfl
      obtain ⟨ends, listed⟩ := words_eq_of_append angle_foreign blocks
      have further := ClassBody.eq_of_word later later' (List.tail_eq_of_cons_eq ends)
      rw [pieces, eq_of_words inner inner' listed, further]

theorem eq_of_words : (left right : List Derivation) → words left = words right → left = right
  | [], [], _ => rfl
  | [], first :: others, same => by
      obtain ⟨lead, _, word, written⟩ := first.exists_word_eq_cons
      rw [words, words, written] at same
      cases same
  | first :: others, [], same => by
      obtain ⟨lead, _, word, written⟩ := first.exists_word_eq_cons
      rw [words, words, written] at same
      cases same
  | first :: others, first' :: others', same => by
      obtain ⟨_, later, now⟩ := Derivation.tree_eq_of_word_append same
      rw [Derivation.eq_of_word first first' now, eq_of_words others others' later]

end

theorem Derivation.eq_of_word_append {left right : Derivation} {rest rest' : List Char}
    (same : left.word ++ rest = right.word ++ rest') : left = right ∧ rest = rest' := by
  obtain ⟨_, rests, now⟩ := tree_eq_of_word_append same
  exact ⟨Derivation.eq_of_word left right now, rests⟩

/-! ### The reader and its grammar -/

theorem read?_eq_some_iff {text : List Char} {type : TypeSignature} {rest : List Char} :
    read? text = some (type, rest) ↔ ∃ word, text = word ++ rest ∧ Derives word type := by
  constructor
  · intro found
    obtain ⟨derivation, written, tree⟩ := exists_derivation_of_read? text found
    exact ⟨derivation.word, written.symm, derivation, rfl, tree⟩
  · rintro ⟨word, same, derivation, written, tree⟩
    rw [same, ← written, ← tree]
    exact read?_word_append derivation rest

theorem readUntil?_eq_some_iff {close : Char} (foreign : close ∉ wordLeads) {text : List Char}
    {types : List TypeSignature} {rest : List Char} :
    readUntil? close text = some (types, rest) ↔
      ∃ derivations, text = words derivations ++ close :: rest ∧ trees derivations = types := by
  constructor
  · intro found
    obtain ⟨derivations, written, listed⟩ := exists_words_of_readUntil? text found
    exact ⟨derivations, written.symm, listed⟩
  · rintro ⟨derivations, written, listed⟩
    rw [written, ← listed]
    exact readUntil?_words_append derivations foreign rest

theorem rest_of_read? {text : List Char} {type : TypeSignature} {rest : List Char}
    (found : read? text = some (type, rest)) : rest <:+ text ∧ rest ≠ text := by
  obtain ⟨word, same, _⟩ := read?_eq_some_iff.mp found
  refine ⟨⟨word, same.symm⟩, ?_⟩
  intro unused
  have shorter := length_read? found
  rw [unused] at shorter
  exact Nat.lt_irrefl _ shorter

theorem ofText?_eq_some_iff_derives {text : List Char} {type : TypeSignature} :
    ofText? text = some type ↔ Derives text type := by
  rw [ofText?_eq_some_iff, read?_eq_some_iff]
  constructor
  · rintro ⟨word, same, derives⟩
    rw [same, List.append_nil]
    exact derives
  · intro derives
    exact ⟨text, (List.append_nil text).symm, derives⟩

theorem readable_of_derives {text : String} {type : TypeSignature}
    (derives : Derives text.toList type) : readable text = type.render := by
  rw [readable, readableChars_of_ofText? (ofText?_eq_some_iff_derives.mpr derives)]
  rfl

theorem readable_of_not_derives {text : String}
    (foreign : ¬ ∃ type, Derives text.toList type) : readable text = text := by
  have unread : ofText? text.toList = none := by
    rw [Option.eq_none_iff_forall_ne_some]
    intro type found
    exact foreign ⟨type, ofText?_eq_some_iff_derives.mp found⟩
  rw [readable, readableChars_of_none unread, String.ofList_toList]

/-- The reader answers with a tree and a rest exactly if the text is a word deriving the
tree with the rest behind it. A text begins with one word at most, and that word has one
derivation. What is left over is a proper suffix. A whole text that is a word is shown as
the spelling of its tree, every other text as it is. -/
theorem reader_exact :
    (∀ text type rest, read? text = some (type, rest) ↔
      ∃ word, text = word ++ rest ∧ Derives word type) ∧
    (∀ (left right : Derivation) (rest rest' : List Char),
      left.word ++ rest = right.word ++ rest' → left = right ∧ rest = rest') ∧
    (∀ text type rest, read? text = some (type, rest) → rest <:+ text ∧ rest ≠ text) ∧
    (∀ text : String,
      (∀ type, Derives text.toList type → readable text = type.render) ∧
      ((¬ ∃ type, Derives text.toList type) → readable text = text)) := by
  refine ⟨?_, ?_, ?_, ?_⟩
  · intro text type rest
    exact read?_eq_some_iff
  · intro left right rest rest' same
    exact Derivation.eq_of_word_append same
  · intro text type rest found
    exact rest_of_read? found
  · intro text
    exact ⟨fun _ derives => readable_of_derives derives, readable_of_not_derives⟩

end ContentAssist.TypeSignature
