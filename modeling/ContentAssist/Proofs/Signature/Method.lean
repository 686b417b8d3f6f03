import ContentAssist.Proofs.Signature.Reading
import ContentAssist.Signature.Method

/-! The parameters of a method are the words between the first opening parenthesis and the closing
one behind them, and no signature can be cut there in two ways. Unless a name has a parenthesis in
it, the return type is read where they end. -/

namespace ContentAssist

namespace TypeSignature

mutual

def Derivation.names : Derivation → List (List Char)
  | .primitive _ => []
  | .unbounded => []
  | .array element => element.names
  | .bounded _ inner => inner.names
  | .variable name => [name.chars]
  | .object _ body => body.names

def ClassBody.names : ClassBody → List (List Char)
  | .plain piece => [piece.chars]
  | .applied piece arguments => piece.chars :: namesOf arguments
  | .member piece arguments inner => piece.chars :: (namesOf arguments ++ inner.names)

def namesOf : List Derivation → List (List Char)
  | [] => []
  | first :: others => first.names ++ namesOf others

end

theorem words_eq_flatMap (derivations : List Derivation) :
    words derivations = derivations.flatMap Derivation.word := by
  induction derivations with
  | nil => rfl
  | cons first others ih => rw [words, ih, List.flatMap_cons]

theorem length_trees (derivations : List Derivation) :
    (trees derivations).length = derivations.length := by
  induction derivations with
  | nil => rfl
  | cons first others ih => rw [trees, List.length_cons, List.length_cons, ih]

def wordMarks : List Char :=
  wordLeads ++ ['<', '>', '.', ';']

private theorem ne_of_mem_wordMarks {c mark : Char} (foreign : c ∉ wordMarks)
    (listed : mark ∈ wordMarks) : c ≠ mark :=
  fun same => foreign (same ▸ listed)

private theorem code_mem_wordMarks (type : Primitive) : type.code ∈ wordMarks := by
  cases type <;> decide

mutual

/-- What is neither in a name nor a mark of the encoding is not in the word. -/
theorem Derivation.not_mem_word {c : Char} (foreign : c ∉ wordMarks) :
    (derivation : Derivation) → (∀ name ∈ derivation.names, c ∉ name) → c ∉ derivation.word
  | .primitive type, _ => by
      rw [Derivation.word, List.mem_singleton]
      exact ne_of_mem_wordMarks foreign (code_mem_wordMarks type)
  | .unbounded, _ => by
      rw [Derivation.word, List.mem_singleton]
      exact ne_of_mem_wordMarks foreign (by decide)
  | .array element, absent => by
      rw [Derivation.word, List.mem_cons, not_or]
      exact ⟨ne_of_mem_wordMarks foreign (by decide), element.not_mem_word foreign absent⟩
  | .bounded bound inner, absent => by
      rw [Derivation.word, List.mem_cons, not_or]
      exact ⟨ne_of_mem_wordMarks foreign (by cases bound <;> decide),
        inner.not_mem_word foreign absent⟩
  | .variable name, absent => by
      rw [Derivation.word, List.mem_cons, List.mem_append, List.mem_singleton, not_or, not_or]
      exact ⟨ne_of_mem_wordMarks foreign (by decide), absent name.chars List.mem_cons_self,
        ne_of_mem_wordMarks foreign (by decide)⟩
  | .object lead body, absent => by
      rw [Derivation.word, List.mem_cons, not_or]
      exact ⟨ne_of_mem_wordMarks foreign (by cases lead <;> decide),
        body.not_mem_word foreign absent⟩

theorem ClassBody.not_mem_word {c : Char} (foreign : c ∉ wordMarks) :
    (body : ClassBody) → (∀ name ∈ body.names, c ∉ name) → c ∉ body.word
  | .plain piece, absent => by
      rw [ClassBody.word, List.mem_append, List.mem_singleton, not_or]
      exact ⟨absent piece.chars List.mem_cons_self, ne_of_mem_wordMarks foreign (by decide)⟩
  | .applied piece inner, absent => by
      simp only [ClassBody.word, List.mem_append, List.mem_cons, List.not_mem_nil, or_false, not_or]
      exact ⟨absent piece.chars List.mem_cons_self, ne_of_mem_wordMarks foreign (by decide),
        not_mem_words foreign inner fun name listed => absent name (List.mem_cons_of_mem _ listed),
        ne_of_mem_wordMarks foreign (by decide), ne_of_mem_wordMarks foreign (by decide)⟩
  | .member piece inner later, absent => by
      simp only [ClassBody.word, List.mem_append, List.mem_cons, not_or]
      exact ⟨absent piece.chars List.mem_cons_self, ne_of_mem_wordMarks foreign (by decide),
        not_mem_words foreign inner fun name listed =>
          absent name (List.mem_cons_of_mem _ (List.mem_append_left _ listed)),
        ne_of_mem_wordMarks foreign (by decide), ne_of_mem_wordMarks foreign (by decide),
        later.not_mem_word foreign fun name listed =>
          absent name (List.mem_cons_of_mem _ (List.mem_append_right _ listed))⟩

theorem not_mem_words {c : Char} (foreign : c ∉ wordMarks) :
    (derivations : List Derivation) → (∀ name ∈ namesOf derivations, c ∉ name) →
      c ∉ words derivations
  | [], _ => List.not_mem_nil
  | first :: others, absent => by
      rw [words, List.mem_append, not_or]
      exact ⟨first.not_mem_word foreign fun name listed =>
          absent name (List.mem_append_left _ listed),
        not_mem_words foreign others fun name listed =>
          absent name (List.mem_append_right _ listed)⟩

end

end TypeSignature

namespace MethodSignature

open TypeSignature

/-- A method signature taken apart at the parentheses around its parameters. -/
structure Parts where
  front : List Char
  opens : '(' ∉ front
  parameters : List Derivation
  back : List Char

def Parts.text (parts : Parts) : List Char :=
  parts.front ++ '(' :: (words parts.parameters ++ ')' :: parts.back)

/-- Before the parenthesis that closes the parameters there is no other of its kind. -/
structure Parts.Clear (parts : Parts) : Prop where
  front : ')' ∉ parts.front
  parameters : ∀ parameter ∈ parts.parameters, ')' ∉ parameter.word

theorem parenthesis_foreign : ')' ∉ wordLeads := by
  decide

theorem after?_eq_some_iff {mark : Char} {text rest : List Char} :
    after? mark text = some rest ↔ ∃ front, mark ∉ front ∧ text = front ++ mark :: rest := by
  constructor
  · intro found
    unfold after? at found
    split at found
    next => cases found
    next stop after ends =>
      cases found
      have stops : stop = mark := by simpa using not_of_dropWhile ends
      subst stops
      refine ⟨_, ?_, (takeWhile_append_of_dropWhile ends).symm⟩
      intro member
      have passed := passed_of_mem_takeWhile stop member
      simp at passed
  · rintro ⟨front, absent, written⟩
    rw [written]
    exact after?_append absent

theorem parameters?_eq_some_iff {text : List Char} {types : List TypeSignature} :
    parameters? text = some types ↔
      ∃ parts : Parts, parts.text = text ∧ trees parts.parameters = types := by
  rw [parameters?, Option.bind_eq_some_iff]
  simp only [after?_eq_some_iff, Option.map_eq_some_iff, Prod.exists, exists_and_right,
    exists_eq_right, readUntil?_eq_some_iff parenthesis_foreign]
  constructor
  · rintro ⟨inside, ⟨front, opens, written⟩, back, parameters, written', listed⟩
    refine ⟨⟨front, opens, parameters, back⟩, ?_, listed⟩
    rw [written, written']
    rfl
  · rintro ⟨parts, written, listed⟩
    exact ⟨_, ⟨parts.front, parts.opens, written.symm⟩, parts.back, parts.parameters, rfl, listed⟩

theorem Parts.after?_text (parts : Parts) :
    after? '(' parts.text = some (words parts.parameters ++ ')' :: parts.back) :=
  after?_append parts.opens

theorem Parts.eq_of_text {parts other : Parts} (same : parts.text = other.text) :
    parts = other := by
  have inside : words parts.parameters ++ ')' :: parts.back =
      words other.parameters ++ ')' :: other.back := by
    have found := parts.after?_text
    rw [same, other.after?_text, Option.some.injEq] at found
    exact found.symm
  have fronts : parts.front = other.front := by
    rw [Parts.text, Parts.text, inside] at same
    exact List.append_cancel_right same
  obtain ⟨backs, listed⟩ := words_eq_of_append parenthesis_foreign inside
  have parameters := eq_of_words _ _ listed
  cases parts
  cases other
  cases fronts
  cases backs
  cases parameters
  rfl

theorem Parts.Clear.after? {parts : Parts} (clear : parts.Clear) :
    MethodSignature.after? ')' parts.text = some parts.back := by
  refine after?_eq_some_iff.mpr ⟨parts.front ++ '(' :: words parts.parameters, ?_, ?_⟩
  · intro member
    rw [words_eq_flatMap] at member
    rcases List.mem_append.mp member with before | member
    · exact clear.front before
    · rcases List.mem_cons.mp member with same | inside
      · cases same
      · obtain ⟨parameter, listed, written⟩ := List.mem_flatMap.mp inside
        exact clear.parameters parameter listed written
  · rw [Parts.text, List.append_assoc, List.cons_append]

theorem Parts.Clear.return?_eq_some_iff {parts : Parts} (clear : parts.Clear)
    {type : TypeSignature} :
    return? parts.text = some type ↔
      ∃ word rest, parts.back = word ++ rest ∧ Derives word type := by
  rw [return?, clear.after?, Option.bind_some, Option.map_eq_some_iff]
  constructor
  · rintro ⟨⟨found, rest⟩, read, same⟩
    cases same
    obtain ⟨word, written, derives⟩ := read?_eq_some_iff.mp read
    exact ⟨word, rest, written, derives⟩
  · rintro ⟨word, rest, written, derives⟩
    exact ⟨(type, rest), read?_eq_some_iff.mpr ⟨word, written, derives⟩, rfl⟩

theorem Parts.clear_of_names {parts : Parts} (front : ')' ∉ parts.front)
    (names : ∀ name ∈ namesOf parts.parameters, ')' ∉ name) : parts.Clear where
  front := front
  parameters parameter listed written := by
    have absent := not_mem_words (by decide) parts.parameters names
    rw [words_eq_flatMap] at absent
    exact absent (List.mem_flatMap.mpr ⟨parameter, listed, written⟩)

theorem returnType?_eq_some_iff {signature rendered : String} :
    returnType? signature = some rendered ↔
      ∃ type, return? signature.toList = some type ∧ type.render = rendered := by
  rw [returnType?, Option.map_eq_some_iff]

theorem parameterTypes?_of_text {signature : String} {parts : Parts}
    (written : parts.text = signature.toList) :
    parameterTypes? signature = some ((trees parts.parameters).map render) := by
  rw [parameterTypes?, parameters?_eq_some_iff.mpr ⟨parts, written, rfl⟩]
  rfl

/-- The parameter types are known exactly if the signature can be cut at its parentheses, which is
possible in one way at most, and they are the spellings of the words in between. If there is no
other closing parenthesis up to there, the return type is read from the text behind. What is encoded
with names that are free of parentheses is decoded to the same types. -/
theorem decoded_exactly (signature : String) :
    (∀ types, parameterTypes? signature = some types ↔
      ∃ parts : Parts, parts.text = signature.toList ∧
        (trees parts.parameters).map render = types) ∧
      ∀ parts : Parts, parts.text = signature.toList →
        (∀ other : Parts, other.text = signature.toList → other = parts) ∧
        parameterCount? signature = some parts.parameters.length ∧
        (parts.Clear →
          after? ')' signature.toList = some parts.back ∧
          (∀ type, return? signature.toList = some type ↔
            ∃ word rest, parts.back = word ++ rest ∧ Derives word type) ∧
          ∀ rendered, returnType? signature = some rendered ↔
            ∃ type word rest, parts.back = word ++ rest ∧ Derives word type ∧
              type.render = rendered) ∧
        (')' ∉ parts.front → (∀ name ∈ namesOf parts.parameters, ')' ∉ name) →
          ∀ result : Derivation, parts.back = result.word →
            parameterTypes? signature = some ((trees parts.parameters).map render) ∧
            returnType? signature = some result.tree.render) := by
  constructor
  · intro types
    rw [parameterTypes?, Option.map_eq_some_iff]
    simp only [parameters?_eq_some_iff]
    constructor
    · rintro ⟨_, ⟨parts, written, rfl⟩, rendered⟩
      exact ⟨parts, written, rendered⟩
    · rintro ⟨parts, written, rendered⟩
      exact ⟨_, ⟨parts, written, rfl⟩, rendered⟩
  · intro parts written
    have result (clear : parts.Clear) (type : TypeSignature) :
        return? signature.toList = some type ↔
          ∃ word rest, parts.back = word ++ rest ∧ Derives word type := by
      rw [← written]
      exact clear.return?_eq_some_iff
    refine ⟨?_, ?_, ?_, ?_⟩
    · intro other written'
      exact Parts.eq_of_text (written'.trans written.symm)
    · rw [parameterCount?, parameterTypes?_of_text written, Option.map_some, List.length_map,
        length_trees]
    · intro clear
      refine ⟨written ▸ clear.after?, result clear, ?_⟩
      intro rendered
      simp only [returnType?_eq_some_iff, result clear]
      constructor
      · rintro ⟨type, ⟨word, rest, split, derives⟩, spelled⟩
        exact ⟨type, word, rest, split, derives, spelled⟩
      · rintro ⟨type, word, rest, split, derives, spelled⟩
        exact ⟨type, ⟨word, rest, split, derives⟩, spelled⟩
    · intro front names derivation encoded
      refine ⟨parameterTypes?_of_text written, ?_⟩
      have clear := Parts.clear_of_names front names
      refine returnType?_eq_some_iff.mpr ⟨derivation.tree, (result clear _).mpr ?_, rfl⟩
      exact ⟨derivation.word, [], by rw [encoded, List.append_nil], derivation, rfl, rfl⟩

-- A name with a parenthesis in it: the parameter is read, and the return type is not found.
example : parameterTypes? "(L);I)V" = some [")", "int"] ∧ returnType? "(L);I)V" = none := by
  cbv

end MethodSignature

end ContentAssist
