/-! Globs over type names. Neither a star nor a question mark stands for a line feed. `Glob.accepts`
decides `Glob.Matches` in time proportional to the product of the two lengths. -/

namespace ContentAssist

inductive Glob.Part where
  | exactly (c : Char)
  | anyChar
  | anyRun
deriving DecidableEq, Repr

abbrev Glob := List Glob.Part

namespace Glob

def ofChars (pattern : List Char) : Glob :=
  pattern.map fun c =>
    if c = '*' then .anyRun
    else if c = '?' then .anyChar
    else .exactly c

def isWild (c : Char) : Bool :=
  c != '\n'

inductive Matches : Glob → List Char → Prop
  | done : Matches [] []
  | exactly {glob : Glob} {text : List Char} (c : Char) (rest : Matches glob text) :
      Matches (.exactly c :: glob) (c :: text)
  | anyChar {glob : Glob} {text : List Char} {c : Char} (wild : isWild c)
      (rest : Matches glob text) : Matches (.anyChar :: glob) (c :: text)
  | anyRun {glob : Glob} {text : List Char} (run : List Char) (wild : ∀ c ∈ run, isWild c)
      (rest : Matches glob text) : Matches (.anyRun :: glob) (run ++ text)

/-- Answers for all tails of a glob, the whole glob first. -/
abbrev Row := List Bool

def first (row : Row) : Bool :=
  row.headD false

def emptyRow : Glob → Row
  | [] => [true]
  | part :: glob =>
      let below := emptyRow glob
      (part == .anyRun && first below) :: below

def extendRow (c : Char) : Glob → Row → Row
  | [], _ => [false]
  | part :: glob, row =>
      let below := extendRow c glob row.tail
      let answer :=
        match part with
        | .exactly expected => c == expected && first row.tail
        | .anyChar => isWild c && first row.tail
        | .anyRun => first below || (isWild c && first row)
      answer :: below

def rowFor (glob : Glob) : List Char → Row
  | [] => emptyRow glob
  | c :: text => extendRow c glob (rowFor glob text)

def accepts (glob : Glob) (text : List Char) : Bool :=
  first (rowFor glob text)

private theorem tail_rowFor (part : Part) (glob : Glob) (text : List Char) :
    (rowFor (part :: glob) text).tail = rowFor glob text := by
  induction text with
  | nil => rfl
  | cons c text ih =>
      change extendRow c glob (rowFor (part :: glob) text).tail =
        extendRow c glob (rowFor glob text)
      rw [ih]

@[simp] theorem accepts_nil_nil : accepts [] [] = true := rfl

@[simp] theorem accepts_nil_cons (c : Char) (text : List Char) :
    accepts [] (c :: text) = false := rfl

@[simp] theorem accepts_cons_nil (part : Part) (glob : Glob) :
    accepts (part :: glob) [] = (part == .anyRun && accepts glob []) := rfl

@[simp] theorem accepts_exactly (expected c : Char) (glob : Glob) (text : List Char) :
    accepts (.exactly expected :: glob) (c :: text) = (c == expected && accepts glob text) := by
  change (c == expected && first (rowFor (.exactly expected :: glob) text).tail) = _
  rw [tail_rowFor, accepts]

@[simp] theorem accepts_anyChar (c : Char) (glob : Glob) (text : List Char) :
    accepts (.anyChar :: glob) (c :: text) = (isWild c && accepts glob text) := by
  change (isWild c && first (rowFor (.anyChar :: glob) text).tail) = _
  rw [tail_rowFor, accepts]

theorem accepts_anyRun (c : Char) (glob : Glob) (text : List Char) :
    accepts (.anyRun :: glob) (c :: text) =
      (accepts glob (c :: text) || (isWild c && accepts (.anyRun :: glob) text)) := by
  change (first (extendRow c glob (rowFor (.anyRun :: glob) text).tail) || _) = _
  rw [tail_rowFor]
  rfl

private theorem accepts_of_matches {glob : Glob} {text : List Char}
    (matched : Matches glob text) : accepts glob text := by
  induction matched with
  | done => rfl
  | exactly c rest ih => simp [ih]
  | anyChar wild rest ih => simp [ih, wild]
  | @anyRun glob text run wild rest ih =>
      induction run with
      | nil =>
          cases text with
          | nil => simp [ih]
          | cons c text => simp [accepts_anyRun, ih]
      | cons c run ihRun =>
          have later := ihRun (fun other member => wild other (by simp [member]))
          simp [accepts_anyRun, later, wild c (by simp)]

private theorem matches_anyRun_cons {glob : Glob} {c : Char} {text : List Char}
    (wild : isWild c) (matched : Matches (.anyRun :: glob) text) :
    Matches (.anyRun :: glob) (c :: text) := by
  cases matched with
  | anyRun run wildRun rest =>
      refine Matches.anyRun (c :: run) ?_ rest
      intro other member
      rcases List.mem_cons.mp member with same | later
      · exact same ▸ wild
      · exact wildRun other later

private theorem matches_of_accepts (glob : Glob) (text : List Char)
    (accepted : accepts glob text) : Matches glob text := by
  induction glob generalizing text with
  | nil =>
      cases text with
      | nil => exact .done
      | cons c text => simp at accepted
  | cons part glob ih =>
      induction text with
      | nil =>
          simp only [accepts_cons_nil, Bool.and_eq_true, beq_iff_eq] at accepted
          obtain ⟨same, rest⟩ := accepted
          subst same
          exact .anyRun [] (by simp) (ih [] rest)
      | cons c text ihText =>
          cases part with
          | exactly expected =>
              simp only [accepts_exactly, Bool.and_eq_true, beq_iff_eq] at accepted
              obtain ⟨same, rest⟩ := accepted
              subst same
              exact .exactly c (ih text rest)
          | anyChar =>
              simp only [accepts_anyChar, Bool.and_eq_true] at accepted
              exact .anyChar accepted.1 (ih text accepted.2)
          | anyRun =>
              simp only [accepts_anyRun, Bool.or_eq_true, Bool.and_eq_true] at accepted
              rcases accepted with empty | longer
              · exact .anyRun [] (by simp) (ih (c :: text) empty)
              · exact matches_anyRun_cons longer.1 (ihText longer.2)

theorem accepts_iff {glob : Glob} {text : List Char} :
    accepts glob text = true ↔ Matches glob text :=
  ⟨matches_of_accepts glob text, accepts_of_matches⟩

end Glob

end ContentAssist
