import ContentAssist.Signature.Tree

/-! Reading an encoded type from the front of a text. Every reader returns the rest of the text with
the proof that it is shorter, which bounds all recursion. -/

namespace ContentAssist.TypeSignature

structure Found (α : Type) (text : List Char) where
  value : α
  rest : List Char
  shorter : rest.length < text.length

namespace Found

def map {α β : Type} {text : List Char} (f : α → β) (found : Found α text) : Found β text :=
  ⟨f found.value, found.rest, found.shorter⟩

def widen {α : Type} {text longer : List Char} (found : Found α text)
    (longerText : text.length ≤ longer.length) : Found α longer :=
  ⟨found.value, found.rest, Nat.lt_of_lt_of_le found.shorter longerText⟩

def pair {α : Type} {text : List Char} (found : Found α text) : α × List Char :=
  (found.value, found.rest)

end Found

def isNameChar (c : Char) : Bool :=
  c != '<' && c != ';'

theorem length_dropWhile_le (p : Char → Bool) (text : List Char) :
    (text.dropWhile p).length ≤ text.length := by
  induction text with
  | nil => exact Nat.le_refl _
  | cons c text ih =>
      rw [List.dropWhile_cons]
      split
      · exact Nat.le_succ_of_le ih
      · exact Nat.le_refl _

theorem length_of_dropWhile {p : Char → Bool} {text rest : List Char} {stop : Char}
    (ends : text.dropWhile p = stop :: rest) : rest.length < text.length := by
  have whole := length_dropWhile_le p text
  rw [ends, List.length_cons] at whole
  exact whole

mutual

def find : (text : List Char) → Option (Found TypeSignature text)
  | [] => none
  | lead :: text =>
      if lead = 'L' ∨ lead = 'Q' then
        (findObject [] [] text).map (·.widen (Nat.le_succ _))
      else if lead = 'T' then
        match ends : text.dropWhile (· != ';') with
        | [] => none
        | _ :: rest =>
            some ⟨.variable (text.takeWhile (· != ';')), rest,
              Nat.lt_succ_of_lt (length_of_dropWhile ends)⟩
      else if lead = '[' then
        (find text).map (fun element => (element.map .array).widen (Nat.le_succ _))
      else if lead = '*' then
        some ⟨.unbounded, text, Nat.lt_succ_self _⟩
      else if lead = '+' then
        (find text).map (fun type => (type.map (.bounded .upper)).widen (Nat.le_succ _))
      else if lead = '-' then
        (find text).map (fun type => (type.map (.bounded .lower)).widen (Nat.le_succ _))
      else
        (Primitive.ofCode? lead).map (fun type => ⟨.primitive type, text, Nat.lt_succ_self _⟩)
termination_by text => (text.length, 0)

/-- `name` and `arguments` are what the pieces before have given; later arguments take the place of
earlier ones. -/
def findObject (name : List Char) (arguments : List TypeSignature) (text : List Char) :
    Option (Found TypeSignature text) :=
  match ends : text.dropWhile isNameChar with
  | [] => none
  | stop :: rest =>
      have bound : rest.length < text.length := length_of_dropWhile ends
      let longer := name ++ text.takeWhile isNameChar
      if stop = ';' then some ⟨.object longer arguments, rest, bound⟩
      else
        match findUntil '>' rest with
        | none => none
        | some ⟨_, [], _⟩ => none
        | some ⟨inner, next :: after, shorter⟩ =>
            have afterShorter : after.length + 1 < text.length := by
              rw [List.length_cons] at shorter
              omega
            if next = '.' then
              (findObject (longer ++ ['.']) inner after).map (·.widen (by omega))
            else if next = ';' then some ⟨.object longer inner, after, by omega⟩
            else none
termination_by (text.length, 0)

def findUntil (close : Char) (text : List Char) : Option (Found (List TypeSignature) text) :=
  match text with
  | [] => none
  | c :: rest =>
      if c = close then some ⟨[], rest, Nat.lt_succ_self _⟩
      else
        match find (c :: rest) with
        | none => none
        | some ⟨type, after, shorter⟩ =>
            (findUntil close after).map
              (fun types => (types.map (type :: ·)).widen (by omega))
termination_by (text.length, 1)

end

def read? (text : List Char) : Option (TypeSignature × List Char) :=
  (find text).map Found.pair

def readObject? (name : List Char) (arguments : List TypeSignature) (text : List Char) :
    Option (TypeSignature × List Char) :=
  (findObject name arguments text).map Found.pair

def readUntil? (close : Char) (text : List Char) : Option (List TypeSignature × List Char) :=
  (findUntil close text).map Found.pair

def ofText? (text : List Char) : Option TypeSignature :=
  match read? text with
  | some (type, []) => some type
  | _ => none

theorem length_read? {text rest : List Char} {type : TypeSignature}
    (found : read? text = some (type, rest)) : rest.length < text.length := by
  simp only [read?, Option.map_eq_some_iff] at found
  obtain ⟨value, _, same⟩ := found
  cases same
  exact value.shorter

theorem length_readUntil? {close : Char} {text rest : List Char} {types : List TypeSignature}
    (found : readUntil? close text = some (types, rest)) : rest.length < text.length := by
  simp only [readUntil?, Option.map_eq_some_iff] at found
  obtain ⟨value, _, same⟩ := found
  cases same
  exact value.shorter

theorem ofText?_eq_some_iff {text : List Char} {type : TypeSignature} :
    ofText? text = some type ↔ read? text = some (type, []) := by
  unfold ofText?
  split
  next other found => simp [found]
  next partly =>
      constructor
      · intro impossible
        cases impossible
      · intro found
        exact absurd found (partly type)

private theorem map_pair_widen {α β : Type} {text longer : List Char} (f : α → β)
    (bound : text.length ≤ longer.length) (found : Option (Found α text)) :
    (found.map (fun inner => (inner.map f).widen bound)).map Found.pair =
      (found.map Found.pair).map (fun read => (f read.1, read.2)) := by
  cases found <;> rfl

private theorem map_pair_widen_id {α : Type} {text longer : List Char}
    (bound : text.length ≤ longer.length) (found : Option (Found α text)) :
    (found.map (fun inner => inner.widen bound)).map Found.pair = found.map Found.pair := by
  cases found <;> rfl

@[simp] theorem read?_nil : read? [] = none := by
  rw [read?, find]
  rfl

theorem read?_object {lead : Char} (isLead : lead = 'L' ∨ lead = 'Q') (text : List Char) :
    read? (lead :: text) = readObject? [] [] text := by
  rw [read?, find, if_pos isLead, map_pair_widen_id]
  rfl

theorem read?_variable (text : List Char) :
    read? ('T' :: text) =
      match text.dropWhile (· != ';') with
      | [] => none
      | _ :: rest => some (.variable (text.takeWhile (· != ';')), rest) := by
  rw [read?, find, if_neg (by decide), if_pos rfl]
  split
  next nothing => simp [nothing]
  next found => simp [found, Found.pair]

theorem read?_array (text : List Char) :
    read? ('[' :: text) = (read? text).map fun read => (.array read.1, read.2) := by
  rw [read?, find, if_neg (by decide), if_neg (by decide), if_pos rfl, map_pair_widen]
  rfl

theorem read?_unbounded (text : List Char) : read? ('*' :: text) = some (.unbounded, text) := by
  rw [read?, find, if_neg (by decide), if_neg (by decide), if_neg (by decide), if_pos rfl]
  rfl

theorem read?_bounded (bound : Bound) (text : List Char) :
    read? (bound.code :: text) =
      (read? text).map fun read => (.bounded bound read.1, read.2) := by
  cases bound <;>
    simp only [Bound.code, read?] <;>
    rw [find] <;>
    simp only [Char.reduceEq, or_self, if_false, if_true, map_pair_widen]

theorem read?_primitive (primitive : Primitive) (text : List Char) :
    read? (primitive.code :: text) = some (.primitive primitive, text) := by
  cases primitive <;>
    simp only [Primitive.code, read?] <;>
    rw [find] <;>
    rfl

theorem read?_other {lead : Char} (notObject : ¬ (lead = 'L' ∨ lead = 'Q'))
    (notVariable : lead ≠ 'T') (notArray : lead ≠ '[') (notUnbounded : lead ≠ '*')
    (notBounded : ∀ bound : Bound, lead ≠ bound.code) (text : List Char) :
    read? (lead :: text) =
      (Primitive.ofCode? lead).map fun type => (.primitive type, text) := by
  have notUpper : lead ≠ '+' := notBounded .upper
  have notLower : lead ≠ '-' := notBounded .lower
  rw [read?, find, if_neg notObject, if_neg notVariable, if_neg notArray, if_neg notUnbounded,
    if_neg notUpper, if_neg notLower, Option.map_map]
  rfl

theorem readObject?_eq (name : List Char) (arguments : List TypeSignature) (text : List Char) :
    readObject? name arguments text =
      match text.dropWhile isNameChar with
      | [] => none
      | stop :: rest =>
          if stop = ';' then some (.object (name ++ text.takeWhile isNameChar) arguments, rest)
          else
            match readUntil? '>' rest with
            | some (inner, '.' :: after) =>
                readObject? (name ++ text.takeWhile isNameChar ++ ['.']) inner after
            | some (inner, ';' :: after) =>
                some (.object (name ++ text.takeWhile isNameChar) inner, after)
            | _ => none := by
  rw [readObject?, findObject]
  split
  next nothing => simp [nothing]
  next stop rest ends =>
      simp only [ends, readUntil?]
      by_cases stopped : stop = ';'
      · simp [stopped, Found.pair]
      · simp only [stopped, if_false]
        cases findUntil '>' rest with
        | none => rfl
        | some found =>
            obtain ⟨inner, after, shorter⟩ := found
            cases after with
            | nil => rfl
            | cons next after =>
                by_cases dot : next = '.'
                · subst dot
                  simp only [if_true, map_pair_widen_id]
                  rfl
                · by_cases semicolon : next = ';'
                  · subst semicolon
                    rfl
                  · simp [dot, semicolon, Found.pair]

@[simp] theorem readUntil?_nil (close : Char) : readUntil? close [] = none := by
  rw [readUntil?, findUntil]
  rfl

@[simp] theorem readUntil?_close (close : Char) (text : List Char) :
    readUntil? close (close :: text) = some ([], text) := by
  rw [readUntil?, findUntil, if_pos rfl]
  rfl

theorem readUntil?_cons {close c : Char} (further : c ≠ close) (text : List Char) :
    readUntil? close (c :: text) =
      (read? (c :: text)).bind fun first =>
        (readUntil? close first.2).map fun later => (first.1 :: later.1, later.2) := by
  rw [readUntil?, findUntil, if_neg further, read?]
  cases find (c :: text) with
  | none => rfl
  | some found =>
      obtain ⟨type, after, shorter⟩ := found
      simp only [map_pair_widen]
      rfl

end ContentAssist.TypeSignature
