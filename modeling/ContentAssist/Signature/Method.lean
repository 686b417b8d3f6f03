import ContentAssist.Signature.Reader

/-! Method signatures: perhaps type parameters, parameter types in parentheses, a return type. -/

namespace ContentAssist.MethodSignature

def after? (mark : Char) (text : List Char) : Option (List Char) :=
  match text.dropWhile (· != mark) with
  | [] => none
  | _ :: rest => some rest

def parameters? (text : List Char) : Option (List TypeSignature) :=
  (after? '(' text).bind fun rest =>
    (TypeSignature.readUntil? ')' rest).map (·.1)

/-- The type after the first closing parenthesis; what follows it is not looked at. -/
def return? (text : List Char) : Option TypeSignature :=
  (after? ')' text).bind fun rest => (TypeSignature.read? rest).map (·.1)

def parameterTypes? (signature : String) : Option (List String) :=
  (parameters? signature.toList).map (·.map TypeSignature.render)

def returnType? (signature : String) : Option String :=
  (return? signature.toList).map TypeSignature.render

def parameterCount? (signature : String) : Option Nat :=
  (parameterTypes? signature).map List.length

theorem after?_append {mark : Char} {front rest : List Char} (absent : mark ∉ front) :
    after? mark (front ++ mark :: rest) = some rest := by
  have passed : ∀ c ∈ front, (c != mark) = true := by
    intro c member
    have different : c ≠ mark := fun same => absent (same ▸ member)
    simpa using different
  simp [after?, List.dropWhile_append_of_pos passed]

end ContentAssist.MethodSignature
