/-! Type signatures as trees and their spelling in source code, such as `java.util.List<T[]>`. -/

namespace ContentAssist

inductive Primitive where
  | void | byte | char | double | float | int | long | short | boolean
deriving DecidableEq, Repr

namespace Primitive

def all : List Primitive :=
  [void, byte, char, double, float, int, long, short, boolean]

def code : Primitive → Char
  | void => 'V'
  | byte => 'B'
  | char => 'C'
  | double => 'D'
  | float => 'F'
  | int => 'I'
  | long => 'J'
  | short => 'S'
  | boolean => 'Z'

def ofCode? (c : Char) : Option Primitive :=
  all.find? (fun primitive => primitive.code == c)

def name : Primitive → String
  | void => "void"
  | byte => "byte"
  | char => "char"
  | double => "double"
  | float => "float"
  | int => "int"
  | long => "long"
  | short => "short"
  | boolean => "boolean"

@[simp] theorem ofCode?_code (primitive : Primitive) :
    ofCode? primitive.code = some primitive := by
  cases primitive <;> rfl

theorem code_of_ofCode? {c : Char} {primitive : Primitive}
    (found : ofCode? c = some primitive) : primitive.code = c := by
  simpa using List.find?_some found

end Primitive

inductive Bound where
  | upper | lower
deriving DecidableEq, Repr

def Bound.code : Bound → Char
  | .upper => '+'
  | .lower => '-'

def Bound.lead : Bound → String
  | .upper => "? extends "
  | .lower => "? super "

inductive TypeSignature where
  | object (name : List Char) (arguments : List TypeSignature)
  | variable (name : List Char)
  | array (element : TypeSignature)
  | primitive (type : Primitive)
  | unbounded
  | bounded (bound : Bound) (type : TypeSignature)

namespace TypeSignature

def bracketed : List (List Char) → List Char
  | [] => []
  | first :: others => '<' :: first ++ others.flatMap (',' :: ·) ++ ['>']

mutual

def spell : TypeSignature → List Char
  | object name arguments => name ++ bracketed (spellEach arguments)
  | .variable name => name
  | array element => spell element ++ ['[', ']']
  | primitive type => type.name.toList
  | unbounded => ['?']
  | bounded bound type => bound.lead.toList ++ spell type

def spellEach : List TypeSignature → List (List Char)
  | [] => []
  | first :: others => spell first :: spellEach others

end

def render (type : TypeSignature) : String :=
  String.ofList type.spell

end TypeSignature

end ContentAssist
