import ContentAssist.Protocol.Edit

/-! The source unit being completed. A question about it may fail, with a message saying why. -/

namespace ContentAssist

structure Failure where
  message : String
deriving DecidableEq, Repr

structure SourceUnit where
  uri : String
  packageName : Option String := none
  imports : List String := []
  enclosingTypeAt : Nat → Except Failure (Option String)
  positionAt : Nat → Except Failure Position

/-- An unresolved type and a failure both count as no type. -/
def SourceUnit.typeAt? (unit : SourceUnit) (offset : Nat) : Option String :=
  match unit.enclosingTypeAt offset with
  | .ok found => found
  | .error _ => none

def SourceUnit.lineAt? (unit : SourceUnit) (offset : Nat) : Option UInt32 :=
  match unit.positionAt offset with
  | .ok position => some position.line
  | .error _ => none

end ContentAssist
