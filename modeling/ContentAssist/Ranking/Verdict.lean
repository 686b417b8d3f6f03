import Std.Data.ExtTreeMap

/-! Opinions of ranking providers on a proposal, and the verdict they add up to. -/

namespace ContentAssist

abbrev Notes := Std.ExtTreeMap String String

/-- The decorator is shown before the label. -/
structure Opinion where
  score : Int32 := 0
  decorator : Option String := none
  notes : Option Notes := none

structure Verdict where
  score : Int32 := 0
  decorators : String := ""
  notes : Notes := ∅

namespace Verdict

/-- Scores wrap around, and of two notes under one key the later stays. -/
def add (verdict : Verdict) (opinion : Opinion) : Verdict :=
  { score := verdict.score + opinion.score
    decorators := verdict.decorators ++ opinion.decorator.getD ""
    notes := verdict.notes ∪ opinion.notes.getD ∅ }

def merge : Option Verdict → Option Opinion → Option Verdict
  | verdict, none => verdict
  | verdict, some opinion => some ((verdict.getD {}).add opinion)

end Verdict

end ContentAssist
