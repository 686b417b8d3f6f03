import ContentAssist.Glob
import ContentAssist.Signature.Readable
import ContentAssist.Text.Blank

/-! Types hidden by globs over qualified names. A glob hides what it matches and its members. -/

namespace ContentAssist

/-- A pattern without blanks at its ends, and never empty. -/
structure HiddenTypes where
  patterns : List String := []
deriving DecidableEq, Repr

namespace HiddenTypes

def ofPatterns (patterns : List String) : HiddenTypes :=
  ⟨(patterns.map Text.trimBlank).filter (fun pattern => !pattern.isEmpty)⟩

def isEmpty (hidden : HiddenTypes) : Bool :=
  hidden.patterns.isEmpty

def members : Glob :=
  [.exactly '.', .anyRun]

def covers (pattern : String) (name : List Char) : Bool :=
  let glob := Glob.ofChars pattern.toList
  glob.accepts name || (glob ++ members).accepts name

def hides (hidden : HiddenTypes) (name : String) : Bool :=
  hidden.patterns.any (covers · (TypeSignature.erased name.toList))

/-- Imports stay visible, so a pattern that covers one is given up. -/
def withoutImported (hidden : HiddenTypes) (imports : List String) : HiddenTypes :=
  ⟨hidden.patterns.filter fun pattern => !imports.any (fun name => covers pattern name.toList)⟩

theorem covers_iff {pattern : String} {name : List Char} :
    covers pattern name = true ↔
      (Glob.ofChars pattern.toList).Matches name ∨
        (Glob.ofChars pattern.toList ++ members).Matches name := by
  simp [covers, Glob.accepts_iff]

end HiddenTypes

end ContentAssist
