/-! The white space of Unicode, and the removal of it from both ends of a text. -/

namespace ContentAssist.Text

/-- The 25 characters with the property `White_Space`. -/
def isBlank (c : Char) : Bool :=
  let code := c.toNat
  (9 ≤ code && code ≤ 13) || code == 0x20 || code == 0x85 || code == 0xA0 ||
    code == 0x1680 || (0x2000 ≤ code && code ≤ 0x200A) || code == 0x2028 ||
    code == 0x2029 || code == 0x202F || code == 0x205F || code == 0x3000

def trimChars (text : List Char) : List Char :=
  ((text.dropWhile isBlank).reverse.dropWhile isBlank).reverse

def trimBlank (text : String) : String :=
  String.ofList (trimChars text.toList)

private theorem dropWhile_of_all {text : List Char} (blank : ∀ c ∈ text, isBlank c) :
    text.dropWhile isBlank = [] := by
  induction text with
  | nil => rfl
  | cons c text ih =>
      rw [List.dropWhile_cons_of_pos (blank c (by simp))]
      exact ih (fun other member => blank other (by simp [member]))

theorem trimChars_of_all {text : List Char} (blank : ∀ c ∈ text, isBlank c) :
    trimChars text = [] := by
  simp [trimChars, dropWhile_of_all blank]

end ContentAssist.Text
