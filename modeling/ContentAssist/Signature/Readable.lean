import ContentAssist.Signature.Reader

/-! The names of types as they are shown and compared. -/

namespace ContentAssist.TypeSignature

def readableChars (text : List Char) : List Char :=
  match ofText? text with
  | some type => type.spell
  | none => text

def readable (text : String) : String :=
  String.ofList (readableChars text.toList)

def erased (name : List Char) : List Char :=
  name.takeWhile (· != '<')

def afterLastDot (name : List Char) : List Char :=
  (name.reverse.takeWhile (· != '.')).reverse

def simpleName (text : String) : String :=
  String.ofList (afterLastDot (erased (readableChars text.toList)))

theorem readableChars_of_ofText? {text : List Char} {type : TypeSignature}
    (encoded : ofText? text = some type) : readableChars text = type.spell := by
  simp [readableChars, encoded]

theorem readableChars_of_none {text : List Char} (foreign : ofText? text = none) :
    readableChars text = text := by
  simp [readableChars, foreign]

private theorem not_dot_of_mem_reverse {name : List Char} (plain : '.' ∉ name) :
    ∀ c ∈ name.reverse, (c != '.') = true := by
  intro c member
  have different : c ≠ '.' := fun same => plain (same ▸ List.mem_reverse.mp member)
  simpa using different

theorem afterLastDot_append {front last : List Char} (plain : '.' ∉ last) :
    afterLastDot (front ++ '.' :: last) = last := by
  simp [afterLastDot, List.takeWhile_append_of_pos (not_dot_of_mem_reverse plain)]

theorem afterLastDot_of_no_dot {name : List Char} (plain : '.' ∉ name) :
    afterLastDot name = name := by
  have kept : (name.reverse ++ []).takeWhile (· != '.') = name.reverse ++ [] :=
    List.takeWhile_append_of_pos (not_dot_of_mem_reverse plain)
  rw [List.append_nil] at kept
  rw [afterLastDot, kept, List.reverse_reverse]

end ContentAssist.TypeSignature
