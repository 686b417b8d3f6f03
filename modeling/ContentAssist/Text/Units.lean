/-! The UTF-16 code units of a text and the order of texts by them. A text comes after every longer
text that begins with it. -/

namespace ContentAssist.Text

def charUnits (c : Char) : List Nat :=
  if c.toNat < 0x10000 then [c.toNat]
  else [0xD800 + (c.toNat - 0x10000) / 0x400, 0xDC00 + (c.toNat - 0x10000) % 0x400]

def units (text : List Char) : List Nat :=
  text.flatMap charUnits

theorem charUnits_ne_nil (c : Char) : charUnits c ≠ [] := by
  unfold charUnits
  split <;> simp

@[simp] theorem units_nil : units [] = [] := rfl

@[simp] theorem units_cons (c : Char) (text : List Char) :
    units (c :: text) = charUnits c ++ units text := rfl

@[simp] theorem units_append (front back : List Char) :
    units (front ++ back) = units front ++ units back := by
  simp [units]

def compareLongerFirst : List Nat → List Nat → Ordering
  | [], [] => .eq
  | [], _ :: _ => .gt
  | _ :: _, [] => .lt
  | x :: xs, y :: ys => (compare x y).then (compareLongerFirst xs ys)

def compareText (left right : String) : Ordering :=
  compareLongerFirst (units left.toList) (units right.toList)

@[simp] theorem compareLongerFirst_append (common left right : List Nat) :
    compareLongerFirst (common ++ left) (common ++ right) = compareLongerFirst left right := by
  induction common with
  | nil => rfl
  | cons unit common ih => simp [compareLongerFirst, ih]

end ContentAssist.Text
