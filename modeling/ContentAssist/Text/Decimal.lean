/-! Decimal numerals of natural numbers, without leading zeros or filled up to a width. -/

namespace ContentAssist.Text.Decimal

def digit (value : Nat) : Char :=
  Char.ofNat ('0'.toNat + value)

def digits (number : Nat) : List Char :=
  if number < 10 then [digit number]
  else digits (number / 10) ++ [digit (number % 10)]

def render (number : Nat) : String :=
  String.ofList (digits number)

def padded (width number : Nat) : List Char :=
  (digits number).leftpad width '0'

def digitValue? (c : Char) : Option Nat :=
  if c.isDigit then some (c.toNat - '0'.toNat) else none

def read? (text : String) : Option Nat :=
  if text.isEmpty then none
  else text.toList.foldlM (fun value c => (digitValue? c).map (value * 10 + ·)) 0

private theorem digitValue?_digit {value : Nat} (small : value < 10) :
    digitValue? (digit value) = some value := by
  have cases : ∀ v : Fin 10, digitValue? (digit v.val) = some v.val := by decide
  exact cases ⟨value, small⟩

private theorem foldlM_digits (number : Nat) :
    (digits number).foldlM
      (fun value c => (digitValue? c).map (value * 10 + ·)) 0 = some number := by
  fun_induction digits number with
  | case1 number small => simp [digitValue?_digit small]
  | case2 number large ih =>
      have last : number % 10 < 10 := Nat.mod_lt _ (by decide)
      simp only [List.foldlM_append, ih, Option.bind_eq_bind, Option.bind_some,
        List.foldlM_cons, List.foldlM_nil, digitValue?_digit last, Option.map_some, pure]
      congr 1
      omega

theorem digits_ne_nil (number : Nat) : digits number ≠ [] := by
  unfold digits
  split <;> simp

@[simp] theorem read?_render (number : Nat) : read? (render number) = some number := by
  simp [read?, render, foldlM_digits, digits_ne_nil]

end ContentAssist.Text.Decimal
