import ContentAssist.Text.Decimal

/-! The text by which an editor sorts items, in the order of the list they were made for. -/

namespace ContentAssist

def maxRelevance : Int := 2147483647

/-- The distance from the highest relevance in ten digits, then the index in at least five. -/
def sortTextChars (relevance : Int32) (index : Nat) : List Char :=
  Text.Decimal.padded 10 (maxRelevance - relevance.toInt).toNat ++ Text.Decimal.padded 5 index

def sortText (relevance : Int32) (index : Nat) : String :=
  String.ofList (sortTextChars relevance index)

end ContentAssist
