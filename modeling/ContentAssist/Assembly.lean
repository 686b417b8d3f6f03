import ContentAssist.Presentation

/-! Filling a list from ranked proposals, in order and up to a limit. A proposal that cannot be
presented is passed over and takes up no index. -/

namespace ContentAssist

/-- `consumed` counts the proposals tried, failures included. -/
structure Assembly where
  emitted : List (Ranked × Item) := []
  consumed : Nat := 0

namespace Assembly

def items (assembly : Assembly) : List Item :=
  assembly.emitted.map (·.2)

def isIncomplete (assembly : Assembly) (total : Nat) : Bool :=
  assembly.consumed < total

def withItem (assembly : Assembly) (ranked : Ranked) (item : Item) : Assembly :=
  { emitted := (ranked, item) :: assembly.emitted
    consumed := assembly.consumed + 1 }

def withFailure (assembly : Assembly) : Assembly :=
  { assembly with consumed := assembly.consumed + 1 }

/-- `index` is that of the next item, and at most `limit` items are made. -/
def fill (present : Ranked → Nat → Except Failure Item) (limit index : Nat) :
    List Ranked → Assembly
  | [] => {}
  | ranked :: later =>
      if limit ≤ index then {}
      else
        match present ranked index with
        | .ok item => (fill present limit (index + 1) later).withItem ranked item
        | .error _ => (fill present limit index later).withFailure

end Assembly

end ContentAssist
