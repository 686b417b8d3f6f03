/-! The place in the source where completion was asked for. -/

namespace ContentAssist

/-- The enclosing type counts as resolved only if the site is `extended`. -/
structure Site where
  token : Option String := none
  offset : Nat := 0
  extended : Bool := false
  enclosingType : Option String := none
deriving DecidableEq, Repr

def Site.firstTokenChar? (site : Site) : Option Char :=
  site.token.bind (·.toList.head?)

end ContentAssist
