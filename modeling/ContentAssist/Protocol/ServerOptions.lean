import ContentAssist.Json

/-! What the server announces about completion. -/

namespace ContentAssist

structure ServerOptions where
  resolvesItems : Bool
  triggerCharacters : List String := [".", "@", "#", "*", " "]
  labelDetails : Bool := true
  reportsProgress : Bool := true
deriving DecidableEq, Repr

def ServerOptions.toJson (options : ServerOptions) : Json :=
  .object
    [("resolveProvider", .bool options.resolvesItems),
     ("triggerCharacters", .ofStrings options.triggerCharacters),
     ("workDoneProgress", .bool options.reportsProgress),
     ("completionItem", .object [("labelDetailsSupport", .bool options.labelDetails)])]

end ContentAssist
