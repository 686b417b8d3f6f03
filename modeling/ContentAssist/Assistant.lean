import ContentAssist.Archive
import ContentAssist.Assembly
import ContentAssist.Intake
import ContentAssist.Ranking.Consultation

/-! Answering a completion request: the selected proposals are ranked, the first of them seeds the
shared values, the list is filled, and what it holds is filed for later. -/

namespace ContentAssist

structure Assistant (World : Type) where
  providers : List (RankingProvider World) := []

structure Completion (World : Type) where
  list : CompletionList
  assembly : Assembly
  archive : Archive
  world : World

namespace Selection

def rankingRequest (selection : Selection) : RankingRequest :=
  { proposals := selection.proposals, site := selection.site, unit := selection.unit }

def cursorLine? (selection : Selection) : Option UInt32 :=
  selection.unit.lineAt? selection.site.offset

end Selection

def Presenter.defaultsFor (presenter : Presenter) (ranked : List Ranked)
    (cursorLine : Option UInt32) : ItemDefaults :=
  match ranked with
  | [] => {}
  | first :: _ => presenter.seedDefaults first.proposal cursorLine

def Response.pushEmitted (response : Response) (emitted : Ranked × Item) : Response :=
  response.push emitted.1.proposal emitted.2 (emitted.1.verdict.map (·.notes))

namespace Assistant

def register {World : Type} (assistant : Assistant World) (provider : RankingProvider World) :
    Assistant World :=
  { providers := assistant.providers ++ [provider] }

/-- Items of earlier lists are not asked for any more, so the archive is cleared first. -/
def complete {World : Type} (assistant : Assistant World) (cancelled : World → Bool)
    (selection : Selection) (client : Client) (writer : ItemWriter) (archive : Archive)
    (world : World) : Completion World :=
  let (verdicts, after) :=
    selection.rankingRequest.aggregate cancelled assistant.providers world
  let ranked := Ranked.rank selection.proposals verdicts
  let (response, opened) :=
    archive.clear.newResponse selection.site.offset selection.site selection.unit.uri
  let presenter : Presenter := { client, writer, response := response.id }
  let defaults := presenter.defaultsFor ranked selection.cursorLine?
  let assembly :=
    Assembly.fill (fun ranked index => presenter.present ranked index defaults)
      (min selection.limit ranked.length) 0 ranked
  { list :=
      { items := assembly.items
        isIncomplete := assembly.isIncomplete ranked.length
        defaults := defaults.recordKinds selection.offered }
    assembly
    archive := opened.file (assembly.emitted.foldl .pushEmitted response)
    world := after }

end Assistant

end ContentAssist
