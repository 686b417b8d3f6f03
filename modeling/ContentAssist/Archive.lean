import ContentAssist.Protocol.Item
import ContentAssist.Protocol.ResolveKey
import ContentAssist.Proposal.Basic
import ContentAssist.Ranking.Verdict
import ContentAssist.Site
import Std.Data.TreeMap

/-! The responses that are kept so that an item can be traced back to its proposal. No number is
given twice before all 2^64 have been given. -/

namespace ContentAssist

/-- At each index an item, its proposal and its notes; the `common` notes are about all of them. -/
structure Response where
  id : UInt64
  offset : Nat
  site : Site
  proposals : Array Proposal := #[]
  items : Array Item := #[]
  notes : Array (Option Notes) := #[]
  common : Notes := ∅

namespace Response

def push (response : Response) (proposal : Proposal) (item : Item) (notes : Option Notes) :
    Response :=
  { response with
    proposals := response.proposals.push proposal
    items := response.items.push item
    notes := response.notes.push notes }

def uri? (response : Response) : Option String :=
  response.common[ResolveKey.uriKey]?

end Response

structure Archive where
  nextId : UInt64 := 0
  responses : Std.TreeMap UInt64 Response := ∅

namespace Archive

/-- The response takes the next number and is not filed yet. -/
def newResponse (archive : Archive) (offset : Nat) (site : Site) (uri : String) :
    Response × Archive :=
  ({ id := archive.nextId
     offset
     site
     common := (∅ : Notes).insert ResolveKey.uriKey uri },
   { archive with nextId := archive.nextId + 1 })

def file (archive : Archive) (response : Response) : Archive :=
  { archive with responses := archive.responses.insert response.id response }

def get? (archive : Archive) (id : UInt64) : Option Response :=
  archive.responses[id]?

def remove (archive : Archive) (id : UInt64) : Archive :=
  { archive with responses := archive.responses.erase id }

def clear (archive : Archive) : Archive :=
  { archive with responses := ∅ }

def size (archive : Archive) : Nat :=
  archive.responses.size

def isEmpty (archive : Archive) : Bool :=
  archive.responses.isEmpty

def proposal? (archive : Archive) (id : UInt64) (index : Nat) : Option Proposal :=
  (archive.get? id).bind fun response => response.proposals[index]?

@[simp] theorem get?_clear (archive : Archive) (id : UInt64) : archive.clear.get? id = none := by
  simp [clear, get?]

theorem get?_file (archive : Archive) (response : Response) (id : UInt64) :
    (archive.file response).get? id =
      if response.id = id then some response else archive.get? id := by
  simp [file, get?, Std.TreeMap.getElem?_insert]

@[simp] theorem size_file_clear (archive : Archive) (response : Response) :
    (archive.clear.file response).size = 1 := by
  simp [file, clear, size, Std.TreeMap.size_insert]

end Archive

end ContentAssist
