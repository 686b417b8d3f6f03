import ContentAssist.Text.Blank
import ContentAssist.Text.Uppercase
import ContentAssist.Text.Units
import ContentAssist.Text.Decimal
import ContentAssist.Signature.Reader
import ContentAssist.Signature.Readable
import ContentAssist.Signature.Method
import ContentAssist.HiddenTypes
import ContentAssist.Json
import ContentAssist.Proposal.Basic
import ContentAssist.Site
import ContentAssist.Protocol.CompletionList
import ContentAssist.Settings
import ContentAssist.Client
import ContentAssist.Protocol.ServerOptions
import ContentAssist.Protocol.ResolveKey
import ContentAssist.Protocol.SortText
import ContentAssist.Ranking.SortKey
import ContentAssist.Intake
import ContentAssist.Ranking.Consultation
import ContentAssist.Ranking.Ranked
import ContentAssist.Assistant
import ContentAssist.Proofs.Compaction
import ContentAssist.Proofs.Presentation
import ContentAssist.Proofs.Signature.Grammar
import ContentAssist.Proofs.Signature.Reading
import ContentAssist.Proofs.Text.Blank
import ContentAssist.Proofs.Text.Units
import ContentAssist.Proofs.Text.Decimal
import ContentAssist.Proofs.Ranking.Order
import ContentAssist.Proofs.Ranking.KeyOrder
import ContentAssist.Proofs.Ranking.Consultation
import ContentAssist.Proofs.Ranking.Aggregation
import ContentAssist.Proofs.Assembly
import ContentAssist.Proofs.Resolve
import ContentAssist.Proofs.Ranking.Stability
import ContentAssist.Proofs.HiddenTypes
import ContentAssist.Proofs.Intake.Policy
import ContentAssist.Proofs.Intake.History
import ContentAssist.Proofs.SortText
import ContentAssist.Proofs.CompletionList
import ContentAssist.Proofs.Intake.Idempotence
import ContentAssist.Proofs.Text.Characters
import ContentAssist.Proofs.Signature.Method
import ContentAssist.Proofs.Ranking.ProviderOrder
import ContentAssist.Proofs.Seeding
import ContentAssist.Proofs.Signature.ClassName
import ContentAssist.Proofs.Intake.Imports
import ContentAssist.Proofs.Intake.Expansion
import ContentAssist.Proofs.EditRanges
import ContentAssist.Proofs.OfferedKinds
import ContentAssist.Proofs.Borrowing
import ContentAssist.Proofs.Settings
