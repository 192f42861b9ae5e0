import TurboScxml.Router.References
import TurboScxml.Router.Order
import TurboScxml.Router.AbortAtomicity
import TurboScxml.Session.Rollback
import TurboScxml.Session.Settlement
import TurboScxml.Session.Lifecycle
import TurboScxml.Session.FinalizeBlocks
import TurboScxml.Session.ScopeTransactions
import TurboScxml.Session.CompletionData
import TurboScxml.Cnet.EgressRelease
import TurboScxml.Cnet.FrameHistory
import TurboScxml.Cnet.FenceHistory
import TurboScxml.Chttp.SubmissionOrder
import TurboScxml.Chttp.CodecStores
import TurboScxml.Voice.UriResolution
import TurboScxml.Ccxml.Transitions
import TurboScxml.Voice.CollectCompletions
import TurboScxml.Voice.SubdialogVisits
import TurboScxml.Requests.Agreement
import TurboScxml.Events.Delivery
import TurboScxml.Voice.ScopeAgreement
import TurboScxml.Voice.ChildEntry
import TurboScxml.Voice.FilledOrder
import TurboScxml.Voice.EventRules
import TurboScxml.Voice.LocationAssign
import TurboScxml.Voice.PromptMarks
import TurboScxml.Expr.ExactAssignment
import TurboScxml.Ccxml.EventPatterns
import TurboScxml.Ccxml.References
import TurboScxml.Voice.LiteralStart
import TurboScxml.Voice.UriIdempotence
import TurboScxml.Voice.FailedAcquire
import TurboScxml.Voice.DialogRollback
import TurboScxml.Ccxml.Delays
import TurboScxml.Voice.TimeDesignations
import TurboScxml.Chttp.FloatText
import TurboScxml.Cnet.ChunkHistory
import TurboScxml.Chttp.Ingress
import TurboScxml.Plugin.Leases
import TurboScxml.Voice.DialogFairness
