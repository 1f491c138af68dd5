import Anole.Queue.Report
import Anole.Store.ClaimOnce
import Anole.Store.Bulk
import Anole.Store.Idempotency
import Anole.Store.Evidence
import Anole.Store.History
import Anole.Store.Recovery
import Anole.Queue.PlanRequest
import Anole.Queue.Confined
import Anole.Media.TargetSize
import Anole.Media.Disclosure
import Anole.Media.Counts
import Anole.Media.Dimensions
import Anole.Planning.PageRange
import Anole.Queue.RoundRobin
import Anole.State.ReportRace
import Anole.State.Preflight
import Anole.Mail.MboxAccount
import Anole.Preset.Merge
import Anole.Preset.Migration
import Anole.Store.AllOrNothing
import Anole.Engine.Recovery
import Anole.Engine.Install
import Anole.Engine.ManifestSignature
import Anole.Mail.FileTime
import Anole.Media.HeaderSniff
import Anole.Web.UploadNames
import Anole.Desktop.ShellBatches
import Anole.Planning.Fingerprint
import Anole.Mail.Mboxrd
import Anole.Mail.SanitizedTags
import Anole.Structured.Duplicates
import Anole.Web.Inputs
import Anole.Web.Retention
import Anole.Web.Download
import Anole.Web.Timeout
import Anole.State.RecoveryRace
import Anole.Folder.DiskBudget
import Anole.Execution.StagingNames
import Anole.Planning.Office
import Anole.Document.PrintEvidence
import Anole.Execution.Composition
import Anole.Document.ArchiveManifest
import Anole.Planning.ChainSnapshot
import Anole.Planning.Watermark
import Anole.Execution.RenderedPages
import Anole.Desktop.OutputNames
import Anole.Desktop.ShellConvert
import Anole.Structured.XmlRoundTrip
import Anole.Store.Listing
