import Bacs.Foundation.Ensures
import Bacs.Foundation.Runs
import Bacs.Foundation.Slot
import Bacs.Foundation.LexicalPath
import Bacs.Foundation.DepthFirst
import Bacs.Foundation.Exploration
import Bacs.Archive.Freshness
import Bacs.Archive.PendingImport
import Bacs.Archive.StatusCache
import Bacs.Archive.UploadAtomicity
import Bacs.Archive.Protection
import Bacs.Archive.FlagAlgebra
import Bacs.Archive.Confinement
import Bacs.Pm.History
import Bacs.Pm.Naming
import Bacs.Broker.Acknowledging
import Bacs.Broker.Closing
import Bacs.Broker.Protocol
import Bacs.Broker.Canceling
import Bacs.Broker.Verdicts
import Bacs.Asio.Ending
import Bacs.Asio.Queueing
import Bacs.Asio.BlockFraming
import Bacs.Asio.LineFraming
import Bacs.Config.Loading
import Bacs.Pm.Places
import Bacs.Pm.Refreshing
import Bacs.Pm.HeldEntries
import Bacs.Curl.Ownership
import Bacs.Curl.EasyOwnership
import Bacs.Curl.HeaderParsing
import Bacs.Curl.PlainHeaders
import Bacs.Pm.Absolute
import Bacs.Process.FileLocking
import Bacs.Process.LockRegistry
import Bacs.Web.MimeHistory
import Bacs.Problem.TestGroups
import Bacs.Problem.ResourceLimits
import Bacs.Common.FnmatchMatching
import Bacs.Pm.EntryGrammar
import Bacs.Problem.StorageCalls
import Bacs.Utility.AliasResolution
import Bacs.Archive.Rpc
import Bacs.Pm.CacheEntryLocks
import Bacs.Common.Confinement
import Bacs.Pm.Merging
import Bacs.Common.TreeCopies
import Bacs.Broker.EndToEnd
import Bacs.Broker.Served
import Bacs.Pm.TreePublishing
import Bacs.Problem.Importing
import Bacs.Process.Checking
