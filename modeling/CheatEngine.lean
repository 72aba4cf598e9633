import CheatEngine.Ceserver.CompressedRead
import CheatEngine.Ceserver.Continue
import CheatEngine.Ceserver.CurrentDirectory
import CheatEngine.Ceserver.DebugRegisters
import CheatEngine.Ceserver.EventSession
import CheatEngine.Ceserver.FileTransfer
import CheatEngine.Ceserver.Layout
import CheatEngine.Ceserver.MemoryLock
import CheatEngine.Ceserver.MemoryWords
import CheatEngine.Ceserver.ModulePath
import CheatEngine.Ceserver.ModuleStream
import CheatEngine.Ceserver.Options
import CheatEngine.Ceserver.Pipes
import CheatEngine.Ceserver.StopDebug
import CheatEngine.Ceserver.Streams
import CheatEngine.Ceserver.ThreadContext
import CheatEngine.Cli.Confirmation
import CheatEngine.Cli.GlobalArguments
import CheatEngine.Cli.TypedRead
import CheatEngine.Cli.WriteCount
import CheatEngine.Client.DebugSessions
import CheatEngine.Client.SymbolQuery
import CheatEngine.Client.TraceProtocol
import CheatEngine.Client.TwoScanners
import CheatEngine.Dbvm.AllocList
import CheatEngine.Dbvm.Attribution
import CheatEngine.Dbvm.CloakBreakpoints
import CheatEngine.Dbvm.Decloak
import CheatEngine.Dbvm.EventLog
import CheatEngine.Dbvm.GuestPaging
import CheatEngine.Dbvm.HideDbvm
import CheatEngine.Dbvm.LogRetrieval
import CheatEngine.Dbvm.MappingSearch
import CheatEngine.Dbvm.MemoryBlocks
import CheatEngine.Dbvm.Mtrr
import CheatEngine.Dbvm.TimeStamp
import CheatEngine.Dbvm.TraceLog
import CheatEngine.Dbvm.WatchMaps
import CheatEngine.Feedback.Interleaving
import CheatEngine.LocalBridge.Ledger
import CheatEngine.LocalBridge.ProcessInfo
import CheatEngine.PointerScan.Accounting
import CheatEngine.PointerScan.Chains
import CheatEngine.PointerScan.Conversation
import CheatEngine.PointerScan.ModuleOrder
import CheatEngine.PointerScan.ParentQueue
import CheatEngine.PointerScan.RescanWorkers
import CheatEngine.PointerScan.Tokens
import CheatEngine.PointerScan.ValueSeeds
