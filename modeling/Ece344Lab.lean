import Ece344Lab.Lib.Buffer
import Ece344Lab.Lib.Chain
import Ece344Lab.Lib.Chained
import Ece344Lab.Lib.Keyed
import Ece344Lab.Lib.Line
import Ece344Lab.Lib.Linked
import Ece344Lab.Lib.Monitor
import Ece344Lab.Lib.Outcome
import Ece344Lab.Lib.Ownership
import Ece344Lab.Lib.Path
import Ece344Lab.Lib.Placement
import Ece344Lab.Lib.Scan
import Ece344Lab.Lib.Search
import Ece344Lab.Lib.Splice
import Ece344Lab.Lib.Tree
import Ece344Lab.Fs.AddDirent
import Ece344Lab.Fs.AllOrNothing
import Ece344Lab.Fs.AllocFailed
import Ece344Lab.Fs.AllocateBlock
import Ece344Lab.Fs.AllocateOutcomes
import Ece344Lab.Fs.Allocator
import Ece344Lab.Fs.Atomic
import Ece344Lab.Fs.Bitmap
import Ece344Lab.Fs.BitmapFacts
import Ece344Lab.Fs.BitmapRuns
import Ece344Lab.Fs.Block
import Ece344Lab.Fs.BlockAddress
import Ece344Lab.Fs.BlockOwnership
import Ece344Lab.Fs.Command
import Ece344Lab.Fs.CreateFile
import Ece344Lab.Fs.CreateReturns
import Ece344Lab.Fs.CreateRuns
import Ece344Lab.Fs.Dir
import Ece344Lab.Fs.DirState
import Ece344Lab.Fs.DirectoryMap
import Ece344Lab.Fs.DirectoryRuns
import Ece344Lab.Fs.DirtyWrite
import Ece344Lab.Fs.ExactReturns
import Ece344Lab.Fs.ExistingName
import Ece344Lab.Fs.Extends
import Ece344Lab.Fs.FileCommands
import Ece344Lab.Fs.FileContents
import Ece344Lab.Fs.FileListing
import Ece344Lab.Fs.FileNodes
import Ece344Lab.Fs.FileTree
import Ece344Lab.Fs.FileTreeRuns
import Ece344Lab.Fs.FreeBlocks
import Ece344Lab.Fs.FreeFile
import Ece344Lab.Fs.IndexPath
import Ece344Lab.Fs.Inode
import Ece344Lab.Fs.InodeFreemap
import Ece344Lab.Fs.InodeHash
import Ece344Lab.Fs.InodeHashRuns
import Ece344Lab.Fs.InodeTable
import Ece344Lab.Fs.InodeTableFacts
import Ece344Lab.Fs.Intact
import Ece344Lab.Fs.Lifecycle
import Ece344Lab.Fs.Listing
import Ece344Lab.Fs.Mount
import Ece344Lab.Fs.Namespace
import Ece344Lab.Fs.NamespaceTree
import Ece344Lab.Fs.Persistence
import Ece344Lab.Fs.Progress
import Ece344Lab.Fs.ProgressRuns
import Ece344Lab.Fs.ProgressWrites
import Ece344Lab.Fs.Quietly
import Ece344Lab.Fs.ReadBlock
import Ece344Lab.Fs.ReadCommand
import Ece344Lab.Fs.ReadData
import Ece344Lab.Fs.ReadLimit
import Ece344Lab.Fs.ReadWrite
import Ece344Lab.Fs.References
import Ece344Lab.Fs.Refinement
import Ece344Lab.Fs.RemoveDirent
import Ece344Lab.Fs.Runs
import Ece344Lab.Fs.Session
import Ece344Lab.Fs.Silent
import Ece344Lab.Fs.Slots
import Ece344Lab.Fs.Sound
import Ece344Lab.Fs.Start
import Ece344Lab.Fs.Super
import Ece344Lab.Fs.SuperFacts
import Ece344Lab.Fs.Tight
import Ece344Lab.Fs.WithinSize
import Ece344Lab.Fs.WorkingDir
import Ece344Lab.Fs.WriteData
import Ece344Lab.Fs.WriteLimit
import Ece344Lab.Fs.WriteLoop
import Ece344Lab.Warmup.SortedPoints
import Ece344Lab.Warmup.SortedPointsFacts
import Ece344Lab.Warmup.SortedPointsRuns
import Ece344Lab.Warmup.WordCount
import Ece344Lab.Warmup.WordCountFacts
import Ece344Lab.Webserver.Answers
import Ece344Lab.Webserver.Cache
import Ece344Lab.Webserver.CacheFacts
import Ece344Lab.Webserver.CacheList
import Ece344Lab.Webserver.CacheRuns
import Ece344Lab.Webserver.Client
import Ece344Lab.Webserver.Connection
import Ece344Lab.Webserver.Eviction
import Ece344Lab.Webserver.Experiment
import Ece344Lab.Webserver.Fileset
import Ece344Lab.Webserver.HashTable
import Ece344Lab.Webserver.HashTableCounts
import Ece344Lab.Webserver.HashTableFacts
import Ece344Lab.Webserver.HashTableGrowth
import Ece344Lab.Webserver.HashTableRuns
import Ece344Lab.Webserver.Headers
import Ece344Lab.Webserver.LinkerList
import Ece344Lab.Webserver.LinkerListFacts
import Ece344Lab.Webserver.ListRuns
import Ece344Lab.Webserver.MoveTop
import Ece344Lab.Webserver.Pins
import Ece344Lab.Webserver.ReadLine
import Ece344Lab.Webserver.Request
import Ece344Lab.Webserver.RequestPool
import Ece344Lab.Webserver.Rio
import Ece344Lab.Webserver.RoundTrip
import Ece344Lab.Webserver.Server
import Ece344Lab.Webserver.Transparency
import Ece344Lab.Threads.Abandoned
import Ece344Lab.Threads.Advance
import Ece344Lab.Threads.Bystanders
import Ece344Lab.Threads.Calls
import Ece344Lab.Threads.Conservation
import Ece344Lab.Threads.CriticalSection
import Ece344Lab.Threads.Effects
import Ece344Lab.Threads.ExitMain
import Ece344Lab.Threads.ExitSelf
import Ece344Lab.Threads.Interrupts
import Ece344Lab.Threads.Invariant
import Ece344Lab.Threads.InvariantFacts
import Ece344Lab.Threads.LockSteps
import Ece344Lab.Threads.Mutex
import Ece344Lab.Threads.Program
import Ece344Lab.Threads.Protected
import Ece344Lab.Threads.Queue
import Ece344Lab.Threads.QueueFacts
import Ece344Lab.Threads.QueueRuns
import Ece344Lab.Threads.Release
import Ece344Lab.Threads.Runs
import Ece344Lab.Threads.Stack
import Ece344Lab.Threads.TestThread
import Ece344Lab.Threads.Thread
import Ece344Lab.Threads.ThreadQueue
import Ece344Lab.Threads.Transitions
import Ece344Lab.Threads.WaitQueues
import Ece344Lab.Threads.Wakeup
import Ece344Lab.Threads.Yield
