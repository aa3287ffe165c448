import AeronReplay.Lib.Transition
import AeronReplay.Lib.Fifo
import AeronReplay.Lib.Ring
import AeronReplay.Queue.RingQueue
import AeronReplay.Queue.Interleaving
import AeronReplay.Lib.Crc
import AeronReplay.Lib.LittleEndian
import AeronReplay.Message.Header
import AeronReplay.Message.Crc32
import AeronReplay.Message.Buffer
import AeronReplay.Subscriber.FastPath
import AeronReplay.Publisher.WireFormat
import AeronReplay.Subscriber.Worker
import AeronReplay.Lib.Places
import AeronReplay.Pool.BufferPool
import AeronReplay.Pool.Interleaving
import AeronReplay.Checkpoint.Record
import AeronReplay.Checkpoint.Snapshot
import AeronReplay.Checkpoint.File
import AeronReplay.Subscriber.Delivery
import AeronReplay.System.Threads
import AeronReplay.System.Custody
import AeronReplay.System.Accounting
import AeronReplay.Subscriber.Pipeline
import AeronReplay.System.Sequential
import AeronReplay.System.Schedule
import AeronReplay.System.Streams
import AeronReplay.Pool.Linearization
import AeronReplay.Queue.Linearization
import AeronReplay.System.HandOff
import AeronReplay.Lib.Extension
import AeronReplay.Lib.Checked
import AeronReplay.Subscriber.Monitor
import AeronReplay.System.Monitoring
import AeronReplay.System.Accesses
import AeronReplay.System.Linearization
import AeronReplay.System.Histories
import AeronReplay.System.Shutdown
import AeronReplay.System.CheckpointLag
import AeronReplay.Subscriber.SeenSet
import AeronReplay.Lib.Window
import AeronReplay.Subscriber.Feed
import AeronReplay.Lib.MissingRuns
import AeronReplay.Subscriber.Gaps
import AeronReplay.Subscriber.Restart
import AeronReplay.Publisher.Loop
import AeronReplay.Lib.Text
import AeronReplay.Config.Ini
import AeronReplay.Lib.Decimal
import AeronReplay.Config.Settings
import AeronReplay.Config.Loader
import AeronReplay.Config.Programs
import AeronReplay.Archive.Catalog
import AeronReplay.Publisher.RecordingController
import AeronReplay.Publisher.Process
import AeronReplay.System.Release
import AeronReplay.System.Resume
import AeronReplay.System.Call
import AeronReplay.Message.Checksum
import AeronReplay.Pool.Recycling
import AeronReplay.Message.Validation
import AeronReplay.Checkpoint.Codec
import AeronReplay.Publisher.StartRecording
import AeronReplay.Subscriber.SequenceSpace
import AeronReplay.System.GapRecovery
import AeronReplay.Config.Layout
import AeronReplay.Config.Dump
import AeronReplay.Config.Precedence
import AeronReplay.Pool.Misuse
import AeronReplay.Subscriber.Constructors
import AeronReplay.Lib.Directory
import AeronReplay.Checkpoint.TwoFlushers
import AeronReplay.System.Headers
import AeronReplay.System.MonitoringAccounts
import AeronReplay.System.Drain
import AeronReplay.System.EndToEnd
import AeronReplay.Lib.Generations
import AeronReplay.System.AtMostOnce
import AeronReplay.System.Recovery
import AeronReplay.System.PollLoop
import AeronReplay.Lib.CompareExchange
import AeronReplay.Lib.Readers
import AeronReplay.Pool.ManyThreads
import AeronReplay.System.PublisherRestart
import AeronReplay.Checkpoint.Manager
import AeronReplay.Publisher.TestPublisher
import AeronReplay.Queue.Observers
import AeronReplay.System.FinalReport
