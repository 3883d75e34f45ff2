import NacCard.Driver.Mmap
import NacCard.Stream.Configure
import NacCard.Stream.Windows
import NacCard.Stream.Agreement
import NacCard.Stream.FlowTable
import NacCard.Stream.ProcInit
import NacCard.Base.Ring
import NacCard.Mem.Ptable
import NacCard.Mem.Release
import NacCard.Rx.Advance
import NacCard.Rx.Delivery
import NacCard.Rx.Reader
import NacCard.Tx.Budget
import NacCard.Tx.Copy
import NacCard.Tx.Mixed
import NacCard.Tx.Space
import NacCard.Tx.Paths
import NacCard.Tx.Waits
import NacCard.Tx.Requests
import NacCard.Stream.CopyMode
import NacCard.Stream.Descriptor
import NacCard.Stream.ForwardLimit
import NacCard.Stream.Alignment
import NacCard.Stream.FailedAttach
import NacCard.Stream.Overlap
import NacCard.Base.Bytes
import NacCard.Base.Chunks
import NacCard.Base.Slots
import NacCard.Driver.Dispatch
import NacCard.Driver.Pool
import NacCard.Flash.Chip
import NacCard.Flash.Effects
import NacCard.Flash.Isp
import NacCard.Flash.Serial
import NacCard.FlowTest.Files
import NacCard.Lib.Capture
import NacCard.Lib.Clone
import NacCard.Lib.Counters
import NacCard.Lib.Open
import NacCard.Mem.AllocRun
import NacCard.Mem.Complete
import NacCard.Rx.Forward
import NacCard.Rx.Restart
import NacCard.Rx.Window
import NacCard.Tx.Memcpy
import NacCard.Flash.Factory
import NacCard.Flash.Compare
import NacCard.FlowTest.Accounting
import NacCard.Stream.TableEntries
import NacCard.Driver.Copies
import NacCard.Lib.I2cRead
import NacCard.Driver.DuckSlave
import NacCard.Driver.DuckHost
import NacCard.Mem.Sorted
import NacCard.Flash.Programming
import NacCard.Driver.Udivmod
import NacCard.Rx.Walk
import NacCard.Rx.CatchUp
import NacCard.Rx.Progress
import NacCard.FlowTest.Progress
