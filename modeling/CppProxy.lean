import CppProxy.Acceptors
import CppProxy.Acks
import CppProxy.Addresses
import CppProxy.Answers
import CppProxy.Block
import CppProxy.Bypass
import CppProxy.Closing
import CppProxy.Config
import CppProxy.Counters
import CppProxy.Current
import CppProxy.Decode
import CppProxy.Defined
import CppProxy.Delivery
import CppProxy.Edits
import CppProxy.Entries
import CppProxy.InTurn
import CppProxy.Inspect
import CppProxy.Lanes
import CppProxy.Lasting
import CppProxy.Leftovers
import CppProxy.LinkFrames
import CppProxy.Lookups
import CppProxy.Mirror
import CppProxy.Moves
import CppProxy.NoVainWait
import CppProxy.OneConnection
import CppProxy.Opening
import CppProxy.Process
import CppProxy.Progress
import CppProxy.ReadLoop
import CppProxy.Readers
import CppProxy.Receipts
import CppProxy.Recovery
import CppProxy.Release
import CppProxy.Removals
import CppProxy.Replies
import CppProxy.RoundTrip
import CppProxy.Serving
import CppProxy.Settling
import CppProxy.Storage
import CppProxy.Stream
import CppProxy.Supervise
import CppProxy.System
import CppProxy.Timeouts
import CppProxy.Totals
import CppProxy.Trace
import CppProxy.Untrusted
import CppProxy.Updates
import CppProxy.Work
import CppProxy.Writes
