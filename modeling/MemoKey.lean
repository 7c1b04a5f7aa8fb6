import MemoKey.Config.Reader
import MemoKey.Conversion.ArgType
import MemoKey.Derive.Enum
import MemoKey.Fault.Record
import MemoKey.Inspect
import MemoKey.Key.Feed
import MemoKey.Main
import MemoKey.Derive.Grammar.Path
import MemoKey.Derive.Grammar.Bound
import MemoKey.Derive.Grammar.Type
import MemoKey.Proofs.Sight
import MemoKey.Proofs.Trace
import MemoKey.Proofs.NodeEvents
import MemoKey.Proofs.Unfolding
import MemoKey.Proofs.Termination
import MemoKey.Proofs.Agreement
import MemoKey.Proofs.NodeEquality
import MemoKey.Proofs.Separation
import MemoKey.Proofs.Lockstep
import MemoKey.Proofs.Cuts
import MemoKey.Proofs.Renaming
import MemoKey.Proofs.Outcome
import MemoKey.Proofs.Position
import MemoKey.Proofs.EmptyCall
import MemoKey.Proofs.KeyLaws
import MemoKey.Pool
import MemoKey.Proofs.History
import MemoKey.Proofs.Counting
import MemoKey.Proofs.Frames
import MemoKey.Proofs.Nesting
import MemoKey.Proofs.Steps
import MemoKey.Proofs.Hierarchy
import MemoKey.Proofs.Twins
import MemoKey.Proofs.Placement
import MemoKey.Proofs.Snapshot
import MemoKey.Proofs.Conversion
import MemoKey.Store.Holdings
import MemoKey.Proofs.Arrays
import MemoKey.Extractor
import MemoKey.Proofs.Exchange
import MemoKey.Proofs.Pointers
import MemoKey.Proofs.Requests
import MemoKey.Proofs.Layouts
import MemoKey.Proofs.Deriving
import MemoKey.Proofs.TextHash
import MemoKey.Proofs.Scanning
import MemoKey.Proofs.WrittenTypes
import MemoKey.Proofs.ReadingTypes
import MemoKey.Proofs.WrittenStructs
