import Rite.Assembly.ImageDraft
import Rite.Assembly.RecordDraft
import Rite.Builtin.Array
import Rite.Builtin.Catalogue
import Rite.Builtin.Class
import Rite.Builtin.Hash
import Rite.Builtin.Integer
import Rite.Builtin.Object
import Rite.Builtin.Perform
import Rite.Builtin.Range
import Rite.Builtin.Text
import Rite.Bytes.BigEndian
import Rite.Bytes.Cursor
import Rite.Bytes.Layout
import Rite.Code.Instruction
import Rite.Code.Opcode
import Rite.Code.Section
import Rite.CommandLine.Invocation
import Rite.CommandLine.Perform
import Rite.CommandLine.Words
import Rite.Conformance.Case
import Rite.Conformance.Check
import Rite.Conformance.Report
import Rite.Frame.Basic
import Rite.Frame.Evaluate
import Rite.Frame.Execute
import Rite.Heap.Basic
import Rite.Heap.Handle
import Rite.Heap.Items
import Rite.Heap.Native
import Rite.Heap.Object
import Rite.Heap.Table
import Rite.Host
import Rite.Image.Basic
import Rite.Image.Listing
import Rite.Image.Load
import Rite.Image.LoadError
import Rite.Image.Record
import Rite.Machine.Action
import Rite.Machine.Arithmetic
import Rite.Machine.Boot
import Rite.Machine.Capture
import Rite.Machine.Descent
import Rite.Machine.Engine
import Rite.Machine.Fault
import Rite.Machine.Limits
import Rite.Machine.Run
import Rite.Machine.Sink
import Rite.Machine.Snapshot
import Rite.Machine.State
import Rite.Main
import Rite.Proofs.Alike
import Rite.Proofs.AlikeBuiltin
import Rite.Proofs.AlikeFrame
import Rite.Proofs.CallLimit
import Rite.Proofs.ClassDepth
import Rite.Proofs.ClassLimit
import Rite.Proofs.Changes
import Rite.Proofs.CodeCodec
import Rite.Proofs.Comparison
import Rite.Proofs.DeclaredCounts
import Rite.Proofs.DeclaredSizes
import Rite.Proofs.ErrorPositions
import Rite.Proofs.FailedSteps
import Rite.Proofs.ForwardCode
import Rite.Proofs.ForwardTermination
import Rite.Proofs.Growth
import Rite.Proofs.HashKeys
import Rite.Proofs.Headers
import Rite.Proofs.HeapInvariant
import Rite.Proofs.HeapSteps
import Rite.Proofs.ImageFormat
import Rite.Proofs.ImageRoundTrip
import Rite.Proofs.JumpTargets
import Rite.Proofs.Nesting
import Rite.Proofs.Pairing
import Rite.Proofs.QuietText
import Rite.Proofs.Reading
import Rite.Proofs.Renaming
import Rite.Proofs.Resolution
import Rite.Proofs.Settling
import Rite.Proofs.Simulation
import Rite.Proofs.SinkLimit
import Rite.Proofs.Truncation
import Rite.Proofs.Utf8
import Rite.Proofs.Visited
import Rite.Text.Alphabetic
import Rite.Text.Blank
import Rite.Text.Case
import Rite.Text.CaseMap
import Rite.Text.Cased
import Rite.Text.CodeSet
import Rite.Text.Digits
import Rite.Text.Extender
import Rite.Text.Literal
import Rite.Text.Numeric
import Rite.Text.Shown
import Rite.Text.Unprintable
import Rite.Text.Utf8
import Rite.Proofs.OrderedHashes
import Rite.Proofs.CheckSchedules
import Rite.Proofs.ClassWalks
import Rite.Proofs.MethodTables
import Rite.Proofs.Additions
import Rite.Proofs.Rendering
import Rite.Proofs.Flattening
import Rite.Proofs.ClassVariables
import Rite.Proofs.Opening
import Rite.Proofs.Shorthands
import Rite.Proofs.ArrayAccess
import Rite.Proofs.Ancestry
import Rite.Proofs.ArrayEquality
import Rite.Proofs.BuiltinInstances
import Rite.Proofs.Destructuring
import Rite.Proofs.FloorDivision
import Rite.Proofs.Literals
import Rite.Proofs.Decoding
import Rite.Proofs.LoadBounds
import Rite.Proofs.DraftIndices
import Rite.Proofs.Destinations
import Rite.Proofs.Layouts
import Rite.Proofs.Powers
import Rite.Proofs.Probes
import Rite.Proofs.RegisterIndices
