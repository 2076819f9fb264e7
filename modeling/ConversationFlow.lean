import ConversationFlow.Check.Cycles
import ConversationFlow.Check.Drawing
import ConversationFlow.Check.Flow
import ConversationFlow.Check.Reach
import ConversationFlow.Compile.Config
import ConversationFlow.Compile.Content
import ConversationFlow.Compile.Flow
import ConversationFlow.Compile.Node
import ConversationFlow.Compile.Transitions
import ConversationFlow.Compile.Value
import ConversationFlow.Editor.Graph
import ConversationFlow.Editor.NodeKind
import ConversationFlow.Event
import ConversationFlow.Exchange
import ConversationFlow.Executable.Config
import ConversationFlow.Executable.Content
import ConversationFlow.Executable.Flow
import ConversationFlow.Executable.NodeType
import ConversationFlow.Failure
import ConversationFlow.Host
import ConversationFlow.Identity
import ConversationFlow.Job
import ConversationFlow.Json.Misread
import ConversationFlow.Json.Mistake
import ConversationFlow.Json.Printer
import ConversationFlow.Json.Reader
import ConversationFlow.Json.Value
import ConversationFlow.Metadata
import ConversationFlow.Number.Binary64
import ConversationFlow.Number.Layout
import ConversationFlow.Number.Shortest
import ConversationFlow.Proofs.Agreement
import ConversationFlow.Proofs.Check.Cycles
import ConversationFlow.Proofs.Check.Descent
import ConversationFlow.Proofs.Check.Drawing
import ConversationFlow.Proofs.Check.DrawingErrors
import ConversationFlow.Proofs.Check.Endings
import ConversationFlow.Proofs.Check.Flow
import ConversationFlow.Proofs.Check.Lockstep
import ConversationFlow.Proofs.Check.Loops
import ConversationFlow.Proofs.Check.Outline
import ConversationFlow.Proofs.Check.Reach
import ConversationFlow.Proofs.Check.Report
import ConversationFlow.Proofs.Check.Search
import ConversationFlow.Proofs.Check.Termination
import ConversationFlow.Proofs.Check.Walk
import ConversationFlow.Proofs.Compile.Acceptance
import ConversationFlow.Proofs.Compile.Buttons
import ConversationFlow.Proofs.Compile.Call
import ConversationFlow.Proofs.Compile.Canvas
import ConversationFlow.Proofs.Compile.Codes
import ConversationFlow.Proofs.Compile.Containment
import ConversationFlow.Proofs.Compile.Conversion
import ConversationFlow.Proofs.Compile.Faults
import ConversationFlow.Proofs.Compile.Flow
import ConversationFlow.Proofs.Compile.FormFields
import ConversationFlow.Proofs.Compile.Gist
import ConversationFlow.Proofs.Compile.Handles
import ConversationFlow.Proofs.Compile.Isolation
import ConversationFlow.Proofs.Compile.LeadingInteger
import ConversationFlow.Proofs.Compile.Messages
import ConversationFlow.Proofs.Compile.Node
import ConversationFlow.Proofs.Compile.Nodes
import ConversationFlow.Proofs.Compile.OwnEdges
import ConversationFlow.Proofs.Compile.Renaming
import ConversationFlow.Proofs.Compile.Results
import ConversationFlow.Proofs.Compile.Stamping
import ConversationFlow.Proofs.Compile.Structure
import ConversationFlow.Proofs.Compile.Values
import ConversationFlow.Proofs.Compile.Verdict
import ConversationFlow.Proofs.Dates
import ConversationFlow.Proofs.Executable.Finite
import ConversationFlow.Proofs.Executable.Kept
import ConversationFlow.Proofs.Executable.Ordinary
import ConversationFlow.Proofs.Executable.Shape
import ConversationFlow.Proofs.Executable.Tags
import ConversationFlow.Proofs.Executable.Values
import ConversationFlow.Proofs.Executable.Writing
import ConversationFlow.Proofs.Import
import ConversationFlow.Proofs.Issued
import ConversationFlow.Proofs.Job
import ConversationFlow.Proofs.Json.Document
import ConversationFlow.Proofs.Json.Keys
import ConversationFlow.Proofs.Json.Number
import ConversationFlow.Proofs.Json.Quoted
import ConversationFlow.Proofs.Json.Value
import ConversationFlow.Proofs.Keyed
import ConversationFlow.Proofs.NormalForm
import ConversationFlow.Proofs.Number.Binary64
import ConversationFlow.Proofs.Number.Decimal
import ConversationFlow.Proofs.Number.Digits
import ConversationFlow.Proofs.Preservation
import ConversationFlow.Proofs.Returned
import ConversationFlow.Proofs.RoundTrip
import ConversationFlow.Proofs.Schema.Accepted
import ConversationFlow.Proofs.Schema.Choice
import ConversationFlow.Proofs.Schema.Completion
import ConversationFlow.Proofs.Schema.Reading
import ConversationFlow.Proofs.Schema.Writing
import ConversationFlow.Proofs.Service.Payload
import ConversationFlow.Proofs.Session
import ConversationFlow.Proofs.Table
import ConversationFlow.Proofs.Text.Ascii
import ConversationFlow.Proofs.Timestamp
import ConversationFlow.Proofs.Typed
import ConversationFlow.Report
import ConversationFlow.Sample
import ConversationFlow.Schema.Finding
import ConversationFlow.Schema.Keys
import ConversationFlow.Schema.Reading
import ConversationFlow.Schema.Record
import ConversationFlow.Schema.Scalar
import ConversationFlow.Service.Body
import ConversationFlow.Service.Respond
import ConversationFlow.Service.Route
import ConversationFlow.Settings
import ConversationFlow.Table
import ConversationFlow.Text.Basic
import ConversationFlow.Text.Blank
import ConversationFlow.Text.Digit
import ConversationFlow.Text.Lowercase
import ConversationFlow.Text.Quoted
import ConversationFlow.Text.Symbol
import ConversationFlow.Text.Title
import ConversationFlow.Timestamp.Basic
import ConversationFlow.Timestamp.Reader
