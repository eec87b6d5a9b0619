import CanvasTransform.Behaviour.Basic
import CanvasTransform.Behaviour.Builtin
import CanvasTransform.Behaviour.Registry
import CanvasTransform.Binary64
import CanvasTransform.Camera
import CanvasTransform.Canvas
import CanvasTransform.Codec.Basic
import CanvasTransform.Codec.Config
import CanvasTransform.Codec.Double
import CanvasTransform.Codec.Geometry
import CanvasTransform.Codec.Interaction
import CanvasTransform.Codec.Selection
import CanvasTransform.Codec.Shape
import CanvasTransform.Config
import CanvasTransform.Decimal.Shortest
import CanvasTransform.Document.Basic
import CanvasTransform.Document.Hierarchy
import CanvasTransform.Document.Staging
import CanvasTransform.Document.Store
import CanvasTransform.Editor.Basic
import CanvasTransform.Editor.Dispatch
import CanvasTransform.Editor.Event
import CanvasTransform.Editor.Resizing
import CanvasTransform.Editor.Sessions
import CanvasTransform.Editor.Transition
import CanvasTransform.Error
import CanvasTransform.Geometry.Affine
import CanvasTransform.Geometry.Angle
import CanvasTransform.Geometry.Rect
import CanvasTransform.Geometry.Vector
import CanvasTransform.Json.Basic
import CanvasTransform.Json.Lexer
import CanvasTransform.Json.Parser
import CanvasTransform.Json.Printer
import CanvasTransform.Proofs.Camera.Moves
import CanvasTransform.Proofs.Codec.Double
import CanvasTransform.Proofs.Codec.Records
import CanvasTransform.Proofs.Codec.RoundTrip
import CanvasTransform.Proofs.Document.Ancestry
import CanvasTransform.Proofs.Document.Closed
import CanvasTransform.Proofs.Document.Commit
import CanvasTransform.Proofs.Document.Descent
import CanvasTransform.Proofs.Document.Forest
import CanvasTransform.Proofs.Document.Frames
import CanvasTransform.Proofs.Document.Growth
import CanvasTransform.Proofs.Document.Overlay
import CanvasTransform.Proofs.Document.Remainder
import CanvasTransform.Proofs.Document.Removal
import CanvasTransform.Proofs.Document.Requests
import CanvasTransform.Proofs.Document.View
import CanvasTransform.Proofs.Document.Visit
import CanvasTransform.Proofs.Editor.Calls
import CanvasTransform.Proofs.Editor.Cloning
import CanvasTransform.Proofs.Editor.Effects
import CanvasTransform.Proofs.Editor.Flipping
import CanvasTransform.Proofs.Editor.Interaction
import CanvasTransform.Proofs.Editor.Interfaces
import CanvasTransform.Proofs.Editor.Journal
import CanvasTransform.Proofs.Editor.Replay
import CanvasTransform.Proofs.Editor.Soundness
import CanvasTransform.Proofs.Editor.Table
import CanvasTransform.Proofs.Geometry.Exact
import CanvasTransform.Proofs.Geometry.Rigid
import CanvasTransform.Proofs.Geometry.Similarity
import CanvasTransform.Proofs.Geometry.Spans
import CanvasTransform.Proofs.Group.Bounds
import CanvasTransform.Proofs.Group.Fit
import CanvasTransform.Proofs.Group.Refit
import CanvasTransform.Proofs.Json.Reading
import CanvasTransform.Proofs.Json.Scanning
import CanvasTransform.Proofs.Numbers.Differences
import CanvasTransform.Proofs.Numbers.Doubles
import CanvasTransform.Proofs.Numbers.Finite
import CanvasTransform.Proofs.Numbers.Order
import CanvasTransform.Proofs.Selection.Box
import CanvasTransform.Proofs.Selection.Candidates
import CanvasTransform.Proofs.Selection.Capture
import CanvasTransform.Proofs.Selection.Enclosure
import CanvasTransform.Proofs.Selection.Handles
import CanvasTransform.Proofs.Selection.Members
import CanvasTransform.Proofs.Selection.TopLevel
import CanvasTransform.Proofs.Session.Alignment
import CanvasTransform.Proofs.Session.Aspect
import CanvasTransform.Proofs.Session.Cloning
import CanvasTransform.Proofs.Session.Footprint
import CanvasTransform.Proofs.Session.History
import CanvasTransform.Proofs.Session.Motion
import CanvasTransform.Proofs.Session.Order
import CanvasTransform.Proofs.Session.Resizing
import CanvasTransform.Proofs.Session.Run
import CanvasTransform.Proofs.Session.Translation
import CanvasTransform.Proofs.Session.Undo
import CanvasTransform.Proofs.Snap.Axes
import CanvasTransform.Proofs.Snap.Enclosure
import CanvasTransform.Proofs.Snap.Facing
import CanvasTransform.Proofs.Snap.Gaps
import CanvasTransform.Proofs.Snap.Grid
import CanvasTransform.Proofs.Snap.Lines
import CanvasTransform.Proofs.Snap.Nearest
import CanvasTransform.Proofs.Snap.Rows
import CanvasTransform.Proofs.Snap.Search
import CanvasTransform.Proofs.TaskQueue.Delivery
import CanvasTransform.Proofs.Text.Uuid
import CanvasTransform.Proofs.Transform.Aspect
import CanvasTransform.Proofs.Transform.Decomposition
import CanvasTransform.Proofs.Transform.Drag
import CanvasTransform.Proofs.Transform.Failures
import CanvasTransform.Proofs.Transform.Flat
import CanvasTransform.Proofs.Transform.Mirror
import CanvasTransform.Proofs.Transform.Motion
import CanvasTransform.Proofs.Transform.Reach
import CanvasTransform.Proofs.Transform.Resize
import CanvasTransform.Proofs.Transform.Scaling
import CanvasTransform.Proofs.Transform.Targets
import CanvasTransform.Proofs.Transform.Turn
import CanvasTransform.Proofs.Transform.Walk
import CanvasTransform.Scalar
import CanvasTransform.Selection.Bounds
import CanvasTransform.Selection.Cursor
import CanvasTransform.Selection.Handle
import CanvasTransform.Selection.HitTest
import CanvasTransform.Selection.Snapshot
import CanvasTransform.Session.Basic
import CanvasTransform.Session.Flags
import CanvasTransform.Session.Update
import CanvasTransform.Shape.Basic
import CanvasTransform.Shape.Patch
import CanvasTransform.Snap.Align
import CanvasTransform.Snap.Axis
import CanvasTransform.Snap.Candidate
import CanvasTransform.Snap.Grid
import CanvasTransform.Snap.Line
import CanvasTransform.TaskQueue
import CanvasTransform.Text.Uuid
import CanvasTransform.Transform.Batch
import CanvasTransform.Transform.Outcome
import CanvasTransform.Transform.Scale
import CanvasTransform.Transform.Shift
import CanvasTransform.Transform.Turn
