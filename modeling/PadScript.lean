import PadScript.Device.Assets
import PadScript.Device.UsbControl
import PadScript.Play.Job
import PadScript.Play.Task
import PadScript.Proofs.Cursor.Course
import PadScript.Proofs.Cursor.Structured
import PadScript.Proofs.Block.Program
import PadScript.Proofs.Block.Reading
import PadScript.Proofs.Cursor.Exhaustion
import PadScript.Proofs.Block.Desugar
import PadScript.Proofs.Queue.Effect
import PadScript.Proofs.Queue.Ledger
import PadScript.Proofs.Queue.Supersede
import PadScript.Proofs.Queue.Reach
import PadScript.Proofs.Queue.Refusal
import PadScript.Proofs.Run.Step
import PadScript.Proofs.Run.Trace
import PadScript.Proofs.Run.Company
import PadScript.Proofs.Run.Pace
import PadScript.Proofs.Run.Cycle
import PadScript.Proofs.Run.Recital
import PadScript.Proofs.Run.Completion
import PadScript.Proofs.Run.Prologue
import PadScript.Proofs.Queue.Trace
import PadScript.Proofs.Queue.Fifo
import PadScript.Proofs.Cursor.Replay
import PadScript.Proofs.Cursor.Rewind
import PadScript.Proofs.Cursor.Stack
import PadScript.Proofs.Block.Step
import PadScript.Proofs.Block.Visit
import PadScript.Proofs.Block.Closing
import PadScript.Proofs.Library.Contents
import PadScript.Proofs.Library.Generated
import PadScript.Proofs.Library.Labels
import PadScript.Proofs.Library.Bounds
import PadScript.Proofs.Library.Clean
import PadScript.Proofs.Library.Remarks
import PadScript.Proofs.Library.Neighbours
import PadScript.Proofs.Library.Names
import PadScript.Proofs.Library.Renaming
import PadScript.Proofs.Library.Order
import PadScript.Proofs.Library.Tree
import PadScript.Proofs.Library.Bundle
import PadScript.Proofs.Library.Literal
import PadScript.Proofs.Library.Listing
import PadScript.Proofs.Library.Overrides
import PadScript.Proofs.Library.Defaults
import PadScript.Proofs.Joystick.Send
import PadScript.Proofs.Joystick.Atomic
import PadScript.Proofs.Joystick.Jobs
import PadScript.Proofs.Joystick.Callers
import PadScript.Proofs.Joystick.Relay
import PadScript.Proofs.Joystick.Grip
import PadScript.Proofs.Joystick.Duet
import PadScript.Proofs.Pro.Trim
import PadScript.Proofs.Pro.Flash
import PadScript.Proofs.Pro.Shown
import PadScript.Proofs.Pro.Answers
import PadScript.Proofs.Pro.Connection
import PadScript.Proofs.Link.Lines
import PadScript.Proofs.Link.Trace
import PadScript.Proofs.Link.Framing
import PadScript.Proofs.Link.Damage
import PadScript.Proofs.Expr.Grammar
import PadScript.Proofs.Expr.Parsing
import PadScript.Proofs.Expr.Lookahead
import PadScript.Proofs.Statement.Basic
import PadScript.Proofs.Statement.Scope
import PadScript.Proofs.Statement.Cut
import PadScript.Proofs.Statement.Faults
import PadScript.Proofs.Run.Deeds
import PadScript.Proofs.Run.Ending
import PadScript.Proofs.Run.Timeline
import PadScript.Proofs.Pad.Meaning
import PadScript.Proofs.Pad.Reports
import PadScript.Proofs.Slot.Changes
import PadScript.Proofs.Token.Spelling
import PadScript.Proofs.Token.Spacing
