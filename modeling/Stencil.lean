import Stencil.Proofs.Segment.Openings
import Stencil.Proofs.Expr.Parsing
import Stencil.Compiler
import Stencil.Failure.Diagnostic
import Stencil.Segment.Token
import Stencil.Proofs.Segment.Closings
import Stencil.Proofs.Segment.Regions
import Stencil.Proofs.Splice.Points
import Stencil.Proofs.Template.Flattening
import Stencil.Proofs.Node.Layout
import Stencil.Proofs.Node.Steps
import Stencil.Proofs.Node.Parsing
import Stencil.Proofs.Node.Placement
import Stencil.Proofs.Splice.Lines
import Stencil.Proofs.Splice.Provenance
import Stencil.Proofs.Splice.Rendering
import Stencil.Proofs.Splice.LineMap
import Stencil.Proofs.Node.Moving
import Stencil.Proofs.Node.Within
import Stencil.Proofs.Segment.Spans
import Stencil.Proofs.Segment.Stretches
import Stencil.Proofs.Splice.Bodies
import Stencil.Proofs.Node.Limit
import Stencil.Proofs.Splice.Limit
import Stencil.Proofs.Compiler.Limits
import Stencil.Proofs.Compiler.Markup
import Stencil.Proofs.Node.Balance
import Stencil.Proofs.Compiler.Recursion
import Stencil.Proofs.Compiler.Handover
import Stencil.Proofs.Compiler.Registration
import Stencil.Proofs.Segment.Passages
import Stencil.Proofs.Segment.Cuts
import Stencil.Proofs.Expr.Strings
import Stencil.Proofs.Compiler.SelfReference
import Stencil.Proofs.Segment.ErrorLines
import Stencil.Proofs.Node.ErrorLines
import Stencil.Proofs.Node.Heads
import Stencil.Proofs.Splice.Faults
import Stencil.Proofs.Compiler.FaultLines
import Stencil.Proofs.Splice.ChunkLines
import Stencil.Proofs.Compiler.Located
import Stencil.Proofs.Segment.Concatenation
import Stencil.Proofs.Compiler.TagStage
import Stencil.Proofs.Compiler.Inheritance
import Stencil.Proofs.Compiler.Inlining
import Stencil.Proofs.Compiler.Repetition
import Stencil.Proofs.Compiler.Sanitizing
import Stencil.Proofs.Compiler.Branches
import Stencil.Proofs.Compiler.PartPlacement
import Stencil.Proofs.Compiler.Untagged
import Stencil.Proofs.Segment.Literals
import Stencil.Proofs.Compiler.Literals
import Stencil.Proofs.Segment.WrittenTags
import Stencil.Proofs.Compiler.NestedTags
import Stencil.Proofs.Compiler.QuotedTags
import Stencil.Proofs.Expr.EarliestError
import Stencil.Proofs.Expr.Printing
import Stencil.Proofs.Expr.DottedAccess
import Stencil.Proofs.Compiler.EscapeCall
import Stencil.Proofs.Expr.IntegerLiterals
import Stencil.Proofs.Value.IntegerOrder
import Stencil.Proofs.Value.Access
import Stencil.Proofs.Template.History
import Stencil.Proofs.Node.Arguments
import Stencil.Proofs.Compiler.TagNames
import Stencil.Proofs.Node.Unambiguous
import Stencil.Proofs.Compiler.Enclosing
import Stencil.Proofs.Failure.Carets
import Stencil.Proofs.Function.DateOrder
import Stencil.Proofs.Segment.Turns
import Stencil.Proofs.Function.DateFormats
import Stencil.Proofs.Compiler.Stages
