import Schematic.Argument.Coercion
import Schematic.Argument.Equality
import Schematic.Argument.Rendering
import Schematic.Circuit.Basic
import Schematic.Circuit.Build
import Schematic.Circuit.Listing
import Schematic.Command.Disk
import Schematic.Command.Options
import Schematic.Command.Run
import Schematic.Connection.Basic
import Schematic.Connection.Inquiry
import Schematic.Connection.Shape
import Schematic.Decimal.Basic
import Schematic.Decimal.Layout
import Schematic.Decimal.Reader
import Schematic.Decimal.Shortest
import Schematic.Declaration.Basic
import Schematic.Declaration.Emit
import Schematic.Declaration.Text
import Schematic.Diagnostic
import Schematic.Digest.Sha256
import Schematic.Double.Basic
import Schematic.Double.Round
import Schematic.Fault
import Schematic.Json.Basic
import Schematic.Json.Document
import Schematic.Json.Number
import Schematic.Json.Numeral
import Schematic.Json.Quoted
import Schematic.Json.Reader
import Schematic.Json.Token
import Schematic.Lowering
import Schematic.Main
import Schematic.Netlist.Basic
import Schematic.Netlist.Wire
import Schematic.Pipeline.Pass
import Schematic.Pipeline.Session
import Schematic.Pipeline.Workspace
import Schematic.Proofs.Argument.Equality
import Schematic.Proofs.Argument.Grammar
import Schematic.Proofs.Argument.Integers
import Schematic.Proofs.Argument.Literals
import Schematic.Proofs.Argument.Overrides
import Schematic.Proofs.Argument.RoundTrip
import Schematic.Proofs.Argument.Written
import Schematic.Proofs.Circuit.Append
import Schematic.Proofs.Circuit.Nets
import Schematic.Proofs.Circuit.Resolution
import Schematic.Proofs.Circuit.Within
import Schematic.Proofs.Command.Arguments
import Schematic.Proofs.Command.Stages
import Schematic.Proofs.Connection.Agreement
import Schematic.Proofs.Connection.Grouping
import Schematic.Proofs.Connection.Inquiry
import Schematic.Proofs.Connection.Known
import Schematic.Proofs.Connection.Partition
import Schematic.Proofs.Connection.Uniform
import Schematic.Proofs.Decimal.Literal
import Schematic.Proofs.Decimal.Rounding
import Schematic.Proofs.Decimal.Shortest
import Schematic.Proofs.Decimal.Value
import Schematic.Proofs.Declaration.Blocks
import Schematic.Proofs.Declaration.Connects
import Schematic.Proofs.Declaration.Unambiguous
import Schematic.Proofs.Double.Nearest
import Schematic.Proofs.Double.Rounding
import Schematic.Proofs.Double.Signed
import Schematic.Proofs.Json.Edits
import Schematic.Proofs.Json.Reading
import Schematic.Proofs.Json.Records
import Schematic.Proofs.Json.RoundTrip
import Schematic.Proofs.Json.Spelling
import Schematic.Proofs.Json.Values
import Schematic.Proofs.Lowering.Acceptance
import Schematic.Proofs.Lowering.ClassNames
import Schematic.Proofs.Lowering.Composition
import Schematic.Proofs.Lowering.Design
import Schematic.Proofs.Lowering.Emitted
import Schematic.Proofs.Lowering.Exports
import Schematic.Proofs.Lowering.Identifiers
import Schematic.Proofs.Lowering.Inert
import Schematic.Proofs.Lowering.LabelOrder
import Schematic.Proofs.Lowering.Members
import Schematic.Proofs.Lowering.Placement
import Schematic.Proofs.Lowering.Realized
import Schematic.Proofs.Lowering.Reordered
import Schematic.Proofs.Lowering.Shapes
import Schematic.Proofs.Netlist.Acceptable
import Schematic.Proofs.Netlist.Append
import Schematic.Proofs.Netlist.Attached
import Schematic.Proofs.Netlist.Broken
import Schematic.Proofs.Netlist.Decoding
import Schematic.Proofs.Netlist.Placed
import Schematic.Proofs.Netlist.Representable
import Schematic.Proofs.Pipeline.Diagnostics
import Schematic.Proofs.Pipeline.Faults
import Schematic.Proofs.Pipeline.Forgetting
import Schematic.Proofs.Pipeline.Freshness
import Schematic.Proofs.Pipeline.InRange
import Schematic.Proofs.Pipeline.Outcome
import Schematic.Proofs.Pipeline.Outline
import Schematic.Proofs.Pipeline.Queries
import Schematic.Proofs.Pipeline.Readiness
import Schematic.Proofs.Pipeline.Renaming
import Schematic.Proofs.Pipeline.Stages
import Schematic.Proofs.Pipeline.Visits
import Schematic.Proofs.Sequence
import Schematic.Proofs.Support.Insertions
import Schematic.Proofs.Support.Names
import Schematic.Proofs.Support.PerConnection
import Schematic.Proofs.Support.Planning
import Schematic.Proofs.Support.Supplies
import Schematic.Proofs.Text.Separable
import Schematic.Proofs.Wrapper.Adaptation
import Schematic.Proofs.Wrapper.Numbering
import Schematic.Proofs.Wrapper.PinNames
import Schematic.Proofs.Wrapper.Pins
import Schematic.Provenance
import Schematic.Registry.Basic
import Schematic.Registry.Wire
import Schematic.Support
import Schematic.Text.Characters
import Schematic.Wrapper
