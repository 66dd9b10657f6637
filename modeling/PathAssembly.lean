import PathAssembly.Binary64.Arithmetic
import PathAssembly.Binary64.Basic
import PathAssembly.Binary64.Literal
import PathAssembly.Binary64.Shortest
import PathAssembly.Bits.Bounded
import PathAssembly.Bits.Field
import PathAssembly.Candidate
import PathAssembly.Fault
import PathAssembly.Fixture.Document
import PathAssembly.Fixture.Reader
import PathAssembly.Fixture.Record
import PathAssembly.Fixture.Value.Basic
import PathAssembly.Fixture.Value.Number
import PathAssembly.Fixture.Value.Text
import PathAssembly.Fixture.Value.Timestamp
import PathAssembly.Fixture.Writer
import PathAssembly.Header.Alert
import PathAssembly.Header.Basic
import PathAssembly.Header.Crossing
import PathAssembly.Header.Field
import PathAssembly.IsdAs.Basic
import PathAssembly.IsdAs.Notation
import PathAssembly.Logged
import PathAssembly.Logging.Decimals
import PathAssembly.Logging.Format
import PathAssembly.Logging.Layout
import PathAssembly.Logging.Level
import PathAssembly.Logging.Tree
import PathAssembly.Lookup.Combination
import PathAssembly.Lookup.Inquiry
import PathAssembly.Lookup.Protocol
import PathAssembly.Lookup.Service
import PathAssembly.Octets.BigEndian
import PathAssembly.Octets.Hex
import PathAssembly.OrderedMap
import PathAssembly.Path.Assembly
import PathAssembly.Path.Built
import PathAssembly.Path.Distinct
import PathAssembly.Path.Interface
import PathAssembly.Path.Leg
import PathAssembly.Path.Metadata
import PathAssembly.Path.Orientation
import PathAssembly.Path.Truncation
import PathAssembly.Proofs.Bits.Independence
import PathAssembly.Proofs.Header.Field
import PathAssembly.Proofs.Header.MetaWord
import PathAssembly.Proofs.Outcome
import PathAssembly.Resolver
import PathAssembly.Segment.Basic
import PathAssembly.Segment.HopField
import PathAssembly.Segment.Range
import PathAssembly.Segment.Role
import PathAssembly.Segment.StaticInfo
import PathAssembly.Settings
import PathAssembly.Text.Blank
import PathAssembly.Text.Capital
import PathAssembly.Text.CodePoint
import PathAssembly.Text.Decimal
import PathAssembly.Text.Digit
import PathAssembly.Text.Fields
import PathAssembly.Text.Letter
import PathAssembly.Text.Numeral
import PathAssembly.Text.Printable
import PathAssembly.Text.Quoted
import PathAssembly.Topology
import PathAssembly.Yaml.Block
import PathAssembly.Yaml.Cursor
import PathAssembly.Yaml.Document
import PathAssembly.Yaml.Flow
import PathAssembly.Yaml.Node
import PathAssembly.Yaml.Plain
import PathAssembly.Yaml.Quoted
import PathAssembly.Yaml.Scalar
import PathAssembly.Yaml.Sexagesimal
import PathAssembly.Yaml.Timestamp
import PathAssembly.Proofs.Header.RoundTrip
import PathAssembly.Proofs.Segment.Window
import PathAssembly.Proofs.Path.Orientation
import PathAssembly.Proofs.Path.Truncation
import PathAssembly.Proofs.Path.Leg
import PathAssembly.Proofs.Path.Assembly
import PathAssembly.Proofs.Path.Identifier
import PathAssembly.Proofs.Lookup.Join
import PathAssembly.Proofs.Lookup.Attachment
import PathAssembly.Proofs.Path.Interface
import PathAssembly.Proofs.Path.Crossing
import PathAssembly.Proofs.Lookup.Protocol
import PathAssembly.Proofs.Path.Distinct
import PathAssembly.Proofs.Resolver
import PathAssembly.Proofs.OrderedMap
import PathAssembly.Proofs.Path.Ledger
import PathAssembly.Proofs.Resolution
import PathAssembly.Proofs.Retention
import PathAssembly.Proofs.Path.Wiring
import PathAssembly.Proofs.Path.Route
import PathAssembly.Proofs.Path.Mirror
import PathAssembly.Proofs.Lookup.Answers
import PathAssembly.Proofs.Reordering
import PathAssembly.Proofs.Narrowing
import PathAssembly.Proofs.Octets
import PathAssembly.Proofs.Header.Acceptance
import PathAssembly.Proofs.Header.Reserved
import PathAssembly.Proofs.Path.Duplicates
import PathAssembly.Proofs.Text.Numeral
import PathAssembly.Proofs.IsdAs.Notation
import PathAssembly.Proofs.Fixture.Record
import PathAssembly.Proofs.Fixture.StaticInfo
import PathAssembly.Proofs.Fixture.Segment
import PathAssembly.Proofs.Fixture.Document
import PathAssembly.Proofs.Path.Loops
import PathAssembly.Proofs.Path.Shortcut
import PathAssembly.Proofs.Path.Settlement
import PathAssembly.Proofs.Path.Limits
import PathAssembly.Proofs.Header.Prefix
import PathAssembly.Proofs.Header.Alert
import PathAssembly.Proofs.Path.Contribution
import PathAssembly.Proofs.Path.Metadata
import PathAssembly.Proofs.Path.AsVisits
import PathAssembly.Proofs.Path.Transit
import PathAssembly.Proofs.TransitCount
import PathAssembly.Proofs.Path.Direction
import PathAssembly.Proofs.Lookup.Transcript
import PathAssembly.Proofs.Fixture.Invalid
import PathAssembly.Proofs.Fixture.Check
import PathAssembly.Proofs.Fixture.Report
import PathAssembly.Proofs.Bits.Masks
import PathAssembly.Proofs.Bits.Writing
import PathAssembly.Proofs.IsdAs.RoundTrip
import PathAssembly.Proofs.Path.Bounds
