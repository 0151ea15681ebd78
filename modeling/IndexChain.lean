import IndexChain.Binary64
import IndexChain.Calendar
import IndexChain.Command.Line
import IndexChain.Command.Request
import IndexChain.Command.Run
import IndexChain.Counter
import IndexChain.Delivery
import IndexChain.Depot
import IndexChain.Entries
import IndexChain.Entries.Escaped
import IndexChain.Entries.Lines
import IndexChain.Entries.Written
import IndexChain.Fault
import IndexChain.Handover
import IndexChain.Journal
import IndexChain.Location
import IndexChain.Location.DiskPath
import IndexChain.Location.MemoryPath
import IndexChain.Main
import IndexChain.Manifest
import IndexChain.Moment
import IndexChain.Moment.Layout
import IndexChain.Moment.Stamp
import IndexChain.Pairs
import IndexChain.Plan
import IndexChain.Proofs.Entries.Escape
import IndexChain.Refusal
import IndexChain.Rehearsal
import IndexChain.Report
import IndexChain.Run
import IndexChain.Session
import IndexChain.Settings
import IndexChain.Storage.Disk
import IndexChain.Storage.Memory
import IndexChain.Text
import IndexChain.Text.Base64
import IndexChain.Text.Control
import IndexChain.Text.Digit
import IndexChain.Text.Latin1
import IndexChain.Text.Printable
import IndexChain.Text.Quoted
import IndexChain.Text.Shape
import IndexChain.Text.Units
import IndexChain.Text.Utf8
import IndexChain.Usage
import IndexChain.Value
import IndexChain.Value.Json
import IndexChain.Value.Shown
import IndexChain.Workspace
import IndexChain.Yaml.Break
import IndexChain.Yaml.Document
import IndexChain.Yaml.Literal
import IndexChain.Yaml.Merge
import IndexChain.Yaml.Node
import IndexChain.Yaml.Number
import IndexChain.Yaml.Object
import IndexChain.Yaml.Plain
import IndexChain.Yaml.Quoted
import IndexChain.Yaml.Tag
import IndexChain.Yaml.Token
import IndexChain.Yaml.Unquoted
import IndexChain.Yaml.Written
import IndexChain.Proofs.Entries.Lines
import IndexChain.Proofs.Entries.RoundTrip
import IndexChain.Proofs.Entries.Grammar
import IndexChain.Proofs.Delivery
import IndexChain.Proofs.Session
import IndexChain.Proofs.History
import IndexChain.Proofs.Succession
import IndexChain.Proofs.Location
import IndexChain.Proofs.Storage
import IndexChain.Proofs.Workspace
import IndexChain.Proofs.Command
import IndexChain.Proofs.Plan
import IndexChain.Proofs.Failure
import IndexChain.Proofs.Progress
import IndexChain.Proofs.Recording
import IndexChain.Proofs.Order
import IndexChain.Proofs.Streams
import IndexChain.Proofs.Release
import IndexChain.Proofs.Closing
import IndexChain.Proofs.Reopening
import IndexChain.Proofs.Overwriting
import IndexChain.Proofs.Entries.Flaws
import IndexChain.Proofs.Handover
import IndexChain.Proofs.Opening
import IndexChain.Proofs.Foresight
import IndexChain.Proofs.Counters
import IndexChain.Proofs.Stamps
import IndexChain.Proofs.Comments
import IndexChain.Proofs.Setup
import IndexChain.Proofs.Calendar
import IndexChain.Proofs.Moment
import IndexChain.Proofs.Text.Digit
import IndexChain.Proofs.Moment.Layout
import IndexChain.Proofs.Moment.Stamp
import IndexChain.Proofs.Stages
import IndexChain.Proofs.Passes
import IndexChain.Proofs.Wording
import IndexChain.Proofs.Entries.Breaks
import IndexChain.Proofs.Entries.Seams
import IndexChain.Proofs.Entries.Blanks
import IndexChain.Proofs.Moment.Words
import IndexChain.Proofs.Moment.Places
import IndexChain.Proofs.Entries.Tokens
import IndexChain.Proofs.Entries.Halves
import IndexChain.Proofs.Entries.Ascii
import IndexChain.Proofs.Hindrance.Disk
import IndexChain.Proofs.Hindrance.Memory
import IndexChain.Proofs.Hindrance
import IndexChain.Proofs.Stopping
import IndexChain.Proofs.Telling
