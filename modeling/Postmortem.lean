import Postmortem.Bisect
import Postmortem.Bytes
import Postmortem.Checked.Arithmetic
import Postmortem.Checked.Export
import Postmortem.Checked.Header
import Postmortem.Checked.Image
import Postmortem.Checked.Module
import Postmortem.Checked.Section
import Postmortem.Checked.Session
import Postmortem.Checked.Symbol
import Postmortem.Config.Basic
import Postmortem.Config.Json
import Postmortem.Debug.Abbreviation
import Postmortem.Debug.AddressIndex
import Postmortem.Debug.Attribute
import Postmortem.Debug.Basic
import Postmortem.Debug.Cursor
import Postmortem.Debug.Function
import Postmortem.Debug.LineProgram
import Postmortem.Debug.LineTable
import Postmortem.Debug.Ranges
import Postmortem.Debug.Recall
import Postmortem.Debug.Sections
import Postmortem.Debug.Unit
import Postmortem.Demangle.Basic
import Postmortem.Demangle.Flavor
import Postmortem.Demangle.Itanium.Expression
import Postmortem.Demangle.Itanium.Name
import Postmortem.Demangle.Itanium.Node
import Postmortem.Demangle.Itanium.Output
import Postmortem.Demangle.Itanium.Parser
import Postmortem.Demangle.Itanium.Printer
import Postmortem.Demangle.Itanium.Reader
import Postmortem.Demangle.Itanium.Type
import Postmortem.Demangle.Microsoft.Grammar
import Postmortem.Demangle.Microsoft.Node
import Postmortem.Demangle.Microsoft.Printer
import Postmortem.Demangle.Microsoft.Reader
import Postmortem.Demangle.Rust.Basic
import Postmortem.Demangle.Rust.Legacy
import Postmortem.Demangle.Rust.Punycode
import Postmortem.Demangle.Rust.Reader
import Postmortem.Demangle.Rust.V0
import Postmortem.Demangle.Style
import Postmortem.Error
import Postmortem.File.Path
import Postmortem.File.System
import Postmortem.Image.Basic
import Postmortem.Image.Error
import Postmortem.Image.Export
import Postmortem.Image.File
import Postmortem.Image.Header
import Postmortem.Image.Section
import Postmortem.Image.Symbol
import Postmortem.Json.Document
import Postmortem.Json.Number
import Postmortem.Json.Reader
import Postmortem.Json.Record
import Postmortem.Json.Value
import Postmortem.Memo
import Postmortem.Module.Cache
import Postmortem.Module.Decoded
import Postmortem.Module.Image
import Postmortem.Process.Id
import Postmortem.Process.Map
import Postmortem.Proofs.Bisect
import Postmortem.Proofs.Bytes
import Postmortem.Proofs.Cache.Count
import Postmortem.Proofs.Cache.Records
import Postmortem.Proofs.Cache.Separation
import Postmortem.Proofs.Config.Overrides
import Postmortem.Proofs.Config.RoundTrip
import Postmortem.Proofs.Debug.EntryCode
import Postmortem.Proofs.Debug.FunctionSearch
import Postmortem.Proofs.Debug.LineRows
import Postmortem.Proofs.Debug.LineSequences
import Postmortem.Proofs.Debug.RangeStreams
import Postmortem.Proofs.Debug.ReferenceChain
import Postmortem.Proofs.Debug.UnitIndex
import Postmortem.Proofs.Demangle.Flavor
import Postmortem.Proofs.Except
import Postmortem.Proofs.File.Spelling
import Postmortem.Proofs.Image.Checks
import Postmortem.Proofs.Image.Copies
import Postmortem.Proofs.Image.Coverage
import Postmortem.Proofs.Image.ExportNames
import Postmortem.Proofs.Image.ExportSlots
import Postmortem.Proofs.Image.Forwarders
import Postmortem.Proofs.Image.LoadedExports
import Postmortem.Proofs.Image.Mapping
import Postmortem.Proofs.Image.NearestExport
import Postmortem.Proofs.Image.NearestFunction
import Postmortem.Proofs.Image.Prefix
import Postmortem.Proofs.Image.SectionEntries
import Postmortem.Proofs.Image.SectionOrder
import Postmortem.Proofs.Image.SectionSearch
import Postmortem.Proofs.Image.StringNames
import Postmortem.Proofs.Image.SymbolEntries
import Postmortem.Proofs.Image.Truncation
import Postmortem.Proofs.Image.Written
import Postmortem.Proofs.Json.Extent
import Postmortem.Proofs.Json.Grammar
import Postmortem.Proofs.Json.Objects
import Postmortem.Proofs.Json.Strings
import Postmortem.Proofs.Json.Written
import Postmortem.Proofs.Module.Contents
import Postmortem.Proofs.Overflow.Arithmetic
import Postmortem.Proofs.Overflow.Exports
import Postmortem.Proofs.Overflow.Headers
import Postmortem.Proofs.Overflow.Images
import Postmortem.Proofs.Overflow.Modules
import Postmortem.Proofs.Overflow.Questions
import Postmortem.Proofs.Overflow.Sessions
import Postmortem.Proofs.Overflow.Symbols
import Postmortem.Proofs.Process.Layout
import Postmortem.Proofs.Process.Pages
import Postmortem.Proofs.Process.Regions
import Postmortem.Proofs.Report.FrameModule
import Postmortem.Proofs.Report.Snippet
import Postmortem.Proofs.Report.Stack
import Postmortem.Proofs.Report.StackLines
import Postmortem.Proofs.Session.Accounting
import Postmortem.Proofs.Session.DisplayNames
import Postmortem.Proofs.Session.ImageFiles
import Postmortem.Proofs.Session.Isolation
import Postmortem.Proofs.Session.MappedFiles
import Postmortem.Proofs.Session.Replies
import Postmortem.Proofs.Session.Stability
import Postmortem.Proofs.Session.Step
import Postmortem.Proofs.Session.Transparency
import Postmortem.Proofs.Symbol.Chain
import Postmortem.Proofs.Symbol.LoadAddress
import Postmortem.Proofs.Symbol.Start
import Postmortem.Proofs.Symbolizer.Agreement
import Postmortem.Proofs.Symbolizer.DisplayNames
import Postmortem.Proofs.Symbolizer.Failure
import Postmortem.Proofs.Symbolizer.FileTable
import Postmortem.Proofs.Symbolizer.ImageFiles
import Postmortem.Proofs.Symbolizer.Offline
import Postmortem.Proofs.Symbolizer.Question
import Postmortem.Proofs.Symbolizer.Separation
import Postmortem.Proofs.Text.Encoding
import Postmortem.Proofs.Text.Hex
import Postmortem.Proofs.Text.Numeral
import Postmortem.Report.Architecture
import Postmortem.Report.ExceptionCode
import Postmortem.Report.Frame
import Postmortem.Report.Modules
import Postmortem.Report.Registers
import Postmortem.Report.Source
import Postmortem.Symbol.Chain
import Postmortem.Symbol.Source
import Postmortem.Symbolizer.Basic
import Postmortem.Symbolizer.Call
import Postmortem.Symbolizer.Live
import Postmortem.Symbolizer.Session
import Postmortem.Table
import Postmortem.Text.Hex
import Postmortem.Text.Lossy
import Postmortem.Text.Numeral
import Postmortem.Text.Visible
