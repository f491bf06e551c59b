import LicenseDepot.Catalog
import LicenseDepot.CommandLine.Arguments
import LicenseDepot.CommandLine.Run
import LicenseDepot.Content
import LicenseDepot.Envelope
import LicenseDepot.Failure
import LicenseDepot.Files.Access
import LicenseDepot.Files.Fault
import LicenseDepot.Files.Path
import LicenseDepot.Files.Tree
import LicenseDepot.Files.Walk
import LicenseDepot.Host
import LicenseDepot.Journal.Context
import LicenseDepot.Journal.Desk
import LicenseDepot.Journal.Event
import LicenseDepot.Journal.Inspect
import LicenseDepot.Journal.Measure
import LicenseDepot.Json.Basic
import LicenseDepot.Json.Reader
import LicenseDepot.Json.Writer
import LicenseDepot.License
import LicenseDepot.LicenseDocument.Reader
import LicenseDepot.LicenseDocument.Writer
import LicenseDepot.LicenseId
import LicenseDepot.Listing
import LicenseDepot.Main
import LicenseDepot.Markup.Character
import LicenseDepot.Markup.Coding
import LicenseDepot.Markup.Declaration
import LicenseDepot.Markup.Decoding
import LicenseDepot.Markup.Doctype.Basic
import LicenseDepot.Markup.Doctype.Grammar
import LicenseDepot.Markup.Doctype.Reader
import LicenseDepot.Markup.Doctype.Token
import LicenseDepot.Markup.Document
import LicenseDepot.Markup.Element
import LicenseDepot.Markup.Entity
import LicenseDepot.Markup.Event
import LicenseDepot.Markup.Malformed
import LicenseDepot.Markup.Name
import LicenseDepot.Markup.Namespace
import LicenseDepot.Markup.Piece
import LicenseDepot.Markup.Remark
import LicenseDepot.Markup.Token
import LicenseDepot.Markup.Writer
import LicenseDepot.Numeral.Binary64
import LicenseDepot.Numeral.Integer
import LicenseDepot.Numeral.Shortest
import LicenseDepot.Proofs.Catalog.Effect
import LicenseDepot.Proofs.Catalog.Import
import LicenseDepot.Proofs.Catalog.LicenseMap
import LicenseDepot.Proofs.Catalog.Operation
import LicenseDepot.Proofs.Catalog.Refinement
import LicenseDepot.Proofs.Catalog.Uninstall
import LicenseDepot.Proofs.CommandLine.Failure
import LicenseDepot.Proofs.CommandLine.Run
import LicenseDepot.Proofs.Content.Conversion
import LicenseDepot.Proofs.Content.Layout
import LicenseDepot.Proofs.Content.Opening
import LicenseDepot.Proofs.Content.Reencode
import LicenseDepot.Proofs.Content.Reread
import LicenseDepot.Proofs.Content.RoundTrip
import LicenseDepot.Proofs.Content.Sealing
import LicenseDepot.Proofs.Content.Truncation
import LicenseDepot.Proofs.Envelope
import LicenseDepot.Proofs.Files.Access
import LicenseDepot.Proofs.Files.Change
import LicenseDepot.Proofs.Files.Removal
import LicenseDepot.Proofs.Files.Stat
import LicenseDepot.Proofs.Files.Tree
import LicenseDepot.Proofs.Files.Walk
import LicenseDepot.Proofs.Journal.Bracketing
import LicenseDepot.Proofs.LicenseDocument.Field
import LicenseDepot.Proofs.LicenseDocument.Layout
import LicenseDepot.Proofs.LicenseDocument.Legal
import LicenseDepot.Proofs.LicenseDocument.Refusal
import LicenseDepot.Proofs.LicenseDocument.RoundTrip
import LicenseDepot.Proofs.LicenseId.Canonical
import LicenseDepot.Proofs.LicenseId.FileName
import LicenseDepot.Proofs.LicenseId.Pattern
import LicenseDepot.Proofs.LicenseId.Spelling
import LicenseDepot.Proofs.Listing
import LicenseDepot.Proofs.Machine
import LicenseDepot.Proofs.Markup.Cut
import LicenseDepot.Proofs.Markup.Encoding
import LicenseDepot.Proofs.Markup.Escape
import LicenseDepot.Proofs.Markup.Fragment
import LicenseDepot.Proofs.Markup.Height
import LicenseDepot.Proofs.Markup.Layout
import LicenseDepot.Proofs.Markup.Legal
import LicenseDepot.Proofs.Markup.LegalDocument
import LicenseDepot.Proofs.Markup.LegalEvents
import LicenseDepot.Proofs.Markup.Written
import LicenseDepot.Proofs.Markup.WrittenDocument
import LicenseDepot.Proofs.Markup.WrittenEvents
import LicenseDepot.Proofs.Numeral.Hexadecimal
import LicenseDepot.Proofs.Numeral.Integer
import LicenseDepot.Proofs.Outcome
import LicenseDepot.Proofs.Store.Bracketing
import LicenseDepot.Proofs.Store.Enumeration
import LicenseDepot.Proofs.Store.Keeping
import LicenseDepot.Proofs.Store.Naming
import LicenseDepot.Proofs.Store.Outcome
import LicenseDepot.Proofs.Store.Reading
import LicenseDepot.Proofs.Store.Refusal
import LicenseDepot.Proofs.Store.Removal
import LicenseDepot.Proofs.Store.Truncation
import LicenseDepot.Proofs.Store.Writing
import LicenseDepot.Proofs.Text.Character
import LicenseDepot.Proofs.Text.Utf8
import LicenseDepot.Proofs.Timestamp.AsRead
import LicenseDepot.Proofs.Timestamp.Iso
import LicenseDepot.Proofs.Watched
import LicenseDepot.Reference
import LicenseDepot.Store
import LicenseDepot.Text.Blank
import LicenseDepot.Text.Digit
import LicenseDepot.Text.Hex
import LicenseDepot.Text.Printable
import LicenseDepot.Text.Quoted
import LicenseDepot.Text.Range
import LicenseDepot.Text.Utf8
import LicenseDepot.Timestamp.Basic
import LicenseDepot.Timestamp.Iso
import LicenseDepot.Proofs.Journal.Context
import LicenseDepot.Proofs.Journal.Desk
import LicenseDepot.Journal.Payload
import LicenseDepot.Proofs.Journal.Message
