import DocComment.Text.CharClass
import DocComment.Text.Space
import DocComment.Text.Alphanumeric
import DocComment.Text.Numeral
import DocComment.Text.Split
import DocComment.Text.Collect
import DocComment.MemberId
import DocComment.Spacing
import DocComment.OrderedMap
import DocComment.Xml.Attributes
import DocComment.Xml.Element
import DocComment.Xml.Error
import DocComment.Xml.Reference
import DocComment.Xml.Tag
import DocComment.Xml.Token.Doctype
import DocComment.Xml.Token
import DocComment.Xml.Document
import DocComment.Body.Role
import DocComment.Body.Page
import DocComment.Json.Value
import DocComment.Json.Token
import DocComment.Json.Structure
import DocComment.Json.Layout
import DocComment.Record
import DocComment.Record.Json
import DocComment.Section
import DocComment.Comment
import DocComment.Batch
import DocComment.Toml.Value
import DocComment.Toml.Quoted
import DocComment.Toml.Scalar
import DocComment.Toml.Document
import DocComment.Environment
import DocComment.FileTree
import DocComment.Settings
import DocComment.Command.Arguments
import DocComment.Command.Run
import DocComment.Main
import DocComment.Proofs.Xml.Reading
import DocComment.Proofs.Xml.Step
import DocComment.Proofs.Cut
import DocComment.Proofs.Xml.TagSource
import DocComment.Proofs.Xml.Spelling
import DocComment.Proofs.Xml.StartTag
import DocComment.Proofs.Xml.RoundTrip
import DocComment.Proofs.Xml.LooseReference
import DocComment.Proofs.Xml.OpenNames
import DocComment.Proofs.Xml.Violation
import DocComment.Proofs.Xml.Events
import DocComment.Proofs.Body.Trace
import DocComment.Proofs.Body.PartOrder
import DocComment.Proofs.Comment
import DocComment.Proofs.Batch
import DocComment.Proofs.Section
import DocComment.Proofs.KeyedSection
import DocComment.Proofs.SeeAlsoOrder
import DocComment.Proofs.PlainRecord
import DocComment.Proofs.SectionByTag
import DocComment.Proofs.Body.Reach
import DocComment.Proofs.Body.Shown
import DocComment.Proofs.Body.ItemLine
import DocComment.Proofs.Body.Numbering
import DocComment.Proofs.Body.Boundary
import DocComment.Proofs.SeeAlsoReach
import DocComment.Proofs.SeeAlsoListing
import DocComment.Proofs.Json.Spelling
import DocComment.Proofs.Json.Grammar
import DocComment.Proofs.Json.Layout
import DocComment.Proofs.Record.Json
import DocComment.Proofs.Record.Members
import DocComment.Proofs.Xml.Piece
import DocComment.Proofs.Xml.Continuation
import DocComment.Proofs.Xml.Respelling
import DocComment.Proofs.Body.Qualified
import DocComment.Proofs.LookAlike
import DocComment.Proofs.Mention
import DocComment.Proofs.Trimmed
import DocComment.Proofs.SingleSpaced
import DocComment.Proofs.Summary
import DocComment.Proofs.Flush
import DocComment.Proofs.NormalForm
import DocComment.Proofs.Runs
import DocComment.Proofs.Words
import DocComment.Proofs.Record.Texts
import DocComment.Proofs.Body.OwnText
import DocComment.Proofs.Indentation
import DocComment.Proofs.Settings
import DocComment.Proofs.Json.Compact
import DocComment.Proofs.Command.Agreement
import DocComment.Proofs.Command.Faults
