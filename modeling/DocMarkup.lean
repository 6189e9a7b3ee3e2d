import DocMarkup.CommandLine.Arguments
import DocMarkup.CommandLine.Outcome
import DocMarkup.CommandLine.Run
import DocMarkup.Config.Basic
import DocMarkup.Config.Decode
import DocMarkup.Config.Load
import DocMarkup.Description
import DocMarkup.Directive
import DocMarkup.Field.Basic
import DocMarkup.Field.Colon
import DocMarkup.Field.Entry
import DocMarkup.Field.Markup
import DocMarkup.Field.Typed
import DocMarkup.Field.Wrapped
import DocMarkup.FieldList
import DocMarkup.Files.Path
import DocMarkup.Files.Pattern
import DocMarkup.Files.Tree
import DocMarkup.LineCursor
import DocMarkup.Main
import DocMarkup.Members.Basic
import DocMarkup.Members.Load
import DocMarkup.Members.StringList
import DocMarkup.Outline.Assignment
import DocMarkup.Outline.Basic
import DocMarkup.Outline.Cache
import DocMarkup.Outline.Statement
import DocMarkup.Output.Document
import DocMarkup.Output.Quoted
import DocMarkup.Parser
import DocMarkup.Proofs.Checked.Access
import DocMarkup.Proofs.Checked.Assignments
import DocMarkup.Proofs.Checked.Colon
import DocMarkup.Proofs.Checked.Docstrings
import DocMarkup.Proofs.Checked.Modules
import DocMarkup.Proofs.Checked.Reading
import DocMarkup.Proofs.Checked.Rendering
import DocMarkup.Proofs.Checked.Statements
import DocMarkup.Proofs.CommandLine.Outputs
import DocMarkup.Proofs.Config.Sections
import DocMarkup.Proofs.Field.AppendedColon
import DocMarkup.Proofs.Field.ColonPlace
import DocMarkup.Proofs.Field.Deepen
import DocMarkup.Proofs.Field.Fragment
import DocMarkup.Proofs.Field.HeaderText
import DocMarkup.Proofs.Field.Joining
import DocMarkup.Proofs.Field.Layout
import DocMarkup.Proofs.Field.LookAhead
import DocMarkup.Proofs.Field.MarkupPattern
import DocMarkup.Proofs.Field.PlainText
import DocMarkup.Proofs.Field.TypedHeader
import DocMarkup.Proofs.Field.WrappedHeader
import DocMarkup.Proofs.Files.Below
import DocMarkup.Proofs.Files.Location
import DocMarkup.Proofs.Files.Naming
import DocMarkup.Proofs.Files.Writing
import DocMarkup.Proofs.Members.Brackets
import DocMarkup.Proofs.Members.Display
import DocMarkup.Proofs.Members.Indirection
import DocMarkup.Proofs.Members.Listing
import DocMarkup.Proofs.Outline.Assigned
import DocMarkup.Proofs.Outline.Build
import DocMarkup.Proofs.Outline.Chained
import DocMarkup.Proofs.Outline.Code
import DocMarkup.Proofs.Outline.Forest
import DocMarkup.Proofs.Outline.Kind
import DocMarkup.Proofs.Outline.Lookup
import DocMarkup.Proofs.Outline.Mark
import DocMarkup.Proofs.Outline.Opaque
import DocMarkup.Proofs.Outline.Reading
import DocMarkup.Proofs.Outline.Recency
import DocMarkup.Proofs.Outline.Targets
import DocMarkup.Proofs.Parser.Agreement
import DocMarkup.Proofs.Parser.BlankLines
import DocMarkup.Proofs.Parser.Deepen
import DocMarkup.Proofs.Parser.Descent
import DocMarkup.Proofs.Parser.Markers
import DocMarkup.Proofs.Parser.Nesting
import DocMarkup.Proofs.Parser.Opening
import DocMarkup.Proofs.Parser.Segments
import DocMarkup.Proofs.Section.Deepen
import DocMarkup.Proofs.Section.Docstring
import DocMarkup.Proofs.Section.Extent
import DocMarkup.Proofs.Section.Header
import DocMarkup.Proofs.Section.Keyword
import DocMarkup.Proofs.Section.Markers
import DocMarkup.Proofs.Section.Registration
import DocMarkup.Proofs.Section.RequiredType
import DocMarkup.Proofs.Section.Wrapping
import DocMarkup.Proofs.SourceLink.Answer
import DocMarkup.Proofs.SourceLink.Containment
import DocMarkup.Proofs.SourceLink.History
import DocMarkup.Proofs.Text.Cursor
import DocMarkup.Proofs.Text.Deepen
import DocMarkup.Proofs.Text.Lines
import DocMarkup.Proofs.Text.LowerCase
import DocMarkup.Proofs.Text.Margin
import DocMarkup.Proofs.Text.Pattern
import DocMarkup.Proofs.Text.Rejoin
import DocMarkup.Proofs.Text.Trim
import DocMarkup.Proofs.TypeExpr.Pieces
import DocMarkup.Proofs.TypeExpr.Recovery
import DocMarkup.Section.Basic
import DocMarkup.Section.Registry
import DocMarkup.Section.Scope
import DocMarkup.Section.Strategy
import DocMarkup.SourceLink
import DocMarkup.Text.Basic
import DocMarkup.Text.Blank
import DocMarkup.Text.Block
import DocMarkup.Text.Bracket
import DocMarkup.Text.Case
import DocMarkup.Text.CodeRange
import DocMarkup.Text.LowerCase
import DocMarkup.Text.Word
import DocMarkup.Toml.Document
import DocMarkup.Toml.Lexical
import DocMarkup.Toml.Value
import DocMarkup.TypeExpr
import DocMarkup.Proofs.Section.Groups
import DocMarkup.Proofs.Field.SharedHeader
import DocMarkup.Proofs.Field.Shown
import DocMarkup.Proofs.Parser.SharedHeader
import DocMarkup.Proofs.TypeExpr.Quotes
import DocMarkup.Proofs.Outline.TargetChain
import DocMarkup.Proofs.Members.Exclusion
import DocMarkup.Proofs.Field.Reference
import DocMarkup.Proofs.Section.RaisedTypes
import DocMarkup.Proofs.Output.Json
import DocMarkup.Proofs.Output.Decoded
