import SlimTemplate.Conversion
import SlimTemplate.Directive.Basic
import SlimTemplate.Directive.Comment
import SlimTemplate.Directive.Marker
import SlimTemplate.Directive.Pass
import SlimTemplate.Directive.Role
import SlimTemplate.Extraction.Basic
import SlimTemplate.Extraction.Select
import SlimTemplate.Html.Arena
import SlimTemplate.Html.Construction.Body
import SlimTemplate.Html.Construction.Builder
import SlimTemplate.Html.Construction.Foreign
import SlimTemplate.Html.Construction.Formatting
import SlimTemplate.Html.Construction.Head
import SlimTemplate.Html.Construction.Select
import SlimTemplate.Html.Construction.Table
import SlimTemplate.Html.Document
import SlimTemplate.Html.Name
import SlimTemplate.Html.Reference
import SlimTemplate.Html.Reference.Names
import SlimTemplate.Html.Token.Basic
import SlimTemplate.Html.Token.Comment
import SlimTemplate.Html.Token.Doctype
import SlimTemplate.Html.Token.RawText
import SlimTemplate.Html.Token.Scan
import SlimTemplate.Html.Token.Tag
import SlimTemplate.Line.Basic
import SlimTemplate.Line.Head
import SlimTemplate.Line.Kind
import SlimTemplate.Line.Layout
import SlimTemplate.Line.Tree
import SlimTemplate.Markup.Doctype
import SlimTemplate.Markup.Html
import SlimTemplate.Markup.Tree
import SlimTemplate.Outcome
import SlimTemplate.Proofs.Directive.Balance
import SlimTemplate.Proofs.Directive.Bytes
import SlimTemplate.Proofs.Directive.CodeBlock
import SlimTemplate.Proofs.Directive.CodeLine
import SlimTemplate.Proofs.Directive.Comment
import SlimTemplate.Proofs.Directive.Escape
import SlimTemplate.Proofs.Directive.Layout
import SlimTemplate.Proofs.Directive.Piecewise
import SlimTemplate.Proofs.Directive.Program
import SlimTemplate.Proofs.Directive.PutBack
import SlimTemplate.Proofs.Directive.Read
import SlimTemplate.Proofs.Directive.Restore
import SlimTemplate.Proofs.Directive.Rewrite
import SlimTemplate.Proofs.Directive.Role
import SlimTemplate.Proofs.Directive.SetAside
import SlimTemplate.Proofs.Extraction.Cutout
import SlimTemplate.Proofs.Extraction.Extract
import SlimTemplate.Proofs.Extraction.Failure
import SlimTemplate.Proofs.Extraction.Idempotent
import SlimTemplate.Proofs.Extraction.Orphan
import SlimTemplate.Proofs.Extraction.OwnName
import SlimTemplate.Proofs.Extraction.Places
import SlimTemplate.Proofs.Extraction.Region
import SlimTemplate.Proofs.Extraction.Subject
import SlimTemplate.Proofs.Extraction.Wrapper
import SlimTemplate.Proofs.Html.Ascent
import SlimTemplate.Proofs.Html.Course
import SlimTemplate.Proofs.Html.Edit
import SlimTemplate.Proofs.Html.Filled
import SlimTemplate.Proofs.Html.Kept
import SlimTemplate.Proofs.Html.Links
import SlimTemplate.Proofs.Html.Made
import SlimTemplate.Proofs.Html.Marker
import SlimTemplate.Proofs.Html.Move
import SlimTemplate.Proofs.Html.Names
import SlimTemplate.Proofs.Html.OneTag
import SlimTemplate.Proofs.Html.Page
import SlimTemplate.Proofs.Html.Reads
import SlimTemplate.Proofs.Html.Rules
import SlimTemplate.Proofs.Html.Sound
import SlimTemplate.Proofs.Html.Split
import SlimTemplate.Proofs.Html.Standing
import SlimTemplate.Proofs.Html.StartTag
import SlimTemplate.Proofs.Html.StructuralComment
import SlimTemplate.Proofs.Html.Verbatim
import SlimTemplate.Proofs.Html.Walk
import SlimTemplate.Proofs.Line.Ancestor
import SlimTemplate.Proofs.Line.Block
import SlimTemplate.Proofs.Line.Bytes
import SlimTemplate.Proofs.Line.Chain
import SlimTemplate.Proofs.Line.Decomposed
import SlimTemplate.Proofs.Line.Head
import SlimTemplate.Proofs.Line.Kind
import SlimTemplate.Proofs.Line.Names
import SlimTemplate.Proofs.Line.Normal
import SlimTemplate.Proofs.Line.Number
import SlimTemplate.Proofs.Line.Parts
import SlimTemplate.Proofs.Line.Render
import SlimTemplate.Proofs.Line.Tree
import SlimTemplate.Proofs.Markup.Doctype
import SlimTemplate.Proofs.Repair.Confined
import SlimTemplate.Proofs.Repair.Converted
import SlimTemplate.Proofs.Repair.Faithful
import SlimTemplate.Proofs.Repair.Idempotent
import SlimTemplate.Proofs.Repair.Sheltered
import SlimTemplate.Proofs.Repair.Step
import SlimTemplate.Proofs.Repair.Stepwise
import SlimTemplate.Proofs.Repair.Tag
import SlimTemplate.Proofs.Repair.Treatment
import SlimTemplate.Proofs.Repair.Unchanged
import SlimTemplate.Proofs.Repair.Valid
import SlimTemplate.Proofs.Repair.Written
import SlimTemplate.Proofs.Selector.Class
import SlimTemplate.Proofs.Selector.Compound
import SlimTemplate.Proofs.Selector.Normal
import SlimTemplate.Proofs.Selector.OwnHead
import SlimTemplate.Proofs.Selector.Spelling
import SlimTemplate.Proofs.Text.Ascii
import SlimTemplate.Proofs.Text.Blank
import SlimTemplate.Proofs.Text.LineEnding
import SlimTemplate.Proofs.Text.Lines
import SlimTemplate.Proofs.Text.Mention
import SlimTemplate.Proofs.Text.Number
import SlimTemplate.Proofs.Text.Replace
import SlimTemplate.Proofs.Text.Search
import SlimTemplate.Proofs.Text.Solid
import SlimTemplate.Proofs.Text.Utf8
import SlimTemplate.Proofs.Text.Words
import SlimTemplate.Proofs.Validation.Clean
import SlimTemplate.Proofs.Validation.Gapless
import SlimTemplate.Proofs.Validation.Jump
import SlimTemplate.Proofs.Validation.Slash
import SlimTemplate.Proofs.Writer.BlockDirective
import SlimTemplate.Proofs.Writer.Break
import SlimTemplate.Proofs.Writer.Code
import SlimTemplate.Proofs.Writer.CodeBlock
import SlimTemplate.Proofs.Writer.Cut
import SlimTemplate.Proofs.Writer.Flush
import SlimTemplate.Proofs.Writer.Grade
import SlimTemplate.Proofs.Writer.Line
import SlimTemplate.Proofs.Writer.Mention
import SlimTemplate.Proofs.Writer.Nodes
import SlimTemplate.Proofs.Writer.Opening
import SlimTemplate.Proofs.Writer.Owner
import SlimTemplate.Proofs.Writer.Physical
import SlimTemplate.Proofs.Writer.ReadBack
import SlimTemplate.Proofs.Writer.Regular
import SlimTemplate.Proofs.Writer.Relayout
import SlimTemplate.Proofs.Writer.Row
import SlimTemplate.Proofs.Writer.Scanned
import SlimTemplate.Proofs.Writer.Selected
import SlimTemplate.Proofs.Writer.Shape
import SlimTemplate.Proofs.Writer.Step
import SlimTemplate.Proofs.Writer.Unescaped
import SlimTemplate.Proofs.Writer.Whole
import SlimTemplate.Proofs.Writer.Words
import SlimTemplate.Repair.Basic
import SlimTemplate.Selector.Basic
import SlimTemplate.Selector.Compound
import SlimTemplate.Session
import SlimTemplate.Settings.Basic
import SlimTemplate.Settings.Binary64
import SlimTemplate.Settings.Toml
import SlimTemplate.Settings.Toml.Blank
import SlimTemplate.Settings.Toml.Moment
import SlimTemplate.Settings.Toml.Number
import SlimTemplate.Settings.Toml.Quoted
import SlimTemplate.Settings.Toml.Table
import SlimTemplate.Settings.Value
import SlimTemplate.Text.Basic
import SlimTemplate.Text.Blank
import SlimTemplate.Text.Lines
import SlimTemplate.Text.Lowercase
import SlimTemplate.Text.Number
import SlimTemplate.Text.Utf8
import SlimTemplate.Text.Word
import SlimTemplate.Validation.Basic
import SlimTemplate.Validation.Check
import SlimTemplate.Validation.Finding
import SlimTemplate.Writer.Entry
import SlimTemplate.Writer.Opening
