import HtmlMarkdown.Convert
import HtmlMarkdown.Offset
import HtmlMarkdown.Proofs.AsciiPages
import HtmlMarkdown.Proofs.Bytes
import HtmlMarkdown.Proofs.Conservation
import HtmlMarkdown.Proofs.ContentType
import HtmlMarkdown.Proofs.CutOff
import HtmlMarkdown.Proofs.Decoding
import HtmlMarkdown.Proofs.Document
import HtmlMarkdown.Proofs.Draft.Ink
import HtmlMarkdown.Proofs.Draft.Layout
import HtmlMarkdown.Proofs.Draft.Mirror
import HtmlMarkdown.Proofs.Draft.Plain
import HtmlMarkdown.Proofs.Draft.Prose
import HtmlMarkdown.Proofs.Draft.QuoteMarks
import HtmlMarkdown.Proofs.Draft.SetOff
import HtmlMarkdown.Proofs.Draft.Settled
import HtmlMarkdown.Proofs.Draft.Spacing
import HtmlMarkdown.Proofs.Draft.Step
import HtmlMarkdown.Proofs.Escape
import HtmlMarkdown.Proofs.InPlace.Access
import HtmlMarkdown.Proofs.InPlace.Buffer
import HtmlMarkdown.Proofs.InPlace.Cursor
import HtmlMarkdown.Proofs.InPlace.Invariant
import HtmlMarkdown.Proofs.InPlace.Loop
import HtmlMarkdown.Proofs.InPlace.QuoteTail
import HtmlMarkdown.Proofs.InPlace.Requests
import HtmlMarkdown.Proofs.InPlace.Round
import HtmlMarkdown.Proofs.InPlace.Scan
import HtmlMarkdown.Proofs.InPlace.Search
import HtmlMarkdown.Proofs.InPlace.Tag
import HtmlMarkdown.Proofs.InPlace.View
import HtmlMarkdown.Proofs.Inline
import HtmlMarkdown.Proofs.LetterCase
import HtmlMarkdown.Proofs.LineBreaks
import HtmlMarkdown.Proofs.LinkParts
import HtmlMarkdown.Proofs.LinkTarget
import HtmlMarkdown.Proofs.LinkText
import HtmlMarkdown.Proofs.Lookahead
import HtmlMarkdown.Proofs.Markup
import HtmlMarkdown.Proofs.MetaTag
import HtmlMarkdown.Proofs.OpenValue
import HtmlMarkdown.Proofs.Output.Copy
import HtmlMarkdown.Proofs.Output.Finish
import HtmlMarkdown.Proofs.Output.Ink
import HtmlMarkdown.Proofs.Output.Merge
import HtmlMarkdown.Proofs.Output.Offsets
import HtmlMarkdown.Proofs.Output.Parted
import HtmlMarkdown.Proofs.Output.QuoteMarks
import HtmlMarkdown.Proofs.Output.SetOff
import HtmlMarkdown.Proofs.Output.Stretch
import HtmlMarkdown.Proofs.Output.Strokes
import HtmlMarkdown.Proofs.Parting
import HtmlMarkdown.Proofs.PlainLayout
import HtmlMarkdown.Proofs.Probe
import HtmlMarkdown.Proofs.Quotation
import HtmlMarkdown.Proofs.RawText
import HtmlMarkdown.Proofs.Separation
import HtmlMarkdown.Proofs.Source.Ahead
import HtmlMarkdown.Proofs.Source.Attributes
import HtmlMarkdown.Proofs.Source.Document
import HtmlMarkdown.Proofs.Source.Interior
import HtmlMarkdown.Proofs.Source.Lexing
import HtmlMarkdown.Proofs.Source.Links
import HtmlMarkdown.Proofs.Source.Piece
import HtmlMarkdown.Proofs.Source.Reading
import HtmlMarkdown.Proofs.Source.Tag
import HtmlMarkdown.Proofs.StartTag
import HtmlMarkdown.Proofs.TagEnd
import HtmlMarkdown.Proofs.TagForm
import HtmlMarkdown.Proofs.TagNames
import HtmlMarkdown.Proofs.Text.Encoded
import HtmlMarkdown.Proofs.Text.Lines
import HtmlMarkdown.Proofs.Text.Occurrence
import HtmlMarkdown.Proofs.Text.Runs
import HtmlMarkdown.Proofs.Text.Trim
import HtmlMarkdown.Proofs.Text.Utf8
import HtmlMarkdown.Proofs.Text.Words
import HtmlMarkdown.Proofs.Transparency
import HtmlMarkdown.Proofs.Trimming
