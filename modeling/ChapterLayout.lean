import ChapterLayout.Main
import ChapterLayout.Number.Shortest
import ChapterLayout.Proofs.Flow.Feed
import ChapterLayout.Navigation.Host
import ChapterLayout.Navigation.Href
import ChapterLayout.Navigation.Lookup
import ChapterLayout.Reader
import ChapterLayout.Proofs.Flow.Begun
import ChapterLayout.Proofs.Text.Wrap
import ChapterLayout.Proofs.Flow.Inline
import ChapterLayout.Proofs.Flow.Wrapping
import ChapterLayout.Proofs.Style.Merge
import ChapterLayout.Proofs.Flow.Styled
import ChapterLayout.Proofs.Flow.Regular
import ChapterLayout.Proofs.Justify.Stretch
import ChapterLayout.Proofs.Justify.Columns
import ChapterLayout.Proofs.Style.Clamp
import ChapterLayout.Proofs.Justify.Records
import ChapterLayout.Proofs.Justify.Page
import ChapterLayout.Proofs.Chapter
import ChapterLayout.Proofs.Text.Collapse
import ChapterLayout.Proofs.Flow.SameText
import ChapterLayout.Proofs.Flow.Written
import ChapterLayout.Proofs.Flow.InStep
import ChapterLayout.Proofs.Flow.Reflow
import ChapterLayout.Proofs.Reflow
import ChapterLayout.Proofs.Excerpt.Choose
import ChapterLayout.Proofs.Excerpt.Find
import ChapterLayout.Proofs.Excerpt.Capture
import ChapterLayout.Proofs.Excerpt.Reflow
import ChapterLayout.Proofs.Markup.Encode
import ChapterLayout.Proofs.Markup.ReadBack
import ChapterLayout.Proofs.Markup.Local
import ChapterLayout.Proofs.Markup.Cut
import ChapterLayout.Proofs.Markup.RawElement
import ChapterLayout.Proofs.Flow.Raw
import ChapterLayout.Proofs.RawContent
import ChapterLayout.Proofs.Flow.Turn
import ChapterLayout.Proofs.Flow.Fitting
import ChapterLayout.Proofs.Flow.LineKind
import ChapterLayout.Proofs.Flow.MarkedLines
import ChapterLayout.Proofs.Flow.HeadingLines
import ChapterLayout.Proofs.InRange
import ChapterLayout.Proofs.Flow.OpenBlocks
import ChapterLayout.Proofs.Flow.Nesting
import ChapterLayout.Proofs.Flow.Plain
import ChapterLayout.Proofs.Flow.WordMarks
import ChapterLayout.Proofs.Flow.AppendOnly
import ChapterLayout.Proofs.Flow.Bounds
import ChapterLayout.Proofs.Flow.Places
import ChapterLayout.Proofs.Flow.Indentation
import ChapterLayout.Proofs.Flow.Verbatim
import ChapterLayout.Proofs.Flow.BlankLines
import ChapterLayout.Proofs.Table.Written
import ChapterLayout.Proofs.Flow.Tables
import ChapterLayout.Proofs.Flow.Order
import ChapterLayout.Proofs.Flow.Titles
import ChapterLayout.Proofs.InOrder
import ChapterLayout.Proofs.Markup.Segmented
import ChapterLayout.Proofs.TitleLines
import ChapterLayout.Proofs.Text.LineWords
import ChapterLayout.Proofs.Flow.Anchors
import ChapterLayout.Proofs.Flow.Paragraph
import ChapterLayout.Proofs.Footnote
import ChapterLayout.Proofs.Limits
import ChapterLayout.Proofs.Surface.Painting
import ChapterLayout.Proofs.Surface.Rendering
import ChapterLayout.Proofs.Excerpt.Offsets
import ChapterLayout.Proofs.Excerpt.Exact
import ChapterLayout.Proofs.Number.Rounding
import ChapterLayout.Proofs.Flow.Limits
import ChapterLayout.Proofs.Justify.Limits
import ChapterLayout.Proofs.Table.Shares
import ChapterLayout.Proofs.WithinLimits
import ChapterLayout.Proofs.Style.Closure
import ChapterLayout.Proofs.Justify.Adjoint
import ChapterLayout.Proofs.Justify.Shares
import ChapterLayout.Proofs.Justify.Again
import ChapterLayout.Proofs.Table.Cell
import ChapterLayout.Proofs.Table.Columns
import ChapterLayout.Proofs.Table.Rectangle
import ChapterLayout.Proofs.Style.StillOpen
import ChapterLayout.Proofs.Block.ItemNumbers
import ChapterLayout.Proofs.Flow.PlacedWord
import ChapterLayout.Proofs.Flow.Target
import ChapterLayout.Proofs.Flow.HeadingStart
import ChapterLayout.Proofs.Destination
import ChapterLayout.Proofs.Markup.Reference
import ChapterLayout.Proofs.Markup.QuotedValue
import ChapterLayout.Proofs.InlineCode
import ChapterLayout.Proofs.Text.OneLine
import ChapterLayout.Proofs.Flow.OneLine
import ChapterLayout.Proofs.OneLine
import ChapterLayout.Proofs.Excerpt.Located
import ChapterLayout.Proofs.Settings.Overrides
import ChapterLayout.Proofs.Width
