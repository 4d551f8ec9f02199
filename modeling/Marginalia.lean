import Marginalia.Main
import Marginalia.Library.Install
import Marginalia.Proofs.Ensures
import Marginalia.Proofs.Sorting.Search
import Marginalia.Proofs.Sorting.Merge
import Marginalia.Proofs.Sorting.Runs
import Marginalia.Proofs.Annotation.Order
import Marginalia.Proofs.Annotation.Chapter
import Marginalia.Proofs.Annotation.Group
import Marginalia.Proofs.Annotation.Permutation
import Marginalia.Proofs.Book.Arrangement
import Marginalia.Proofs.Book.Render
import Marginalia.Proofs.Template.Canonical
import Marginalia.Proofs.Template.Coverage
import Marginalia.Proofs.Template.Origin
import Marginalia.Proofs.Cache.Run
import Marginalia.Proofs.Template.Memory
import Marginalia.Proofs.Annotation.Ties
import Marginalia.Proofs.Html.Escape
import Marginalia.Proofs.Html.Strip
import Marginalia.Proofs.Highlight.Paragraphs
import Marginalia.Proofs.Record
import Marginalia.Proofs.Template.Depth
import Marginalia.Proofs.Template.Stability
import Marginalia.Proofs.Template.Single
import Marginalia.Proofs.Library.CompactList
import Marginalia.Proofs.Cache.Recency
import Marginalia.Proofs.Highlight.Markup
import Marginalia.Proofs.Record.Markup
import Marginalia.Proofs.Marker.Restyle
import Marginalia.Proofs.Marker.Removal
import Marginalia.Proofs.Book.Markers
import Marginalia.Proofs.Annotation.Key
import Marginalia.Proofs.Library.BuiltIns
import Marginalia.Proofs.Number.Range
import Marginalia.Proofs.Template.Refusal
import Marginalia.Proofs.Book.Return
import Marginalia.Proofs.Library.Finding
import Marginalia.Proofs.Library.Calls
import Marginalia.Proofs.Library.Validity
import Marginalia.Proofs.Book.Memory
import Marginalia.Proofs.Library.Memory
import Marginalia.Proofs.Text.Order
import Marginalia.Proofs.File.Directory
import Marginalia.Proofs.Library.Catalog
import Marginalia.Proofs.Library.Listing
import Marginalia.Proofs.File.Contents
import Marginalia.Proofs.Command.Act
import Marginalia.Proofs.Command.Output
import Marginalia.Proofs.Annotation.Partition
import Marginalia.Proofs.Template.Block
import Marginalia.Proofs.Template.Limit
import Marginalia.Proofs.Template.Anomaly
import Marginalia.Proofs.Template.Placement
import Marginalia.Proofs.Template.Conditional
import Marginalia.Proofs.Template.Keys
import Marginalia.Proofs.Text.Breaks
import Marginalia.Proofs.Template.Quoting
import Marginalia.Proofs.Template.Lines
import Marginalia.Proofs.Template.Spelling
import Marginalia.Proofs.Calendar.Digits
import Marginalia.Proofs.Filter.Empty
import Marginalia.Proofs.Template.Unknown
import Marginalia.Proofs.Text.Utf8
import Marginalia.Proofs.Yaml.Writer
import Marginalia.Proofs.Frontmatter
import Marginalia.Proofs.File.Growth
import Marginalia.Proofs.Library.Reading
import Marginalia.Proofs.Library.Install
import Marginalia.Proofs.Library.Copies
import Marginalia.Proofs.Number.Nearest
import Marginalia.Proofs.Number.Shortest
import Marginalia.Proofs.Number.Layout
import Marginalia.Proofs.Json.Induction
import Marginalia.Proofs.Json.Roundtrip
import Marginalia.Proofs.Marker.Grammar
import Marginalia.Proofs.Marker.Values
import Marginalia.Proofs.Marker.Conversion
import Marginalia.Proofs.Text.Words
import Marginalia.Proofs.Text.Case
import Marginalia.Proofs.Marker.Spacing
import Marginalia.Proofs.Marker.Leftover
import Marginalia.Proofs.Marker.Identity
import Marginalia.Proofs.Number.Spelling
import Marginalia.Proofs.Filter.Fitting
import Marginalia.Proofs.Filter.Measure
import Marginalia.Proofs.Calendar.Mask
import Marginalia.Proofs.Calendar.Day
import Marginalia.Proofs.Calendar.Iso
import Marginalia.Proofs.Calendar.Layout
import Marginalia.Proofs.Record.Time
import Marginalia.Proofs.Markdown
import Marginalia.Proofs.Library.Callout
import Marginalia.Proofs.Highlight.Breaks
import Marginalia.Proofs.Record.Gaps
import Marginalia.Proofs.Annotation.Place
import Marginalia.Proofs.Template.Fragment
