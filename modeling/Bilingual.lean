import Bilingual.Main
import Bilingual.Manifest.Dump
import Bilingual.Proofs.Again
import Bilingual.Proofs.Block.Append
import Bilingual.Proofs.Block.Bracket
import Bilingual.Proofs.Block.Diverge
import Bilingual.Proofs.Block.Form
import Bilingual.Proofs.Block.Gap
import Bilingual.Proofs.Block.Layout
import Bilingual.Proofs.Block.Literals
import Bilingual.Proofs.Block.Locate
import Bilingual.Proofs.Block.Opener
import Bilingual.Proofs.Block.Partition
import Bilingual.Proofs.Block.Relocate
import Bilingual.Proofs.Block.Requote
import Bilingual.Proofs.Block.Rewrite
import Bilingual.Proofs.Block.Scan
import Bilingual.Proofs.Block.ScanOptions
import Bilingual.Proofs.Block.WellFormed
import Bilingual.Proofs.Block.Written
import Bilingual.Proofs.Body
import Bilingual.Proofs.Checked
import Bilingual.Proofs.Closing
import Bilingual.Proofs.CodePoint
import Bilingual.Proofs.Command
import Bilingual.Proofs.Confined
import Bilingual.Proofs.Content
import Bilingual.Proofs.Diverge
import Bilingual.Proofs.Document
import Bilingual.Proofs.Document.Object
import Bilingual.Proofs.Document.Opening
import Bilingual.Proofs.Document.Search
import Bilingual.Proofs.Document.Segment
import Bilingual.Proofs.Document.Termination
import Bilingual.Proofs.Document.Written
import Bilingual.Proofs.Edit
import Bilingual.Proofs.Edit.Order
import Bilingual.Proofs.Escape
import Bilingual.Proofs.Exact
import Bilingual.Proofs.Export.Collect
import Bilingual.Proofs.Export.Complete
import Bilingual.Proofs.Export.Contents
import Bilingual.Proofs.Export.Counts
import Bilingual.Proofs.Export.Legible
import Bilingual.Proofs.Export.Pairing
import Bilingual.Proofs.Export.Parallel
import Bilingual.Proofs.Export.Rows
import Bilingual.Proofs.Export.Sides
import Bilingual.Proofs.Export.Sites
import Bilingual.Proofs.Failure
import Bilingual.Proofs.Forward
import Bilingual.Proofs.Json.Distinct
import Bilingual.Proofs.Json.RoundTrip
import Bilingual.Proofs.Json.Token
import Bilingual.Proofs.KeyOrder
import Bilingual.Proofs.Legible
import Bilingual.Proofs.Literal
import Bilingual.Proofs.LiteralScan
import Bilingual.Proofs.Manifest
import Bilingual.Proofs.Manifest.NormalForm
import Bilingual.Proofs.OrderedMap
import Bilingual.Proofs.Overlay
import Bilingual.Proofs.Patch
import Bilingual.Proofs.Pattern
import Bilingual.Proofs.Pattern.Leftmost
import Bilingual.Proofs.Pattern.Piece
import Bilingual.Proofs.Pattern.Search
import Bilingual.Proofs.Plan
import Bilingual.Proofs.Plan.Apart
import Bilingual.Proofs.Plan.Block
import Bilingual.Proofs.Plan.Bound
import Bilingual.Proofs.Plan.Collide
import Bilingual.Proofs.Plan.Entry
import Bilingual.Proofs.Plan.KeyOrder
import Bilingual.Proofs.Plan.Record
import Bilingual.Proofs.Plan.Rewrite
import Bilingual.Proofs.Plan.Shows
import Bilingual.Proofs.Plan.Site
import Bilingual.Proofs.Plan.Target
import Bilingual.Proofs.Planned
import Bilingual.Proofs.Project.Accept
import Bilingual.Proofs.Project.Action
import Bilingual.Proofs.Project.Apply
import Bilingual.Proofs.Project.Complete
import Bilingual.Proofs.Project.Counts
import Bilingual.Proofs.Project.Export
import Bilingual.Proofs.Project.Files
import Bilingual.Proofs.Project.Pairing
import Bilingual.Proofs.Project.Sides
import Bilingual.Proofs.Project.Snapshot
import Bilingual.Proofs.Project.Whole
import Bilingual.Proofs.Project.Write
import Bilingual.Proofs.ReadBack
import Bilingual.Proofs.Recogniser
import Bilingual.Proofs.Reference
import Bilingual.Proofs.Reordered
import Bilingual.Proofs.Report
import Bilingual.Proofs.Rewrite
import Bilingual.Proofs.RoundTrip
import Bilingual.Proofs.RoundTrip.Category
import Bilingual.Proofs.Run
import Bilingual.Proofs.Search
import Bilingual.Proofs.Shift
import Bilingual.Proofs.Snapshot
import Bilingual.Proofs.Step
import Bilingual.Proofs.Translate
import Bilingual.Proofs.Translate.Leaf
import Bilingual.Proofs.Translate.Plan
import Bilingual.Proofs.Translate.Site
import Bilingual.Proofs.Utf8
