import PointElevation.Disk.Access
import PointElevation.Disk.Path
import PointElevation.Disk.Tree
import PointElevation.Download
import PointElevation.Fault
import PointElevation.Grid
import PointElevation.Host.Basic
import PointElevation.Host.Network
import PointElevation.Json.Display
import PointElevation.Json.Reader
import PointElevation.Json.Value
import PointElevation.Json.Writer
import PointElevation.Listing
import PointElevation.Listing.Href
import PointElevation.Main
import PointElevation.Number.Binary
import PointElevation.Number.Layout
import PointElevation.Number.Reading
import PointElevation.Number.Rounding
import PointElevation.Number.Shortest
import PointElevation.Number.Single
import PointElevation.Projection
import PointElevation.Provider.Basic
import PointElevation.Provider.Outcome
import PointElevation.Provider.Query
import PointElevation.Raster
import PointElevation.RasterMemory
import PointElevation.Response.Checked
import PointElevation.Response.Format
import PointElevation.Response.Point
import PointElevation.Response.Report
import PointElevation.Server.CommandLine
import PointElevation.Server.EnvironmentFile
import PointElevation.Server.Launch
import PointElevation.Server.Session
import PointElevation.Server.Settings
import PointElevation.Text.Blank
import PointElevation.Text.Digit
import PointElevation.Text.Field
import PointElevation.Text.Line
import PointElevation.Text.Printable
import PointElevation.Text.Quoted
import PointElevation.Text.Utf8
import PointElevation.Tiff.Band
import PointElevation.Tiff.BlockTable
import PointElevation.Tiff.ByteOrder
import PointElevation.Tiff.Defect
import PointElevation.Tiff.Directory
import PointElevation.Tiff.Image
import PointElevation.Tiff.Layout
import PointElevation.Tiff.NoData
import PointElevation.Tiff.Sample
import PointElevation.Tiff.SideFile
import PointElevation.Tiff.Tag
import PointElevation.TileFile
import PointElevation.TileIndex
import PointElevation.Tool.Answer
import PointElevation.Tool.Call
import PointElevation.Tool.Discovery
import PointElevation.Tool.Elevation
import PointElevation.Tool.Source
import PointElevation.Proofs.Disk.Growth
import PointElevation.Proofs.Disk.Place
import PointElevation.Proofs.Disk.Room
import PointElevation.Proofs.Disk.Rooted
import PointElevation.Proofs.Disk.Standing
import PointElevation.Proofs.Disk.Way
import PointElevation.Proofs.Download.Account
import PointElevation.Proofs.Download.Attempt
import PointElevation.Proofs.Download.Fetch
import PointElevation.Proofs.Download.Publication
import PointElevation.Proofs.Download.Repeat
import PointElevation.Proofs.Grid.Cell
import PointElevation.Proofs.Host.Ending
import PointElevation.Proofs.Host.Exchange
import PointElevation.Proofs.Host.FileEvents
import PointElevation.Proofs.Host.Twins
import PointElevation.Proofs.Listing.Agreement
import PointElevation.Proofs.Listing.Entry
import PointElevation.Proofs.Listing.FileName
import PointElevation.Proofs.Listing.Nesting
import PointElevation.Proofs.Listing.NormalForm
import PointElevation.Proofs.Memory.Recorded
import PointElevation.Proofs.Memory.Run
import PointElevation.Proofs.Memory.Uncached
import PointElevation.Proofs.Memory.Window
import PointElevation.Proofs.Number.Exact
import PointElevation.Proofs.Number.Order
import PointElevation.Proofs.Number.Widening
import PointElevation.Proofs.Provider.Backing
import PointElevation.Proofs.Provider.Batch
import PointElevation.Proofs.Provider.CacheRun
import PointElevation.Proofs.Provider.Classification
import PointElevation.Proofs.Provider.Coherence
import PointElevation.Proofs.Provider.Containment
import PointElevation.Proofs.Provider.Delay
import PointElevation.Proofs.Provider.Escape
import PointElevation.Proofs.Provider.Eviction
import PointElevation.Proofs.Provider.Failure
import PointElevation.Proofs.Provider.FetchedOnce
import PointElevation.Proofs.Provider.IndexRun
import PointElevation.Proofs.Provider.Onward
import PointElevation.Proofs.Provider.Query
import PointElevation.Proofs.Provider.Reference
import PointElevation.Proofs.Provider.Requests
import PointElevation.Proofs.Provider.Restart
import PointElevation.Proofs.Provider.Retry
import PointElevation.Proofs.Provider.Run
import PointElevation.Proofs.Provider.Sampling
import PointElevation.Proofs.Provider.Settled
import PointElevation.Proofs.Provider.Site
import PointElevation.Proofs.Provider.Stages
import PointElevation.Proofs.Provider.Tidy
import PointElevation.Proofs.Provider.Verdict
import PointElevation.Proofs.Text.Line
import PointElevation.Proofs.Text.Page
import PointElevation.Proofs.Tiff.Address
import PointElevation.Proofs.Tiff.AnyLayout
import PointElevation.Proofs.Tiff.Blocks
import PointElevation.Proofs.Tiff.Bytes
import PointElevation.Proofs.Tiff.Described
import PointElevation.Proofs.Tiff.Fields
import PointElevation.Proofs.Tiff.Finding
import PointElevation.Proofs.Tiff.FrontPart
import PointElevation.Proofs.Tiff.Masking
import PointElevation.Proofs.Tiff.OnlyStrip
import PointElevation.Proofs.Tiff.Outline
import PointElevation.Proofs.Tiff.Pieces
import PointElevation.Proofs.Tiff.Reading
import PointElevation.Proofs.Tiff.Spelling
import PointElevation.Proofs.Tiff.Stability
import PointElevation.Proofs.Tiff.Trailing
import PointElevation.Proofs.Tiff.Truncation
import PointElevation.Proofs.Tiff.Written
import PointElevation.Proofs.Tool.Elevations
import PointElevation.Proofs.Json.Grammar
import PointElevation.Proofs.Json.Numbers
import PointElevation.Proofs.Json.Strings
import PointElevation.Proofs.Json.Reading
import PointElevation.Proofs.Listing.Address
import PointElevation.Proofs.Json.Writing
import PointElevation.Proofs.Response.RoundTrip
import PointElevation.Proofs.Tiff.LostPlaces
import PointElevation.Proofs.Number.Machine
import PointElevation.Proofs.Number.Nearest
import PointElevation.Proofs.Number.Shortest
