import LoadReport.Main
import LoadReport.Report.CsvReader
import LoadReport.Report.Markup
import LoadReport.Proofs.FirstAppearance
import LoadReport.Proofs.MetricSet.Contents
import LoadReport.Proofs.GroupTable.Contents
import LoadReport.Proofs.Run.Contents
import LoadReport.Proofs.Run.Regrouping
import LoadReport.Proofs.Run.Concatenation
import LoadReport.Proofs.Digit
import LoadReport.Proofs.Sample.Order
import LoadReport.Proofs.Summary.Extremes
import LoadReport.Proofs.Report.ProductOrder
import LoadReport.Proofs.Report.Tally
import LoadReport.Proofs.Report.Reordering
import LoadReport.Proofs.Report.Characters
import LoadReport.Proofs.Report.Markup
import LoadReport.Proofs.Report.PlainText
import LoadReport.Proofs.Report.Page
import LoadReport.Proofs.Report.PageTexts
import LoadReport.Proofs.Utf8.Encoding
import LoadReport.Proofs.Json.Closing
import LoadReport.Proofs.Json.TrailingBlanks
import LoadReport.Proofs.Report.Agreement
import LoadReport.Proofs.Report.Writing
import LoadReport.Proofs.Report.LineFeeds
import LoadReport.Proofs.Report.CsvReading
import LoadReport.Proofs.Report.ProductRows
import LoadReport.Proofs.Run.Truncation
import LoadReport.Proofs.Run.Reading
import LoadReport.Proofs.Run.Noise
import LoadReport.Proofs.Run.LineEndings
import LoadReport.Proofs.Report.Visibility
import LoadReport.Proofs.FileTree.Paths
import LoadReport.Proofs.FileTree.Relocation
import LoadReport.Proofs.FileTree.Writing
import LoadReport.Proofs.Session
import LoadReport.Proofs.Loading
import LoadReport.Proofs.Toml.ArraysOfTables
import LoadReport.Proofs.Settings.Merging
import LoadReport.Proofs.Path
import LoadReport.Proofs.Report.Delivery
import LoadReport.Proofs.Program
import LoadReport.Proofs.MetricSet.Representation
import LoadReport.Proofs.Summary.Endpoints
import LoadReport.Proofs.Binary64.NaN
import LoadReport.Proofs.Sample.Finite
import LoadReport.Proofs.Json.Finite
import LoadReport.Proofs.Run.Finite
import LoadReport.Proofs.Summary.Figures
import LoadReport.Proofs.Report.Figures
import LoadReport.Proofs.Report.NaNFree
import LoadReport.Proofs.Summary.Span
import LoadReport.Proofs.Binary64.Addition
import LoadReport.Proofs.Binary64.Scaling
import LoadReport.Proofs.Sample.Percentile
import LoadReport.Proofs.Sample.Central
import LoadReport.Proofs.Path.Output
