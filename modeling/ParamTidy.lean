import ParamTidy.Main
import ParamTidy.Path.Spelling
import ParamTidy.Text.Utf8.RoundTrip
import ParamTidy.Proofs.FormFree
import ParamTidy.Proofs.Misreading
import ParamTidy.Proofs.Tidying
import ParamTidy.Proofs.Reach
import ParamTidy.Proofs.Coverage
import ParamTidy.Proofs.Descent
import ParamTidy.Proofs.Evolution
import ParamTidy.Proofs.Listing
import ParamTidy.Proofs.Rounds
import ParamTidy.Proofs.Effect
import ParamTidy.Proofs.History
import ParamTidy.Proofs.SecondRun
import ParamTidy.Proofs.ReportTruth
import ParamTidy.Proofs.ReportCoverage
import ParamTidy.Proofs.Exclusion
import ParamTidy.Proofs.Locating
import ParamTidy.Proofs.Beginning
import ParamTidy.Proofs.DryRun
import ParamTidy.Proofs.Lookup
import ParamTidy.Proofs.Agreement
import ParamTidy.Proofs.Isolation
import ParamTidy.Proofs.Opacity
import ParamTidy.Proofs.MoreExclusions
import ParamTidy.Proofs.Order
import ParamTidy.Proofs.WalkLog
import ParamTidy.Proofs.Arguments
import ParamTidy.Proofs.Reading
import ParamTidy.Proofs.Check
import ParamTidy.Proofs.Ending
import ParamTidy.Proofs.Presentation
import ParamTidy.Proofs.Respelling
import ParamTidy.Proofs.Seams
import ParamTidy.Proofs.Occurrences
import ParamTidy.Proofs.Rewriting
import ParamTidy.Proofs.Classes
import ParamTidy.Proofs.WrittenForm
import ParamTidy.Proofs.Documents
import ParamTidy.Proofs.Decoding
import ParamTidy.Proofs.Attempts
import ParamTidy.Proofs.LossyText
import ParamTidy.Proofs.Lowercasing
import ParamTidy.Proofs.Components
import ParamTidy.Proofs.SameExclusions
import ParamTidy.Proofs.Deletion
import ParamTidy.Proofs.AsciiForms
import ParamTidy.Proofs.Magnitude
import ParamTidy.Proofs.PrintedTotals
import ParamTidy.Proofs.Naming
