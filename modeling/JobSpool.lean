import JobSpool.CommandLine.Run
import JobSpool.Files.Arrange
import JobSpool.Main
import JobSpool.Proofs.AcceptedUploads
import JobSpool.Proofs.Acknowledgements
import JobSpool.Proofs.Ancestors
import JobSpool.Proofs.BulkDeletions
import JobSpool.Proofs.Calls
import JobSpool.Proofs.Cancellations
import JobSpool.Proofs.Classification
import JobSpool.Proofs.ConcurrentUploads
import JobSpool.Proofs.ConfigDocuments
import JobSpool.Proofs.ConfigReading
import JobSpool.Proofs.Contents
import JobSpool.Proofs.Deletions
import JobSpool.Proofs.Deposits
import JobSpool.Proofs.Edits
import JobSpool.Proofs.EmbeddedNumbers
import JobSpool.Proofs.Enumeration
import JobSpool.Proofs.FittingDocuments
import JobSpool.Proofs.Folders
import JobSpool.Proofs.Forecast
import JobSpool.Proofs.FreeNames
import JobSpool.Proofs.Grouping
import JobSpool.Proofs.HalfWritten
import JobSpool.Proofs.InputNames
import JobSpool.Proofs.Isolation
import JobSpool.Proofs.JsonTexts
import JobSpool.Proofs.LaterSweeps
import JobSpool.Proofs.ListingLines
import JobSpool.Proofs.Listings
import JobSpool.Proofs.LiveJob
import JobSpool.Proofs.LiveNeeds
import JobSpool.Proofs.LiveRuns
import JobSpool.Proofs.LiveSteps
import JobSpool.Proofs.MissingRoot
import JobSpool.Proofs.NameOrder
import JobSpool.Proofs.Percentages
import JobSpool.Proofs.Principals
import JobSpool.Proofs.PrintedRows
import JobSpool.Proofs.ProgressRuns
import JobSpool.Proofs.RaceSteps
import JobSpool.Proofs.Rearrangements
import JobSpool.Proofs.Reconcile
import JobSpool.Proofs.Removals
import JobSpool.Proofs.ShellWords
import JobSpool.Proofs.SideBySide
import JobSpool.Proofs.Stems
import JobSpool.Proofs.Submissions
import JobSpool.Proofs.Summaries
import JobSpool.Proofs.SweepRace
import JobSpool.Proofs.Sweeps
import JobSpool.Proofs.TicketRuns
import JobSpool.Proofs.Tickets
import JobSpool.Proofs.ToldProgress
import JobSpool.Proofs.UploadStems
import JobSpool.Proofs.UploadedJobs
import JobSpool.Proofs.UsableNames
import JobSpool.Proofs.Verdicts
import JobSpool.Proofs.Walks
import JobSpool.Scheduler.Facility
import JobSpool.Scheduler.Memory
import JobSpool.Wire
