import CardImport.Main
import CardImport.Memory.Keeper
import CardImport.Rehearsal.Schedule
import CardImport.Rehearsal.World
import CardImport.Proofs.Session.Merge
import CardImport.Proofs.Session.Turn
import CardImport.Proofs.Session.Run
import CardImport.Proofs.Session.Isolation
import CardImport.Proofs.Session.Edit
import CardImport.Proofs.Listing
import CardImport.Proofs.Session.Source
import CardImport.Proofs.Session.Following
import CardImport.Proofs.Index
import CardImport.Proofs.Session.Told
import CardImport.Proofs.Command.Follow
import CardImport.Proofs.Command.Loading
import CardImport.Proofs.Command.Submitting
import CardImport.Proofs.Command.Import
import CardImport.Proofs.Session.Polling
import CardImport.Proofs.Rehearsal.Halting
import CardImport.Proofs.Progress
import CardImport.Proofs.Session.Look
import CardImport.Proofs.Session.PollEnd
import CardImport.Proofs.Session.Arrival
import CardImport.Proofs.Session.Answers
import CardImport.Proofs.Session.Reopening
import CardImport.Proofs.Session.Superseded
import CardImport.Proofs.Session.Closing
import CardImport.Proofs.Session.Settled
import CardImport.Proofs.Session.Order
import CardImport.Proofs.Session.Marks
import CardImport.Proofs.Session.Snapshot
import CardImport.Proofs.Session.Interleaving
import CardImport.Proofs.Command.Requests
import CardImport.Proofs.Numbering
import CardImport.Proofs.Command.DryRun
import CardImport.Proofs.Settings.Valid
import CardImport.Proofs.Settings.Reload
import CardImport.Proofs.Reimport
import CardImport.Proofs.Size
import CardImport.Proofs.Failing
import CardImport.Proofs.Command.Orders
import CardImport.Proofs.Command.Harmless
import CardImport.Proofs.Command.Answers
import CardImport.Proofs.Command.Showing
import CardImport.Proofs.Command.Endings
import CardImport.Proofs.Command.JobAndTakes
import CardImport.Proofs.Command.ImportEnding
import CardImport.Proofs.Command.Outcome
import CardImport.Proofs.Command.TakeList
import CardImport.Proofs.TakePath
import CardImport.Proofs.Settings.Reading
import CardImport.Proofs.Command.Recollection
import CardImport.Proofs.Session.Retrying
import CardImport.Proofs.Session.MergeLaw
import CardImport.Proofs.Json.Nesting
import CardImport.Proofs.Job.Batches
import CardImport.Proofs.Job.Statuses
import CardImport.Proofs.Session.Submission
import CardImport.Proofs.Command.Report
import CardImport.Proofs.Batch
import CardImport.Proofs.Session.Listings
import CardImport.Proofs.Settings.Change
import CardImport.Proofs.Damage
import CardImport.Proofs.DotSegments
import CardImport.Proofs.Command.Saving
import CardImport.Proofs.Activity
import CardImport.Proofs.Timestamp.Written
import CardImport.Proofs.Timestamp.Aware
import CardImport.Proofs.Records
import CardImport.Proofs.Scenes
import CardImport.Proofs.Units
