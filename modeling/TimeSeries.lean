import TimeSeries.Status
import TimeSeries.Text.Quoted
import TimeSeries.Series.Canonical
import TimeSeries.Sample.Bytes
import TimeSeries.Decimal.Notation
import TimeSeries.Json.Printer
import TimeSeries.Json.Reader
import TimeSeries.Time.Instant
import TimeSeries.Row
import TimeSeries.Sample.Record
import TimeSeries.Sample.Decode
import TimeSeries.Settings
import TimeSeries.Query.Document
import TimeSeries.Query.Plan
import TimeSeries.Store.Answer
import TimeSeries.Files
import TimeSeries.Channel
import TimeSeries.Failure
import TimeSeries.Engine.Memory
import TimeSeries.Engine.Scripted
import TimeSeries.Cursor.Names
import TimeSeries.Client.Workspace
import TimeSeries.Proofs.Sample.RoundTrip
import TimeSeries.Proofs.Sample.Shape
import TimeSeries.Proofs.Sample.Streams
import TimeSeries.Proofs.Cursor.Step
import TimeSeries.Proofs.Cursor.Iteration
import TimeSeries.Proofs.Cursor.Stream
import TimeSeries.Proofs.Query.Plan
import TimeSeries.Proofs.Json.Fields
import TimeSeries.Proofs.Json.Equality
import TimeSeries.Proofs.Query.Filters
import TimeSeries.Proofs.Query.Documents
import TimeSeries.Proofs.Query.Building
import TimeSeries.Proofs.Store.Answers
import TimeSeries.Proofs.Cursor.Walk
import TimeSeries.Proofs.Client.Sessions
import TimeSeries.Proofs.Client.CursorResults
import TimeSeries.Proofs.Client.Handles
import TimeSeries.Proofs.Client.Histories
import TimeSeries.Proofs.Client.Invariant
import TimeSeries.Proofs.Client.Commands
import TimeSeries.Proofs.Cursor.Reading
import TimeSeries.Proofs.Client.RunAnswers
import TimeSeries.Proofs.Store.Sorting
import TimeSeries.Proofs.Client.SelectHistory
import TimeSeries.Proofs.Distinct
import TimeSeries.Proofs.Table
import TimeSeries.Proofs.Store.Listed
import TimeSeries.Proofs.Cursor.Outlook
import TimeSeries.Proofs.Engine.Stores
import TimeSeries.Proofs.Engine.Frames
import TimeSeries.Proofs.Engine.Lending
import TimeSeries.Proofs.Engine.HandleRecords
import TimeSeries.Proofs.Engine.Coherence
import TimeSeries.Proofs.Engine.Trees
import TimeSeries.Proofs.Client.MetricLookup
import TimeSeries.Proofs.Store.JoinPlaces
import TimeSeries.Proofs.Client.Calls
import TimeSeries.Proofs.Client.Labels
import TimeSeries.Proofs.Client.ServedCommands
import TimeSeries.Proofs.Client.RowsFromLog
import TimeSeries.Proofs.Client.EquivalentStores
import TimeSeries.Proofs.Client.Readers
import TimeSeries.Proofs.Client.ReaderOutlooks
import TimeSeries.Proofs.Client.Transcripts
import TimeSeries.Proofs.Client.OmittedQueries
import TimeSeries.Proofs.Client.ReaderSnapshots
import TimeSeries.Proofs.Client.DatabaseFiles
import TimeSeries.Proofs.Client.View
import TimeSeries.Proofs.Client.CommandSides
import TimeSeries.Proofs.Client.ViewSimulation
import TimeSeries.Proofs.Client.WatchedRuns
import TimeSeries.Proofs.Client.Isolation
import TimeSeries.Proofs.Engine.Listings
import TimeSeries.Proofs.Client.Reordering
import TimeSeries.Proofs.Client.FilledFiles
import TimeSeries.Proofs.Client.StoreChanges
import TimeSeries.Proofs.Client.FilePlaces
import TimeSeries.Proofs.Client.CreatedDatabases
import TimeSeries.Proofs.Client.Panics
import TimeSeries.Proofs.Client.PanicPrecedence
import TimeSeries.Proofs.Cursor.Loop
import TimeSeries.Proofs.Client.RowLoops
import TimeSeries.Proofs.Client.HeldHandles
import TimeSeries.Proofs.Client.Transactions
import TimeSeries.Proofs.Client.HandleBalance
import TimeSeries.Proofs.Cursor.Absorbing
import TimeSeries.Proofs.Client.WriteAttempts
import TimeSeries.Proofs.Query.Bounds
import TimeSeries.Proofs.Client.LockstepStores
import TimeSeries.Proofs.Client.LockstepWorlds
import TimeSeries.Proofs.Client.LockstepWorkspaces
import TimeSeries.Proofs.Client.QueryReadouts
import TimeSeries.Proofs.Client.SessionSettings
import TimeSeries.Proofs.Client.FailedWrites
import TimeSeries.Proofs.Cursor.Ending
import TimeSeries.Proofs.Cursor.Draining
import TimeSeries.Proofs.Client.NameLoops
import TimeSeries.Proofs.Query.Forms
import TimeSeries.Proofs.Store.SelectAnswer
import TimeSeries.Proofs.Store.JoinAnswer
import TimeSeries.Proofs.Store.AggregateAnswer
import TimeSeries.Proofs.Client.QueryPages
import TimeSeries.Proofs.Client.AdjacentRanges
import TimeSeries.Proofs.Text.Utf8
import TimeSeries.Proofs.Engine.Registrations
import TimeSeries.Proofs.Text.Words
import TimeSeries.Proofs.Series.Canonical
import TimeSeries.Proofs.Store.RowNames
import TimeSeries.Proofs.Row
import TimeSeries.Proofs.Query.BuildOutcome
import TimeSeries.Proofs.Query.BinWidths
import TimeSeries.Proofs.Time.Instants
import TimeSeries.Proofs.Client.WrittenTimes
import TimeSeries.Proofs.Cursor.Positions
import TimeSeries.Proofs.Engine.Chunks
