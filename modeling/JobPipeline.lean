import JobPipeline.Api.Agreement
import JobPipeline.Jobs.Handlers
import JobPipeline.Sql.Results
import JobPipeline.Worker.Order
import JobPipeline.Jobs.CronRuns
import JobPipeline.Jobs.CronGrammar
import JobPipeline.Jobs.Percentiles
import JobPipeline.Service.Lifecycle
import JobPipeline.Service.Terminal
import JobPipeline.Service.Timing
import JobPipeline.Service.DeadLetters
import JobPipeline.Service.Sequential
import JobPipeline.Service.Submitting
import JobPipeline.Service.Batches
import JobPipeline.Service.RunWithTimeout
import JobPipeline.Worker.Undisturbed
import JobPipeline.Lib.VersionedLease
import JobPipeline.Sql.Cancels
import JobPipeline.Sql.Submissions
import JobPipeline.Sql.Processed
import JobPipeline.Sql.Durable
import JobPipeline.Sql.Successors
import JobPipeline.Sql.Drain
import JobPipeline.Sql.Orphans
import JobPipeline.Api.Listing
import JobPipeline.Service.Rounds
import JobPipeline.Sql.StatusChanges
import JobPipeline.Sql.Pacing
import JobPipeline.Sql.Serial
import JobPipeline.Sql.MemoryRuns
import JobPipeline.Sql.DeadLetters
import JobPipeline.Sql.Readings
import JobPipeline.Sql.Timestamps
