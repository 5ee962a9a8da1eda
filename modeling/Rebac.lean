import Rebac.Json.Printer
import Rebac.Json.Reader
import Rebac.Identifier
import Rebac.Tuple
import Rebac.ClientError
import Rebac.Batch.Chunk
import Rebac.Batch.Correlation
import Rebac.Retry.Policy
import Rebac.Headers
import Rebac.Url.Basic
import Rebac.Http.Exchange
import Rebac.Settings.Load
import Rebac.Client.Batch
import Rebac.Client.Write
import Rebac.Schedule.VirtualClock
import Rebac.Question.Body
import Rebac.Question.Answer
import Rebac.Dispatch.Program
import Rebac.Proofs.Dispatch.Pool
import Rebac.Proofs.Dispatch.Round
import Rebac.Proofs.Dispatch.Program
import Rebac.Proofs.Dispatch.Attempts
import Rebac.Proofs.Dispatch.Contract
import Rebac.Proofs.Dispatch.Answers
import Rebac.Proofs.Batch.Groups
import Rebac.Proofs.Batch.Identify
import Rebac.Proofs.Json.Members
import Rebac.Proofs.Tuple
import Rebac.Proofs.Json.Decode
import Rebac.Proofs.Question.Answer
import Rebac.Proofs.Batch.Settle
import Rebac.Proofs.Client.GroupedCheck
import Rebac.Proofs.Client.ChunkedWrite
import Rebac.Proofs.Question.Body
import Rebac.Proofs.Client.FailClosed
import Rebac.Proofs.Schedule.VirtualClock
import Rebac.Proofs.Dispatch.Progress
import Rebac.Proofs.Client.Screening
import Rebac.Proofs.Client.EachCheck
import Rebac.Proofs.Client.Agreement
import Rebac.Proofs.Client.Retries
import Rebac.Proofs.Headers
import Rebac.Proofs.Client.Calls
import Rebac.Proofs.Http.Request
import Rebac.Proofs.Dispatch.Success
import Rebac.Proofs.Client.WriteModes
import Rebac.Proofs.Muted
import Rebac.Proofs.Dispatch.Reworded
import Rebac.Proofs.Client.Reworded
import Rebac.Proofs.Fallible
import Rebac.Proofs.Identifier
import Rebac.Proofs.Settings.Resolve
import Rebac.Proofs.Client.Destination
import Rebac.Proofs.Time.Duration
import Rebac.Proofs.Client.Overrides
import Rebac.Proofs.Settings.Tree
import Rebac.Proofs.Settings.Environment
import Rebac.Proofs.Settings.Decode
import Rebac.Proofs.Settings.Layers
import Rebac.Proofs.Number.Reading
import Rebac.Proofs.Settings.Texts
import Rebac.Proofs.Dispatch.Waits
import Rebac.Proofs.Retry.Loop
import Rebac.Proofs.Client.Relations
import Rebac.Proofs.Number.Nearest
import Rebac.Proofs.Number.Digits
import Rebac.Proofs.Retry.Hint
import Rebac.Proofs.Dispatch.Awaiting
import Rebac.Proofs.Transport.Gauge
import Rebac.Proofs.Schedule.Gauge
import Rebac.Proofs.Client.Sessions
import Rebac.Proofs.Retry.Backoff
import Rebac.Proofs.Time.Instant
import Rebac.Proofs.Retry.Seconds
import Rebac.Proofs.Time.Scan
import Rebac.Proofs.Retry.Clock
import Rebac.Proofs.Time.Calendar
import Rebac.Proofs.Time.Rendering
import Rebac.Proofs.Retry.Dates
import Rebac.Proofs.Batch.Submissions
import Rebac.Proofs.Json.Equal
import Rebac.Proofs.Question.Lossless
import Rebac.Proofs.Json.Fields
import Rebac.Proofs.Tuple.Forms
import Rebac.Proofs.Url.Front
import Rebac.Proofs.Url.Path
import Rebac.Proofs.Url.Authority
import Rebac.Proofs.Url.Parts
import Rebac.Proofs.Http.Joined
import Rebac.Proofs.Client.Addresses
import Rebac.Proofs.Batch.Partition
import Rebac.Proofs.Identifier.Texts
import Rebac.Proofs.Client.Paths
import Rebac.Proofs.Http.Overdue
import Rebac.Proofs.Client.Failures
import Rebac.Proofs.Client.Overdue
