import Pulse.Ingest.OneCall
import Pulse.Ingest.TwoCalls
import Pulse.Ingest.SchemaName
import Pulse.Ingest.TokenCache
import Pulse.Ingest.ConsumeOne
import Pulse.Ingest.PullPaths
import Pulse.Core.TurnIndex
import Pulse.Core.AudioClock
import Pulse.Core.AudioDecode
import Pulse.Core.AudioPeaks
import Pulse.Core.MetricBounds
import Pulse.Core.Percentile
import Pulse.Core.Padding
import Pulse.Core.AudioQuality
import Pulse.Core.SpanOrder
import Pulse.Core.Representatives
import Pulse.Core.Unattributed
import Pulse.Core.Words
import Pulse.Core.Vad
import Pulse.Groundtruth.Text
import Pulse.Groundtruth.Service
import Pulse.Frameworks.LiveKit
import Pulse.Integration.Assemble
import Pulse.Integration.Discover
import Pulse.Integration.ManifestAudio
import Pulse.Worker.Watermark
import Pulse.Worker.Cancel
import Pulse.Worker.Convergence
import Pulse.Worker.RunJob
import Pulse.Worker.VersionBump
import Pulse.Worker.Sweeps
import Pulse.Worker.Header
import Pulse.Worker.Assemble
import Pulse.Worker.Idempotent
import Pulse.Ingest.Storable
import Pulse.Worker.Storable
import Pulse.Worker.AudioStt
import Pulse.Db.AdminDeletes
import Pulse.Db.EraseCall
import Pulse.Db.Pool
import Pulse.Api.Access
import Pulse.Api.Versions
import Pulse.Api.Export
import Pulse.Api.BoardCursor
import Pulse.Api.Boards
import Pulse.Api.Timeline
import Pulse.Api.AudioConfig
import Pulse.Judge.Uploads
import Pulse.Judge.Run
import Pulse.Auth.Theft
import Pulse.Auth.Race
import Pulse.Auth.Limiter
import Pulse.Auth.Lockout
import Pulse.Chat.Isolation
import Pulse.Chat.Scope
import Pulse.Chat.Streams
import Pulse.Storage.Drivers
import Pulse.Util.Safety
import Pulse.Ingest.Gunzip
import Pulse.Ingest.Verbatim
import Pulse.Lib.Arrays
import Pulse.Ui.Waterfall
import Pulse.Lib.Frames
import Pulse.Lib.JsonText
import Pulse.Ui.EventStream
import Pulse.Chat.Agent
import Pulse.Clustering.Consistent
import Pulse.Ui.Session
import Pulse.Ingest.TokenAuth
import Pulse.Lib.Topic
import Pulse.Ingest.Pipeline
import Pulse.Api.Read
import Pulse.Auth.Access
import Pulse.Api.Backfill
import Pulse.Ui.Backfill
