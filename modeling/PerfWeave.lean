import PerfWeave.Library.Run
import PerfWeave.Library.RingBuffer
import PerfWeave.Library.MachineInt
import PerfWeave.Library.Median
import PerfWeave.Library.LittleEndian
import PerfWeave.Library.PartialArithmetic
import PerfWeave.Library.KeyedPass
import PerfWeave.Proto
import PerfWeave.Common.Clock
import PerfWeave.Common.ClockFit
import PerfWeave.Server.FastRing
import PerfWeave.Server.FastRingLog
import PerfWeave.Server.SpikeDetect
import PerfWeave.Server.SpikeRuns
import PerfWeave.Server.SeriesIsolation
import PerfWeave.Server.Sink
import PerfWeave.Server.SinkLog
import PerfWeave.Server.SinkRuns
import PerfWeave.Server.SinkDuplicates
import PerfWeave.Server.Register
import PerfWeave.Server.NodeIds
import PerfWeave.Library.BoundedQueue
import PerfWeave.Library.QueueLedger
import PerfWeave.Common.Intern
import PerfWeave.Agent.EventRing
import PerfWeave.Agent.Session
import PerfWeave.Server.SkewTable
import PerfWeave.Server.Ingest
import PerfWeave.Server.MetricPlane
import PerfWeave.System.ClockCorrection
import PerfWeave.System.FitTracking
import PerfWeave.Agent.Handover
import PerfWeave.Agent.RingLedger
import PerfWeave.Agent.Uploader
import PerfWeave.Agent.Announcing
import PerfWeave.Server.IngestStream
import PerfWeave.System.StringDelivery
import PerfWeave.Agent.Samplers
import PerfWeave.System.Attribution
import PerfWeave.Inject.Activity
import PerfWeave.System.SourceOrder
import PerfWeave.Server.Tiles
import PerfWeave.Server.TileCoverage
import PerfWeave.Library.SignificantBits
import PerfWeave.Library.ChunkedStream
import PerfWeave.Server.LearnedSamples
import PerfWeave.Server.Imports
import PerfWeave.Server.ImportRuns
import PerfWeave.Web.LiveIds
import PerfWeave.Inject.Ship
import PerfWeave.Agent.CuptiReceiver
import PerfWeave.Server.AckAccounting
import PerfWeave.Library.Relational
import PerfWeave.Inject.HostSampler
import PerfWeave.Server.SpikeContext
import PerfWeave.System.SolAttribution
import PerfWeave.Server.Bottleneck
import PerfWeave.Server.SinkBacklog
import PerfWeave.Web.KernelClick
import PerfWeave.Common.FitRobustness
import PerfWeave.Server.SlowTail
import PerfWeave.System.LatestReading
import PerfWeave.Server.RobustPass
import PerfWeave.Library.Deviation
import PerfWeave.Server.RunningStatistics
import PerfWeave.Library.WithNaN
import PerfWeave.Server.PoisonedStatistics
import PerfWeave.Server.SpikeContinuation
import PerfWeave.Server.DetectionRecovery
import PerfWeave.Library.OrderStatistic
import PerfWeave.Library.Text
import PerfWeave.Agent.ClockSync
import PerfWeave.System.MappingRange
import PerfWeave.Inject.HostCards
import PerfWeave.Inject.RecordBounds
import PerfWeave.Server.Migrations
import PerfWeave.Server.TimelineFilters
import PerfWeave.Server.TimelineHandler
import PerfWeave.Web.Renderer
import PerfWeave.Web.LiveClock
import PerfWeave.Inject.Connect
import PerfWeave.Library.IntervalPacking
import PerfWeave.Web.KernelGantt
import PerfWeave.Library.InsertionOrder
import PerfWeave.Web.ActivityBatches
import PerfWeave.Web.Hover
import PerfWeave.Library.MergeTree
import PerfWeave.Server.TileStore
import PerfWeave.Server.Dictionary
import PerfWeave.Server.TileBudget
import PerfWeave.System.TileBars
import PerfWeave.Agent.Conveyance
import PerfWeave.Library.OrderedImages
import PerfWeave.System.Delivery
import PerfWeave.System.DeliveryOrder
import PerfWeave.Library.Broadcast
import PerfWeave.System.LivePlane
import PerfWeave.Web.Navigation
import PerfWeave.Library.Spacing
import PerfWeave.System.SpikePlane
import PerfWeave.System.LiveTape
import PerfWeave.Web.MetricLanes
import PerfWeave.Library.Effects
import PerfWeave.Web.Requests
import PerfWeave.Server.KernelReplay
import PerfWeave.Common.DoubleFit
import PerfWeave.Server.SpikeResolver
import PerfWeave.Web.Drilldown
