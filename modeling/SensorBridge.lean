import SensorBridge.Foundation.Machine
import SensorBridge.Foundation.Cyclic
import SensorBridge.Foundation.Threads
import SensorBridge.Foundation.Held
import SensorBridge.Foundation.Exchange
import SensorBridge.Foundation.Transducer
import SensorBridge.Foundation.Replies
import SensorBridge.Foundation.BoundedQueue
import SensorBridge.Foundation.Log
import SensorBridge.Foundation.TokenBucket
import SensorBridge.Foundation.RefCount
import SensorBridge.Foundation.Extremum
import SensorBridge.Foundation.FloatOps
import SensorBridge.Foundation.OrderStatistic
import SensorBridge.Foundation.SlidingWindow
import SensorBridge.Foundation.Welford
import SensorBridge.Foundation.Recurrence
import SensorBridge.Foundation.Retry
import SensorBridge.Foundation.Congruential
import SensorBridge.Foundation.Gaps
import SensorBridge.Foundation.Text
import SensorBridge.Foundation.Csv
import SensorBridge.Foundation.Json
import SensorBridge.Foundation.JsonScan
import SensorBridge.Foundation.JsonParse
import SensorBridge.Buffer.Ring
import SensorBridge.Buffer.Spsc
import SensorBridge.Buffer.Linearization
import SensorBridge.Buffer.Observers
import SensorBridge.Buffer.Split
import SensorBridge.Buffer.Turns
import SensorBridge.Buffer.Sequential
import SensorBridge.Buffer.Overflow
import SensorBridge.Timestamp.Clock
import SensorBridge.Timestamp.Stamp
import SensorBridge.Timestamp.Single
import SensorBridge.Stage.Traits
import SensorBridge.Stage.Chain
import SensorBridge.Stage.Filter
import SensorBridge.Stage.Fusion
import SensorBridge.Stage.Reset
import SensorBridge.Stage.Windowed
import SensorBridge.Stage.Median
import SensorBridge.Stage.Retention
import SensorBridge.Stage.Nearest
import SensorBridge.Stage.Synced
import SensorBridge.Stage.Smoothing
import SensorBridge.Stage.Kalman
import SensorBridge.Stage.KalmanLimits
import SensorBridge.Stage.Transform
import SensorBridge.Stage.Related
import SensorBridge.Stage.Robust
import SensorBridge.Sensor.SimpleRng
import SensorBridge.Sensor.SequenceSensor
import SensorBridge.Sensor.MockImu
import SensorBridge.Sensor.Driver
import SensorBridge.Sensor.MultiSensor
import SensorBridge.Channel.Bounded
import SensorBridge.Channel.Metrics
import SensorBridge.Channel.Drift
import SensorBridge.Pipeline.Runner
import SensorBridge.Pipeline.PipelineThread
import SensorBridge.Pipeline.Builder
import SensorBridge.Pipeline.StageHandle
import SensorBridge.Pipeline.Executor
import SensorBridge.Pipeline.Batch
import SensorBridge.Pipeline.StageThread
import SensorBridge.Pipeline.Command
import SensorBridge.Pipeline.Spawn
import SensorBridge.Pipeline.Lifecycle
import SensorBridge.Pipeline.MultiStage
import SensorBridge.Pipeline.Refinement
import SensorBridge.Pipeline.Balance
import SensorBridge.Pipeline.Shutdown
import SensorBridge.Pipeline.HandleDrop
import SensorBridge.Backpressure.RateLimiter
import SensorBridge.Backpressure.Burst
import SensorBridge.Backpressure.Polling
import SensorBridge.Backpressure.Refills
import SensorBridge.Backpressure.Grants
import SensorBridge.Backpressure.Restart
import SensorBridge.Backpressure.Waiting
import SensorBridge.Backpressure.Acquires
import SensorBridge.Backpressure.Controller
import SensorBridge.Backpressure.Sampling
import SensorBridge.Backpressure.ControllerThreads
import SensorBridge.Metrics.JitterTracker
import SensorBridge.Metrics.JitterThreads
import SensorBridge.Metrics.JitterRange
import SensorBridge.Metrics.JitterAccuracy
import SensorBridge.Metrics.LatencyHistogram
import SensorBridge.Metrics.Percentiles
import SensorBridge.Metrics.HistogramThreads
import SensorBridge.Metrics.PercentileThreads
import SensorBridge.Metrics.HistogramReset
import SensorBridge.Metrics.Export
import SensorBridge.Metrics.ExportCsv
import SensorBridge.Metrics.ExportJson
import SensorBridge.Metrics.PipelineMetrics
import SensorBridge.ZeroCopy.ObjectPool
import SensorBridge.ZeroCopy.Accounting
import SensorBridge.ZeroCopy.Clean
import SensorBridge.ZeroCopy.BufferPool
import SensorBridge.ZeroCopy.BufferSizes
import SensorBridge.ZeroCopy.SharedData
