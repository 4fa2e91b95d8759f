import TradingConnectivity.Gateway.Replay
import TradingConnectivity.Gateway.LengthPrefixes
import TradingConnectivity.Gateway.TornTail
import TradingConnectivity.Lifecycle.FinalReports
import TradingConnectivity.Lifecycle.LostFills
import TradingConnectivity.Lifecycle.Agreement
import TradingConnectivity.MarketData.NoSilentGap
import TradingConnectivity.MarketData.Convergence
import TradingConnectivity.MarketData.FailedRecovery
import TradingConnectivity.Reconcile.StatusCheck
import TradingConnectivity.ConnectorCore.MessageCodec
import TradingConnectivity.MarketData.FuturesStream
import TradingConnectivity.MarketData.ChecksumInput
import TradingConnectivity.Redundancy.Failover
import TradingConnectivity.Redundancy.StatusStream
import TradingConnectivity.Adapter.ConnectionManager
import TradingConnectivity.Connector.Stream
import TradingConnectivity.Bridge.ClickhouseBridge
import TradingConnectivity.Normalize.Pipelines
import TradingConnectivity.Normalize.FundingRates
import TradingConnectivity.Normalize.SequenceNumbers
import TradingConnectivity.Config.Sharding
import TradingConnectivity.RefData.EventLog
import TradingConnectivity.MarketData.Position
import TradingConnectivity.Gateway.FillStatus
import TradingConnectivity.Gateway.Atomicity
import TradingConnectivity.Gateway.UniqueIds
import TradingConnectivity.Reconcile.Scheduler
import TradingConnectivity.Replay.VirtualClock
import TradingConnectivity.ConnectorCore.PublishTimestamp
import TradingConnectivity.UserStream.BalanceDelta
import TradingConnectivity.Normalize.Accepted
import TradingConnectivity.RefData.Channels
import TradingConnectivity.RefData.Lossless
import TradingConnectivity.Sbe.BlockLength
import TradingConnectivity.MarketData.LastWrite
import TradingConnectivity.MarketData.PositiveQuantities
import TradingConnectivity.MarketData.BufferLimits
import TradingConnectivity.MarketData.EagerBreaker
import TradingConnectivity.MarketData.BboValidator
import TradingConnectivity.Publisher.Backpressure
import TradingConnectivity.Replay.Prng
import TradingConnectivity.Gateway.CloidOrder
import TradingConnectivity.Reconcile.OwnIds
import TradingConnectivity.MarketData.SnapshotCheck
import TradingConnectivity.Shadow.Verdict
import TradingConnectivity.Shard.SpotSymbol
import TradingConnectivity.Shard.Announced
import TradingConnectivity.Shard.Provenance
import TradingConnectivity.Shard.Attempts
import TradingConnectivity.Shard.SpotShard
import TradingConnectivity.Shard.Isolation
import TradingConnectivity.Shard.Fragments
import TradingConnectivity.Shard.Numbers
import TradingConnectivity.Shard.OneAttempt
import TradingConnectivity.Shard.DeadOnArrival
import TradingConnectivity.Shard.Heartbeats
