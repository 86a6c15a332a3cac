import Kungfu.Yijinjing.Writer
import Kungfu.Yijinjing.Landing
import Kungfu.Yijinjing.PageFit
import Kungfu.Yijinjing.JoinFailure
import Kungfu.Yijinjing.Visibility
import Kungfu.Yijinjing.Tracking
import Kungfu.Yijinjing.LiveMerge
import Kungfu.Yijinjing.RoundTrip
import Kungfu.Yijinjing.Assemble
import Kungfu.Yijinjing.CopySink
import Kungfu.Yijinjing.FrameUid
import Kungfu.Ctp.Attribution
import Kungfu.Ctp.Cancel
import Kungfu.Cache.Reset
import Kungfu.Practice.Dispatch
import Kungfu.Wingchun.ExactlyOnce
import Kungfu.Wingchun.StockCash
import Kungfu.Wingchun.Atomicity
import Kungfu.Wingchun.FutureMerge
import Kungfu.Wingchun.Redelivery
import Kungfu.Wingchun.Resync
import Kungfu.Wingchun.Equity
import Kungfu.Yijinjing.Anchor
import Kungfu.Index.EndTimes
import Kungfu.Practice.Master
import Kungfu.Practice.Deregister
import Kungfu.Ctp.Pump
import Kungfu.Ctp.PositionSync
import Kungfu.Broker.TraderSim
import Kungfu.Broker.Batch
import Kungfu.Broker.Recover
import Kungfu.Api.Framing
import Kungfu.Practice.MasterApp
import Kungfu.Practice.Timers
import Kungfu.Broker.Resume
import Kungfu.Api.Strategies
import Kungfu.Api.MarketData
import Kungfu.Api.OrderEntry
import Kungfu.Api.Robustness
import Kungfu.Wingchun.Quote
import Kungfu.Wingchun.StockPnl
import Kungfu.Wingchun.BondFrozen
import Kungfu.Wingchun.Release
import Kungfu.Wingchun.Bar
import Kungfu.Broker.OrderLife
import Kungfu.Broker.SelfDeal
import Kungfu.Broker.Readiness
import Kungfu.Api.Replay
import Kungfu.Wingchun.BasketOrder
import Kungfu.Wingchun.Owner
import Kungfu.Wingchun.Transfer
import Kungfu.Wingchun.Repo
import Kungfu.Wingchun.Settlement
import Kungfu.Wingchun.Ratios
import Kungfu.Wingchun.OrderStats
import Kungfu.Longfist.CharArray
import Kungfu.Cache.RingQueue
import Kungfu.Broker.OrderBook
import Kungfu.Wingchun.Mirror
import Kungfu.Longfist.JsonRecord
import Kungfu.Practice.Offline
import Kungfu.Yijinjing.AssembleAlgebra
import Kungfu.Yijinjing.AssembleMode
import Kungfu.Yijinjing.Time
import Kungfu.Wingchun.BarInterval
import Kungfu.Wingchun.TimeZone
import Kungfu.Ctp.Rejection
import Kungfu.Wingchun.Runner
import Kungfu.Ctp.MarketData
import Kungfu.Log.Inbox
import Kungfu.Practice.Apprentice
import Kungfu.Practice.Startup
import Kungfu.Practice.Started
