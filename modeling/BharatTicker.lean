import BharatTicker.CircuitBreaker.Recovery
import BharatTicker.Failover.Isolation
import BharatTicker.Failover.Bulk
import BharatTicker.Basis.Aggregate
import BharatTicker.Basis.Bar
import BharatTicker.Basis.Rounding
import BharatTicker.Basis.Counter
import BharatTicker.LiveCandles
import BharatTicker.LiveCandles.SingleSource
import BharatTicker.IntradayStore
import BharatTicker.IntradayStore.Rollup
import BharatTicker.IntradayStore.Flush
import BharatTicker.MarketData
import BharatTicker.MarketData.LiveOnly
import BharatTicker.Basis.SingleFlight
import BharatTicker.LiveQuote
import BharatTicker.LiveQuote.SingleFlight
import BharatTicker.LiveQuote.Cancellation
import BharatTicker.Basis.Dict
import BharatTicker.MemoryStore
import BharatTicker.Basis.BoundedLog
import BharatTicker.MemoryStore.Streams
import BharatTicker.MemoryStore.Expiry
import BharatTicker.TickerCache
import BharatTicker.TickerCache.LastWrite
import BharatTicker.TickerCache.Quote
import BharatTicker.TickerCache.Depth
import BharatTicker.WebSocket
import BharatTicker.WebSocket.Delivery
import BharatTicker.IstClock
import BharatTicker.SbQuotes
import BharatTicker.SbQuotes.SessionOpen
import BharatTicker.IntradayBuilder
import BharatTicker.Quotes
import BharatTicker.RealTimeLabels
import BharatTicker.SbHistory
import BharatTicker.SbHistory.ArmedRule
import BharatTicker.SbHistory.DatedWindow
import BharatTicker.SbHistory.FailedFetch
import BharatTicker.Bhavcopy
import BharatTicker.Bhavcopy.Forward
import BharatTicker.Tickertape
import BharatTicker.Tickertape.OwnRows
import BharatTicker.LiveCandles.Recorder
import BharatTicker.LiveCandles.Reference
import BharatTicker.LiveCandles.Finished
import BharatTicker.LiveCandles.Counters
import BharatTicker.IntradayBuilder.Rollup
import BharatTicker.IntradayBuilder.SessionVolume
import BharatTicker.SbCandles
import BharatTicker.SbCandles.Sane
import BharatTicker.SbCandles.SplitToday
import BharatTicker.SbCandles.OwnVenue
import BharatTicker.SbQuotes.Exchanges
import BharatTicker.SbQuotes.YearRange
import BharatTicker.Basis.Window
import BharatTicker.Historical
import BharatTicker.Historical.Sources
import BharatTicker.Historical.Granularity
import BharatTicker.TtlCache.Calls
import BharatTicker.Basis.Walk
import BharatTicker.CircuitBreaker.Trip
import BharatTicker.CircuitBreaker.Polling
import BharatTicker.Failover.OneFailure
import BharatTicker.Basis.TokenBucket
import BharatTicker.RateLimiter
import BharatTicker.Basis.Rescale
import BharatTicker.CorpActions.Raw
import BharatTicker.CorpActions.Confirmed
import BharatTicker.CorpActions.Accuracy
import BharatTicker.CorpActions.Continuous
import BharatTicker.Basis.Calendar
import BharatTicker.Holidays
import BharatTicker.IstClock.NextOpen
import BharatTicker.IstClock.State
import BharatTicker.Holidays.Navigation
import BharatTicker.ProxyPool
import BharatTicker.ProxyPool.Parked
import BharatTicker.ProxyPool.Status
import BharatTicker.Tickertape.Throttle
import BharatTicker.Basis.Slices
import BharatTicker.Tickertape.Batches
import BharatTicker.Basis.Unicode
import BharatTicker.Basis.TextOrder
import BharatTicker.SbIntraday.Limit
import BharatTicker.SbIntraday.PastDay
import BharatTicker.Failover.Coverage
import BharatTicker.Bhavcopy.Budget
import BharatTicker.Basis.DecimalContext
import BharatTicker.Bhavcopy.Quote
import BharatTicker.Bhavcopy.QuoteErrors
import BharatTicker.Basis.FloatValue
import BharatTicker.Watchdog
import BharatTicker.LiveCandles.Stream
import BharatTicker.Resolve
import BharatTicker.Basis.Pairing
import BharatTicker.Analytics
import BharatTicker.NseScraper
import BharatTicker.NseScraper.Retry
import BharatTicker.BseScraper
import BharatTicker.DerivedChange
import BharatTicker.Basis.GuardedLoad
import BharatTicker.MarketData.Controller
import BharatTicker.Tickertape.SidMap
import BharatTicker.Failover.DeadProvider
import BharatTicker.WatchlistRecorder
import BharatTicker.IntradayStore.Retention
import BharatTicker.SbQuotes.Freshness
import BharatTicker.MarketData.IntradaySeries
import BharatTicker.Quotes.Bulk
import BharatTicker.RateLimiter.Progress
import BharatTicker.LiveFeeds
import BharatTicker.LiveFeeds.Calls
import BharatTicker.WebSocket.Registered
import BharatTicker.NsePublic
import BharatTicker.NseScraper.Quote
import BharatTicker.Basis.Semaphore
import BharatTicker.BulkFetch
import BharatTicker.MarketData.Ticks
import BharatTicker.BulkFetch.Answers
