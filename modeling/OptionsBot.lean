import OptionsBot.Theory.Anchors
import OptionsBot.Theory.AtomicEntry
import OptionsBot.Theory.BookAdditive
import OptionsBot.Theory.BookedNav
import OptionsBot.Theory.Breaker
import OptionsBot.Theory.CancelSweep
import OptionsBot.Theory.CandleCache
import OptionsBot.Theory.CandleConservation
import OptionsBot.Theory.CandleLabels
import OptionsBot.Theory.CandleOrder
import OptionsBot.Theory.CandleReference
import OptionsBot.Theory.CapOrder
import OptionsBot.Theory.ClosedRows
import OptionsBot.Theory.ConcurrencyLimits
import OptionsBot.Theory.ConcurrentShutdowns
import OptionsBot.Theory.CooldownRuns
import OptionsBot.Theory.CountedRows
import OptionsBot.Theory.CrashedEntry
import OptionsBot.Theory.DailyRows
import OptionsBot.Theory.DayRoll
import OptionsBot.Theory.DayWindow
import OptionsBot.Theory.DecisionBatches
import OptionsBot.Theory.DedupedAttempts
import OptionsBot.Theory.DeskBook
import OptionsBot.Theory.DeskBookkeeping
import OptionsBot.Theory.EntryColumns
import OptionsBot.Theory.EntryLeg
import OptionsBot.Theory.EntryRows
import OptionsBot.Theory.EntryTime
import OptionsBot.Theory.ExitContract
import OptionsBot.Theory.ExitRetry
import OptionsBot.Theory.Expiry
import OptionsBot.Theory.ExpiryBuckets
import OptionsBot.Theory.Exposure
import OptionsBot.Theory.FailedExit
import OptionsBot.Theory.FeedDelivery
import OptionsBot.Theory.FilledRows
import OptionsBot.Theory.ForceCloseTime
import OptionsBot.Theory.ForcedExit
import OptionsBot.Theory.ForeignOrders
import OptionsBot.Theory.HighWater
import OptionsBot.Theory.IndicatorBounds
import OptionsBot.Theory.IsolatedRows
import OptionsBot.Theory.IvFilter
import OptionsBot.Theory.LegGroups
import OptionsBot.Theory.LimitPrices
import OptionsBot.Theory.LoadedConfigs
import OptionsBot.Theory.LoneRow
import OptionsBot.Theory.MissingQuote
import OptionsBot.Theory.NamelessTrades
import OptionsBot.Theory.NavWriters
import OptionsBot.Theory.NightlyReports
import OptionsBot.Theory.OpenReport
import OptionsBot.Theory.OrderIds
import OptionsBot.Theory.OrderLookup
import OptionsBot.Theory.PaperTrades
import OptionsBot.Theory.PeakColumn
import OptionsBot.Theory.PositionTrades
import OptionsBot.Theory.Promotion
import OptionsBot.Theory.QuoteFeeds
import OptionsBot.Theory.RankLaws
import OptionsBot.Theory.Ratchet
import OptionsBot.Theory.RateQuota
import OptionsBot.Theory.RateWindow
import OptionsBot.Theory.Reconnect
import OptionsBot.Theory.RestartedTrail
import OptionsBot.Theory.Resumed
import OptionsBot.Theory.RiskBudget
import OptionsBot.Theory.RoundTrip
import OptionsBot.Theory.SampleThrottle
import OptionsBot.Theory.SecondRun
import OptionsBot.Theory.SessionClose
import OptionsBot.Theory.SettledRows
import OptionsBot.Theory.SharedDatabase
import OptionsBot.Theory.SignedCalls
import OptionsBot.Theory.SimulatedTrades
import OptionsBot.Theory.SizedLots
import OptionsBot.Theory.SpreadRisk
import OptionsBot.Theory.SteadyConfig
import OptionsBot.Theory.StopOrders
import OptionsBot.Theory.Straddles
import OptionsBot.Theory.StrikeFallback
import OptionsBot.Theory.StrikePickers
import OptionsBot.Theory.Symbols
import OptionsBot.Theory.TrailStop
import OptionsBot.Theory.TrendSymmetry
import OptionsBot.Theory.UnwindCost
import OptionsBot.Theory.Verdicts
import OptionsBot.Theory.WarmUp
import OptionsBot.Theory.WideSpreads
