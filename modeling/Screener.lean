import Screener.Backtest.Analysis
import Screener.Backtest.Breakdowns
import Screener.Backtest.DailySnapshots
import Screener.Backtest.DecimalBounds
import Screener.Backtest.DecimalContext
import Screener.Backtest.Domain
import Screener.Backtest.EntryLimits
import Screener.Backtest.ExitTriggers
import Screener.Backtest.FirstExits
import Screener.Backtest.Independent
import Screener.Backtest.IndependentRules
import Screener.Backtest.IndependentSafety
import Screener.Backtest.IndependentTotality
import Screener.Backtest.Parameters
import Screener.Backtest.Portfolio
import Screener.Backtest.PortfolioAccounting
import Screener.Backtest.PortfolioCausality
import Screener.Backtest.PortfolioExact
import Screener.Backtest.PortfolioLoading
import Screener.Backtest.PortfolioLookahead
import Screener.Backtest.PortfolioRefinement
import Screener.Backtest.PortfolioRules
import Screener.Backtest.PortfolioSchedule
import Screener.Backtest.PortfolioSignals
import Screener.Backtest.PortfolioSolvency
import Screener.Backtest.RealizedPnl
import Screener.Backtest.RequestValidation
import Screener.Backtest.SaleBounds
import Screener.Backtest.Service
import Screener.Backtest.ServiceAtomicity
import Screener.Backtest.SignalSales
import Screener.Backtest.SnapshotFooting
import Screener.Backtest.StayingPositions
import Screener.Backtest.SummaryAgreement
import Screener.Backtest.TradeListing
import Screener.Backtest.TradeOrders
import Screener.Backtest.TradeShape
import Screener.Frontend.BacktestPanels
import Screener.Frontend.Dashboards
import Screener.Frontend.DecimalOrder
import Screener.Frontend.DecimalWire
import Screener.Frontend.Format
import Screener.Frontend.FormatRules
import Screener.Frontend.Percentages
import Screener.Frontend.ScreenerFilters
import Screener.Frontend.ScreenerFormat
import Screener.Frontend.ScreenerOperations
import Screener.Frontend.ScreenerRestored
import Screener.Frontend.ScreenerRuns
import Screener.Frontend.ScreenerSelection
import Screener.Frontend.ScreenerShown
import Screener.Frontend.ScreenerSteps
import Screener.Frontend.StaleResponses
import Screener.Frontend.TradesPager
import Screener.Identity.RefreshReuse
import Screener.Identity.RefreshSessionRules
import Screener.Identity.RefreshSessions
import Screener.Identity.RefreshSingleUse
import Screener.Lib.AsyncPage
import Screener.Lib.Averages
import Screener.Lib.CivilDate
import Screener.Lib.Csv
import Screener.Lib.CsvWriter
import Screener.Lib.DecimalText
import Screener.Lib.DecimalValue
import Screener.Lib.Dict
import Screener.Lib.Grouping
import Screener.Lib.Intake
import Screener.Lib.IsoDateTime
import Screener.Lib.Loop
import Screener.Lib.Machine
import Screener.Lib.Numeral
import Screener.Lib.Paging
import Screener.Lib.Pattern
import Screener.Lib.Program
import Screener.Lib.Regrouping
import Screener.Lib.RequestCache
import Screener.Lib.Rounding
import Screener.Lib.RunningPeak
import Screener.Lib.Scaling
import Screener.Lib.SearchParams
import Screener.Lib.Session
import Screener.Lib.Significant
import Screener.Lib.Sorted
import Screener.Lib.Stamp
import Screener.Lib.Streak
import Screener.Lib.UnitOfWork
import Screener.Lib.Upsert
import Screener.Lib.WhileLoop
import Screener.Lib.Windows
import Screener.Market.AnalysisTexts
import Screener.Market.BarProgress
import Screener.Market.BarUpserts
import Screener.Market.CandleLoop
import Screener.Market.CandlePages
import Screener.Market.CandlePaging
import Screener.Market.CandleTermination
import Screener.Market.DailyBars
import Screener.Market.DailyRun
import Screener.Market.DailyRunHoliday
import Screener.Market.DailyRunSafety
import Screener.Market.DailyVerdict
import Screener.Market.ExecutionOwnership
import Screener.Market.Indicators
import Screener.Market.KrxExport
import Screener.Market.KrxUniverse
import Screener.Market.MinuteAggregation
import Screener.Market.MinuteBars
import Screener.Market.MinuteBuckets
import Screener.Market.MinuteFrames
import Screener.Market.MinuteMerge
import Screener.Market.MinutePages
import Screener.Market.Notifications
import Screener.Market.NotifiedRuns
import Screener.Market.Pipeline
import Screener.Market.PipelineEnvelope
import Screener.Market.PipelineFinality
import Screener.Market.PipelineRules
import Screener.Market.PriceRanges
import Screener.Market.ProviderRequests
import Screener.Market.PublishedRanking
import Screener.Market.Ranking
import Screener.Market.RankingOrder
import Screener.Market.RealtimeAnalysis
import Screener.Market.ReanalysisMigration
import Screener.Market.Reproducibility
import Screener.Market.RequestRetries
import Screener.Market.ScaleFree
import Screener.Market.ScoreInterpolation
import Screener.Market.ScoreRanges
import Screener.Market.Screening
import Screener.Market.ScreeningAgreement
import Screener.Market.ScreeningInvariants
import Screener.Market.StockUniverse
import Screener.Market.Stocks
import Screener.Market.Sync
import Screener.Market.SyncClosure
import Screener.Market.SyncConvergence
import Screener.Market.SyncCounts
import Screener.Market.SyncFreshness
import Screener.Market.SyncRules
import Screener.Market.TechnicalAnalysis
import Screener.Market.TechnicalLevels
import Screener.Market.TechnicalSession
import Screener.Market.TokenManager
import Screener.Market.TokenRenewal
import Screener.Market.TradingDates
import Screener.Market.UniverseAccounting
import Screener.Market.UniverseIntake
import Screener.Market.UniverseOrder
import Screener.Market.UniverseSnapshot
import Screener.Market.UpsertContract
import Screener.Market.Watchlist
import Screener.Market.WatchlistReads
