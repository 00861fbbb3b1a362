import ModbusCrawler.FailStop
import ModbusCrawler.FlashDevice
import ModbusCrawler.FlashUpdate
import ModbusCrawler.FlashRuns
import ModbusCrawler.FlashFailStop
import ModbusCrawler.CivilCalendar
import ModbusCrawler.Infra
import ModbusCrawler.MeasReporter
import ModbusCrawler.ReporterHistory
import ModbusCrawler.MeasConfig
import ModbusCrawler.ConfigCodec
import ModbusCrawler.MeasExecutor
import ModbusCrawler.Classification
import ModbusCrawler.CrawlerMain
import ModbusCrawler.ReportNames
import ModbusCrawler.TaskAccounting
import ModbusCrawler.TaskIntervals
import ModbusCrawler.EventLoop
import ModbusCrawler.ReportPeriods
import ModbusCrawler.NumeralGrammar
import ModbusCrawler.Thresholds
import ModbusCrawler.TaskTicks
import ModbusCrawler.TransferEffects
import ModbusCrawler.SingleRead
import ModbusCrawler.RawDump
import ModbusCrawler.RegisterDecoding
import ModbusCrawler.EffectiveConfig
import ModbusCrawler.ReadFailures
import ModbusCrawler.UnwrittenReports
import ModbusCrawler.ExactStatistics
import ModbusCrawler.CrawlerRuns
import ModbusCrawler.ServerTraffic
import ModbusCrawler.TimerWaiting
import ModbusCrawler.ServerReports
import ModbusCrawler.BurstErrors
import ModbusCrawler.ImageChecks
import ModbusCrawler.ScriptPlans
import ModbusCrawler.OneShot
import ModbusCrawler.PwrmeterClient
import ModbusCrawler.DigitOrder
import ModbusCrawler.ChronologicalNames
import ModbusCrawler.RegisterStore
import ModbusCrawler.DecimalNumerals
import ModbusCrawler.LineConfigs
import ModbusCrawler.StartUp
import ModbusCrawler.ReportedReadings
import ModbusCrawler.RandomReadings
import ModbusCrawler.SampleSeries
import ModbusCrawler.DecimalRounding
import ModbusCrawler.ReportDocuments
import ModbusCrawler.RoundedStatistics
import ModbusCrawler.ReportContents
import ModbusCrawler.FlashRecovery
