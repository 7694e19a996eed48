import TradeSurveillance.Theorems.RingAccounting
import TradeSurveillance.Theorems.RingBackpressure
import TradeSurveillance.Theorems.RingProgress
import TradeSurveillance.Theorems.BookIndex
import TradeSurveillance.Theorems.BookRefinement
import TradeSurveillance.Theorems.AtomicRejection
import TradeSurveillance.Theorems.ShadowBook
import TradeSurveillance.Theorems.CodecRoundTrip
import TradeSurveillance.Theorems.DurableLog
import TradeSurveillance.Theorems.AlertReplay
import TradeSurveillance.Theorems.ShutdownDrain
import TradeSurveillance.Theorems.LabeledJson
import TradeSurveillance.Theorems.CsvRoundTrip
import TradeSurveillance.Theorems.PairIsolation
import TradeSurveillance.Theorems.MlGroundTruth
import TradeSurveillance.Theorems.AlertEvidence
import TradeSurveillance.Theorems.InstrumentIsolation
import TradeSurveillance.Theorems.LiveReplay
import TradeSurveillance.Theorems.WashTradeLabels
import TradeSurveillance.Theorems.CleanReplay
import TradeSurveillance.Theorems.ClosingGroups
import TradeSurveillance.Theorems.ClosingVolume
import TradeSurveillance.Theorems.FrontRunningPairs
import TradeSurveillance.Theorems.ConcurrencyIndex
import TradeSurveillance.Theorems.ReplaceMeaning
import TradeSurveillance.Theorems.PositiveDepth
import TradeSurveillance.Theorems.AmbientWindows
import TradeSurveillance.Theorems.CancelBook
import TradeSurveillance.Theorems.WindowTally
import TradeSurveillance.Theorems.SubmissionPeriod
import TradeSurveillance.Theorems.ClosingPush
import TradeSurveillance.Theorems.TextArrays
import TradeSurveillance.Theorems.ConfusionMatrix
import TradeSurveillance.Theorems.FixRoundTrip
import TradeSurveillance.Theorems.DecodeErrors
import TradeSurveillance.Theorems.DecodeAccepts
import TradeSurveillance.Theorems.FixFraming
import TradeSurveillance.Theorems.RingSequential
import TradeSurveillance.Theorems.SpoofMovesMarket
import TradeSurveillance.Theorems.ScoringResponse
import TradeSurveillance.Theorems.ScoringRequest
import TradeSurveillance.Theorems.GroupComponents
import TradeSurveillance.Theorems.RunningStatistics
import TradeSurveillance.Theorems.ReplayDetermined
import TradeSurveillance.Theorems.ReplayCapacity
import TradeSurveillance.Theorems.DetectorIndependence
import TradeSurveillance.Theorems.BookFeed
import TradeSurveillance.Theorems.WashTradeMeasured
import TradeSurveillance.Theorems.AlertPersistence
import TradeSurveillance.Theorems.AlertPaging
import TradeSurveillance.Theorems.StatusEndpoint
import TradeSurveillance.Theorems.ServerAlerts
import TradeSurveillance.Theorems.EvidenceDisplay
import TradeSurveillance.Theorems.EvaluationSnapshot
import TradeSurveillance.Theorems.WindowSweep
import TradeSurveillance.Theorems.UndatedSession
import TradeSurveillance.Theorems.ScoringService
