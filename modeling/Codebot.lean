import Codebot.WorkspaceQuota
import Codebot.KillSwitch
import Codebot.ApprovalDecisions
import Codebot.OutputScreening
import Codebot.BotStarts
import Codebot.RuntimeEvents
import Codebot.BarOrder
import Codebot.PaperAccounts
import Codebot.CacheTransparency
import Codebot.RuntimeLeases
import Codebot.TerminalRuntimes
import Codebot.StopRequests
import Codebot.JobSelection
import Codebot.TaskAgreement
import Codebot.WorkflowAnswers
import Codebot.ContinuationOffers
import Codebot.ContinuationStarts
import Codebot.RunEvents
import Codebot.CacheLocks
import Codebot.SummaryJobs
import Codebot.PreviewRepairs
import Codebot.BacktestArtifacts
import Codebot.FailedRequests
import Codebot.StreamLeases
import Codebot.OrphanRuns
import Codebot.ChatRuns
import Codebot.BarCollector
import Codebot.AgUiStreams
import Codebot.RetrievalCaches
import Codebot.LiveGeneration
import Codebot.RouteHealth
import Codebot.PolicyMatches
import Codebot.TruthfulCalls
import Codebot.IndexedTrades
import Codebot.MonthlyReturns
import Codebot.Drawdowns
import Codebot.DashboardMetrics
import Codebot.CandlePages
import Codebot.PreviewCandles
import Codebot.StatedAverages
import Codebot.VariantLabs
import Codebot.SandboxAccounts
import Codebot.AssistantDeltas
import Codebot.StreamFields
import Codebot.SseFrames
import Codebot.OrderKeys
import Codebot.ReproducibilityHashes
import Codebot.WorkflowUi
import Codebot.MergedEvents
import Codebot.ResumedStreams
import Codebot.ArtifactPages
import Codebot.FetchUpdates
import Codebot.AgentBudgets
import Codebot.RoutedStreams
import Codebot.InputBudgets
import Codebot.RecentWindows
import Codebot.RateLimits
import Codebot.EmbeddedJson
import Codebot.StopCommands
import Codebot.TextChunks
import Codebot.LearnedLessons
import Codebot.AutoApprovals
import Codebot.SharedEvents
import Codebot.KnowledgeSearch
import Codebot.PineGuards
import Codebot.PineStrings
import Codebot.Downsampling
import Codebot.CacheIntervals
import Codebot.SizingRules
import Codebot.StrictSchemas
