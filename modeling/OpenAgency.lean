import OpenAgency.ExecutionLock
import OpenAgency.WaitLedger
import OpenAgency.TerminalRecords
import OpenAgency.SuspensionRuns
import OpenAgency.CrashRetry
import OpenAgency.EventLog
import OpenAgency.MongoEvents
import OpenAgency.ToolAllowList
import OpenAgency.MonitorRuns
import OpenAgency.ReplacementRuns
import OpenAgency.BackfillRuns
import OpenAgency.ScheduleFires
import OpenAgency.ScheduleCap
import OpenAgency.ScheduleProgress
import OpenAgency.TerminalGoals
import OpenAgency.GoalLinks
import OpenAgency.MemoryOwnership
import OpenAgency.MemorySensitivity
import OpenAgency.CredentialUpdates
import OpenAgency.StreamDelivery
import OpenAgency.DomainSlots
import OpenAgency.SessionLeaks
import OpenAgency.WorkflowMutations
import OpenAgency.Redaction
import OpenAgency.FallbackCalls
import OpenAgency.FallbackStreams
import OpenAgency.GraphBudget
import OpenAgency.CronSearch
import OpenAgency.ScheduleSpellings
import OpenAgency.CallbackRetries
import OpenAgency.CatalogAgreement
import OpenAgency.FileWriteSafety
import OpenAgency.UsageLedger
import OpenAgency.CompactionState
import OpenAgency.FormattingTurns
import OpenAgency.NodeRouting
import OpenAgency.RequiredTools
import OpenAgency.ApprovalExpiry
import OpenAgency.EventWakes
import OpenAgency.CycleDelays
import OpenAgency.AttemptTimes
import OpenAgency.ReconcileTwice
import OpenAgency.CapabilityReplay
import OpenAgency.PlanVersions
import OpenAgency.SelfApproval
import OpenAgency.GraphRebuild
import OpenAgency.OperationalContext
import OpenAgency.StorageNamespaces
import OpenAgency.IngestionFailures
import OpenAgency.StreamSafety
import OpenAgency.RegistryRuns
import OpenAgency.AgentImport
import OpenAgency.SignInLimits
