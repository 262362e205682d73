import FirstTree.Lib.Runs
import FirstTree.Lib.Table
import FirstTree.Lib.AssocList
import FirstTree.Lib.Transactions
import FirstTree.Lib.LockedPrograms
import FirstTree.Lib.Scripts
import FirstTree.Lib.DurablePrograms
import FirstTree.Lib.Checks
import FirstTree.Lib.Trimming
import FirstTree.Lib.Scan
import FirstTree.Lib.DelimiterRuns
import FirstTree.Lib.Collapsing
import FirstTree.Lib.Regex
import FirstTree.Lib.Binary64
import FirstTree.Lib.ComparatorSort
import FirstTree.Lib.OrderedMap
import FirstTree.Lib.SelfDelimiting
import FirstTree.Lib.Utf16
import FirstTree.Lib.PathStack
import FirstTree.Lib.JournaledMoves
import FirstTree.Lib.Keyset
import FirstTree.Lib.NextElements
import FirstTree.Lib.Questions
import FirstTree.Lib.ShellQuoting
import FirstTree.Lib.PercentCoding
import FirstTree.Lib.WebUrl
import FirstTree.Client.ResetReplayAuthority
import FirstTree.Client.ReplayFence
import FirstTree.Client.SessionRegistry
import FirstTree.Client.ClientSwitch
import FirstTree.Client.Deduplicator
import FirstTree.Client.InboxDeliveryCoordinator
import FirstTree.Client.ManagedState
import FirstTree.Client.ManagedSkills
import FirstTree.Shared.Message
import FirstTree.Shared.Mentions
import FirstTree.Shared.ShellCommandIo
import FirstTree.Shared.ContextSourceLink
import FirstTree.Shared.ContextTreeRepository
import FirstTree.Shared.SkillPaths
import FirstTree.Shared.DocPath
import FirstTree.Shared.DocLinkScan
import FirstTree.Shared.DocAnchor
import FirstTree.Server.MessagePreflight
import FirstTree.Server.Inbox
import FirstTree.Server.InFlight
import FirstTree.Server.InboxDelivery
import FirstTree.Server.InboxServer
import FirstTree.Server.InboxContext
import FirstTree.Server.Sessions
import FirstTree.Server.OpenRequests
import FirstTree.Server.ConnectionManager
import FirstTree.Server.AgentRuntime
import FirstTree.Server.RuntimeSessions
import FirstTree.Server.RuntimeSwitch
import FirstTree.Server.AgentConfig
import FirstTree.Server.EntityLines
import FirstTree.Server.TaskReplyPublisher
import FirstTree.Server.EffectiveResources
import FirstTree.Server.ScmDelivery
import FirstTree.Server.ListCursor
import FirstTree.Server.Listings
import FirstTree.Server.MeChats
import FirstTree.Server.ChatProjection
import FirstTree.Server.Attachments
import FirstTree.Server.CronSchedule
import FirstTree.Server.ScheduledJobs
import FirstTree.Server.AudienceCache
import FirstTree.Server.ChatMembership
import FirstTree.Server.ChatAdmission
import FirstTree.Server.ChatArchive
import FirstTree.Lemmas.CronSchedule
import FirstTree.Lemmas.ScheduledJobScripts
import FirstTree.Lemmas.ScheduledJobs
import FirstTree.Lemmas.Attachments
import FirstTree.Lemmas.AttachmentScripts
import FirstTree.Lemmas.InFlight
import FirstTree.Lemmas.Inbox
import FirstTree.Lemmas.AckThrough
import FirstTree.Lemmas.Coordinator
import FirstTree.Lemmas.Sessions
import FirstTree.Server.SkillBundle
import FirstTree.Client.SkillZip
import FirstTree.Client.TeamSkillCommand
import FirstTree.Client.ProviderRetryPolicy
import FirstTree.Client.SkillDigest
import FirstTree.Lemmas.ManagedState
import FirstTree.Lemmas.ManagedSkills
import FirstTree.Lemmas.SkillInstall
import FirstTree.Lemmas.SkillRemoval
import FirstTree.Lemmas.ScmAudience
import FirstTree.Lemmas.SkillDigest
import FirstTree.Lemmas.DocPath
import FirstTree.Lemmas.DocLinkScan
import FirstTree.Lemmas.ClientSwitch
import FirstTree.Lemmas.ClientSwitchPrograms
import FirstTree.Lemmas.ClientLogins
import FirstTree.Lemmas.CodeSpans
import FirstTree.Lemmas.DocAnchor
import FirstTree.Lemmas.ListCursor
import FirstTree.Theorems.ResetFencing
import FirstTree.Theorems.ReplayFence
import FirstTree.Theorems.SessionRegistry
import FirstTree.Theorems.FlowControl
import FirstTree.Theorems.AckSafety
import FirstTree.Theorems.ConfirmedAck
import FirstTree.Theorems.FenceSettlement
import FirstTree.Theorems.Mentions
import FirstTree.Theorems.ShellCommand
import FirstTree.Lemmas.MessagePreflight
import FirstTree.Theorems.ReservedMetadata
import FirstTree.Theorems.ContextSourceLink
import FirstTree.Theorems.SilentContext
import FirstTree.Theorems.SessionCounters
import FirstTree.Theorems.TerminateTraces
import FirstTree.Theorems.QuestionCounter
import FirstTree.Theorems.ConnectionBindings
import FirstTree.Theorems.RuntimeSessions
import FirstTree.Theorems.RuntimeSwitch
import FirstTree.Theorems.AgentConfig
import FirstTree.Theorems.EntityLines
import FirstTree.Theorems.SkillRecovery
import FirstTree.Theorems.SkillZip
import FirstTree.Theorems.TeamSkillCommand
import FirstTree.Theorems.ProviderRetryPolicy
import FirstTree.Theorems.TaskReplyPublisher
import FirstTree.Theorems.EffectiveResources
import FirstTree.Theorems.ScheduledJobs
import FirstTree.Theorems.ClientSwitch
import FirstTree.Theorems.ScmDelivery
import FirstTree.Theorems.SkillDigest
import FirstTree.Theorems.DocPath
import FirstTree.Theorems.DocLinkScan
import FirstTree.Theorems.DocAnchor
import FirstTree.Theorems.Listings
import FirstTree.Theorems.MeChats
import FirstTree.Theorems.MentionSegments
import FirstTree.Theorems.ChatProjection
import FirstTree.Theorems.AudienceCache
import FirstTree.Theorems.ChatAdmission
import FirstTree.Theorems.ChatArchive
import FirstTree.Theorems.Attachments
import FirstTree.Theorems.RepositoryIdentity
import FirstTree.Theorems.ShellWords
import FirstTree.Theorems.CronSchedule
