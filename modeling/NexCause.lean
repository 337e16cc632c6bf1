import NexCause.Transition
import NexCause.RcaRun
import NexCause.RowLock
import NexCause.RcaOwnership
import NexCause.RcaLedger
import NexCause.RcaDuplicates
import NexCause.RcaOrphans
import NexCause.RcaRunRecord
import NexCause.RunEventLog
import NexCause.AccessControl
import NexCause.TenantSchema
import NexCause.RcaContext
import NexCause.TenantPool
import NexCause.Relational
import NexCause.References
import NexCause.JavaScript
import NexCause.Cluster
import NexCause.Program
import NexCause.Interleaving
import NexCause.Platform
import NexCause.KubernetesService
import NexCause.BuildJobs
import NexCause.LabelSelectors
import NexCause.NamespaceObjects
import NexCause.EventAttribution
import NexCause.StableSort
import NexCause.RegexRules
import NexCause.RedactionPatterns
import NexCause.RedactionScan
import NexCause.RedactionAgreement
import NexCause.CollectorAgreement
import NexCause.NetworkPolicies
import NexCause.TenantPolicies
import NexCause.DeploymentsService
import NexCause.DeploymentPrograms
import NexCause.Float64
import NexCause.Regex
import NexCause.Redaction
import NexCause.Json
import NexCause.SecretRecords
import NexCause.Go
import NexCause.Evidence
import NexCause.Decoding
import NexCause.Adapters
import NexCause.Preprocess
import NexCause.EvidenceServer
import NexCause.Backends
import NexCause.LogLines
import NexCause.Truncation
import NexCause.ServiceTokens
import NexCause.ScopeConfinement
import NexCause.DeploymentHistory
import NexCause.DeleteRetry
import NexCause.RestoredSize
import NexCause.Lifecycle
import NexCause.ScaleAgreement
import NexCause.CreateDelete
import NexCause.DeletedTerminal
import NexCause.EvidenceWindow
import NexCause.MetricAnswers
import NexCause.Coupling
import NexCause.ManagerEvidence
import NexCause.SecretFlow
import NexCause.SecretSessions
import NexCause.Traces
import NexCause.ReadCommitted
import NexCause.LoginAttempts
import NexCause.RcaThreads
import NexCause.Promises
import NexCause.Gates
import NexCause.Sweeps
import NexCause.HealthCollection
import NexCause.IncidentsService
import NexCause.CollectionIsolation
import NexCause.DetectionIsolation
import NexCause.ResourceNames
import NexCause.DeployedObjects
import NexCause.IncidentTables
import NexCause.IncidentTasks
import NexCause.IncidentScope
import NexCause.IncidentRaces
import NexCause.ResolvedIncidents
import NexCause.AutomaticRuns
import NexCause.SessionService
import NexCause.SessionLifetime
import NexCause.WorkspaceService
import NexCause.OrganizationMapping
import NexCause.AuthGuards
import NexCause.RequestAdmission
import NexCause.AuthService
import NexCause.SessionLineage
import NexCause.RcaGraph
import NexCause.TokenLifetime
import NexCause.Stretches
import NexCause.EventBus
import NexCause.EventDelivery
import NexCause.UrlOrigins
import NexCause.LoginRedirect
import NexCause.SharedPromise
import NexCause.OidcService
import NexCause.OidcDiscovery
import NexCause.SwitchedIdentity
import NexCause.Expansion
import NexCause.LogoutSessions
import NexCause.SessionAtomicity
import NexCause.Base64
import NexCause.Utf8
import NexCause.TokenEncryption
import NexCause.ShellTokens
import NexCause.ShellGrammar
import NexCause.PathResolution
import NexCause.BuildInputs
import NexCause.BuildContainment
import NexCause.RouteRollback
import NexCause.GeneratedNames
import NexCause.Grammars
import NexCause.PublicHostname
import NexCause.ImageNames
import NexCause.BuildStatuses
import NexCause.Tallies
import NexCause.RestartSignals
import NexCause.IncidentWindow
import NexCause.Float64Bounds
import NexCause.JavaScriptDates
import NexCause.EvidenceDates
import NexCause.Selections
import NexCause.LatestLogs
import NexCause.PodLogs
import NexCause.Holes
import NexCause.CredentialPlaces
import NexCause.CredentialRemoval
import NexCause.RcaReports
import NexCause.Ranks
import NexCause.MetricRanks
import NexCause.ExchangeSort
import NexCause.WordRuns
import NexCause.LogPatterns
import NexCause.LogStamps
import NexCause.StampedLogs
import NexCause.JsonText
import NexCause.EventStream
import NexCause.RunEvents
import NexCause.ChatTranscripts
import NexCause.RelyGuarantee
import NexCause.PlatformAccounts
import NexCause.RecordedObjects
import NexCause.GatewayRoutes
import NexCause.Simulation
import NexCause.EvidenceWire
import NexCause.Investigations
import NexCause.HiddenValues
import NexCause.RunQueue
import NexCause.RunTurns
