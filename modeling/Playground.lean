import Playground.InteractionPrograms
import Playground.RustText
import Playground.HashMaps
import Playground.PlaygroundManifest
import Playground.PlaygroundSessions
import Playground.PlaygroundSessionManager
import Playground.PlaygroundApiClient
import Playground.PlaygroundNames
import Playground.PlaygroundManagerRuns
import Playground.PlaygroundOperations
import Playground.PlaygroundCleanup
import Playground.PlaygroundOrphanSweep
import Playground.PlaygroundTemplates
import Playground.PlaygroundHandlers
import Playground.PlaygroundActions
import Playground.PlaygroundServer
import Playground.PlaygroundResources
import Playground.PlaygroundSnapshotFile
import Playground.PlaygroundOneLiveSession
import Playground.PlaygroundRestartClock
import Playground.PlaygroundOverlappingHandlers
import Playground.PlaygroundBootSweep
import Playground.PlaygroundLiveActions
import Playground.UrlEndpoints
import Playground.PlaygroundTokenScope
import Playground.PlaygroundQuota
import Playground.CallHistories
import Playground.PlaygroundHistories
import Playground.PlaygroundHandOff
import Playground.PlaygroundUserViews
import Playground.PlaygroundLifetime
import Playground.PlaygroundDispatcher
import Playground.PlaygroundSafeNames
import Playground.RedisGlob
import Playground.ShellWords
import Playground.PlaygroundTeardownFrame
import Playground.PlaygroundOneIdentity
import Playground.PlaygroundCrashRecovery
import Playground.QuotedScripts
import Playground.PlaygroundStatements
import Playground.PlaygroundClickhouse
import Playground.PlaygroundRequestGate
import Playground.PlaygroundManifestValidation
import Playground.PlaygroundWhitelist
import Playground.PlaygroundShellFallback
import Playground.PlaygroundRedis
import Playground.PlaygroundClassify
import Playground.PlaygroundComments
import Playground.PlaygroundInterference
import Playground.PlaygroundCreationView
import Playground.PlaygroundReset
import Playground.PlaygroundSessionLog
import Playground.PlaygroundBestEffort
import Playground.PlaygroundOwnNames
import Playground.PlaygroundCompleteTeardown
import Playground.PlaygroundRateLimit
import Playground.PlaygroundArtifactNames
import Playground.PlaygroundErrorLabels
import Playground.PlaygroundSourceScope
import Playground.PlaygroundKafkaBatches
import Playground.PlaygroundRepeat
import Playground.PlaygroundStartAccounting
import Playground.PlaygroundSourcePreparation
import Playground.PathWalks
import Playground.PlaygroundExamplePaths
import Playground.PercentCoding
import Playground.PlaygroundConnectionUrl
import Playground.PlaygroundClickhouseDdl
import Playground.PlaygroundNameExtraction
import Playground.BracedKeys
import Playground.PlaygroundPlaceholders
import Playground.PlaygroundShellQuoting
import Playground.PlaygroundUploads
import Playground.KeyspaceScans
import Playground.PlaygroundNamespaceTeardown
import Playground.PlaygroundMysqlCalls
import Playground.ProofOutlines
import Playground.PlaygroundSidecarErrors
import Playground.PlaygroundPostgresCalls
import Playground.DecimalText
import Playground.UrlQueries
import Playground.PlaygroundClickhouseCalls
import Playground.RecordFields
import Playground.PlaygroundSessionCodec
import Playground.FileReplacement
import Playground.PlaygroundSessionFile
import Playground.PlaygroundForeignRequests
import Playground.Base64
import Playground.ShellPipelines
import Playground.PlaygroundEventLog
import Playground.PlaygroundShellScripts
import Playground.PlaygroundConcurrentTeardowns
import Playground.PlaygroundManifestCodec
import Playground.PlaygroundManifestView
import Playground.OnceCells
import Playground.PlaygroundPools
