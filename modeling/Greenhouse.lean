import Greenhouse.TemporalRuns
import Greenhouse.KeyedTable
import Greenhouse.EventLog
import Greenhouse.OrderedPage
import Greenhouse.CloudDatabase
import Greenhouse.CloudHandlers
import Greenhouse.CloudService
import Greenhouse.CloudHistory
import Greenhouse.CloudCommandLifecycle
import Greenhouse.CloudCalls
import Greenhouse.CloudCommandDelivery
import Greenhouse.SharedQueue
import Greenhouse.CloudCommandOrder
import Greenhouse.CloudTelemetryUpload
import Greenhouse.CloudTelemetryConvergence
import Greenhouse.CloudGatewayIsolation
import Greenhouse.CrashScript
import Greenhouse.SpacedWords
import Greenhouse.BootNumbers
import Greenhouse.BootEnvironment
import Greenhouse.BootScript
import Greenhouse.BootDevice
import Greenhouse.BootRollback
import Greenhouse.BootInstall
import Greenhouse.BootMarkGood
import Greenhouse.BootRenewal
import Greenhouse.BootRecovery
import Greenhouse.BootHealthy
import Greenhouse.BootSelection
import Greenhouse.BootCounting
import Greenhouse.BootReachable
import Greenhouse.BootSchedule
import Greenhouse.CloudResultFinality
import Greenhouse.CloudReportAcceptance
import Greenhouse.CloudReportRetry
import Greenhouse.PagedQueue
import Greenhouse.CloudCommandDrain
import Greenhouse.CloudTelemetryRange
import Greenhouse.ShellText
import Greenhouse.SedScript
import Greenhouse.TemplateRendering
import Greenhouse.HawkbitIdentity
import Greenhouse.PlaceholderSubstitution
import Greenhouse.AwkText
import Greenhouse.WpaSupplicant
import Greenhouse.WifiSetup
import Greenhouse.WifiFallbacks
import Greenhouse.WifiLookup
import Greenhouse.IniText
import Greenhouse.IniEditing
import Greenhouse.IdentityPatch
import Greenhouse.LineEditing
import Greenhouse.IdentityBoots
import Greenhouse.IdentityShipped
import Greenhouse.WifiCredentials
import Greenhouse.WifiRepeats
import Greenhouse.WifiRejections
import Greenhouse.ConditionalConfig
import Greenhouse.ImageSsh
import Greenhouse.ImageShadow
import Greenhouse.IdentityPowerLoss
