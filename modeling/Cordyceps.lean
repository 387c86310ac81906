import Cordyceps.Foundations.StepMachine
import Cordyceps.Foundations.JsString
import Cordyceps.Foundations.Json
import Cordyceps.Core.ServiceBus
import Cordyceps.Core.Subscriptions
import Cordyceps.Agents.Types
import Cordyceps.Drivers.Api
import Cordyceps.Drivers.CodexParser
import Cordyceps.Drivers.GeminiParser
import Cordyceps.Drivers.OllamaParser
import Cordyceps.Agents.Runtime
import Cordyceps.Foundations.LineFraming
import Cordyceps.Agents.ExecController
import Cordyceps.Agents.OneChild
import Cordyceps.Agents.ServerHttpController
import Cordyceps.Agents.OneRequest
import Cordyceps.Agents.IdleEvents
import Cordyceps.Agents.IdleReady
import Cordyceps.Agents.PtyController
import Cordyceps.Agents.ServerWsController
import Cordyceps.Agents.ExitedFinal
import Cordyceps.Core.Names
import Cordyceps.Drivers.Registry
import Cordyceps.Agents.Manager
import Cordyceps.Agents.SpawnIds
import Cordyceps.Agents.SpawnAtomicity
import Cordyceps.Drivers.Replies
import Cordyceps.Agents.NoCarryOver
import Cordyceps.Agents.OwnOutput
import Cordyceps.Foundations.Regex
import Cordyceps.Core.Ansi
import Cordyceps.Drivers.ClaudeParser
import Cordyceps.Foundations.SharedMemory
import Cordyceps.Drivers.ClaudeMessages
import Cordyceps.Drivers.ParserIsolation
import Cordyceps.Foundations.TopologicalSort
import Cordyceps.Plugins.Loader
import Cordyceps.Plugins.LoadOrder
import Cordyceps.Drivers.Echo
import Cordyceps.Agents.SharedParser
import Cordyceps.Agents.CoreSteps
import Cordyceps.Agents.MessageMirror
import Cordyceps.Foundations.Promise
import Cordyceps.Agents.MessagePromise
import Cordyceps.Agents.Fleet
import Cordyceps.Agents.BusKeys
import Cordyceps.Agents.FleetWiring
import Cordyceps.Agents.BusCoherence
import Cordyceps.Agents.SubmitFate
import Cordyceps.Plugins.FireAndForget
import Cordyceps.Transport.ClientSession
import Cordyceps.Transport.Server
import Cordyceps.Transport.Forwarding
import Cordyceps.Transport.Rpc
import Cordyceps.Cli.Client
import Cordyceps.Cli.McpStdio
import Cordyceps.Cli.McpAnswers
import Cordyceps.Cli.Calls
import Cordyceps.Transport.Connections
import Cordyceps.Transport.Correlation
import Cordyceps.Foundations.Interleaving
import Cordyceps.Drivers.ClaudeControl
import Cordyceps.Agents.ClaudeTerminal
import Cordyceps.Agents.PromptAtomicity
import Cordyceps.Agents.AnswerOnce
import Cordyceps.Agents.ReplyAttribution
import Cordyceps.Foundations.LeastOrder
import Cordyceps.Plugins.LeastOrder
import Cordyceps.Core.LiveListeners
import Cordyceps.Plugins.Lifecycle
import Cordyceps.Plugins.AllOrNothing
import Cordyceps.Agents.LineFeeds
import Cordyceps.Foundations.LineGroups
import Cordyceps.Foundations.LinePacking
import Cordyceps.Council.Chunker
import Cordyceps.Council.Chunking
import Cordyceps.Foundations.RegexRun
import Cordyceps.Council.Findings
import Cordyceps.Council.LastLine
import Cordyceps.Foundations.Utf8
import Cordyceps.Transport.Auth
import Cordyceps.Transport.UpgradeGate
import Cordyceps.Agents.RegistryLabels
import Cordyceps.Council.Panel
import Cordyceps.Foundations.Decimal
import Cordyceps.Council.Review
import Cordyceps.Council.Names
import Cordyceps.Council.Coverage
import Cordyceps.Drivers.Sessions
import Cordyceps.Foundations.Trimming
import Cordyceps.Foundations.RegexReplace
import Cordyceps.Core.PlainText
import Cordyceps.Drivers.ClaudeLog
import Cordyceps.Drivers.ClaudeStatus
import Cordyceps.Drivers.ClaudeText
import Cordyceps.Drivers.ClaudeStatusLines
import Cordyceps.Drivers.ClaudeRedraws
import Cordyceps.Drivers.GeminiTranscript
import Cordyceps.Drivers.NonEvents
import Cordyceps.Foundations.LeftOut
import Cordyceps.Core.EscapeStripping
import Cordyceps.Core.EscapeSequences
import Cordyceps.Council.ChairPrompt
import Cordyceps.Foundations.Delimiters
import Cordyceps.Cli.Spawn
import Cordyceps.Council.ReviewerPrompt
import Cordyceps.Core.Semver
import Cordyceps.Drivers.Resolution
import Cordyceps.Core.Env
import Cordyceps.Core.EnvFile
import Cordyceps.Core.Reentrancy
import Cordyceps.Foundations.OrderedGroups
import Cordyceps.Foundations.JsonLines
import Cordyceps.Plugins.Audit
import Cordyceps.Cli.Deadlines
import Cordyceps.Drivers.Probes
import Cordyceps.Agents.CallerEnv
import Cordyceps.Foundations.Shelf
import Cordyceps.Core.Logger
import Cordyceps.Core.LogRetention
import Cordyceps.Core.LogBounds
import Cordyceps.Core.SharedLog
import Cordyceps.Foundations.JsonNumbers
import Cordyceps.Foundations.JsonRoundTrip
import Cordyceps.Daemon.Instances
import Cordyceps.Daemon.Discovery
import Cordyceps.Transport.Hearing
import Cordyceps.Cli.Engine
import Cordyceps.Core.WaitFor
import Cordyceps.Transport.Wire
import Cordyceps.Transport.Broadcasts
import Cordyceps.Cli.Handlers
import Cordyceps.Cli.Delivery
import Cordyceps.Foundations.PosixPath
import Cordyceps.Core.EnvLoad
