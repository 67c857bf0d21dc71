import TictactoeBots.Lib.StepSystem
import TictactoeBots.Lib.Text
import TictactoeBots.Lib.TextLines
import TictactoeBots.Lib.LineBoundaries
import TictactoeBots.Lib.LastLeast
import TictactoeBots.Lib.SplitPositions
import TictactoeBots.Lib.Occurrences
import TictactoeBots.Lib.Spans
import TictactoeBots.Lib.EscapedSplit
import TictactoeBots.Lib.CookieQuote
import TictactoeBots.Lib.Json
import TictactoeBots.Lib.JsonParse
import TictactoeBots.Lib.JsonRoundTrip
import TictactoeBots.Lib.JsonText
import TictactoeBots.Lib.Html
import TictactoeBots.Lib.HtmlAttribute
import TictactoeBots.Lib.Utf8
import TictactoeBots.Lib.Quote
import TictactoeBots.Lib.Utf8Encode
import TictactoeBots.Lib.UrlPath
import TictactoeBots.Lib.Python
import TictactoeBots.Lib.Sql
import TictactoeBots.Lib.Runs
import TictactoeBots.Lib.PositionalGame
import TictactoeBots.Lib.GameValue
import TictactoeBots.Lib.FirstBest
import TictactoeBots.Lib.Polling
import TictactoeBots.Lib.JsonLoads
import TictactoeBots.Lib.StringDicts
import TictactoeBots.Runner.Engine
import TictactoeBots.Runner.BoardText
import TictactoeBots.Runner.BoardGrammar
import TictactoeBots.Runner.TurnServer
import TictactoeBots.Dispatcher.Pods
import TictactoeBots.Dispatcher.MatchRunner
import TictactoeBots.Dispatcher.GameRuns
import TictactoeBots.Dispatcher.Transcript
import TictactoeBots.Dispatcher.ReachedPositions
import TictactoeBots.Entities.Tables
import TictactoeBots.Entities.BotRepository
import TictactoeBots.Entities.Recording
import TictactoeBots.Entities.Transactions
import TictactoeBots.Entities.MoveRepository
import TictactoeBots.Entities.ReadBack
import TictactoeBots.Entities.VersionStats
import TictactoeBots.Entities.LifetimeStats
import TictactoeBots.Entities.Leaderboard
import TictactoeBots.Entities.MatchRepository
import TictactoeBots.Dispatcher.ForfeitRule
import TictactoeBots.Dispatcher.StorableOutcomes
import TictactoeBots.Dispatcher.TurnFailures
import TictactoeBots.Messaging.RabbitMQ
import TictactoeBots.Messaging.RpcClient
import TictactoeBots.Messaging.PendingCalls
import TictactoeBots.Messaging.RpcServer
import TictactoeBots.Messaging.Health
import TictactoeBots.MatchScheduler.Scheduling
import TictactoeBots.MatchScheduler.Pairings
import TictactoeBots.MatchScheduler.PublishFailures
import TictactoeBots.Dispatcher.OndeckHandler
import TictactoeBots.Web.Utils
import TictactoeBots.Web.DeclaredRuntime
import TictactoeBots.Web.Submit
import TictactoeBots.Web.SubmitFailures
import TictactoeBots.Web.MalformedCookie
import TictactoeBots.Web.ConcurrentSubmit
import TictactoeBots.Web.NameOwnership
import TictactoeBots.Web.VersionNames
import TictactoeBots.Web.LeaderboardPage
import TictactoeBots.Web.FamilyPage
import TictactoeBots.Web.OwnershipCookie
import TictactoeBots.Web.Browser
import TictactoeBots.Web.CookieOwnership
import TictactoeBots.Web.MatchPage
import TictactoeBots.Web.PlayState
import TictactoeBots.Web.PlayPage
import TictactoeBots.Web.StatusBanner
import TictactoeBots.Web.BoardCells
import TictactoeBots.Web.PlayPageView
import TictactoeBots.Web.Dashboard
import TictactoeBots.Web.MatchPlayer
import TictactoeBots.Web.MatchPlayerPage
import TictactoeBots.Web.BotClient
import TictactoeBots.Web.SameJudgement
import TictactoeBots.Web.PlayTurn
import TictactoeBots.Web.DisplayName
import TictactoeBots.Web.BotLinks
import TictactoeBots.Dispatcher.PodBuilder
import TictactoeBots.Dispatcher.PodReadiness
import TictactoeBots.Scripts.ExportBots
import TictactoeBots.Scripts.LeaderboardTable
import TictactoeBots.Scripts.JsCoverage
import TictactoeBots.Scripts.CoverageMerge
import TictactoeBots.Scripts.MissingLines
import TictactoeBots.Scripts.SeedExampleBots
import TictactoeBots.Web.RuntimeResolution
import TictactoeBots.System.Platform
import TictactoeBots.System.PipelineSafety
import TictactoeBots.System.RoundRobin
import TictactoeBots.Runner.TurnHandler
import TictactoeBots.ExampleBots.Programs
import TictactoeBots.ExampleBots.Matches
import TictactoeBots.ExampleBots.Legality
import TictactoeBots.ExampleBots.PerfectBot
import TictactoeBots.ExampleBots.Unbeaten
import TictactoeBots.ExampleBots.Completions
import TictactoeBots.ExampleBots.CheatingBots
import TictactoeBots.ExampleBots.Visitor
