import H2LoadRunner.Lua.Callbacks
import H2LoadRunner.Lua.ClientPool
import H2LoadRunner.Lua.GlobalStore
import H2LoadRunner.Lua.GroupWorkers
import H2LoadRunner.Lua.RequestSent
import H2LoadRunner.Lua.Resolver
import H2LoadRunner.Lua.TestGroups
import H2LoadRunner.MockServer.ConfiguredResponses
import H2LoadRunner.MockServer.ContentLength
import H2LoadRunner.MockServer.Http1Order
import H2LoadRunner.MockServer.HttpxServer
import H2LoadRunner.MockServer.JsonPointers
import H2LoadRunner.MockServer.ServerStatistics
import H2LoadRunner.MockServer.Services
import H2LoadRunner.Load.AwaitingEntries
import H2LoadRunner.Load.ControllerSession
import H2LoadRunner.Load.CookieHeader
import H2LoadRunner.Load.CookieJar
import H2LoadRunner.Load.DelayedRequests
import H2LoadRunner.Load.Distribution
import H2LoadRunner.Load.Failover
import H2LoadRunner.Load.Http1Upload
import H2LoadRunner.Load.Inflight
import H2LoadRunner.Load.Lifetime
import H2LoadRunner.Load.OpenRequests
import H2LoadRunner.Load.OutputBuffer
import H2LoadRunner.Load.ParallelRequests
import H2LoadRunner.Load.PayloadLength
import H2LoadRunner.Load.ReconnectBudget
import H2LoadRunner.Load.Report
import H2LoadRunner.Load.RequestPayload
import H2LoadRunner.Load.RpsPacing
import H2LoadRunner.Load.RpsTimer
import H2LoadRunner.Load.Sampling
import H2LoadRunner.Load.ScenarioWeights
import H2LoadRunner.Load.StringCollection
import H2LoadRunner.Load.TimeStatistics
import H2LoadRunner.Load.Timeouts
import H2LoadRunner.Load.TimingScriptTimer
import H2LoadRunner.Load.ValuePickers
import H2LoadRunner.Load.VariableFiles
import H2LoadRunner.Load.VariableRanges
import H2LoadRunner.Load.Warmup
