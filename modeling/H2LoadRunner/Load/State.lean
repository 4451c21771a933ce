/-
# Load.State -- what a load-generating worker and its clients hold

One worker drives many clients.  A client created by the worker is a controller;
it may open sub-clients, one for each destination its requests name, and those
point back to it (`parentClient`).  Each client owns at most one HTTP/1 or HTTP/2
session at a time, the streams open on it, the requests it has still to submit, the
ones it postpones and the ones whose answer it awaits, and the counters from which
the final report is made.

Fields follow `base_client`, `base_worker`, `Http1Session`, `Http2Session`,
`Request_Data` and `Stream`.  Strings that a request is assembled from (cookies,
variables, Lua rewrites) enter as the assembled `Content`.

Some fields of `Stream` are ghosts: no modelled function reads them.  They record, for
the statements about runs, what was submitted for a stream, when it was started, its own
deadline and how often it was counted as timed out.
-/
import H2LoadRunner.Library.FiniteMap

namespace H2LoadRunner.Load

open Library

set_option autoImplicit false

/-! ## Configuration -/

/-- `URI_ACTION`, with the values that no branch distinguishes in one. -/
inductive UriAction where
  | inputUri
  | sameWithLastOne
  | fromResponseHeader
  | inputWithVariable
  | other
  deriving DecidableEq

/-- A request of a scenario, as far as the control flow depends on it. -/
structure RequestTemplate where
  uriAction : UriAction := .inputUri
  /-- `luaScript.size()` is not zero. -/
  luaScript : Bool := false
  makeRequestFunctionPresent : Bool := false
  validateResponseFunctionPresent : Bool := false
  /-- `response_match_rules.size()` is not zero. -/
  responseMatchRules : Bool := false
  expectedStatusCode : Nat := 0
  delayBeforeExecutingNext : Nat := 0

/-- A scenario has at least one request. -/
structure Scenario where
  runRequestsInParallel : Bool := false
  requests : List RequestTemplate
  nonempty : requests ≠ [] := by decide

structure Config where
  scenarios : List Scenario := []
  /-- A duration was given: the run ends by time and not by the number of requests. -/
  timingBasedMode : Bool := false
  rateMode : Bool := false
  rps : Rat := 0
  nclients : Nat := 1
  maxConcurrentStreams : Nat := 1
  /-- Time stamps of a timing script, in units of its resolution. -/
  timingScript : Option (List Nat) := none
  openNewConnectionBasedOnAuthorityHeader : Bool := false
  connectionRetryOnDisconnect : Bool := false
  streamTimeoutInMs : Nat := 0
  /-- No host was given (requests come from a script only). -/
  nullDestination : Bool := false
  /-- Number of prepared requests outside scenarios. -/
  preparedRequests : Nat := 1
  /-- Length of the request body outside scenarios. -/
  dataLength : Nat := 0
  scheme : String := "http"
  /-- Host and port the command line names. -/
  hostAuthority : String := ""
  loadShareHosts : List String := []
  /-- Assertions are compiled out. -/
  ndebug : Bool := false

def Config.rpsMode (cfg : Config) : Bool := decide (0 < cfg.rps)

def Config.scenario? (cfg : Config) (index : Nat) : Option Scenario := cfg.scenarios[index]?

/-! ## Requests and streams -/

/-- The texts of a request. -/
structure Content where
  schema : String := ""
  authority : String := ""
  path : String := "/"
  method : String := "GET"
  reqPayload : List UInt8 := []
  reqHeadersFromConfig : List (String × String) := []
  reqHeadersOfIndividual : List (String × String) := []
  deriving DecidableEq

/-- `Request_Data`.  `scenarioDataPerUser` is the identity of the shared scenario
data: the instance of a scenario the request belongs to. -/
structure RequestData where
  content : Content
  reqPayloadCursor : Nat := 0
  statusCode : Nat := 0
  expectedStatusCode : Nat := 0
  delayBeforeExecutingNext : Nat := 0
  currRequestIdx : Nat := 0
  scenarioIndex : Nat := 0
  streamTimeoutInMs : Nat := 0
  scenarioDataPerUser : Option Nat := none
  deriving DecidableEq

/-- `RequestStat`, as far as the control flow reads it.  `dataOffset` is not
initialised by the constructor. -/
structure RequestStat where
  scenarioIndex : Nat
  requestIndex : Nat
  status : Nat := 0x1FFF
  dataOffset : Int

/-- `Stream`, and what the statements need to know about it. -/
structure Stream where
  reqStat : RequestStat
  statusSuccess : Int := -1
  statisticsEligible : Bool
  /-- Ghost: the request that was submitted for this stream. -/
  submitted : Option RequestData
  /-- Ghost: payload bytes taken off the stored request for this stream. -/
  cut : Nat := 0
  /-- Ghost: payload bytes read through the cursor for this stream. -/
  cursor : Nat := 0
  /-- Ghost: when the stream was started, in ticks of the worker. -/
  serial : Nat
  /-- Ghost: start time plus timeout. -/
  deadline : Nat
  /-- Ghost: how often this stream was counted as timed out. -/
  timedout : Nat := 0

/-- What `stream_timestamp` holds under a deadline: the stream identifier and, as a
ghost, the stream it was made for. -/
structure Expiry where
  id : Nat
  serial : Nat

structure Stats where
  reqTodo : Nat := 0
  reqStarted : Nat := 0
  reqDone : Nat := 0
  reqSuccess : Nat := 0
  reqStatusSuccess : Nat := 0
  reqFailed : Nat := 0
  reqError : Nat := 0
  reqTimedout : Nat := 0
  /-- Responses by status class. -/
  status : List Nat := List.replicate 6 0

/-! ## Sessions -/

/-- `Http1Session`: odd counters of the next request and the next response. -/
structure Http1Session where
  streamReqCounter : Nat := 1
  streamRespCounter : Nat := 1
  complete : Bool := false

/-- `Http2Session`: `nextStreamId` is the identifier nghttp2 assigns next. -/
structure Http2Session where
  nextStreamId : Nat := 1
  currStreamId : Nat := 0

inductive Session where
  | http1 (session : Http1Session)
  | http2 (session : Http2Session)

inductive Protocol where
  | http1
  | http2
  deriving DecidableEq

def Protocol.newSession : Protocol → Session
  | .http1 => .http1 {}
  | .http2 => .http2 {}

def Session.maxConcurrentStreams (cfg : Config) : Session → Nat
  | .http1 _ => 1
  | .http2 _ => cfg.maxConcurrentStreams

/-! ## Clients and the worker -/

/-- Addresses of client objects. -/
abbrev ClientId := Nat

inductive ClientState where
  | idle
  | connecting
  | connected
  deriving DecidableEq

/-- What runs once everything written has been sent. -/
inductive WriteClearCallback where
  | restart
  | shutdown
  deriving DecidableEq

/-- The fields of a client that concern its connection and its pace. -/
structure Link where
  schema : String := ""
  authority : String := ""
  preferredAuthority : String := ""
  candidateAddresses : List String := []
  usedAddresses : List String := []
  newConnectionRequested : Bool := false
  final : Bool := false
  rpsReqPending : Nat := 0
  rpsReqInflight : Nat := 0
  reqidx : Nat := 0
  isClientStopped : Bool := false
  writeClearCallback : Option WriteClearCallback := none
  /-- `free_client` is posted. -/
  freePosted : Bool := false
  /-- The timer of `reconnect_to_used_host` is armed. -/
  reconnectTimer : Bool := false

structure Client where
  parentClient : Option ClientId := none
  state : ClientState := .idle
  session : Option Session := none
  streams : FiniteMap Nat Stream := ∅
  /-- Deadlines in increasing order. -/
  streamTimestamp : List (Nat × Expiry) := []
  requestsToSubmit : List RequestData := []
  /-- Resume times in increasing order. -/
  delayedRequestsToSubmit : List (Nat × RequestData) := []
  requestsAwaitingResponse : FiniteMap Nat RequestData := ∅
  destClients : FiniteMap String ClientId := ∅
  reqTodo : Nat := 0
  reqLeft : Nat := 0
  reqInflight : Nat := 0
  reqStarted : Nat := 0
  reqDone : Nat := 0
  link : Link := {}
  /-- The object was destroyed. -/
  freed : Bool := false

inductive Phase where
  | initialIdle
  | warmUp
  | mainDuration
  | mainDurationGracefulShutdown
  | durationOver
  deriving DecidableEq

/-- `current_phase > Phase::MAIN_DURATION`. -/
def Phase.afterMain : Phase → Bool
  | .mainDurationGracefulShutdown | .durationOver => true
  | _ => false

/-- A request started in this phase is counted. -/
def Phase.statsEligible : Phase → Bool
  | .mainDuration | .mainDurationGracefulShutdown => true
  | _ => false

/-- A worker with all its clients, live and destroyed.  `ticks` counts what happened
so far; the answers of the environment are indexed by it. -/
structure World where
  config : Config
  ticks : Nat := 0
  currentPhase : Phase
  stats : Stats
  scenarioStats : List (List Stats)
  clients : ClientId → Client
  clientCount : Nat := 0
  /-- `worker->clients`: filled in timing-based mode only. -/
  workerClients : List ClientId := []
  nreqsPerClient : Nat
  nreqsRem : Nat
  nclients : Nat
  nconnsMade : Nat := 0
  /-- Source of identities for `scenario_data_per_user`. -/
  nextInstance : Nat := 0

end H2LoadRunner.Load
