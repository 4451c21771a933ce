/-
# Load.Effects -- the assignments the worker and its clients make

Every change of state in `base_client`, `base_worker` and the two session classes is
one of the effects below: a block of assignments that the source makes together.
`Effect.act` is what an effect does to the world; `Load.Program` decides which
effects happen, in which order and under which tests.

Blocks that the source writes in one function but interrupts by a call that may come
back to it (a submission from inside a stream close, for instance) are separate
effects.  `closeStream` is `on_stream_close` up to that call.

Counters the source increments are natural numbers; where it decrements without a
test or adds a counter that may have wrapped, the arithmetic is explicitly modulo
`2 ^ 64`.
-/
import H2LoadRunner.Library.EffectLog
import H2LoadRunner.Load.State

namespace H2LoadRunner.Load

open Library

set_option autoImplicit false

/-! ## Machine arithmetic and time-ordered queues -/

def sizeMax : Nat := 2 ^ 64

def addWrap (a b : Nat) : Nat := (a + b) % sizeMax

def decWrap (a : Nat) : Nat := (a + (sizeMax - 1)) % sizeMax

/-- Insert into a multimap keyed by time: behind the entries with the same key. -/
def timedInsert {α : Type} (time : Nat) (value : α) : List (Nat × α) → List (Nat × α)
  | [] => [(time, value)]
  | entry :: rest =>
    if entry.1 ≤ time then entry :: timedInsert time value rest
    else (time, value) :: entry :: rest

/-- The entries before `upper_bound(now)`. -/
def due {α : Type} (now : Nat) (queue : List (Nat × α)) : List (Nat × α) :=
  queue.filter (·.1 ≤ now)

def notDue {α : Type} (now : Nat) (queue : List (Nat × α)) : List (Nat × α) :=
  queue.filter (now < ·.1)

/-! ## Building requests -/

/-- What the environment contributes to a request being built: the assembled texts,
whether its URI could be parsed, and what a Lua script made of it. -/
structure Assembly where
  assembled : Content := {}
  uriParsed : Bool := true
  luaAccepts : Bool := true
  rewritten : Content := {}

/-- The destination a map key of `dest_clients` names. -/
def destinationKey (schema authority : String) : String := schema ++ "://" ++ authority

def updateContentLength (content : Content) : Content :=
  if content.reqPayload.isEmpty then content
  else
    { content with reqHeadersOfIndividual :=
        ("content-length", toString content.reqPayload.length) ::
          content.reqHeadersOfIndividual.filter (·.1 ≠ "content-length") }

/-- `sanitize_request`: an empty schema or authority is the client's own. -/
def sanitizeRequest (link : Link) (content : Content) : Content :=
  { content with
    schema := if content.schema = "" then link.schema else content.schema
    authority := if content.authority = "" then link.authority else content.authority }

def buildRequest (link : Link) (template : RequestTemplate) (scenarioIndex requestIndex : Nat)
    (owner : Option Nat) (content : Content) : RequestData where
  content := sanitizeRequest link (updateContentLength content)
  expectedStatusCode := template.expectedStatusCode
  delayBeforeExecutingNext := template.delayBeforeExecutingNext
  currRequestIdx := requestIndex
  scenarioIndex := scenarioIndex
  scenarioDataPerUser := owner

/-- `prepare_first_request`, without the requests a parallel scenario adds. -/
def firstRequest (link : Link) (scenario : Scenario) (scenarioIndex owner : Nat)
    (assembly : Assembly) : RequestData :=
  let template := scenario.requests.headD {}
  let content := if template.makeRequestFunctionPresent then assembly.rewritten
    else assembly.assembled
  buildRequest link template scenarioIndex 0 (some owner) content

/-- The texts before a Lua script: `SAME_WITH_LAST_ONE` takes path, schema and
authority from the finished request. -/
def nextContent (template : RequestTemplate) (finished : RequestData) (assembly : Assembly) :
    Content :=
  match template.uriAction with
  | .sameWithLastOne =>
    { assembly.assembled with
      path := finished.content.path
      schema := finished.content.schema
      authority := finished.content.authority }
  | _ => assembly.assembled

/-- The URI of the next request was found and parsed, where its action needs that. -/
def uriUsable (template : RequestTemplate) (assembly : Assembly) : Bool :=
  match template.uriAction with
  | .fromResponseHeader | .inputWithVariable => assembly.uriParsed
  | _ => true

/-- The request `prepare_next_request` enqueues, or `none` where it returns false. -/
def nextRequest (cfg : Config) (link : Link) (finished : RequestData) (assembly : Assembly) :
    Option RequestData :=
  match cfg.scenario? finished.scenarioIndex with
  | none => none
  | some scenario =>
    let index := (finished.currRequestIdx + 1) % scenario.requests.length
    let template := scenario.requests.getD index {}
    if index = 0 then none
    else if !uriUsable template assembly then none
    else if template.luaScript && !assembly.luaAccepts then none
    else
      let content := if template.luaScript then assembly.rewritten
        else nextContent template finished assembly
      some (buildRequest link template finished.scenarioIndex index finished.scenarioDataPerUser
        content)

/-- Ghost: an eligible stream was counted as timed out once more. -/
def Stream.countedAgain (stream : Stream) : Stream :=
  if stream.statisticsEligible then { stream with timedout := stream.timedout + 1 } else stream

namespace Client

/-! ## Changes to one client -/

def isController (client : Client) : Bool := client.parentClient.isNone

/-- `enqueue_request` on the client that queues for this one. -/
def enqueueRequest (client : Client) (now delay : Nat) (request : RequestData) : Client :=
  if delay = 0 then { client with requestsToSubmit := client.requestsToSubmit ++ [request] }
  else
    { client with
      delayedRequestsToSubmit := timedInsert (now + delay) request client.delayedRequestsToSubmit }

def enqueueNext (client : Client) (now delay : Nat) : Option RequestData → Client
  | none => client
  | some request => client.enqueueRequest now delay request

def popFront (client : Client) : Client :=
  { client with requestsToSubmit := client.requestsToSubmit.tail }

def popBack (client : Client) : Client :=
  { client with requestsToSubmit := client.requestsToSubmit.dropLast }

def queueFirst (client : Client) (now : Nat) (first : RequestData)
    (more : List (Option RequestData)) : Client :=
  let queued := more.foldl
    (fun client next => client.enqueueNext now first.delayBeforeExecutingNext next) client
  { queued with requestsToSubmit := queued.requestsToSubmit ++ [first] }

def eligibleStreams (client : Client) : Nat :=
  FiniteMap.sum (fun _ stream => if stream.statisticsEligible then 1 else 0) client.streams

/-- `cleanup_due_to_disconnect`.  The requests awaiting a response, the stream
deadlines, the delayed requests and the counters stay. -/
def disconnect (client : Client) : Client :=
  { client with
    streams := ∅
    session := none
    state := .idle
    requestsToSubmit := []
    link := { client.link with isClientStopped := true, reconnectTimer := false } }

/-- The stream identifier the session gives the next request. -/
def nextStreamId (client : Client) : Nat :=
  match client.session with
  | some (.http1 session) => session.streamReqCounter
  | some (.http2 session) => session.nextStreamId
  | none => 0

/-- The session after it has taken a request; an HTTP/1 request without a body is
complete at once. -/
def acceptedSession (cfg : Config) (bodyless : Bool) : Session → Session
  | .http1 session =>
    .http1 (if bodyless then { session with streamReqCounter := session.streamReqCounter + 2 }
      else session)
  | .http2 session =>
    .http2 { nextStreamId := session.nextStreamId + 2,
             currStreamId := if cfg.scenarios.isEmpty then session.currStreamId
               else session.nextStreamId }

/-- The timeout of a stream: the request's own or the configured one. -/
def timeoutInterval (cfg : Config) (own : Nat) : Nat :=
  if own = 0 then cfg.streamTimeoutInMs else own

/-- `on_request_start`.  Where no request is stored under the identifier the source
reads past the end of the map: `stray` is what it finds there. -/
def onRequestStart (client : Client) (cfg : Config) (phase : Phase) (serial id now stray : Nat)
    (offset : Int) (submitted : Option RequestData) : Client :=
  let stored := client.requestsAwaitingResponse.lookup id
  let interval := timeoutInterval cfg ((stored.map RequestData.streamTimeoutInMs).getD stray)
  -- The ghost deadline counts the submitted request's own timeout.
  let own := (submitted.map fun request => timeoutInterval cfg request.streamTimeoutInMs).getD interval
  let stat : RequestStat :=
    { scenarioIndex := if cfg.scenarios.isEmpty then 0
        else (stored.map RequestData.scenarioIndex).getD 0
      requestIndex := if cfg.scenarios.isEmpty then 0
        else (stored.map RequestData.currRequestIdx).getD 0
      dataOffset := offset }
  let stream : Stream :=
    { reqStat := stat
      statisticsEligible := phase.statsEligible
      submitted := submitted
      serial := serial
      deadline := now + own }
  { client with
    streams := (client.streams.erase id).insert id stream
    streamTimestamp := timedInsert (now + interval) ⟨id, serial⟩ client.streamTimestamp }

/-- A session takes the request at the front of the queue (`_submit_request`), or
outside scenarios the next prepared one. -/
def startRequest (client : Client) (cfg : Config) (phase : Phase) (serial now stray : Nat)
    (offset : Int) : Client :=
  let id := client.nextStreamId
  if cfg.scenarios.isEmpty then
    let accepted : Client :=
      { client with
        session := client.session.map (acceptedSession cfg (cfg.dataLength == 0))
        link := { client.link with reqidx :=
          if client.link.reqidx + 1 = cfg.preparedRequests then 0 else client.link.reqidx + 1 } }
    accepted.onRequestStart cfg phase serial id now stray offset none
  else
    match client.requestsToSubmit with
    | [] => client
    | request :: rest =>
      let accepted : Client :=
        { client with
          session := client.session.map (acceptedSession cfg request.content.reqPayload.isEmpty)
          requestsToSubmit := rest
          requestsAwaitingResponse :=
            FiniteMap.emplace id request client.requestsAwaitingResponse }
      accepted.onRequestStart cfg phase serial id now stray offset (some request)

def onStatusCode (client : Client) (id status : Nat) : Client :=
  { client with
    requestsAwaitingResponse := FiniteMap.adjust id
      (fun request => { request with statusCode := status }) client.requestsAwaitingResponse
    streams := FiniteMap.adjust id
      (fun stream => { stream with reqStat := { stream.reqStat with status := status } })
      client.streams }

/-- `buffer_read_callback`: how far the cursor moves for a buffer of `length`. -/
def bytesRead (length : Nat) (request : RequestData) : Nat :=
  min length (request.content.reqPayload.length - request.reqPayloadCursor)

def readPayload (client : Client) (id length : Nat) : Client :=
  match client.requestsAwaitingResponse.lookup id with
  | none => client
  | some request =>
    let count := bytesRead length request
    { client with
      requestsAwaitingResponse := FiniteMap.adjust id
        (fun request => { request with reqPayloadCursor := request.reqPayloadCursor + count })
        client.requestsAwaitingResponse
      streams := FiniteMap.adjust id
        (fun stream => { stream with cursor := stream.cursor + count }) client.streams }

/-- Bytes one `on_write` of an HTTP/1 session sends at most. -/
def chunk : Nat := 16 * 1024

/-- Take sent bytes off the request stored under `id`. -/
def cutPayload (client : Client) (id count : Nat) : Client :=
  { client with
    requestsAwaitingResponse := FiniteMap.adjust id
      (fun request => { request with content :=
        { request.content with reqPayload := request.content.reqPayload.drop count } })
      client.requestsAwaitingResponse
    streams := FiniteMap.adjust id (fun stream => { stream with cut := stream.cut + count })
      client.streams }

def modifyHttp1 (client : Client) (change : Http1Session → Http1Session) : Client :=
  match client.session with
  | some (.http1 session) => { client with session := some (.http1 (change session)) }
  | _ => client

/-- Send the configured body from the stream's offset (`on_write` outside scenarios,
`file_read_callback`). -/
def advancedOffset (cfg : Config) (length : Nat) (stat : RequestStat) : RequestStat :=
  { stat with dataOffset := stat.dataOffset + min (length : Int) (cfg.dataLength - stat.dataOffset) }

def advanceOffset (client : Client) (cfg : Config) (id length : Nat) : Client :=
  { client with
    streams := FiniteMap.adjust id
      (fun stream => { stream with reqStat := advancedOffset cfg length stream.reqStat })
      client.streams }

/-- The request that follows the one stored under the identifier, if there is one and
its scenario does not run in parallel. -/
def followUp (client : Client) (cfg : Config) (id : Nat) (assembly : Assembly) :
    Option RequestData :=
  match client.requestsAwaitingResponse.lookup id with
  | none => none
  | some request =>
    if ((cfg.scenario? request.scenarioIndex).map Scenario.runRequestsInParallel).getD false
    then none
    else nextRequest cfg client.link request assembly

def followUpDelay (client : Client) (id : Nat) : Nat :=
  ((client.requestsAwaitingResponse.lookup id).map RequestData.delayBeforeExecutingNext).getD 0

def finish (client : Client) (id : Nat) : Client :=
  { client with
    requestsAwaitingResponse := client.requestsAwaitingResponse.erase id
    streams := client.streams.erase id }

def resumeDelayed (client : Client) (now : Nat) : Client :=
  { client with
    requestsToSubmit := client.requestsToSubmit ++
      (due now client.delayedRequestsToSubmit).map Prod.snd
    delayedRequestsToSubmit := notDue now client.delayedRequestsToSubmit }

/-- The deadlines that have passed are dropped; ghost: their streams are counted. -/
def expire (client : Client) (now : Nat) : Client :=
  { client with
    streams := (due now client.streamTimestamp).foldl
      (fun streams entry => FiniteMap.adjust entry.2.id Stream.countedAgain streams) client.streams
    streamTimestamp := notDue now client.streamTimestamp }

/-- `update_this_in_dest_client_map` on the map of `client`, for the client `this`. -/
def updateDestClientMap (client : Client) (this : ClientId) (schema authority : String) : Client :=
  let without := match client.destClients.entries.find? fun entry => entry.2 == this with
    | some entry => client.destClients.erase entry.1
    | none => client.destClients
  { client with destClients := without.insert (destinationKey schema authority) this }

end Client

namespace World

/-! ## Reading the world -/

/-- The client that queues and counts for `c`: its parent or itself. -/
def controllerOf (w : World) (c : ClientId) : ClientId := (w.clients c).parentClient.getD c

def isTestFinished (w : World) (c : ClientId) : Bool :=
  (w.clients c).reqLeft == 0 || w.currentPhase.afterMain

def shouldReconnectOnDisconnect (w : World) (cfg : Config) (c : ClientId) : Bool :=
  !w.isTestFinished c &&
    (((w.clients c).isController && decide (1 < FiniteMap.size (w.clients c).destClients)) ||
      cfg.connectionRetryOnDisconnect)

def getTotalPendingStreams (w : World) (c : ClientId) : Nat :=
  let controller := w.clients (w.controllerOf c)
  FiniteMap.size controller.streams +
    FiniteMap.sum (fun _ d => FiniteMap.size (w.clients d).streams) controller.destClients

/-! ## Changing the world -/

def modifyClient (w : World) (c : ClientId) (change : Client → Client) : World :=
  { w with clients := Function.update w.clients c (change (w.clients c)) }

def modifyStats (w : World) (change : Stats → Stats) : World :=
  { w with stats := change w.stats }

/-- Change the statistics of one request of a scenario; out of range nothing happens. -/
def modifyScenarioStats (w : World) (scenario request : Nat) (change : Stats → Stats) : World :=
  { w with scenarioStats := w.scenarioStats.modify scenario fun row => row.modify request change }

def hosts (cfg : Config) : List String :=
  if cfg.loadShareHosts.contains cfg.hostAuthority then cfg.loadShareHosts
  else cfg.loadShareHosts ++ [cfg.hostAuthority]

/-- The hosts after the preferred one of a controller, once around the list; shuffled they are its
`candidate_addresses`. -/
def otherHosts (cfg : Config) (this : ClientId) : List String :=
  if cfg.loadShareHosts.isEmpty then []
  else
    let size := (hosts cfg).length
    (List.range (size - 1)).map fun count => (hosts cfg).getD ((this % size + 1 + count) % size) ""

/-- The connection target of a new controller (`init_connection_targert`). -/
def controllerLink (cfg : Config) (this : ClientId) (candidates : List String) : Link :=
  let authority := if cfg.loadShareHosts.isEmpty then cfg.hostAuthority
    else (hosts cfg).getD (this % (hosts cfg).length) ""
  { schema := cfg.scheme
    authority := authority
    preferredAuthority := authority
    candidateAddresses := candidates }

/-- A request budget of zero means requests without end. -/
def initReqLeft (reqTodo : Nat) : Nat := if reqTodo = 0 then 1 else reqTodo

/-- The next controller.  Its map entry is made before the connection target is known. -/
def newController (w : World) (cfg : Config) (candidates : List String) : Client :=
  let reqTodo := if 0 < w.nreqsRem then w.nreqsPerClient + 1 else w.nreqsPerClient
  let client : Client := { reqTodo := reqTodo, reqLeft := initReqLeft reqTodo }
  { client.updateDestClientMap w.clientCount "" "" with
    link := controllerLink cfg w.clientCount candidates }

def createClient (w : World) (cfg : Config) (candidates : List String) : World :=
  { w with
    clients := Function.update w.clients w.clientCount (w.newController cfg candidates)
    clientCount := w.clientCount + 1
    nreqsRem := w.nreqsRem - 1
    nconnsMade := w.nconnsMade + 1 }

def newDestClient (w : World) (cfg : Config) (parent : ClientId) (schema authority : String) :
    Client :=
  let reqTodo := (w.clients parent).reqTodo
  let target := if authority = "" then cfg.hostAuthority else authority
  { parentClient := some parent
    reqTodo := reqTodo
    reqLeft := initReqLeft reqTodo
    link := { schema := if schema = "" then cfg.scheme else schema
              authority := target
              preferredAuthority := target } }

def createDestClient (w : World) (cfg : Config) (parent : ClientId) (schema authority : String) :
    World :=
  let listed := w.modifyClient parent fun client =>
    client.updateDestClientMap w.clientCount schema authority
  { listed with
    clients := Function.update listed.clients w.clientCount
      (w.newDestClient cfg parent schema authority)
    clientCount := w.clientCount + 1 }

/-- `requests_to_submit.push_back(prepare_first_request())`.  A parallel scenario
prepares its further requests first, each from the first one. -/
def pushFirstRequest (w : World) (cfg : Config) (c : ClientId) (scenarioIndex now : Nat)
    (assemble : Nat → Assembly) : World :=
  match cfg.scenario? scenarioIndex with
  | none => w
  | some scenario =>
    let link := (w.clients c).link
    let first := firstRequest link scenario scenarioIndex w.nextInstance (assemble 0)
    let more := if scenario.runRequestsInParallel then
        (List.range (scenario.requests.length - 1)).map fun j =>
          nextRequest cfg link first (assemble (j + 1))
      else []
    let pushed := w.modifyClient c fun client => client.queueFirst now first more
    { pushed with nextInstance := w.nextInstance + 1 }

/-- The front request of the controller goes to the destination's queue. -/
def moveToDest (w : World) (c d : ClientId) : World :=
  match (w.clients c).requestsToSubmit with
  | [] => w
  | request :: _ =>
    (w.modifyClient c Client.popFront).modifyClient d fun client =>
      { client with requestsToSubmit := client.requestsToSubmit ++ [request] }

/-- The back request of a sub-client goes to the front of its controller's queue. -/
def requeueToParent (w : World) (c : ClientId) : World :=
  match (w.clients c).requestsToSubmit.getLast? with
  | none => w
  | some request =>
    (w.modifyClient c Client.popBack).modifyClient (w.controllerOf c) fun client =>
      { client with requestsToSubmit := request :: client.requestsToSubmit }

def countStart (w : World) (cfg : Config) (c : ClientId) (scenario request : Nat) : World :=
  ((w.modifyStats fun stats => { stats with reqStarted := stats.reqStarted + 1 }).modifyClient c
    fun client =>
      { client with
        reqStarted := client.reqStarted + 1
        reqInflight := client.reqInflight + 1
        reqLeft := if cfg.timingBasedMode then client.reqLeft else decWrap client.reqLeft })
    |>.modifyScenarioStats scenario request fun stats =>
      { stats with reqStarted := stats.reqStarted + 1 }

def addFailed (w : World) (count : Nat) : World :=
  w.modifyStats fun stats =>
    { stats with
      reqFailed := addWrap stats.reqFailed count
      reqError := addWrap stats.reqError count }

def requestFailure (w : World) (cfg : Config) (c : ClientId) (exhausted : Bool) : World :=
  if w.currentPhase ≠ .mainDuration then w
  else
    let counted := w.addFailed (w.clients c).reqLeft
    if exhausted then counted
    else if w.shouldReconnectOnDisconnect cfg c then counted
    else counted.modifyClient c fun client => { client with reqLeft := 0 }

def processAbandonedStreams (w : World) (cfg : Config) (c : ClientId) : World :=
  if w.currentPhase ≠ .mainDuration then w
  else if w.shouldReconnectOnDisconnect cfg c then
    (w.addFailed (w.clients c).reqInflight).modifyClient c fun client =>
      { client with reqInflight := 0 }
  else
    (w.addFailed (addWrap (w.clients c).reqInflight (w.clients c).reqLeft)).modifyClient c
      fun client => { client with reqInflight := 0, reqLeft := 0 }

/-- The in-flight requests of a connection that is opened again (`try_again_or_fail`). -/
def failInflight (w : World) (c : ClientId) : World :=
  if w.currentPhase ≠ .mainDuration then w
  else
    (w.addFailed (w.clients c).reqInflight).modifyClient c fun client =>
      { client with reqInflight := 0 }

/-! ## The end of a stream -/

/-- `status_success` of a response with a stored request: a Lua function, match rules
or an expected status code decide before the status class does. -/
def responseVerdict (cfg : Config) (status : Nat) (request : RequestData) (verdict : Bool) : Int :=
  let template := ((cfg.scenario? request.scenarioIndex).map Scenario.requests).getD []
    |>.getD request.currRequestIdx {}
  if template.validateResponseFunctionPresent || template.responseMatchRules then
    if verdict then 1 else 0
  else if request.expectedStatusCode ≠ 0 then
    if status = request.expectedStatusCode then 1 else 0
  else if status < 400 then 1 else 0

def bumpStatus (status : Nat) (stats : Stats) : Stats :=
  if status < 600 then { stats with status := stats.status.modify (status / 100) (· + 1) } else stats

def setStatusSuccess (id : Nat) (value : Int) (client : Client) : Client :=
  { client with
    streams := FiniteMap.adjust id (fun stream => { stream with statusSuccess := value })
      client.streams }

def validateResponse (w : World) (cfg : Config) (c : ClientId) (id : Nat) (verdict : Bool) :
    World :=
  match (w.clients c).streams.lookup id with
  | none => w
  | some stream =>
    if !stream.statisticsEligible then w.modifyClient c (setStatusSuccess id 1)
    else
      let status := stream.reqStat.status
      let counted := w.modifyStats (bumpStatus status)
      match (w.clients c).requestsAwaitingResponse.lookup id with
      | none => counted.modifyClient c (setStatusSuccess id (if status < 400 then 1 else 0))
      | some request =>
        (counted.modifyScenarioStats request.scenarioIndex request.currRequestIdx
          (bumpStatus status)).modifyClient c
            (setStatusSuccess id (responseVerdict cfg status request verdict))

def releaseInflight (cfg : Config) (client : Client) : Client :=
  { client with
    reqInflight := client.reqInflight - 1
    link := { client.link with rpsReqInflight :=
      if cfg.rpsMode then client.link.rpsReqInflight - 1 else client.link.rpsReqInflight } }

/-- The counters of a finished request, of the worker and of a scenario's request alike. -/
def outcome (success statusSuccess : Bool) (stats : Stats) : Stats :=
  let done := { stats with reqDone := stats.reqDone + 1 }
  if success then
    if statusSuccess then
      { done with reqSuccess := done.reqSuccess + 1, reqStatusSuccess := done.reqStatusSuccess + 1 }
    else { done with reqSuccess := done.reqSuccess + 1, reqFailed := done.reqFailed + 1 }
  else { done with reqFailed := done.reqFailed + 1, reqError := done.reqError + 1 }

def recordOutcome (w : World) (c : ClientId) (id : Nat) (stream : Stream) (success : Bool) :
    World :=
  if !stream.statisticsEligible then w
  else
    let change := outcome success (stream.statusSuccess == 1)
    let counted := (w.modifyStats change).modifyClient c fun client =>
      { client with reqDone := client.reqDone + 1 }
    match (w.clients c).requestsAwaitingResponse.lookup id with
    | none => counted
    | some request =>
      counted.modifyScenarioStats request.scenarioIndex request.currRequestIdx change

/-- The finished request makes the next one of its scenario and is erased; then the
stream is. -/
def finishRequest (w : World) (cfg : Config) (c : ClientId) (id now : Nat) (assembly : Assembly) :
    World :=
  let here := w.clients c
  (w.modifyClient (w.controllerOf c) fun client =>
    client.enqueueNext now (here.followUpDelay id) (here.followUp cfg id assembly)).modifyClient c
      fun client => client.finish id

/-- `on_stream_close` up to the submission that may follow. -/
def closeStream (w : World) (cfg : Config) (c : ClientId) (id : Nat) (success verdict : Bool)
    (now : Nat) (assembly : Assembly) : World :=
  let validated := w.validateResponse cfg c id verdict
  if validated.currentPhase.statsEligible then
    let released := validated.modifyClient c (releaseInflight cfg)
    match (released.clients c).streams.lookup id with
    | none => released
    | some stream =>
      (released.recordOutcome c id stream success).finishRequest cfg c id now assembly
  else validated.finishRequest cfg c id now assembly

/-! ## Timeouts -/

/-- The loop of `reset_timeout_requests` leaves the streams as they are, so it counts the
deadlines that have passed for a stream that is open and eligible. -/
def expiredStreams (client : Client) (now : Nat) : Nat :=
  (due now client.streamTimestamp).countP fun entry =>
    (client.streams.lookup entry.2.id).any Stream.statisticsEligible

def resetTimeoutRequests (w : World) (c : ClientId) (now : Nat) : World :=
  (w.modifyStats fun stats =>
    { stats with reqTimedout := stats.reqTimedout + expiredStreams (w.clients c) now }).modifyClient c
      fun client => client.expire now

def countTimedout (w : World) (c : ClientId) : World :=
  if w.currentPhase ≠ .mainDuration then w
  else
    (w.modifyStats fun stats =>
      { stats with reqTimedout := addWrap stats.reqTimedout (w.clients c).reqInflight }).modifyClient c
        fun client =>
          { client with streams := FiniteMap.mapValues Stream.countedAgain client.streams }

/-- `timeout`, once it is clear that the client does not reconnect: what is in flight is
counted as timed out and as failed, and the connection goes. -/
def timeout (w : World) (cfg : Config) (c : ClientId) : World :=
  ((w.countTimedout c).processAbandonedStreams cfg c).modifyClient c Client.disconnect

/-! ## Connections -/

def updateThisInDestClientMap (w : World) (c : ClientId) : World :=
  let link := (w.clients c).link
  w.modifyClient (w.controllerOf c) fun client =>
    client.updateDestClientMap c link.schema link.authority

/-- `free_client`: a listed client's finished requests become its budget. -/
def reportDone (w : World) (c : ClientId) : World :=
  if w.workerClients.contains c then
    let counted := (w.modifyStats fun stats =>
      { stats with reqTodo := stats.reqTodo + (w.clients c).reqDone }).modifyClient c
        fun client => { client with reqTodo := client.reqDone }
    { counted with workerClients := w.workerClients.erase c }
  else w

def leaveDestClientMap (w : World) (c : ClientId) : World :=
  match (w.clients c).parentClient with
  | none => w
  | some parent =>
    let key := destinationKey (w.clients c).link.schema (w.clients c).link.authority
    w.modifyClient parent fun owner =>
      if owner.destClients.lookup key = some c then
        { owner with destClients := owner.destClients.erase key }
      else owner

def freeClient (w : World) (c : ClientId) : World :=
  ((w.reportDone c).leaveDestClientMap c).modifyClient c fun client => { client with freed := true }

end World

/-! ## Effects -/

/-- A block of assignments the source makes. -/
inductive Effect where
  | createClient (candidates : List String)
  | createDestClient (parent : ClientId) (schema authority : String)
  | listClient (c : ClientId)
  | setPhase (phase : Phase)
  | setLink (c : ClientId) (link : Link)
  | connecting (c : ClientId) (link : Link)
  | allocateSession (c : ClientId) (protocol : Protocol)
  | updateThisInDestClientMap (c : ClientId)
  | disconnect (c : ClientId)
  | terminateSession (c : ClientId)
  | freeClient (c : ClientId)
  | pushFirstRequest (c : ClientId) (scenarioIndex now : Nat) (assemble : Nat → Assembly)
  | moveToDest (c d : ClientId)
  | requeueToParent (c : ClientId)
  | resumeDelayed (c : ClientId) (now : Nat)
  | startRequest (d : ClientId) (now stray : Nat) (offset : Int)
  | dropRequest (d : ClientId)
  | countStart (c : ClientId) (scenario request : Nat)
  | requestFailure (c : ClientId) (exhausted : Bool)
  | abandonStreams (c : ClientId)
  | failInflight (c : ClientId)
  | timeout (c : ClientId)
  | resetTimeoutRequests (c : ClientId) (now : Nat)
  | onStatusCode (c : ClientId) (id status : Nat)
  | readPayload (c : ClientId) (id length : Nat)
  | cutPayload (c : ClientId) (id count : Nat)
  | advanceOffset (c : ClientId) (id length : Nat)
  | requestSent (c : ClientId)
  | responseReceived (c : ClientId)
  | alignRequestCounter (c : ClientId)
  | closeStream (c : ClientId) (id : Nat) (success verdict : Bool) (now : Nat) (assembly : Assembly)

namespace Effect

def act (e : Effect) (w : World) : World :=
  match e with
  | .createClient candidates => w.createClient w.config candidates
  | .createDestClient parent schema authority =>
    w.createDestClient w.config parent schema authority
  | .listClient c => { w with workerClients := w.workerClients ++ [c] }
  | .setPhase phase => { w with currentPhase := phase }
  | .setLink c link => w.modifyClient c fun client => { client with link := link }
  | .connecting c link =>
    w.modifyClient c fun client => { client with state := .connecting, link := link }
  | .allocateSession c protocol =>
    w.modifyClient c fun client =>
      { client with session := some protocol.newSession, state := .connected }
  | .updateThisInDestClientMap c => w.updateThisInDestClientMap c
  | .disconnect c => w.modifyClient c Client.disconnect
  | .terminateSession c =>
    w.modifyClient c fun client =>
      client.modifyHttp1 fun session => { session with complete := true }
  | .freeClient c => w.freeClient c
  | .pushFirstRequest c scenarioIndex now assemble =>
    w.pushFirstRequest w.config c scenarioIndex now assemble
  | .moveToDest c d => w.moveToDest c d
  | .requeueToParent c => w.requeueToParent c
  | .resumeDelayed c now => w.modifyClient c fun client => client.resumeDelayed now
  | .startRequest d now stray offset =>
    w.modifyClient d fun client =>
      client.startRequest w.config w.currentPhase w.ticks now stray offset
  | .dropRequest d => w.modifyClient d Client.popFront
  | .countStart c scenario request => w.countStart w.config c scenario request
  | .requestFailure c exhausted => w.requestFailure w.config c exhausted
  | .abandonStreams c => w.processAbandonedStreams w.config c
  | .failInflight c => w.failInflight c
  | .timeout c => w.timeout w.config c
  | .resetTimeoutRequests c now => w.resetTimeoutRequests c now
  | .onStatusCode c id status => w.modifyClient c fun client => client.onStatusCode id status
  | .readPayload c id length => w.modifyClient c fun client => client.readPayload id length
  | .cutPayload c id count => w.modifyClient c fun client => client.cutPayload id count
  | .advanceOffset c id length =>
    w.modifyClient c fun client => client.advanceOffset w.config id length
  | .requestSent c =>
    w.modifyClient c fun client => client.modifyHttp1 fun session =>
      { session with streamReqCounter := session.streamReqCounter + 2 }
  | .responseReceived c =>
    w.modifyClient c fun client => client.modifyHttp1 fun session =>
      { session with streamRespCounter := session.streamRespCounter + 2 }
  | .alignRequestCounter c =>
    w.modifyClient c fun client => client.modifyHttp1 fun session =>
      { session with streamReqCounter := session.streamRespCounter }
  | .closeStream c id success verdict now assembly =>
    w.closeStream w.config c id success verdict now assembly

end Effect

instance : EffectLog.Machine World Effect where
  apply e w := { e.act w with ticks := w.ticks + 1 }

end H2LoadRunner.Load
