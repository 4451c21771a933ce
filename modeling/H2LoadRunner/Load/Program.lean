/-
# Load.Program -- the control flow of the worker and its clients

The functions of `base_client`, `base_worker`, `asio_client_connection` and of the two
session classes, as programs over the effects of `Load.Effects`: what they test, in
which order, what they call and what they return.  Everything the code learns from
outside (clock, random numbers, nghttp2's verdicts, the texts of a request, what
uninitialised memory holds) is an answer of the environment, asked for at the current
tick, so a statement about every environment is one about every such behaviour.

`submit_request` and `on_stream_close` call each other through an HTTP/1 session that
finds the response already there.  The recursion is bounded by `fuel`, one more than there are
clients.

A fault is where the source aborts, exits, trips over an assertion or dereferences a
null or dangling pointer; `disabled` marks an event that cannot happen in the world it
finds.
-/
import H2LoadRunner.Load.Effects

namespace H2LoadRunner.Load

open Library Library.EffectLog
open Library.EffectLog.Program

set_option autoImplicit false

/-- Answers from outside, by tick. -/
structure Env where
  clock : Nat → Nat := fun tick => tick
  /-- What a read past the end of a map finds. -/
  stray : Nat → Nat := fun _ => 0
  /-- What an uninitialised offset holds. -/
  offset : Nat → Int := fun _ => 0
  assembly : Nat → Nat → Assembly := fun _ _ => {}
  nextScenario : Nat → Nat := fun _ => 0
  /-- What a Lua function or the match rules say about a response. -/
  verdict : Nat → Bool := fun _ => true
  /-- `nghttp2_session_check_request_allowed`. -/
  requestAllowed : Nat → Bool := fun _ => true
  /-- `nghttp2_submit_request` returns an identifier. -/
  submitAccepted : Nat → Bool := fun _ => true
  /-- `rand() % nclients == 0`. -/
  randomHit : Nat → Bool := fun _ => false
  /-- `std::shuffle` of the further hosts of a controller. -/
  shuffle : Nat → List String → List String := fun _ hosts => hosts

inductive Fault where
  | nullSession
  /-- The session of the controller, in `submit_request`. -/
  | nullControllerSession
  | assertion
  | abort
  | exit
  | outOfRange
  | dangling
  | outOfFuel
  | disabled
  deriving DecidableEq

abbrev M := Program World Effect Fault

def maxStreamToBeExhausted : Int := -2

def int32Max : Nat := 2 ^ 31 - 1

def client (c : ClientId) : M Client := do
  return (← world).clients c

def modifyLink (c : ClientId) (change : Link → Link) : M Unit := do
  perform (.setLink c (change (← client c).link))

/-! ## Connections -/

def connectToHost (c : ClientId) (schema authority : String) : M Unit := do
  let link := (← client c).link
  perform (.connecting c
    { link with
      schema := schema
      authority := authority
      isClientStopped := false })

def connect (c : ClientId) : M Int := do
  let w ← world
  if w.isTestFinished c then return -1
  if w.config.timingBasedMode ∧ w.currentPhase = .initialIdle then
    perform (.setPhase .warmUp)
  connectToHost c (w.clients c).link.schema (w.clients c).link.authority
  return 0

def disconnect (c : ClientId) : M Unit := perform (.disconnect c)

def tryAgainOrFail (c : ClientId) : M Int := do
  disconnect c
  let here ← client c
  if here.link.newConnectionRequested then
    modifyLink c fun link => { link with newConnectionRequested := false }
    if here.reqLeft ≠ 0 then
      perform (.failInflight c)
      if (← connect c) = 0 then return 0
  perform (.abandonStreams c)
  return -1

def fail (c : ClientId) : M Unit := do
  disconnect c
  perform (.abandonStreams c)

def timeout (c : ClientId) : M Unit := do
  let w ← world
  if w.shouldReconnectOnDisconnect w.config c then return
  perform (.timeout c)

def reconnectToUsedHost (c : ClientId) : M Unit := do
  let here ← client c
  if here.state = .connected then return
  match here.link.usedAddresses with
  | address :: rest =>
    modifyLink c fun link => { link with usedAddresses := rest }
    connectToHost c here.link.schema address
  | [] => connectToHost c here.link.schema here.link.authority

def reconnectToAltAddr (c : ClientId) : M Bool := do
  let w ← world
  let here := w.clients c
  if here.state = .connected then return false
  if !w.shouldReconnectOnDisconnect w.config c then return false
  if here.link.authority ≠ here.link.preferredAuthority then
    modifyLink c fun link =>
      { link with usedAddresses := link.usedAddresses ++ [link.authority] }
    connectToHost c here.link.schema here.link.preferredAuthority
  else
    match here.link.candidateAddresses with
    | address :: rest =>
      modifyLink c fun link => { link with candidateAddresses := rest }
      connectToHost c here.link.schema address
    | [] => modifyLink c fun link => { link with reconnectTimer := true }
  return true

def onPreferedHostUp (c : ClientId) : M Unit := do
  let here ← client c
  if here.link.authority ≠ here.link.preferredAuthority ∧ here.state = .connected then
    disconnect c
    modifyLink c fun link =>
      { link with candidateAddresses := link.candidateAddresses ++ [link.authority] }
    connectToHost c here.link.schema here.link.preferredAuthority

def handleConnectionError (c : ClientId) : M Unit := do
  if (← tryAgainOrFail c) = 0 then return
  fail c
  if (← reconnectToAltAddr c) then
    modifyLink c fun link => { link with isClientStopped := false }
  else
    modifyLink c fun link => { link with freePosted := true }

def terminateSession (c : ClientId) : M Unit := do
  if (← client c).session.isNone then fault .nullSession
  perform (.terminateSession c)

def setupGracefulShutdown (c : ClientId) : M Unit :=
  modifyLink c fun link => { link with writeClearCallback := some .shutdown }

def gracefulRestartConnection (c : ClientId) : M Unit := do
  modifyLink c fun link => { link with writeClearCallback := some .restart }
  terminateSession c

def processRequestFailure (c : ClientId) (errCode : Int) : M Unit := do
  let w ← world
  if w.currentPhase ≠ .mainDuration then return
  perform (.requestFailure c (errCode == maxStreamToBeExhausted))
  if errCode = maxStreamToBeExhausted then
    gracefulRestartConnection c
  else if FiniteMap.size (w.clients c).streams = 0 then
    terminateSession c

/-! ## Submitting requests -/

section Submission

variable (env : Env)

def findOrCreateDestClient (p : ClientId) (request : RequestData) : M ClientId := do
  let w ← world
  let key := destinationKey request.content.schema request.content.authority
  match (w.clients p).destClients.lookup key with
  | some d => return d
  | none =>
    let d := w.clientCount
    perform (.createDestClient p request.content.schema request.content.authority)
    let link := (← client d).link
    connectToHost d link.schema link.authority
    return d

/-- `nghttp2` is about to run out of stream identifiers. -/
def streamsExhausted (cfg : Config) (currStreamId : Nat) (hit : Bool) : Bool :=
  (decide (1 < cfg.nclients) && cfg.rpsMode &&
      decide (((int32Max - currStreamId : Nat) : Rat) < 64 * (cfg.nclients : Rat) * cfg.rps) && hit) ||
    decide (int32Max - 1 ≤ currStreamId)

def startRequest (d : ClientId) : M Unit := do
  let tick := (← world).ticks
  perform (.startRequest d (env.clock tick) (env.stray tick) (env.offset tick))

def http2SubmitRequest (d : ClientId) (session : Http2Session) : M Int := do
  let w ← world
  if !env.requestAllowed w.ticks then return -1
  let accepted := env.submitAccepted w.ticks && decide (session.nextStreamId ≤ int32Max)
  if w.config.scenarios.isEmpty then
    if !accepted then
      modifyLink d fun link => { link with reqidx :=
        if link.reqidx + 1 = w.config.preparedRequests then 0 else link.reqidx + 1 }
      return -1
    startRequest env d
    return 0
  if streamsExhausted w.config session.currStreamId (env.randomHit w.ticks) then
    return maxStreamToBeExhausted
  if (w.clients d).requestsToSubmit.isEmpty then fault .abort
  if !accepted then
    perform (.dropRequest d)
    return -1
  startRequest env d
  return 0

/-- The stream whose body an HTTP/1 session sends is complete; the response may be
there already. -/
def http1RequestSent (close : ClientId → Nat → Bool → Bool → M Unit) (d : ClientId) : M Unit := do
  perform (.requestSent d)
  let here ← client d
  match here.session with
  | some (.http1 session) =>
    if session.streamRespCounter = session.streamReqCounter then
      close d (session.streamRespCounter - 2) true here.link.final
  | _ => return

def http1OnWrite (close : ClientId → Nat → Bool → Bool → M Unit) (d : ClientId)
    (session : Http1Session) : M Int := do
  if session.complete then return -1
  let w ← world
  let here := w.clients d
  let id := session.streamReqCounter
  match here.streams.lookup id with
  | none => return 0
  | some stream =>
    if w.config.scenarios.isEmpty then
      if stream.reqStat.dataOffset < w.config.dataLength then
        perform (.advanceOffset d id Client.chunk)
        if (Client.advancedOffset w.config Client.chunk stream.reqStat).dataOffset =
            w.config.dataLength then
          http1RequestSent close d
      return 0
    match here.requestsAwaitingResponse.lookup id with
    | none => if w.config.ndebug then return 0 else fault .assertion
    | some request =>
      let length := request.content.reqPayload.length
      if length = 0 then return 0
      if Client.chunk < length then
        perform (.cutPayload d id Client.chunk)
      else
        http1RequestSent close d
      return 0

def http1SubmitRequest (close : ClientId → Nat → Bool → Bool → M Unit) (d : ClientId) : M Int := do
  let w ← world
  let bodyless ←
    if w.config.scenarios.isEmpty then pure (w.config.dataLength == 0)
    else match (w.clients d).requestsToSubmit with
      | [] => fault .abort
      | request :: _ => pure request.content.reqPayload.isEmpty
  startRequest env d
  if bodyless then return 0
  match (← client d).session with
  | some (.http1 session) => http1OnWrite close d session
  | _ => fault .nullSession

def sessionSubmitRequest (close : ClientId → Nat → Bool → Bool → M Unit) (d : ClientId) : M Int := do
  match (← client d).session with
  | none => fault .nullSession
  | some (.http2 session) => http2SubmitRequest env d session
  | some (.http1 _) => http1SubmitRequest env close d

/-- `prepare_first_request`: the scenario is drawn by weight; a first request that
cannot be built ends the process. -/
def prepareFirstRequest (p : ClientId) : M Unit := do
  let w ← world
  let drawn := env.nextScenario w.ticks
  let index := if drawn < w.config.scenarios.length then drawn else 0
  let template := ((w.config.scenario? index).map Scenario.requests).getD [] |>.headD {}
  let first := env.assembly w.ticks 0
  if template.uriAction = .inputWithVariable ∧ !first.uriParsed then fault .abort
  if template.makeRequestFunctionPresent ∧ !first.luaAccepts then fault .exit
  perform (.pushFirstRequest p index (env.clock w.ticks) (env.assembly w.ticks))

/-- The client the request at the front of the controller's queue is for. -/
def destinationClient (p : ClientId) : M ClientId := do
  let w ← world
  if !w.config.openNewConnectionBasedOnAuthorityHeader then return p
  match (w.clients p).requestsToSubmit with
  | [] => fault .outOfRange
  | request :: _ =>
    let d ← findOrCreateDestClient p request
    if d ≠ p then perform (.moveToDest p d)
    return d

/-- The part of `submit_request` that hands the request to the destination's session
and counts it. -/
def submitTo (close : ClientId → Nat → Bool → Bool → M Unit) (p d : ClientId) : M Int := do
  let there ← client d
  if there.state ≠ .connected then return 0
  let front := there.requestsToSubmit.head?
  let retCode ← sessionSubmitRequest env close d
  if retCode ≠ 0 then
    processRequestFailure d retCode
    return retCode
  if (← world).currentPhase ≠ .mainDuration then return 0
  perform (.countStart p ((front.map RequestData.scenarioIndex).getD 0)
    ((front.map RequestData.currRequestIdx).getD 0))
  return 0

/-- `session->max_concurrent_streams() <= get_total_pending_streams()`. -/
def World.lacksConcurrency (w : World) (c : ClientId) (session : Session) : Bool :=
  decide (session.maxConcurrentStreams w.config ≤ w.getTotalPendingStreams c)

def submitAsController (close : ClientId → Nat → Bool → Bool → M Unit) (p : ClientId) : M Int := do
  let w ← world
  let here := w.clients p
  if w.config.nullDestination ∧ here.requestsToSubmit = [] then return 0
  match here.session with
  | none => fault .nullControllerSession
  | some session =>
    if w.lacksConcurrency p session then return -1
    if w.currentPhase = .mainDurationGracefulShutdown then return -1
    if here.requestsToSubmit = [] ∧ w.config.scenarios ≠ [] then
      prepareFirstRequest env p
    let d ← destinationClient p
    submitTo env close p d

/-- `submit_request`: a sub-client's goes to its controller. -/
def submitWith (close : ClientId → Nat → Bool → Bool → M Unit) (c : ClientId) : M Int := do
  let w ← world
  if w.config.nullDestination ∧ (w.clients c).requestsToSubmit = [] then return 0
  submitAsController env close (w.controllerOf c)

def onStreamClose (submit : ClientId → M Int) (c : ClientId) (id : Nat) (success final : Bool) : M Unit := do
  let w ← world
  perform (.closeStream c id success (env.verdict w.ticks) (env.clock w.ticks)
    (env.assembly w.ticks 0))
  -- Counted phases return early when the stream is not there.
  if w.currentPhase.statsEligible ∧ (w.clients c).streams.lookup id = none then return
  let here ← client c
  if here.reqLeft = 0 ∧ here.reqInflight = 0 then
    setupGracefulShutdown c
    terminateSession c
  else if !final ∧ 0 < here.reqLeft then
    if w.config.timingScript.isSome then
      -- What is posted here is refused by the timer check of its handler.
      return
    else if !w.config.rpsMode then
      let _ ← submit c
    else if here.link.rpsReqPending ≠ 0 then
      if (← submit c) = 0 then
        modifyLink c fun link => { link with rpsReqPending := decWrap link.rpsReqPending }

def submitRequest : Nat → ClientId → M Int
  | 0, _ => fault .outOfFuel
  | fuel + 1, c => submitWith env (onStreamClose env (submitRequest fuel)) c

/-- Each nested submission closes the gap of one HTTP/1 session, so there are at most
as many as there are clients. -/
def submit (c : ClientId) : M Int := do
  submitRequest env ((← world).clientCount + 1) c

def closed (c : ClientId) (id : Nat) (success final : Bool) : M Unit :=
  onStreamClose env (submit env) c id success final

end Submission

/-! ## Connections that come up, and timers -/

section Handlers

variable (env : Env)

/-- Submit until `count` requests are out or one is refused. -/
def submitUpTo : Nat → ClientId → M Unit
  | 0, _ => return
  | count + 1, c => do
    if (← submit env c) ≠ 0 then return
    submitUpTo count c

/-- A connected sub-client gives its queue back to its controller, from the back. -/
def replayQueue : Nat → ClientId → M Unit
  | 0, _ => fault .outOfFuel
  | fuel + 1, c => do
    let w ← world
    if (w.clients c).requestsToSubmit = [] then return
    perform (.requeueToParent c)
    if !w.config.rpsMode then
      if (← submit env (w.controllerOf c)) ≠ 0 then return
    replayQueue fuel c

def timingConnectLoop (timings : List Nat) : Nat → ClientId → M Unit
  | 0, _ => fault .outOfFuel
  | fuel + 1, c => do
    if (← submit env c) ≠ 0 then return
    let index := (← client c).link.reqidx
    if index = 0 then return
    match timings[index]? with
    | none => fault .outOfRange
    | some time => if time = 0 then timingConnectLoop timings fuel c else return

/-- `connection_made`; `none` when no supported protocol was negotiated. -/
def connectionMade (c : ClientId) (protocol : Option Protocol) : M Int := do
  match protocol with
  | none =>
    disconnect c
    return -1
  | some protocol =>
    perform (.allocateSession c protocol)
    perform (.updateThisInDestClientMap c)
    let w ← world
    let here := w.clients c
    if here.parentClient.isSome then
      replayQueue env (here.requestsToSubmit.length + w.clientCount + 1) c
      return 0
    if w.config.rpsMode then
      if here.reqLeft = 0 ∧ !w.config.ndebug then fault .assertion
      modifyLink c fun link => { link with rpsReqInflight := link.rpsReqInflight + 1 }
      let _ ← submit env c
      return 0
    match w.config.timingScript with
    | none =>
      let most := protocol.newSession.maxConcurrentStreams w.config
      submitUpTo env
        (if w.config.timingBasedMode then max here.reqLeft most else min here.reqLeft most) c
    | some timings =>
      match timings[here.link.reqidx]? with
      | none => fault .outOfRange
      | some time => if time = 0 then timingConnectLoop env timings (timings.length + 1) c
    return 0

def connected (c : ClientId) (protocol : Option Protocol) : M Unit := do
  modifyLink c fun link => { link with isClientStopped := false }
  if (← connectionMade env c protocol) ≠ 0 then
    handleConnectionError c

def resetTimeoutRequests (c : ClientId) : M Unit := do
  let w ← world
  let now := env.clock w.ticks
  -- The session is dereferenced for each open stream that is due.
  if (w.clients c).session.isNone ∧
      (due now (w.clients c).streamTimestamp).any
        (fun entry => ((w.clients c).streams.lookup entry.2.id).isSome) then
    fault .nullSession
  perform (.resetTimeoutRequests c now)

def rpsLoop : Nat → ClientId → M Unit
  | 0, _ => return
  | count + 1, c => do
    if (← submit env c) ≠ 0 then return
    modifyLink c fun link =>
      { link with
        rpsReqInflight := link.rpsReqInflight + 1
        rpsReqPending := decWrap link.rpsReqPending }
    rpsLoop count c

/-- `on_rps_timer`, where `n` requests have become due since the last time. -/
def onRpsTimer (c : ClientId) (n : Nat) : M Unit := do
  resetTimeoutRequests env c
  let w ← world
  let here := w.clients c
  if w.config.timingScript.isSome ∧ !w.config.ndebug then fault .assertion
  if here.state ≠ .connected then return
  if here.reqLeft = 0 then return
  modifyLink c fun link => { link with rpsReqPending := n }
  if n = 0 then return
  match here.session with
  | none => fault .nullSession
  | some session =>
    let room := (session.maxConcurrentStreams w.config + sizeMax -
      FiniteMap.size here.streams) % sizeMax
    if room = 0 then return
    let wanted := if w.config.timingBasedMode then max room here.reqLeft else min room here.reqLeft
    rpsLoop env (min wanted n) c

/-- The loop of `timing_script_timeout_handler`, entered with the next gap. -/
def timingScriptLoop (timings : List Nat) : Nat → ClientId → M Unit
  | 0, _ => fault .outOfFuel
  | fuel + 1, c => do
    let index := (← client c).link.reqidx
    if index = 0 then fault .outOfRange
    match timings[index]?, timings[index - 1]? with
    | some time, some last =>
      if last < time then return
      if (← submit env c) ≠ 0 then return
      if (← client c).reqLeft = 0 then return
      timingScriptLoop timings fuel c
    | _, _ => fault .outOfRange

def timingScriptTimeoutHandler (c : ClientId) : M Unit := do
  resetTimeoutRequests env c
  let w ← world
  if w.config.maxConcurrentStreams ≤ FiniteMap.size (w.clients c).streams then return
  if (← submit env c) ≠ 0 then return
  if (← client c).reqLeft = 0 then return
  let timings := w.config.timingScript.getD []
  timingScriptLoop env timings (timings.length + 1) c

/-- `htp_msg_completecb`, and what `on_read` makes of the pause it asks for. -/
def messageComplete (c : ClientId) (keepAlive : Bool) : M Unit := do
  modifyLink c fun link => { link with final := !keepAlive }
  let w ← world
  let here := w.clients c
  match here.session with
  | some (.http1 session) =>
    match here.streams.lookup session.streamRespCounter with
    | none => fault .assertion
    | some stream =>
      if (w.config.dataLength : Int) ≤ stream.reqStat.dataOffset then
        closed env c session.streamRespCounter true (!keepAlive)
      perform (.responseReceived c)
      if !keepAlive then
        perform (.alignRequestCounter c)
        if (← client c).reqLeft ≠ 0 then
          modifyLink c fun link => { link with newConnectionRequested := true }
        handleConnectionError c
  | _ => fault .disabled

def writeSignal (c : ClientId) : M Unit := do
  match (← client c).session with
  | some (.http1 session) =>
    let _ ← http1OnWrite (closed env) c session
  | _ => fault .disabled

/-- nghttp2 asks for `length` bytes of a body. -/
def dataRead (c : ClientId) (id length : Nat) : M Unit := do
  let w ← world
  if w.config.scenarios.isEmpty then
    perform (.advanceOffset c id length)
  else if ((w.clients c).requestsAwaitingResponse.lookup id).isNone then
    fault .assertion
  else
    perform (.readPayload c id length)

def writeComplete (c : ClientId) : M Unit := do
  let here ← client c
  match here.link.writeClearCallback with
  | none => return
  | some callback =>
    modifyLink c fun link => { link with writeClearCallback := none }
    disconnect c
    match callback with
    | .restart => connectToHost c here.link.schema here.link.authority
    | .shutdown => modifyLink c fun link => { link with freePosted := true }

end Handlers

/-! ## The worker -/

def freeClient (c : ClientId) : M Unit := do
  disconnect c
  perform (.freeClient c)

def createClient (env : Env) : M Unit := do
  let w ← world
  let c := w.clientCount
  perform (.createClient (env.shuffle w.ticks (World.otherHosts w.config c)))
  if (← connect c) ≠ 0 then
    fail c
    if w.config.rateMode ∨ w.config.timingBasedMode then
      freeClient c
  else if w.config.timingBasedMode then
    perform (.listClient c)

/-- Nothing was counted before the main phase began. -/
def warmupClean (w : World) : Bool :=
  w.stats.reqStarted == 0 && w.stats.reqDone == 0 &&
    w.workerClients.all fun c =>
      let here := w.clients c
      here.reqTodo == 0 && here.reqLeft == 1 && here.reqInflight == 0 && here.reqStarted == 0 &&
        here.reqDone == 0

def warmupTimeoutHandler : M Unit := do
  let w ← world
  if !warmupClean w ∧ !w.config.ndebug then fault .assertion
  perform (.setPhase .mainDuration)

def stopClients : List ClientId → M Unit
  | [] => return
  | c :: rest => do
    let here ← client c
    if here.state = .connected ∧ !here.freed then
      setupGracefulShutdown c
      terminateSession c
    stopClients rest

def durationTimeoutHandler : M Unit := do
  let w ← world
  if w.currentPhase = .mainDuration ∧ w.config.scenarios ≠ [] then
    perform (.setPhase .mainDurationGracefulShutdown)
  else
    perform (.setPhase .durationOver)
    stopClients (List.range w.clientCount)

/-! ## Events -/

/-- What may happen to a worker. -/
inductive Event where
  | createClient
  | connected (c : ClientId) (protocol : Option Protocol)
  | connectionError (c : ClientId)
  | streamClose (c : ClientId) (id : Nat) (success : Bool)
  | statusCode (c : ClientId) (id status : Nat)
  | messageComplete (c : ClientId) (keepAlive : Bool)
  | writeSignal (c : ClientId)
  | dataRead (c : ClientId) (id length : Nat)
  | writeComplete (c : ClientId)
  | rpsTimer (c : ClientId) (n : Nat)
  | streamTimeoutTimer (c : ClientId)
  | delayTimer (c : ClientId)
  | timingScriptTimer (c : ClientId)
  | connActivityTimer (c : ClientId)
  | reconnectTimer (c : ClientId)
  | preferredHostUp (c : ClientId)
  | freeClient (c : ClientId)
  | warmupTimer
  | durationTimer

/-- A client object that exists, together with the controller it points to. -/
def World.live (w : World) (c : ClientId) : Bool :=
  decide (c < w.clientCount) && !(w.clients c).freed && !(w.clients (w.controllerOf c)).freed

/-- Only a controller arms these timers. -/
def World.timersRun (w : World) (c : ClientId) : Bool :=
  w.live c && !(w.clients c).link.isClientStopped && (w.clients c).isController

def World.http2Open (w : World) (c : ClientId) (id : Nat) : Bool :=
  match (w.clients c).session with
  | some (.http2 _) => w.live c && ((w.clients c).streams.lookup id).isSome
  | _ => false

def Event.enabled (w : World) : Event → Bool
  | .createClient => decide (w.nconnsMade < w.nclients)
  -- `stop` neither ends a lookup nor takes back a handler that is queued already, and no state is tested.
  | .connected c _ | .connectionError c | .writeComplete c | .preferredHostUp c => w.live c
  | .streamClose c id _ => w.http2Open c id
  | .statusCode c id _ =>
    w.live c && match (w.clients c).session with
      | some (.http1 session) => session.streamRespCounter == id
      | some (.http2 _) => true
      | none => false
  | .messageComplete c _ | .writeSignal c => w.live c
  | .dataRead c id _ => w.http2Open c id
  | .rpsTimer c _ => w.timersRun c && w.config.rpsMode
  | .streamTimeoutTimer c | .delayTimer c => w.timersRun c
  | .timingScriptTimer c => w.timersRun c && w.config.timingScript.isSome
  -- `timer_common_check` waits again when the timer was armed anew, so there may be several waits.
  | .connActivityTimer c | .reconnectTimer c => w.live c && !(w.clients c).link.isClientStopped
  | .freeClient c => w.live c && (w.clients c).link.freePosted
  | .warmupTimer => w.currentPhase == .warmUp
  | .durationTimer => w.currentPhase == .mainDuration ||
      w.currentPhase == .mainDurationGracefulShutdown

def react (env : Env) : Event → M Unit
  | .createClient => createClient env
  | .connected c protocol => connected env c protocol
  | .connectionError c => handleConnectionError c
  | .streamClose c id success => closed env c id success false
  | .statusCode c id status => perform (.onStatusCode c id status)
  | .messageComplete c keepAlive => messageComplete env c keepAlive
  | .writeSignal c => writeSignal env c
  | .dataRead c id length => dataRead c id length
  | .writeComplete c => writeComplete c
  | .rpsTimer c n => onRpsTimer env c n
  | .streamTimeoutTimer c => resetTimeoutRequests env c
  | .delayTimer c => do perform (.resumeDelayed c (env.clock (← world).ticks))
  | .timingScriptTimer c => timingScriptTimeoutHandler env c
  | .connActivityTimer c => timeout c
  | .reconnectTimer c => do
    modifyLink c fun link => { link with reconnectTimer := false }
    reconnectToUsedHost c
  | .preferredHostUp c => onPreferedHostUp c
  | .freeClient c => freeClient c
  | .warmupTimer => warmupTimeoutHandler
  | .durationTimer => durationTimeoutHandler

def handle (env : Env) (event : Event) : M Unit := do
  if event.enabled (← world) then react env event
  else fault .disabled

/-! ## The effects of the smallest programs -/

@[simp] theorem emits_client (c : ClientId) (w : World) (Q : Client → List Effect → Prop) :
    Emits (client c) w Q ↔ Q (w.clients c) [] := by
  simp [client, emits_bind]

@[simp] theorem emits_modifyLink (c : ClientId) (change : Link → Link) (w : World)
    (Q : PUnit → List Effect → Prop) :
    Emits (modifyLink c change) w Q ↔ Q ⟨⟩ [.setLink c (change (w.clients c).link)] := by
  simp [modifyLink, emits_bind]

@[simp] theorem emits_connectToHost (c : ClientId) (schema authority : String) (w : World)
    (Q : PUnit → List Effect → Prop) : Emits (connectToHost c schema authority) w Q ↔ Q ⟨⟩ [.connecting c
      { (w.clients c).link with
        schema := schema
        authority := authority
        isClientStopped := false }] := by
  simp [connectToHost, emits_bind]

/-! ## Runs -/

/-- A worker before it has created a client, for `reqTodo` requests over
`nclients` clients. -/
def World.initial (cfg : Config) (reqTodo nclients : Nat) : World where
  config := cfg
  currentPhase := if cfg.timingBasedMode then .initialIdle else .mainDuration
  stats := { reqTodo := reqTodo }
  scenarioStats := cfg.scenarios.map fun scenario =>
    scenario.requests.map fun _ => { reqTodo := reqTodo }
  clients := fun _ => {}
  nreqsPerClient := reqTodo / nclients
  nreqsRem := reqTodo % nclients
  nclients := nclients

def Run (env : Env) (w : World) (events : List Event) (log : List Effect) : Prop :=
  runAll (handle env) events w = .ok ((), log)

def runLog (env : Env) (w : World) (events : List Event) : Option (List Effect) :=
  match runAll (handle env) events w with
  | .ok ((), log) => some log
  | .error _ => none

theorem run_iff_runLog {env : Env} {w : World} {events : List Event} {log : List Effect} :
    Run env w events log ↔ runLog env w events = some log := by
  unfold Run runLog
  split
  · rename_i found ends
    rw [ends]
    constructor
    · intro same
      cases same
      rfl
    · intro same
      cases same
      rfl
  · rename_i fault ends
    simp [ends]

theorem exists_run_of_runLog {env : Env} {w : World} {events : List Event}
    {P : List Effect → Prop} [DecidablePred P]
    (passes : (runLog env w events).any (fun log => decide (P log)) = true) :
    ∃ log, Run env w events log ∧ P log := by
  cases found : runLog env w events with
  | none => simp [found] at passes
  | some log =>
    rw [found] at passes
    exact ⟨log, run_iff_runLog.mpr found, of_decide_eq_true passes⟩

theorem run_of_isSome {env : Env} {w : World} {events : List Event}
    (ends : (runLog env w events).isSome = true) : Run env w events ((runLog env w events).getD []) := by
  obtain ⟨log, found⟩ := Option.isSome_iff_exists.mp ends
  rw [found]
  exact run_iff_runLog.mpr found

end H2LoadRunner.Load
