/-
# MockServer.Http1Handler -- one HTTP/1 connection of the mock server

The handler of one connection: the callbacks llhttp makes while it parses, the streams
that are open, the responses the application starts on them in any order, and
`on_write`, which puts the responses that are next in line into the output buffer.

Fields and functions follow `http1_handler`, `base_handler`, `asio_server_stream`,
`asio_server_request`, `asio_server_response` and `send_response`.  Stream identifiers
are `int32_t` in the map of streams and `uint32_t` in the request counter and in the set
of identifiers to respond to; the conversions between the two are explicit.  A
character stands for a byte.

`number`, `begun` and `history` are ghosts: they number the requests of the connection in the order
they began, without bound, and record what became of each.  `signal_write` is left out: `on_write`
may be called at any time.  Here `on_write` is taken to write the response of each stream it finds;
what it does to the output buffer is in `MockServer.Http1Output`.
-/
import H2LoadRunner.Library.OrderedSet
import H2LoadRunner.Library.Transition

namespace H2LoadRunner.MockServer.Http1

open Library

set_option autoImplicit false

abbrev Text := List Char

/-! ## Machine integers -/

def int32 (n : Nat) : Int := (n : Int).bmod (2 ^ 32)

def uint32 (i : Int) : Nat := (i % 2 ^ 32).toNat

def incUInt32 (n : Nat) : Nat := (n + 1) % 2 ^ 32

def subUInt32 (a b : Nat) : Nat := (a + (2 ^ 32 - b % 2 ^ 32)) % 2 ^ 32

theorem int32_of_lt {n : Nat} (small : n < 2 ^ 31) : int32 n = n := by
  unfold int32
  rw [Int.bmod_def]
  omega

theorem uint32_natCast {n : Nat} (small : n < 2 ^ 32) : uint32 n = n := by
  unfold uint32
  omega

theorem uint32_lt (i : Int) : uint32 i < 2 ^ 32 := by
  unfold uint32
  omega

theorem uint32_int32 {n : Nat} (small : n < 2 ^ 32) : uint32 (int32 n) = n := by
  unfold int32 uint32
  rw [Int.bmod_def]
  split <;> omega

theorem subUInt32_eq_one {a b : Nat} (left : a < 2 ^ 32) (right : b < 2 ^ 31) :
    subUInt32 a b = 1 ↔ a = b + 1 := by
  unfold subUInt32
  omega

/-! ## Header maps -/

structure HeaderValue where
  value : Text
  sensitive : Bool
  deriving DecidableEq

/-- `std::multimap<std::string, header_value>`, in the order of its keys. -/
abbrev HeaderMap := List (Text × HeaderValue)

/-- Insert behind the entries whose key is not greater. -/
def HeaderMap.emplace (name : Text) (value : HeaderValue) : HeaderMap → HeaderMap
  | [] => [(name, value)]
  | entry :: rest =>
    if name < entry.1 then (name, value) :: entry :: rest
    else entry :: HeaderMap.emplace name value rest

def HeaderMap.find (name : Text) (header : HeaderMap) : Option Text :=
  (header.find? fun entry => entry.1 == name).map fun entry => entry.2.value

/-! ## Requests and responses -/

/-- `uri_ref`, as far as the HTTP/1 handler fills it. -/
structure Uri where
  scheme : Text := []
  host : Text := []
  rawPath : Text := []
  path : Text := []
  deriving DecidableEq

structure Request where
  method : Text := []
  uri : Uri := {}
  header : HeaderMap := []
  payload : Text := []
  deriving DecidableEq

inductive ResponseState where
  | initial
  | headerDone
  | bodyStarted
  deriving DecidableEq

/-- `asio_server_response`.  Without a `generator` the body is deferred. -/
structure Response where
  statusCode : Nat := 200
  header : HeaderMap := []
  trailers : HeaderMap := []
  generator : Option Text := none
  payloadSize : Nat := 0
  state : ResponseState := .initial

structure Stream where
  streamId : Int
  request : Request := {}
  response : Response := {}
  /-- Ghost: which request of the connection this is, counted from one. -/
  number : Nat

def expectResponseBody (method : Text) (statusCode : Nat) : Bool :=
  method != "HEAD".toList &&
    (statusCode == 101 || (statusCode / 100 != 1 && statusCode != 304 && statusCode != 204))

/-! ## The handler -/

/-- What became of a request. -/
inductive Happening where
  | written (number : Nat) (response : Response)
  | closed (number : Nat)

structure Handler where
  /-- `uint32_t`. -/
  requestCount : Nat := 0
  schema : Text := []
  host : Text := []
  shouldKeepAlive : Bool := true
  currHeaderName : Text := []
  /-- In the order of their identifiers. -/
  streams : List Stream := []
  /-- In increasing order. -/
  streamIdsToRespond : List Nat := []
  /-- Ghost: the requests begun so far. -/
  begun : Nat := 0
  /-- Ghost: what became of the requests, in order. -/
  history : List Happening := []

inductive Fault where
  | assertion
  | nullDereference
  deriving DecidableEq

namespace Handler

def streamBelow (a b : Stream) : Bool := decide (a.streamId < b.streamId)

def idBelow (a b : Nat) : Bool := decide (a < b)

def findStream (h : Handler) (streamId : Int) : Option Stream :=
  h.streams.find? fun strm => strm.streamId == streamId

/-- `create_stream`, which asserts that the identifier is free. -/
def createStream (h : Handler) (streamId : Int) : Except Fault Handler :=
  if (h.findStream streamId).isSome then .error .assertion
  else .ok
    { h with
      streams := OrderedSet.insert streamBelow { streamId, number := h.begun + 1 } h.streams
      begun := h.begun + 1 }

def eraseStream (h : Handler) (streamId : Int) : Handler :=
  { h with streams := h.streams.filter fun strm => strm.streamId != streamId }

/-- `close_stream` where no response was written. -/
def closeStream (h : Handler) (streamId : Int) : Handler :=
  match h.findStream streamId with
  | none => h
  | some strm => { h.eraseStream streamId with history := h.history ++ [.closed strm.number] }

def modifyStream (h : Handler) (streamId : Int) (change : Stream → Stream) : Handler :=
  { h with
    streams := h.streams.map fun strm => if strm.streamId = streamId then change strm else strm }

def modifyRequest (h : Handler) (streamId : Int) (change : Request → Request) : Handler :=
  h.modifyStream streamId fun strm => { strm with request := change strm.request }

def modifyResponse (h : Handler) (streamId : Int) (change : Response → Response) : Handler :=
  h.modifyStream streamId fun strm => { strm with response := change strm.response }

end Handler

/-! ## Parsing -/

/-- The fields `http_parser_parse_url` sets, also when it fails. -/
structure ParsedUrl where
  schema : Option Text := none
  host : Option Text := none
  port : Option Nat := none
  path : Option Text := none
  query : Option Text := none

/-- What the connection is given from outside: the URL parser, and whether a
certificate and a private key are configured. -/
structure Config where
  parseUrl : Text → ParsedUrl
  https : Bool := false

/-- llhttp's callbacks, with what they read from the parser. -/
inductive Callback where
  | messageBegin
  | url (method fragment : Text)
  | headerField (fragment : Text)
  | headerValue (fragment : Text)
  | headersComplete
  | body (fragment : Text)
  | messageComplete (keepAlive : Bool)
  deriving DecidableEq

def ParsedUrl.hostPort (u : ParsedUrl) : Option Text :=
  u.host.map fun host =>
    match u.port with
    | some port => host ++ ':' :: (toString port).toList
    | none => host

def ParsedUrl.rawPath (u : ParsedUrl) : Text :=
  u.path.getD ['/'] ++
    match u.query with
    | some query => '?' :: query
    | none => []

/-- What `http1_on_url_cb` makes of the URI. -/
def Uri.read (uri : Uri) (u : ParsedUrl) : Uri where
  scheme := u.schema.getD uri.scheme
  host := u.hostPort.getD uri.host
  rawPath := u.rawPath
  path := u.rawPath

/-- What `http1_msg_completecb` fills in. -/
def Uri.complete (https : Bool) (header : HeaderMap) (uri : Uri) : Uri :=
  { uri with
    host := if uri.host = [] then (header.find "host".toList).getD uri.host else uri.host
    scheme :=
      if uri.scheme = [] then (if https then "https".toList else "http".toList) else uri.scheme }

namespace Handler

def current (h : Handler) : Int := int32 h.requestCount

def http1MsgBegincb (h : Handler) : Except Fault Handler :=
  let count := incUInt32 h.requestCount
  { h with requestCount := count }.createStream (int32 count)

def http1OnUrlCb (cfg : Config) (h : Handler) (method fragment : Text) : Handler :=
  match h.findStream h.current with
  | none => h
  | some _ =>
    let u := cfg.parseUrl fragment
    let read := h.modifyRequest h.current fun request =>
      { request with method := method, uri := request.uri.read u }
    { read with
      schema := if h.schema = [] then u.schema.getD [] else h.schema
      host := if h.host = [] then u.hostPort.getD [] else h.host }

def http1HdrKeycb (h : Handler) (fragment : Text) : Handler :=
  { h with currHeaderName := fragment.map Char.toLower }

def http1HdrValcb (h : Handler) (fragment : Text) : Handler :=
  h.modifyRequest h.current fun request =>
    { request with header := request.header.emplace h.currHeaderName ⟨fragment, true⟩ }

def http1BodyCb (h : Handler) (fragment : Text) : Handler :=
  h.modifyRequest h.current fun request => { request with payload := request.payload ++ fragment }

def http1MsgCompletecb (cfg : Config) (h : Handler) (keepAlive : Bool) : Handler :=
  { h with shouldKeepAlive := keepAlive }.modifyRequest h.current fun request =>
    { request with uri := request.uri.complete cfg.https request.header }

def callback (cfg : Config) (h : Handler) : Callback → Except Fault Handler
  | .messageBegin => h.http1MsgBegincb
  | .url method fragment => .ok (h.http1OnUrlCb cfg method fragment)
  | .headerField fragment => .ok (h.http1HdrKeycb fragment)
  | .headerValue fragment => .ok (h.http1HdrValcb fragment)
  | .headersComplete => .ok h
  | .body fragment => .ok (h.http1BodyCb fragment)
  | .messageComplete keepAlive => .ok (h.http1MsgCompletecb cfg keepAlive)

/-- `on_read`: the callbacks llhttp makes for one buffer. -/
def onRead (cfg : Config) (h : Handler) (callbacks : List Callback) : Except Fault Handler :=
  Transition.run (callback cfg) h callbacks

end Handler

/-! ## Responding -/

namespace Response

/-- `write_head` before it calls `start_response`. -/
def head (method : Text) (statusCode : Nat) (header : HeaderMap) (response : Response) : Response :=
  { response with
    statusCode := statusCode
    header := header
    -- A response without a body is complete with its head.
    state := if expectResponseBody method statusCode then .headerDone else .bodyStarted }

/-- `end` once the head is written; the size is set even where the body is refused. -/
def endWith (data : Text) (response : Response) : Response :=
  if response.state = .bodyStarted then { response with payloadSize := data.length }
  else { response with payloadSize := data.length, generator := some data, state := .bodyStarted }

end Response

namespace Handler

def startResponse (h : Handler) (streamId : Int) : Handler :=
  { h with
    streamIdsToRespond := OrderedSet.insert idBelow (uint32 streamId) h.streamIdsToRespond }

def writeHead (h : Handler) (strm : Stream) (statusCode : Nat) (header : HeaderMap) : Handler :=
  if strm.response.state ≠ .initial then h
  else
    (h.modifyResponse strm.streamId
      (Response.head strm.request.method statusCode header)).startResponse strm.streamId

/-- `write_head` and `end`, as every request handler calls them, on a stream that may be
gone. -/
def respond (h : Handler) (streamId : Int) (statusCode : Nat) (header : HeaderMap)
    (payload : Text) : Handler :=
  match h.findStream streamId with
  | none => h
  | some strm =>
    (h.writeHead strm statusCode header).modifyResponse streamId (Response.endWith payload)

def headerMap (headers : List (Text × Text)) : HeaderMap :=
  headers.foldl (fun map entry => HeaderMap.emplace entry.1 ⟨entry.2, false⟩ map) []

def responseHeaders (headers : List (Text × Text)) (payload : Text)
    (trailers : List (Text × Text)) : HeaderMap :=
  if payload ≠ [] ∧ (headerMap headers).find "content-length".toList = none ∧ trailers = [] then
    HeaderMap.emplace "content-length".toList ⟨(toString payload.length).toList, false⟩
      (headerMap headers)
  else headerMap headers

def sendResponse (h : Handler) (streamId : Int) (statusCode : Nat) (headers : List (Text × Text))
    (payload : Text) (trailers : List (Text × Text)) : Handler :=
  if statusCode = 0 then h.closeStream streamId
  else
    (h.respond streamId statusCode (responseHeaders headers payload trailers) payload).modifyResponse
      streamId fun response =>
        if trailers = [] then response else { response with trailers := headerMap trailers }

/-- The identifiers that follow `last` one by one, and the rest. -/
def takeConsecutive (last : Nat) : List Nat → List Nat × List Nat
  | [] => ([], [])
  | id :: rest =>
    if subUInt32 id last = 1 then
      let (following, left) := takeConsecutive id rest
      (id :: following, left)
    else ([], id :: rest)

def getConsecutiveStreamIdsToRespond (h : Handler) : List Nat × Handler :=
  match h.streamIdsToRespond, h.streams with
  | id :: rest, strm :: _ =>
    if id = uint32 strm.streamId then
      let (following, left) := takeConsecutive id rest
      (id :: following, { h with streamIdsToRespond := left })
    else ([], h)
  | _, _ => ([], h)

def writeResponses (h : Handler) : List Nat → Except Fault Handler
  | [] => .ok h
  | id :: rest =>
    match h.findStream (int32 id) with
    | none => .error .nullDereference
    | some strm =>
      let wrote := Happening.written strm.number strm.response
      writeResponses { h.eraseStream (int32 id) with history := h.history ++ [wrote] } rest

def onWrite (h : Handler) : Except Fault Handler :=
  let (streamIds, taken) := h.getConsecutiveStreamIdsToRespond
  taken.writeResponses streamIds

end Handler

/-! ## Events -/

/-- What happens to a connection, in any order: a request handler reacts to a request, a
Lua handler or an offload thread posts a response later, the socket becomes writable. -/
inductive Event where
  | callback (callback : Callback)
  | respond (streamId : Int) (statusCode : Nat) (header : HeaderMap) (payload : Text)
  | sendResponse (streamId : Int) (statusCode : Nat) (headers : List (Text × Text))
      (payload : Text) (trailers : List (Text × Text))
  | closeStream (streamId : Int)
  | onWrite
  deriving DecidableEq

def Handler.step (cfg : Config) (h : Handler) : Event → Except Fault Handler
  | .callback callback => h.callback cfg callback
  | .respond streamId statusCode header payload => .ok (h.respond streamId statusCode header payload)
  | .sendResponse streamId statusCode headers payload trailers =>
    .ok (h.sendResponse streamId statusCode headers payload trailers)
  | .closeStream streamId => .ok (h.closeStream streamId)
  | .onWrite => h.onWrite

def Handler.run (cfg : Config) (h : Handler) (events : List Event) : Except Fault Handler :=
  Transition.run (Handler.step cfg) h events

end H2LoadRunner.MockServer.Http1
