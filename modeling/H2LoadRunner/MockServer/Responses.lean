/-
# MockServer.Responses -- what a server thread sends for a request

The request handler of `asio_svr_entry`: a response of the matching service is throttled or filled in
from the request, changed by its Lua function, and sent.  Two things of a thread outlive the request:
the container of trailers, which only a Lua call on the same thread clears, and the throttle ratio,
which is a static variable of a member function and so the ratio of the first throttled response for
all of them.

* `answer_eq_fresh_iff`: after any history a thread sends for a request what a new thread sends exactly
  when the old ratio decides as the response's own would, and no old trailers are left where no Lua
  function of the response clears them.
* `throttled_by_first`: the numbers that throttle a response are those of the first throttled response
  of the thread.

Which service matches is a function of the request (`MockServer.Services`), which of its responses is
taken a random choice; both are part of the input, as are the numbers drawn, the clock, the JSON and
the regular expression library and what the Lua function returns.  A table it returns has strings for
keys and values.  Where a pointer of an argument makes the program end (`MockServer.JsonPointers`), so
does the request.
-/
import H2LoadRunner.Library.Strings
import H2LoadRunner.MockServer.Http1Handler
import H2LoadRunner.MockServer.JsonPointers

namespace H2LoadRunner.MockServer.Responses

open Library
open JsonPointers (atoi JsonLibrary Fault decode getValueFromJsonPtr)
open Http1 (Text HeaderMap HeaderValue uint32)

set_option autoImplicit false

/-! ## Filling in a response -/

/-- The libraries that look into a text. -/
structure Engines where
  json : JsonLibrary
  regexSearch : (subject pattern : Text) → Option Text

structure Message where
  headers : List (Text × Text)
  rawPayload : Text

inductive ValueType where
  | invalid
  | randomHex
  | timestamp
  | uuid
  | rawPayload
  deriving DecidableEq

structure Argument where
  jsonPointer : Text := []
  substringStart : Int
  substringLength : Int
  headerName : Text := []
  regex : Option Text := none
  valType : ValueType := .invalid
  deriving DecidableEq

namespace Argument

/-- Where the value comes from; `drawn` is what the generators or the clock give. -/
def source (engines : Engines) (msg : Message) (drawn : Text) (arg : Argument) : Except Fault Text :=
  if arg.jsonPointer ≠ [] then
    getValueFromJsonPtr engines.json (decode engines.json msg.rawPayload) arg.jsonPointer
  else
    match msg.headers.find? fun header => arg.headerName ≠ [] ∧ header.1 = arg.headerName with
    | some header => .ok header.2
    | none =>
      match arg.valType with
      | .randomHex | .timestamp | .uuid => .ok drawn
      | .rawPayload => .ok msg.rawPayload
      | .invalid => .ok []

/-- The value behind the regular expression. -/
def extracted (engines : Engines) (msg : Message) (drawn : Text) (arg : Argument) : Except Fault Text :=
  (arg.source engines msg drawn).map fun text =>
    match arg.regex with
    | none => text
    | some pattern => (engines.regexSearch text pattern).getD []

/-- A negative start is compared as an unsigned number, a negative length means the whole rest. -/
def substring (arg : Argument) (text : Text) : Text :=
  if (0 < arg.substringStart ∨ arg.substringLength ≠ -1) ∧ 0 ≤ arg.substringStart ∧
      arg.substringStart < text.length then
    let rest := text.drop arg.substringStart.toNat
    if arg.substringLength < 0 then rest else rest.take arg.substringLength.toNat
  else text

def getValue (engines : Engines) (msg : Message) (drawn : Text) (arg : Argument) : Except Fault Text :=
  (arg.extracted engines msg drawn).map arg.substring

end Argument

/-- A text with placeholders: the pieces, and an argument for each place between two of them. -/
structure Template where
  tokens : List Text
  arguments : List Argument := []
  deriving DecidableEq

/-- Each token is followed by the value of its argument, if it has one. -/
def interleave : List Text → List Text → Text
  | [], _ => []
  | token :: tokens, [] => token ++ interleave tokens []
  | token :: tokens, value :: values => token ++ value ++ interleave tokens values

def Template.values (engines : Engines) (msg : Message) (drawn : Nat → Text) (template : Template) :
    Except Fault (List Text) :=
  template.arguments.zipIdx.mapM fun entry => entry.1.getValue engines msg (drawn entry.2)

def Template.fill (engines : Engines) (msg : Message) (drawn : Nat → Text) (template : Template) :
    Except Fault Text :=
  (template.values engines msg drawn).map (interleave template.tokens)

/-! ## Headers -/

/-- `std::map<std::string, std::string>`, in the order of its keys. -/
abbrev Headers := List (Text × Text)

namespace Headers

def assign (name value : Text) : Headers → Headers
  | [] => [(name, value)]
  | entry :: rest =>
    if name = entry.1 then (name, value) :: rest
    else if name < entry.1 then (name, value) :: entry :: rest
    else entry :: assign name value rest

def find (name : Text) (headers : Headers) : Option Text :=
  (headers.find? (·.1 = name)).map Prod.snd

/-- `insert`, which leaves an entry that is there. -/
def insert (name value : Text) (headers : Headers) : Headers :=
  if (find name headers).isSome then headers else assign name value headers

def erase (name : Text) (headers : Headers) : Headers := headers.filter (·.1 ≠ name)

end Headers

/-- The name is what stands in front of the first colon behind the first character. -/
def splitHeader (text : Text) : Text × Text :=
  match Strings.find ":".toList (text.drop 1) with
  | none => (text, text)
  | some position => (text.take (position + 1), text.drop (position + 2))

/-! ## A configured response -/

structure Response where
  statusCode : Nat
  additonalHeaders : List Template := []
  payload : Template := ⟨[[]], []⟩
  /-- Whether there is a Lua state. -/
  lua : Bool := false
  luaOffload : Bool := false
  /-- `throttle_ratio * scale`, where the ratio is positive. -/
  throttle : Option Nat := none

def Response.produceHeaders (engines : Engines) (msg : Message) (drawn : Nat → Nat → Text)
    (response : Response) : Except Fault Headers :=
  response.additonalHeaders.zipIdx.foldlM
    (fun headers entry => do
      let header := splitHeader (← entry.1.fill engines msg (drawn entry.2))
      return Headers.insert header.1 header.2 headers) []

def Response.producePayload (engines : Engines) (msg : Message) (drawn : Nat → Nat → Text)
    (response : Response) : Except Fault Text :=
  response.payload.fill engines msg (drawn response.additonalHeaders.length)

/-! ## The Lua function -/

inductive LuaValue where
  | string (text : Text)
  | table (entries : List (Text × Text))
  | other

/-- What comes of calling `customize_response`. -/
inductive LuaResult where
  /-- The name is no function any more. -/
  | notFunction
  /-- The program exits. -/
  | error
  | values (first second : LuaValue)

structure Draft where
  headers : Headers
  trailers : Headers
  payload : Text

def Draft.take (draft : Draft) : LuaValue → Draft
  | .string text => { draft with payload := text }
  | .table entries =>
    let fill := fun headers => entries.foldl (fun headers entry => Headers.assign entry.1 entry.2 headers) headers
    if draft.trailers ≠ [] then { draft with headers := fill draft.headers }
    else { draft with trailers := fill draft.trailers }
  | .other => draft

/-- `H2Server_Response::update_response_with_lua`; the last result is on top of the stack. -/
def updateResponseWithLua (draft : Draft) : LuaResult → Option Draft
  | .notFunction => some draft
  | .error => none
  | .values first second =>
    let filled := (Draft.mk [] [] draft.payload |>.take second).take first
    some (if filled.headers = [] then ⟨filled.trailers, filled.headers, filled.payload⟩ else filled)

def statusName : Text := ":status".toList

def Draft.statusCode (draft : Draft) (configured : Nat) : Nat :=
  match Headers.find statusName draft.headers with
  | none => configured
  | some text => uint32 (atoi text)

/-! ## The thread -/

inductive Answer where
  | closed
  | sent (statusCode : Nat) (headers : HeaderMap) (payload : Text) (trailers : HeaderMap)
  /-- A request processor answers on its own. -/
  | processed
  | exits
  deriving DecidableEq

def sendResponse (statusCode : Nat) (headers : Headers) (payload : Text) (trailers : Headers) : Answer :=
  if statusCode = 0 then .closed
  else
    .sent statusCode (Http1.Handler.responseHeaders headers payload trailers) payload
      (Http1.Handler.headerMap trailers)

structure Thread where
  trailerHeaders : Headers := []
  scaledThrottleRatio : Option Nat := none

inductive Matched where
  | none
  | processor
  | response (response : Response)

/-- A request, and what is not decided by the server when it serves it. -/
structure Visit where
  message : Message
  matched : Matched
  /-- The number drawn for the throttling. -/
  number : Nat := 0
  /-- What the generators or the clock give for each argument of each header; the payload follows the
  headers. -/
  drawn : Nat → Nat → Text := fun _ _ => []
  lua : LuaResult := .notFunction

def Thread.ratio (t : Thread) (response : Response) : Option Nat :=
  response.throttle.map fun own => t.scaledThrottleRatio.getD own

def Thread.isResponseThrottled (t : Thread) (response : Response) (number : Nat) : Bool :=
  (t.ratio response).any (number < ·)

/-- The static variable is initialised when it is needed first. -/
def Thread.throttling (t : Thread) (response : Response) : Thread :=
  { t with scaledThrottleRatio := t.ratio response <|> t.scaledThrottleRatio }

/-- What is filled in from the request, without trailers. -/
def Visit.draft (engines : Engines) (v : Visit) (response : Response) : Except Fault Draft := do
  let headers ← response.produceHeaders engines v.message v.drawn
  let payload ← response.producePayload engines v.message v.drawn
  return ⟨headers, [], payload⟩

def Visit.respond (v : Visit) (response : Response) (produced : Draft) (trailers : Headers) : Headers × Answer :=
  let draft := { produced with trailers := trailers }
  if response.lua then
    match updateResponseWithLua draft v.lua with
    | none => (trailers, .exits)
    | some updated =>
      let statusCode := updated.statusCode response.statusCode
      let headers := Headers.erase statusName updated.headers
      -- The offloaded call works on a copy, and what it gives for trailers is not sent.
      if response.luaOffload then (trailers, sendResponse statusCode headers updated.payload [])
      else (updated.trailers, sendResponse statusCode headers updated.payload updated.trailers)
  else (trailers, sendResponse response.statusCode draft.headers draft.payload trailers)

def Visit.reply (engines : Engines) (v : Visit) (response : Response) (trailers : Headers) :
    Headers × Answer :=
  match v.draft engines response with
  | .ok produced => v.respond response produced trailers
  | .error _ => (trailers, .exits)

def notFound : Text := "no matched entry found\r\n".toList

def serve (engines : Engines) (t : Thread) (v : Visit) : Thread × Answer :=
  match v.matched with
  | .none =>
    (t, .sent 404
      (Http1.Handler.headerMap
        [("reason".toList, "no match found".toList),
          ("content-length".toList, (toString notFound.length).toList)]) notFound [])
  | .processor => (t, .processed)
  | .response response =>
    if t.isResponseThrottled response v.number then (t.throttling response, .closed)
    else
      let (trailers, answer) := v.reply engines response t.trailerHeaders
      ({ t.throttling response with trailerHeaders := trailers }, answer)

def after (engines : Engines) (history : List Visit) : Thread :=
  history.foldl (fun t v => (serve engines t v).1) {}

/-! ## What is stated -/

def Visit.KeepsTrailers (v : Visit) (response : Response) : Prop :=
  response.lua = false ∨ response.luaOffload = false ∧ v.lua = .notFunction

def Visit.ClosesWith (v : Visit) (response : Response) (produced : Draft) : Prop :=
  if response.lua then
    ∃ updated, updateResponseWithLua produced v.lua = some updated ∧
      updated.statusCode response.statusCode = 0
  else response.statusCode = 0

/-- The status, as configured or as the Lua function gives it, is zero: the stream is closed without a
response. -/
def Visit.Closes (engines : Engines) (v : Visit) (response : Response) : Prop :=
  ∃ produced, v.draft engines response = .ok produced ∧ v.ClosesWith response produced

/-- What the thread has of earlier requests decides nothing about this one. -/
def Undisturbed (engines : Engines) (t : Thread) (v : Visit) : Prop :=
  ∀ response, v.matched = .response response → v.Closes engines response ∨
    (t.isResponseThrottled response v.number = Thread.isResponseThrottled {} response v.number ∧
      (t.isResponseThrottled response v.number = false → (v.draft engines response).isOk →
        v.KeepsTrailers response → t.trailerHeaders = []))

/-! ## What is sent -/

theorem length_emplace (name : Text) (value : HeaderValue) (header : HeaderMap) :
    (header.emplace name value).length = header.length + 1 := by
  induction header with
  | nil => rfl
  | cons entry rest ih =>
    rw [HeaderMap.emplace]
    split
    · rfl
    · rw [List.length_cons, ih, List.length_cons]

theorem length_headerMap (headers : Headers) : (Http1.Handler.headerMap headers).length = headers.length := by
  suffices all : ∀ (headers : Headers) (map : HeaderMap),
      (headers.foldl (fun map entry => HeaderMap.emplace entry.1 ⟨entry.2, false⟩ map) map).length =
        map.length + headers.length by
    have := all headers []
    rwa [List.length_nil, Nat.zero_add] at this
  intro headers
  induction headers with
  | nil => exact fun map => rfl
  | cons entry rest ih =>
    intro map
    rw [List.foldl_cons, ih, length_emplace, List.length_cons]
    omega

theorem sendResponse_eq_closed {statusCode : Nat} {headers trailers : Headers} {payload : Text} :
    sendResponse statusCode headers payload trailers = .closed ↔ statusCode = 0 := by
  rw [sendResponse]
  split <;> simp_all

theorem sendResponse_eq_iff {statusCode : Nat} {headers trailers : Headers} {payload : Text} :
    sendResponse statusCode headers payload trailers = sendResponse statusCode headers payload [] ↔
      statusCode = 0 ∨ trailers = [] := by
  constructor
  · intro same
    by_cases zero : statusCode = 0
    · exact .inl zero
    · rw [sendResponse, sendResponse, if_neg zero, if_neg zero] at same
      have lengths := congrArg List.length (Answer.sent.inj same).2.2.2
      rw [length_headerMap, length_headerMap] at lengths
      exact .inr (List.eq_nil_of_length_eq_zero lengths)
  · rintro (zero | rfl)
    · rw [sendResponse, sendResponse, if_pos zero, if_pos zero]
    · rfl

theorem respond_closed_iff (v : Visit) (response : Response) (produced : Draft) (trailers : Headers) :
    (v.respond response produced trailers).2 = .closed ↔ v.ClosesWith response produced := by
  rw [Visit.ClosesWith, Visit.respond]
  by_cases lua : response.lua = true
  · rw [if_pos lua, if_pos lua]
    cases v.lua with
    | notFunction =>
      simp only [updateResponseWithLua, Option.some.injEq, exists_eq_left']
      split <;> exact sendResponse_eq_closed
    | error => simp [updateResponseWithLua]
    | values first second =>
      simp only [updateResponseWithLua, Option.some.injEq, exists_eq_left']
      split <;> exact sendResponse_eq_closed
  · rw [if_neg lua, if_neg lua]
    exact sendResponse_eq_closed

theorem respond_of_keeps {v : Visit} {response : Response} (produced : Draft)
    (keeps : v.KeepsTrailers response) : ∃ statusCode headers payload, ∀ trailers,
      (v.respond response produced trailers).2 = sendResponse statusCode headers payload trailers := by
  by_cases lua : response.lua = true
  · obtain plain | ⟨here, failed⟩ := keeps
    · rw [plain] at lua
      cases lua
    · refine ⟨produced.statusCode response.statusCode, Headers.erase statusName produced.headers,
        produced.payload, fun trailers => ?_⟩
      rw [Visit.respond, if_pos lua, failed]
      simp only [updateResponseWithLua, here, Bool.false_eq_true, if_false]
      rfl
  · refine ⟨response.statusCode, produced.headers, produced.payload, fun trailers => ?_⟩
    rw [Visit.respond, if_neg lua]

theorem respond_of_not_keeps {v : Visit} {response : Response} (produced : Draft)
    (clears : ¬ v.KeepsTrailers response) (trailers : Headers) :
    (v.respond response produced trailers).2 = (v.respond response produced []).2 := by
  have lua : response.lua = true := by
    by_contra plain
    exact clears (.inl (by simpa using plain))
  rw [Visit.respond, Visit.respond, if_pos lua, if_pos lua]
  cases result : v.lua with
  | notFunction =>
    have offload : response.luaOffload = true := by
      by_contra here
      exact clears (.inr ⟨by simpa using here, result⟩)
    simp only [updateResponseWithLua, offload, if_true]
    rfl
  | error => rfl
  | values first second =>
    simp only [updateResponseWithLua]
    split <;> rfl

/-- The trailers of the thread decide nothing about whether the stream is closed. -/
theorem reply_closed_iff (engines : Engines) (v : Visit) (response : Response) (trailers : Headers) :
    (v.reply engines response trailers).2 = .closed ↔ v.Closes engines response := by
  rw [Visit.Closes, Visit.reply]
  cases v.draft engines response with
  | error fault => simp
  | ok produced => simpa using respond_closed_iff v response produced trailers

theorem reply_eq_iff (engines : Engines) (v : Visit) (response : Response) (trailers : Headers) :
    (v.reply engines response trailers).2 = (v.reply engines response []).2 ↔
      v.Closes engines response ∨
        ((v.draft engines response).isOk → v.KeepsTrailers response → trailers = []) := by
  rw [Visit.Closes, Visit.reply, Visit.reply]
  cases v.draft engines response with
  | error fault => simp [Except.isOk, Except.toBool]
  | ok produced =>
    simp only [Except.ok.injEq, exists_eq_left', Except.isOk, Except.toBool, true_imp_iff]
    by_cases keeps : v.KeepsTrailers response
    · obtain ⟨statusCode, headers, payload, sent⟩ := respond_of_keeps produced keeps
      rw [← respond_closed_iff v response produced trailers, sent, sent, sendResponse_eq_iff,
        sendResponse_eq_closed, imp_iff_right keeps]
    · exact iff_of_true (respond_of_not_keeps produced keeps trailers) (.inr fun kept => absurd kept keeps)

/-- **A thread sends what a new thread sends exactly when what it has of earlier requests decides
nothing about this one.** -/
theorem answer_eq_fresh_iff (engines : Engines) (history : List Visit) (v : Visit) :
    (serve engines (after engines history) v).2 = (serve engines (after engines []) v).2 ↔
      Undisturbed engines (after engines history) v := by
  generalize after engines history = t
  have fresh : after engines [] = {} := rfl
  rw [fresh, Undisturbed]
  cases matched : v.matched with
  | none => simp [serve, matched]
  | processor => simp [serve, matched]
  | response response =>
    have closes := reply_closed_iff engines v response
    have same := reply_eq_iff engines v response t.trailerHeaders
    simp only [serve, matched, Matched.response.injEq, forall_eq']
    cases old : t.isResponseThrottled response v.number <;>
      cases own : Thread.isResponseThrottled {} response v.number
    · simpa using same
    · simpa using closes t.trailerHeaders
    · simpa using eq_comm.trans (closes [])
    · simp

/-! ## The throttle ratio -/

/-- The numbers that are drawn are below `max_range * scale`. -/
def drawn : Nat := 100 * 10000

/-- The ratio of the response that is evaluated for the request, if it is throttled at all. -/
def Visit.throttle (v : Visit) : Option Nat :=
  match v.matched with
  | .response response => response.throttle
  | _ => none

theorem serve_scaledThrottleRatio (engines : Engines) (t : Thread) (v : Visit) :
    (serve engines t v).1.scaledThrottleRatio = t.scaledThrottleRatio.or v.throttle := by
  cases matched : v.matched with
  | none => simp [serve, Visit.throttle, matched]
  | processor => simp [serve, Visit.throttle, matched]
  | response response =>
    have kept : (t.throttling response).scaledThrottleRatio = t.scaledThrottleRatio.or response.throttle := by
      rw [Thread.throttling, Thread.ratio]
      cases response.throttle <;> cases t.scaledThrottleRatio <;> rfl
    simp only [serve, Visit.throttle, matched]
    split <;> exact kept

/-- A thread has the ratio of the first throttled response that was evaluated on it. -/
theorem after_scaledThrottleRatio (engines : Engines) (history : List Visit) :
    (after engines history).scaledThrottleRatio = history.findSome? Visit.throttle := by
  suffices all : ∀ t : Thread, (history.foldl (fun t v => (serve engines t v).1) t).scaledThrottleRatio =
      t.scaledThrottleRatio.or (history.findSome? Visit.throttle) from all {}
  induction history with
  | nil => simp
  | cons v history ih =>
    intro t
    rw [List.foldl_cons, ih, serve_scaledThrottleRatio, List.findSome?_cons]
    cases t.scaledThrottleRatio <;> cases v.throttle <;> rfl

theorem card_throttled (t : Thread) {response : Response} {own : Nat} (throttles : response.throttle = some own) :
    ((Finset.range drawn).filter fun number => t.isResponseThrottled response number).card =
      min (t.scaledThrottleRatio.getD own) drawn := by
  have numbers : ((Finset.range drawn).filter fun number => t.isResponseThrottled response number) =
      Finset.range (min (t.scaledThrottleRatio.getD own) drawn) := by
    ext number
    simp [Thread.isResponseThrottled, Thread.ratio, throttles, and_comm]
  rw [numbers, Finset.card_range]

def noEngines : Engines := ⟨⟨fun _ => none, fun _ _ => none, fun _ => []⟩, fun _ _ => none⟩

/-- A request that a response without a Lua function is taken for. -/
def plainVisit (throttle : Option Nat) (number : Nat) : Visit where
  message := ⟨[], []⟩
  matched := .response { statusCode := 200, throttle := throttle }
  number := number

/-- A request that a response with a Lua function is taken for, which returns two tables. -/
def luaVisit (headers trailers : List (Text × Text)) : Visit where
  message := ⟨[], []⟩
  matched := .response { statusCode := 200, lua := true }
  lua := .values (.table headers) (.table trailers)

/-- **Satisfiable pole:** a Lua function that returns no trailers, and a response with the same ratio. -/
theorem firstOfMany_undisturbed :
    (serve noEngines (after noEngines [luaVisit [("a".toList, "b".toList)] [], plainVisit (some 10) 20])
      (plainVisit (some 10) 5)).2 = (serve noEngines (after noEngines []) (plainVisit (some 10) 5)).2 := by
  refine (answer_eq_fresh_iff noEngines _ _).mpr ?_
  intro response matched
  cases matched
  exact .inr ⟨by decide +kernel, fun _ _ _ => by decide +kernel⟩

/-- **Refuting pole:** trailers of an earlier Lua function are sent with a response that has none, and
the ratio of an earlier response throttles another one. -/
theorem staleState_disturbs : (serve noEngines
        (after noEngines [luaVisit [("a".toList, "b".toList)] [("secret".toList, "1".toList)]])
        (plainVisit none 0)).2 ≠ (serve noEngines (after noEngines []) (plainVisit none 0)).2 ∧
      (serve noEngines (after noEngines [plainVisit (some 1000000) 0]) (plainVisit (some 10000) 50000)).2 ≠
        (serve noEngines (after noEngines []) (plainVisit (some 10000) 50000)).2 := by
  decide +kernel

end H2LoadRunner.MockServer.Responses
