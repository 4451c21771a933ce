/-
# Lua.RequestSent -- telling a script that its request was sent

A script's request waits in `requests_to_submit` with a `request_sent_callback`.
Submitting it moves the object into a variable of the session and from there into
`requests_awaiting_response`; `on_request_start` then invokes the callback with the stream
id.  When the connection is lost, the callbacks of the requests that still have one are
invoked with -1.

Between the queue and the map the object can be dropped: `nghttp2_submit_request` may fail after the
request was taken from the queue (`failed_not_told`), and `emplace` onto a stream id that still has
an entry keeps the old one.  Every callback is invoked exactly once, throughout a run, exactly if no
submission does either (`told_once_iff`).
-/
import H2LoadRunner.Library.Custody
import H2LoadRunner.Library.FiniteMap
import H2LoadRunner.Library.Transition

namespace H2LoadRunner.Lua.RequestSent

open Library
open Library.Transition (run Along along_iff_throughout exists_run)

set_option autoImplicit false

/-! ## The client -/

/-- `Request_Data`, as far as it matters here. -/
structure Request where
  /-- Tells the requests apart. -/
  number : Nat
  /-- Whether `request_sent_callback` is set. -/
  requestSentCallback : Bool
  /-- How many bytes of the payload have not been passed to the connection. -/
  payload : Nat

/-- The fields of the two kinds of session that decide how a request is submitted. -/
inductive Session
  | http1 (streamReqCounter streamRespCounter : Int) (complete : Bool)
  | http2 (currStreamId : Int)

structure Client where
  maxConcurrentStreams : Nat
  session : Option Session
  requestsToSubmit : List Request
  requestsAwaitingResponse : FiniteMap Int Request
  streams : Finset Int
  /-- Every request queued, and every callback invoked, with the stream id it was given. -/
  queued : List Nat
  invoked : List (Nat × Int)

inductive Fault
  /-- The event cannot happen in this state. -/
  | disabled

structure Attempt where
  /-- `nghttp2_session_check_request_allowed`. -/
  requestAllowed : Bool
  /-- `nghttp2_submit_request`: the stream id, or an error. -/
  submitted : Int

def int32Max : Int := 2147483647

namespace Client

def initial (maxConcurrentStreams : Nat) : Client where
  maxConcurrentStreams := maxConcurrentStreams
  session := none
  requestsToSubmit := []
  requestsAwaitingResponse := ∅
  streams := ∅
  queued := []
  invoked := []

/-- A Lua client is its own and only destination: `get_total_pending_streams` counts its
streams twice. -/
def totalPendingStreams (s : Client) : Nat := s.streams.card + s.streams.card

def sessionMaxConcurrentStreams (s : Client) : Session → Nat
  | .http1 .. => 1
  | .http2 _ => s.maxConcurrentStreams

/-- The callback of the request under `id`, if there is one that has one, is invoked and
moved out. -/
def onRequestStart (s : Client) (id : Int) : Client :=
  let s := { s with streams := insert id (s.streams.erase id) }
  match s.requestsAwaitingResponse.lookup id with
  | some request =>
    if request.requestSentCallback then
      { s with
        invoked := s.invoked ++ [(request.number, id)]
        requestsAwaitingResponse := FiniteMap.adjust id
          (fun request => { request with requestSentCallback := false })
          s.requestsAwaitingResponse }
    else s
  | none => s

/-- The request goes into the map, unless its stream id is taken, and is started. -/
def start (s : Client) (id : Int) (request : Request) : Client :=
  { s with requestsAwaitingResponse := FiniteMap.emplace id request s.requestsAwaitingResponse }
    |>.onRequestStart id

/-- `on_stream_close`, without the submission that follows it. -/
def onStreamClose (s : Client) (id : Int) : Client :=
  if id ∈ s.streams then
    { s with
      requestsAwaitingResponse := s.requestsAwaitingResponse.erase id
      streams := s.streams.erase id }
  else s

/-- `Http1Session::_on_write`: up to 16 KiB of the payload; after the last byte the next
stream id is due, and a response that came early closes its stream. -/
def http1OnWrite (s : Client) (reqCounter respCounter : Int) (complete : Bool) : Client :=
  if complete then s
  else if reqCounter ∈ s.streams then
    match s.requestsAwaitingResponse.lookup reqCounter with
    | some request =>
      if request.payload = 0 then s
      else
        let sent := { s with
          requestsAwaitingResponse := FiniteMap.adjust reqCounter
            (fun request => { request with payload := request.payload - 16384 })
            s.requestsAwaitingResponse }
        if 16384 < request.payload then sent
        else
          let next := { sent with
            session := some (.http1 (reqCounter + 2) respCounter complete) }
          if respCounter = reqCounter + 2 then next.onStreamClose (respCounter - 2) else next
    | none => s
  else s

/-- `_submit_request` of the session, on the first queued request. -/
def sessionSubmitRequest (s : Client) (request : Request) (rest : List Request)
    (attempt : Attempt) : Session → Client
  | .http1 reqCounter respCounter complete =>
    let started := { s with requestsToSubmit := rest }.start reqCounter request
    if request.payload = 0 then
      { started with session := some (.http1 (reqCounter + 2) respCounter complete) }
    else started.http1OnWrite reqCounter respCounter complete
  | .http2 currStreamId =>
    if attempt.requestAllowed = false ∨ int32Max - 1 ≤ currStreamId then s
    else if attempt.submitted < 0 then { s with requestsToSubmit := rest }
    else
      { s with requestsToSubmit := rest, session := some (.http2 attempt.submitted) }
        |>.start attempt.submitted request

def submitRequest (s : Client) (session : Session) (attempt : Attempt) : Client :=
  match s.requestsToSubmit with
  | [] => s
  | request :: rest =>
    if s.sessionMaxConcurrentStreams session ≤ s.totalPendingStreams then s
    else s.sessionSubmitRequest request rest attempt session

/-- The callbacks of `cleanup_due_to_disconnect`: those of requests that are awaiting a
response and still have one, then those of all queued requests. -/
def cleanupDueToDisconnect (s : Client) : Client :=
  let awaiting := (s.requestsAwaitingResponse.entries.mergeSort fun a b => a.1 ≤ b.1).map
    fun entry => entry.2
  let untold := (awaiting ++ s.requestsToSubmit).filter (·.requestSentCallback)
  { s with
    session := none
    streams := ∅
    invoked := s.invoked ++ untold.map fun request => (request.number, -1)
    requestsAwaitingResponse := FiniteMap.mapValues
      (fun request => { request with requestSentCallback := false }) s.requestsAwaitingResponse
    requestsToSubmit := [] }

end Client

/-! ## Events -/

/-- `on_stream_close` ends with a submission, and so does the connected callback of a script;
submissions are events of their own here, which may follow any other. -/
inductive Event
  /-- The connected callback of a script puts a request into the queue. -/
  | sendHttpRequest (payload : Nat)
  | submitRequest (attempt : Attempt)
  | onWrite
  | streamClose (id : Int)
  /-- The end of `htp_msg_completecb`: the next response is due. -/
  | http1MessageComplete (final : Bool)
  | terminate
  | disconnect
  | connectionMade (http2 : Bool)

def step (s : Client) : Event → Except Fault Client
  | .sendHttpRequest payload =>
    .ok { s with
      queued := s.queued ++ [s.queued.length]
      requestsToSubmit := s.requestsToSubmit ++ [⟨s.queued.length, true, payload⟩] }
  | .submitRequest attempt =>
    match s.session with
    | some session => .ok (s.submitRequest session attempt)
    | none => .error .disabled
  | .onWrite =>
    match s.session with
    | some (.http1 reqCounter respCounter complete) =>
      .ok (s.http1OnWrite reqCounter respCounter complete)
    | some (.http2 _) => .ok s
    | none => .error .disabled
  | .streamClose id => .ok (s.onStreamClose id)
  | .http1MessageComplete final =>
    match s.session with
    | some (.http1 reqCounter respCounter complete) =>
      let due := respCounter + 2
      .ok { s with
        session := some (.http1 (if final then due else reqCounter) due complete) }
    | some (.http2 _) | none => .error .disabled
  | .terminate =>
    match s.session with
    | some (.http1 reqCounter respCounter _) =>
      .ok { s with session := some (.http1 reqCounter respCounter true) }
    | some (.http2 _) => .ok s
    | none => .error .disabled
  | .disconnect => .ok s.cleanupDueToDisconnect
  | .connectionMade http2 =>
    .ok { s with session := some (if http2 then .http2 0 else .http1 1 1 false) }

/-! ## What every event keeps -/

def untold (requests : List Request) : List Nat :=
  (requests.filter (·.requestSentCallback)).map (·.number)

def holds (number : Nat) (_ : Int) (request : Request) : Nat :=
  if request.requestSentCallback = true ∧ request.number = number then 1 else 0

def Client.held (s : Client) (number : Nat) : Nat :=
  (untold s.requestsToSubmit).count number +
    FiniteMap.sum (holds number) s.requestsAwaitingResponse

/-- Every request queued is held with its callback, or the callback has been invoked, once. -/
def EachOnce (s : Client) : Prop := Custody s.queued s.held (s.invoked.map Prod.fst)

structure Sound (s : Client) : Prop where
  numbered : ∀ number ∈ s.queued, number < s.queued.length
  /-- A queued request has its callback; one that was started has not. -/
  waiting : ∀ request ∈ s.requestsToSubmit, request.requestSentCallback = true
  told : ∀ id, ∀ request ∈ s.requestsAwaitingResponse.lookup id,
    request.requestSentCallback = false

theorem sound_initial (maxConcurrentStreams : Nat) : Sound (.initial maxConcurrentStreams) :=
  ⟨nofun, nofun, nofun⟩

theorem Sound.held_eq {s : Client} (sound : Sound s) (number : Nat) :
    s.held number = (untold s.requestsToSubmit).count number := by
  refine Nat.add_eq_left.mpr (FiniteMap.sum_eq_zero _ fun id request found => ?_)
  refine if_neg fun both => ?_
  rw [sound.told id request found] at both
  cases both.1

/-- The event leaves the queue and the callbacks alone. -/
structure Unmoved (s t : Client) : Prop where
  queued : t.queued = s.queued
  requestsToSubmit : t.requestsToSubmit = s.requestsToSubmit
  invoked : t.invoked = s.invoked
  told : ∀ id, ∀ request ∈ t.requestsAwaitingResponse.lookup id,
    ∃ before ∈ s.requestsAwaitingResponse.lookup id,
      request.requestSentCallback = before.requestSentCallback

namespace Unmoved

variable {s t : Client}

theorem refl (s : Client) : Unmoved s s := ⟨rfl, rfl, rfl, fun _ request found => ⟨request, found, rfl⟩⟩

theorem sound (unmoved : Unmoved s t) (sound : Sound s) : Sound t where
  numbered := by
    rw [unmoved.queued]
    exact sound.numbered
  waiting := by
    rw [unmoved.requestsToSubmit]
    exact sound.waiting
  told := by
    intro id request found
    obtain ⟨before, present, same⟩ := unmoved.told id request found
    rw [same, sound.told id before present]

theorem eachOnce_iff (unmoved : Unmoved s t) (sound : Sound s) : EachOnce t ↔ EachOnce s := by
  have same : ∀ number, t.held number = s.held number := fun number => by
    rw [(unmoved.sound sound).held_eq, sound.held_eq, unmoved.requestsToSubmit]
  rw [EachOnce, EachOnce, unmoved.queued, unmoved.invoked]
  exact ⟨fun once => once.move fun number => (same number).symm, fun once => once.move same⟩

end Unmoved

theorem unmoved_onStreamClose (s : Client) (id : Int) : Unmoved s (s.onStreamClose id) := by
  unfold Client.onStreamClose
  split
  · refine ⟨rfl, rfl, rfl, fun other request found => ⟨request, ?_, rfl⟩⟩
    simp only [FiniteMap.lookup_erase_eq] at found
    split at found
    · cases found
    · exact found
  · exact .refl s

theorem Unmoved.trans {s t u : Client} (first : Unmoved s t) (second : Unmoved t u) : Unmoved s u where
  queued := second.queued.trans first.queued
  requestsToSubmit := second.requestsToSubmit.trans first.requestsToSubmit
  invoked := second.invoked.trans first.invoked
  told := by
    intro id request found
    obtain ⟨middle, present, same⟩ := second.told id request found
    obtain ⟨before, earlier, as_before⟩ := first.told id middle present
    exact ⟨before, earlier, same.trans as_before⟩

theorem unmoved_http1OnWrite (s : Client) (reqCounter respCounter : Int) (complete : Bool) :
    Unmoved s (s.http1OnWrite reqCounter respCounter complete) := by
  have sent : ∀ session, Unmoved s
      { s with
        session := session
        requestsAwaitingResponse := FiniteMap.adjust reqCounter
          (fun request => { request with payload := request.payload - 16384 })
          s.requestsAwaitingResponse } := by
    intro session
    refine ⟨rfl, rfl, rfl, fun id request found => ?_⟩
    obtain ⟨before, present, same⟩ := FiniteMap.exists_of_lookup_adjust found
    exact ⟨before, present, by rcases same with rfl | rfl <;> rfl⟩
  unfold Client.http1OnWrite
  split
  · exact .refl s
  · split
    · split
      · split
        · exact .refl s
        · simp only
          split
          · exact sent s.session
          · split
            · exact (sent _).trans (unmoved_onStreamClose _ _)
            · exact sent _
      · exact .refl s
    · exact .refl s

/-! ## A submission -/

section

variable {s : Client} {request : Request} {rest : List Request}

theorem start_vacant (callback : request.requestSentCallback = true) {id : Int}
    (vacant : s.requestsAwaitingResponse.lookup id = none) :
    s.start id request =
      { s with
        streams := insert id (s.streams.erase id)
        invoked := s.invoked ++ [(request.number, id)]
        requestsAwaitingResponse := FiniteMap.adjust id
          (fun request => { request with requestSentCallback := false })
          (FiniteMap.emplace id request s.requestsAwaitingResponse) } := by
  have placed : (FiniteMap.emplace id request s.requestsAwaitingResponse).lookup id =
      some request := by
    rw [FiniteMap.lookup_emplace, if_pos rfl, vacant]
    rfl
  simp only [Client.start, Client.onRequestStart, placed, callback, if_true]

theorem unmoved_start_taken (sound : Sound s) {id : Int} {old : Request}
    (taken : s.requestsAwaitingResponse.lookup id = some old) (request : Request) :
    Unmoved s (s.start id request) := by
  have kept : FiniteMap.emplace id request s.requestsAwaitingResponse =
      s.requestsAwaitingResponse := by
    rw [FiniteMap.emplace, taken]
  simp only [Client.start, Client.onRequestStart, kept, taken, sound.told id old taken]
  exact ⟨rfl, rfl, rfl, fun _ request found => ⟨request, found, rfl⟩⟩

theorem Sound.start (sound : Sound s) (callback : request.requestSentCallback = true) (id : Int) :
    Sound (s.start id request) := by
  cases found : s.requestsAwaitingResponse.lookup id with
  | some old => exact (unmoved_start_taken sound found request).sound sound
  | none =>
    rw [start_vacant callback found]
    refine ⟨sound.numbered, sound.waiting, fun other later present => ?_⟩
    simp only [FiniteMap.lookup_adjust, FiniteMap.lookup_emplace] at present
    split at present
    · rw [if_pos trivial, Option.map_some] at present
      cases present
      rfl
    · exact sound.told other later present

theorem Sound.popped (sound : Sound s) (queue : s.requestsToSubmit = request :: rest)
    (session : Option Session) : Sound { s with requestsToSubmit := rest, session := session } where
  numbered := sound.numbered
  waiting := fun later member =>
    sound.waiting later (queue ▸ List.mem_cons_of_mem request member)
  told := sound.told

theorem held_popped (sound : Sound s) (queue : s.requestsToSubmit = request :: rest)
    (session : Option Session) (number : Nat) :
    { s with requestsToSubmit := rest, session := session }.held number +
      [request.number].count number = s.held number := by
  have callback := sound.waiting request (queue ▸ List.mem_cons_self)
  rw [(sound.popped queue session).held_eq, sound.held_eq, queue]
  simp only [untold, List.filter_cons, callback, if_true, List.map_cons, List.count_cons,
    List.count_nil]
  omega

theorem not_eachOnce_of_popped (sound : Sound s) (once : EachOnce s)
    (queue : s.requestsToSubmit = request :: rest) {session : Option Session} {t : Client}
    (unmoved : Unmoved { s with requestsToSubmit := rest, session := session } t) :
    ¬EachOnce t := by
  intro still
  have fewer : t.held request.number < s.held request.number := by
    have popped := held_popped sound queue session request.number
    have remaining := (sound.popped queue session).held_eq request.number
    rw [(unmoved.sound (sound.popped queue session)).held_eq, unmoved.requestsToSubmit,
      ← remaining]
    rw [List.count_singleton_self] at popped
    omega
  rw [EachOnce, unmoved.queued, unmoved.invoked] at still
  refine once.not_of_lost fewer List.not_mem_nil ?_
  rw [List.append_nil]
  exact still

theorem eachOnce_started_iff (sound : Sound s) (once : EachOnce s)
    (queue : s.requestsToSubmit = request :: rest) (session : Option Session) (id : Int) :
    EachOnce ({ s with requestsToSubmit := rest, session := session }.start id request) ↔
      s.requestsAwaitingResponse.lookup id = none := by
  have callback := sound.waiting request (queue ▸ List.mem_cons_self)
  cases found : s.requestsAwaitingResponse.lookup id with
  | some old =>
    refine iff_of_false ?_ nofun
    exact not_eachOnce_of_popped sound once queue
      (unmoved_start_taken (sound.popped queue session) found request)
  | none =>
    refine iff_of_true ?_ rfl
    have started := (sound.popped queue session).start callback id
    have invoked := start_vacant
      (s := { s with requestsToSubmit := rest, session := session }) callback found
    rw [EachOnce, invoked, List.map_append, List.map_singleton]
    refine once.discharge fun number => ?_
    rw [← invoked, started.held_eq, invoked, ← held_popped sound queue session,
      (sound.popped queue session).held_eq]

end

/-- The submission takes the first request from the queue. -/
def Takes (s : Client) (attempt : Attempt) (session : Session) : Prop :=
  s.requestsToSubmit ≠ [] ∧ s.totalPendingStreams < s.sessionMaxConcurrentStreams session ∧
    match session with
    | .http1 .. => True
    | .http2 currStreamId => attempt.requestAllowed = true ∧ currStreamId < int32Max - 1

/-- The session gives the request a stream id that no request awaiting a response has. -/
def Accepted (s : Client) (attempt : Attempt) : Session → Prop
  | .http1 reqCounter _ _ => s.requestsAwaitingResponse.lookup reqCounter = none
  | .http2 _ => 0 ≤ attempt.submitted ∧
      s.requestsAwaitingResponse.lookup attempt.submitted = none

/-- A request that is taken from the queue is accepted. -/
def Delivered (s : Client) : Event → Prop
  | .submitRequest attempt =>
    ∀ session ∈ s.session, Takes s attempt session → Accepted s attempt session
  | _ => True

section

variable {s : Client} {request : Request} {rest : List Request}

theorem http1_submit_iff (sound : Sound s) (once : EachOnce s)
    (queue : s.requestsToSubmit = request :: rest) (attempt : Attempt)
    (reqCounter respCounter : Int) (complete : Bool) :
    Sound (s.sessionSubmitRequest request rest attempt (.http1 reqCounter respCounter complete)) ∧ (EachOnce
        (s.sessionSubmitRequest request rest attempt (.http1 reqCounter respCounter complete)) ↔
        s.requestsAwaitingResponse.lookup reqCounter = none) := by
  have callback := sound.waiting request (queue ▸ List.mem_cons_self)
  have started := eachOnce_started_iff sound once queue s.session reqCounter
  have sound' := (sound.popped queue s.session).start callback reqCounter
  have unmoved : Unmoved ({ s with requestsToSubmit := rest }.start reqCounter request)
      (s.sessionSubmitRequest request rest attempt (.http1 reqCounter respCounter complete)) := by
    simp only [Client.sessionSubmitRequest]
    split
    · exact ⟨rfl, rfl, rfl, fun _ request found => ⟨request, found, rfl⟩⟩
    · exact unmoved_http1OnWrite ..
  exact ⟨unmoved.sound sound', (unmoved.eachOnce_iff sound').trans started⟩

theorem submitRequest_iff (sound : Sound s) (once : EachOnce s) (attempt : Attempt) (session : Session) :
    Sound (s.submitRequest session attempt) ∧ (EachOnce (s.submitRequest session attempt) ↔
        (Takes s attempt session → Accepted s attempt session)) := by
  unfold Client.submitRequest
  split
  · rename_i empty
    exact ⟨sound, iff_of_true once fun takes => absurd empty takes.1⟩
  · rename_i request rest queue
    have nonempty : s.requestsToSubmit ≠ [] := queue ▸ List.cons_ne_nil request rest
    split
    · rename_i refused
      exact ⟨sound, iff_of_true once fun takes => absurd takes.2.1 (Nat.not_lt.mpr refused)⟩
    · rename_i room
      have room := Nat.lt_of_not_le room
      cases session with
      | http1 reqCounter respCounter complete =>
        obtain ⟨sound', told⟩ :=
          http1_submit_iff sound once queue attempt reqCounter respCounter complete
        refine ⟨sound', told.trans ⟨fun vacant _ => vacant, fun accepted => ?_⟩⟩
        exact accepted ⟨nonempty, room, trivial⟩
      | http2 currStreamId =>
        simp only [Client.sessionSubmitRequest]
        split
        · rename_i refused
          refine ⟨sound, iff_of_true once fun takes => ?_⟩
          obtain ⟨allowed, below⟩ := takes.2.2
          rcases refused with disallowed | exhausted
          · rw [allowed] at disallowed
            cases disallowed
          · omega
        · rename_i allowed
          have takes : Takes s attempt (.http2 currStreamId) := by
            refine ⟨nonempty, room, ?_, ?_⟩
            · rw [not_or, Bool.not_eq_false] at allowed
              exact allowed.1
            · omega
          split
          · rename_i failed
            refine ⟨sound.popped queue s.session, iff_of_false ?_ fun accepted => ?_⟩
            · exact not_eachOnce_of_popped sound once queue
                (.refl { s with requestsToSubmit := rest, session := s.session })
            · exact absurd (accepted takes).1 (by omega)
          · rename_i submitted
            have callback := sound.waiting request (queue ▸ List.mem_cons_self)
            refine ⟨(sound.popped queue _).start callback _, ?_⟩
            rw [eachOnce_started_iff sound once queue]
            exact ⟨fun vacant _ => ⟨by omega, vacant⟩, fun accepted => (accepted takes).2⟩

end

/-! ## Runs -/

theorem untold_eq {requests : List Request}
    (waiting : ∀ request ∈ requests, request.requestSentCallback = true) :
    untold requests = requests.map (·.number) := by
  rw [untold, List.filter_eq_self.mpr waiting]

/-- A lost connection tells everybody who was not told. -/
theorem eachOnce_disconnect {s : Client} (sound : Sound s) (once : EachOnce s) :
    Sound s.cleanupDueToDisconnect ∧ EachOnce s.cleanupDueToDisconnect := by
  have sound' : Sound s.cleanupDueToDisconnect := by
    refine ⟨sound.numbered, nofun, fun id request found => ?_⟩
    simp only [Client.cleanupDueToDisconnect, FiniteMap.lookup_mapValues, Option.mem_def,
      Option.map_eq_some_iff] at found
    obtain ⟨before, _, rfl⟩ := found
    rfl
  have all_told : ((s.requestsAwaitingResponse.entries.mergeSort fun a b => a.1 ≤ b.1).map
      fun entry => entry.2).filter (·.requestSentCallback) = [] := by
    refine List.filter_eq_nil_iff.mpr fun request member => ?_
    obtain ⟨entry, inside, rfl⟩ := List.mem_map.mp member
    have present := AList.mem_lookup_iff.mpr (List.mem_mergeSort.mp inside)
    rw [sound.told entry.1 entry.2 present]
    nofun
  have invoked : s.cleanupDueToDisconnect.invoked.map Prod.fst =
      s.invoked.map Prod.fst ++ untold s.requestsToSubmit := by
    simp only [Client.cleanupDueToDisconnect, List.filter_append, all_told, List.nil_append,
      List.map_append, List.map_map, Function.comp_def]
    rfl
  refine ⟨sound', ?_⟩
  rw [EachOnce, invoked]
  refine once.discharge fun number => ?_
  rw [sound'.held_eq, sound.held_eq]
  exact Nat.zero_add _

theorem eachOnce_sendHttpRequest {s : Client} (sound : Sound s) (once : EachOnce s)
    (payload : Nat) {t : Client} (taken : step s (.sendHttpRequest payload) = .ok t) :
    Sound t ∧ EachOnce t := by
  cases taken
  have fresh : s.queued.length ∉ s.queued := fun before =>
    Nat.lt_irrefl _ (sound.numbered _ before)
  have sound' : Sound { s with
      queued := s.queued ++ [s.queued.length]
      requestsToSubmit := s.requestsToSubmit ++ [⟨s.queued.length, true, payload⟩] } := by
    refine ⟨fun number member => ?_, fun request member => ?_, sound.told⟩
    · rw [List.length_append, List.length_singleton]
      rcases List.mem_append.mp member with before | now
      · exact Nat.lt_succ_of_lt (sound.numbered number before)
      · rw [List.mem_singleton.mp now]
        exact Nat.lt_succ_self _
    · rcases List.mem_append.mp member with before | now
      · exact sound.waiting request before
      · rw [List.mem_singleton.mp now]
  refine ⟨sound', once.issue fresh fun number => ?_⟩
  rw [sound'.held_eq, sound.held_eq, untold_eq sound'.waiting, untold_eq sound.waiting,
    List.map_append, List.count_append]
  rfl

theorem eachOnce_step (s : Client) (e : Event) (t : Client) (sound : Sound s) (once : EachOnce s)
    (taken : step s e = .ok t) : Sound t ∧ (EachOnce t ↔ Delivered s e) := by
  have unmoved : Unmoved s t → Sound t ∧ (EachOnce t ↔ True) := fun unmoved =>
    ⟨unmoved.sound sound, iff_of_true ((unmoved.eachOnce_iff sound).mpr once) trivial⟩
  have same : ∀ session, Unmoved s { s with session := session } := fun _ =>
    ⟨rfl, rfl, rfl, fun _ request found => ⟨request, found, rfl⟩⟩
  cases e with
  | sendHttpRequest payload =>
    obtain ⟨sound', told⟩ := eachOnce_sendHttpRequest sound once payload taken
    exact ⟨sound', iff_of_true told trivial⟩
  | submitRequest attempt =>
    simp only [step] at taken
    split at taken <;> cases taken
    rename_i session connected
    obtain ⟨sound', told⟩ := submitRequest_iff sound once attempt session
    refine ⟨sound', told.trans ⟨fun accepted other present => ?_, fun delivered => ?_⟩⟩
    · rw [connected] at present
      cases present
      exact accepted
    · exact delivered session connected
  | onWrite =>
    simp only [step] at taken
    split at taken <;> cases taken
    · exact unmoved (unmoved_http1OnWrite ..)
    · exact unmoved (.refl s)
  | streamClose id =>
    cases taken
    exact unmoved (unmoved_onStreamClose s id)
  | http1MessageComplete final =>
    simp only [step] at taken
    split at taken <;> cases taken
    exact unmoved (same _)
  | terminate =>
    simp only [step] at taken
    split at taken <;> cases taken
    · exact unmoved (same _)
    · exact unmoved (.refl s)
  | disconnect =>
    cases taken
    obtain ⟨sound', told⟩ := eachOnce_disconnect sound once
    exact ⟨sound', iff_of_true told trivial⟩
  | connectionMade http2 =>
    cases taken
    exact unmoved (same _)

/-- **Every request is told once**, in every state of every run, exactly when every submission that takes a
request from the queue is accepted under a free stream id. -/
theorem told_once_iff (maxConcurrentStreams : Nat) (events : List Event) (s : Client)
    (ran : run step (.initial maxConcurrentStreams) events = .ok s) :
    (∀ n u, run step (.initial maxConcurrentStreams) (events.take n) = .ok u → EachOnce u) ↔
      Along step Delivered (.initial maxConcurrentStreams) events :=
  (along_iff_throughout eachOnce_step ran (sound_initial maxConcurrentStreams) Custody.none).symm

instance (s : Client) (attempt : Attempt) : DecidablePred (Takes s attempt)
  | .http1 .. => inferInstanceAs (Decidable (_ ∧ _ ∧ True))
  | .http2 _ => inferInstanceAs (Decidable (_ ∧ _ ∧ _ ∧ _))

instance (s : Client) (attempt : Attempt) : DecidablePred (Accepted s attempt)
  | .http1 .. => inferInstanceAs (Decidable (_ = _))
  | .http2 _ => inferInstanceAs (Decidable (_ ∧ _))

instance (s : Client) : DecidablePred (Delivered s)
  | .submitRequest attempt =>
    inferInstanceAs (Decidable (∀ session ∈ s.session, Takes s attempt session → _))
  | .sendHttpRequest _ | .onWrite | .streamClose _ | .http1MessageComplete _ | .terminate
  | .disconnect | .connectionMade _ => isTrue trivial

/-- Two requests of a script: the first is sent, the second is refused for concurrency and is
still queued when the connection is lost.  A third one is sent on the next connection. -/
def refusedAndLost : List Event :=
  [.connectionMade true, .sendHttpRequest 0, .submitRequest ⟨true, 1⟩, .sendHttpRequest 5,
    .submitRequest ⟨true, 3⟩, .streamClose 1, .disconnect, .connectionMade false,
    .sendHttpRequest 20000, .submitRequest ⟨true, 0⟩, .onWrite]

/-- **Satisfiable pole:** each of the three callbacks has been invoked. -/
theorem refusedAndLost_told :
    ∃ s, run step (.initial 2) refusedAndLost = .ok s ∧ s.invoked = [(0, 1), (1, -1), (2, 1)] ∧ EachOnce s := by
  obtain ⟨s, ran, invoked⟩ := exists_run step (.initial 2) refusedAndLost
    (fun s => s.invoked = [(0, 1), (1, -1), (2, 1)]) (by decide +kernel)
  refine ⟨s, ran, invoked, ?_⟩
  exact (told_once_iff 2 refusedAndLost s ran).mpr (by decide +kernel) refusedAndLost.length s
    (by rw [List.take_length]; exact ran)

/-- **Refuting pole:** nghttp2 fails to take a request that has left the queue; the request is in
neither place any more, and its callback is never invoked. -/
theorem failed_not_told : ∃ s, run step (.initial 2)
      [.connectionMade true, .sendHttpRequest 0, .submitRequest ⟨true, -901⟩] = .ok s ∧
      0 ∈ s.queued ∧ s.requestsToSubmit = [] ∧ s.requestsAwaitingResponse.keys = [] ∧
      s.invoked = [] :=
  exists_run step (.initial 2) _ (fun s => 0 ∈ s.queued ∧ s.requestsToSubmit = [] ∧
    s.requestsAwaitingResponse.keys = [] ∧ s.invoked = []) (by decide +kernel)

end H2LoadRunner.Lua.RequestSent
