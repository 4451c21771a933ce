/-
# Load.OpenRequests -- which request is stored for an open stream

A client stores the request it submits under the identifier of the stream
(`requests_awaiting_response`) and reads payload, headers and scenario back from
there.  A session that is set up anew counts stream identifiers from 1 again, while
`cleanup_due_to_disconnect` leaves the stored requests where they are and a later
`emplace` under the same identifier does nothing.

* `openRequestsStored_of_vacant`: in a run whose submissions all find the identifier of
  the new stream vacant, and whose HTTP/1 sessions send no body of more than 16 KiB (they
  cut what they have sent of it off the stored request), what is stored for an open stream
  is the request submitted for it, in every world on the way.
-/
import H2LoadRunner.Load.Frames
import H2LoadRunner.Load.Handling

namespace H2LoadRunner.Load

open Library Library.EffectLog

set_option autoImplicit false

/-- What is to be found for a stream: the submitted request, with the cursor where this
stream moved it.  The status of the response is filled in as it arrives. -/
def Stream.Carries (stream : Stream) (request stored : RequestData) : Prop :=
  stored = { request with reqPayloadCursor := stream.cursor, statusCode := stored.statusCode }

instance (stream : Stream) (request stored : RequestData) :
    Decidable (stream.Carries request stored) :=
  inferInstanceAs (Decidable (stored = _))

def Client.StoresOpen (client : Client) : Prop :=
  ∀ id stream request, client.streams.lookup id = some stream → stream.submitted = some request →
    ∃ stored, client.requestsAwaitingResponse.lookup id = some stored ∧
      stream.Carries request stored

def World.OpenRequestsStored (w : World) : Prop := ∀ c, (w.clients c).StoresOpen

/-! ## What the changes of a client do -/

/-- The identifier the session assigns next has no stored request, and what is queued
has not been sent in part. -/
def Client.Vacant (client : Client) : Prop :=
  client.requestsAwaitingResponse.lookup client.nextStreamId = none ∧
    ∀ request ∈ client.queued, request.reqPayloadCursor = 0

variable {client : Client}

theorem storesOpen_startRequest {cfg : Config} {phase : Phase} {serial now stray : Nat}
    {offset : Int} (stores : client.StoresOpen) (vacant : client.Vacant) :
    (client.startRequest cfg phase serial now stray offset).StoresOpen := by
  unfold Client.startRequest
  dsimp only
  split
  · -- Outside scenarios nothing is stored and nothing is recorded as submitted.
    intro id stream request opened submitted
    simp only [Client.onRequestStart, FiniteMap.lookup_insert_eq, FiniteMap.lookup_erase_eq] at opened
    split at opened
    · cases opened
      cases submitted
    · exact stores id stream request opened submitted
  · split
    · exact stores
    · rename_i front rest queue
      intro id stream request opened submitted
      simp only [Client.onRequestStart, FiniteMap.lookup_insert_eq, FiniteMap.lookup_erase_eq] at opened
      simp only [Client.onRequestStart, FiniteMap.lookup_emplace]
      by_cases new : id = client.nextStreamId
      · simp only [new, if_true] at opened ⊢
        cases opened
        obtain rfl : front = request := by simpa using submitted
        refine ⟨front, by simp [vacant.1], ?_⟩
        have unsent : front.reqPayloadCursor = 0 :=
          vacant.2 front (by simp [Client.queued, queue])
        rw [Stream.Carries, ← unsent]
      · simp only [new, if_false] at opened ⊢
        exact stores id stream request opened submitted

theorem storesOpen_of_lookup {a b : Client} (stores : a.StoresOpen)
    (onStream : Nat → Stream → Stream) (onRequest : Nat → RequestData → RequestData)
    (streams : ∀ id, b.streams.lookup id = (a.streams.lookup id).map (onStream id))
    (stored : ∀ id, b.requestsAwaitingResponse.lookup id =
      (a.requestsAwaitingResponse.lookup id).map (onRequest id))
    (submitted : ∀ id stream, (onStream id stream).submitted = stream.submitted)
    (carries : ∀ id stream request kept, a.streams.lookup id = some stream →
      stream.submitted = some request → a.requestsAwaitingResponse.lookup id = some kept →
        stream.Carries request kept → (onStream id stream).Carries request (onRequest id kept)) :
    b.StoresOpen := by
  intro id stream request opened sent
  rw [streams, Option.map_eq_some_iff] at opened
  obtain ⟨before, opened, rfl⟩ := opened
  rw [submitted] at sent
  obtain ⟨kept, found, carried⟩ := stores id before request opened sent
  exact ⟨onRequest id kept, by rw [stored, found]; rfl, carries id before request kept opened sent found carried⟩

theorem storesOpen_of_streams {a b : Client} (stores : a.StoresOpen) (onStream : Nat → Stream → Stream)
    (streams : ∀ id, b.streams.lookup id = (a.streams.lookup id).map (onStream id))
    (stored : b.requestsAwaitingResponse = a.requestsAwaitingResponse)
    (ghosts : ∀ id stream, (onStream id stream).submitted = stream.submitted ∧
      (onStream id stream).cursor = stream.cursor) : b.StoresOpen := by
  refine storesOpen_of_lookup stores onStream (fun _ request => request) streams ?_ ?_ ?_
  · simp [stored]
  · exact fun id stream => (ghosts id stream).1
  · intro id stream request kept _ _ _ carried
    rw [Stream.Carries, (ghosts id stream).2]
    exact carried

theorem storesOpen_adjust (stores : client.StoresOpen) (id : Nat) {onStream : Stream → Stream}
    {onRequest : RequestData → RequestData}
    (submitted : ∀ stream, (onStream stream).submitted = stream.submitted)
    (carries : ∀ stream request kept, stream.Carries request kept →
      (onStream stream).Carries request (onRequest kept)) :
    { client with
      streams := client.streams.adjust id onStream
      requestsAwaitingResponse := client.requestsAwaitingResponse.adjust id onRequest }.StoresOpen := by
  refine storesOpen_of_lookup stores _ _ (fun other => FiniteMap.lookup_adjust_map _ _ _ _)
    (fun other => FiniteMap.lookup_adjust_map _ _ _ _) ?_ ?_
  · intro other stream
    split
    · exact submitted stream
    · rfl
  · intro other stream request kept _ _ _ carried
    split
    · exact carries stream request kept carried
    · exact carried

theorem storesOpen_readPayload (stores : client.StoresOpen) (id length : Nat) :
    (client.readPayload id length).StoresOpen := by
  unfold Client.readPayload
  split
  · exact stores
  · refine storesOpen_adjust stores id (fun _ => rfl) fun stream request kept carried => ?_
    rw [Stream.Carries] at carried ⊢
    rw [carried]

theorem storesOpen_finish (stores : client.StoresOpen) (id : Nat) : (client.finish id).StoresOpen := by
  intro other stream request opened submitted
  simp only [Client.finish, FiniteMap.lookup_erase_eq] at opened ⊢
  split at opened
  · cases opened
  · rename_i different
    simp only [different, if_false]
    exact stores other stream request opened submitted

theorem storesOpen_of_no_streams (none : client.streams = ∅) : client.StoresOpen := by
  intro id stream request opened
  simp [none] at opened

theorem storesOpen_change {source : RequestData → Prop} {cfg : Config} {phase : Phase} (a b : Client)
    (change : ClientChange source Client.Vacant False cfg phase a b) (stores : a.StoresOpen) : b.StoresOpen := by
  cases change with
  | keep same =>
    intro id stream request opened submitted
    rw [same.streams] at opened
    rw [same.requestsAwaitingResponse]
    exact stores id stream request opened submitted
  | fresh streams => exact storesOpen_of_no_streams streams
  | disconnected streams => exact storesOpen_of_no_streams streams
  | start serial now stray offset vacant => exact storesOpen_startRequest stores vacant
  | status id status =>
    refine storesOpen_adjust stores id (fun _ => rfl) fun stream request kept carried => ?_
    rw [Stream.Carries] at carried ⊢
    rw [carried]
  | read id length => exact storesOpen_readPayload stores id length
  | cut id count impossible => exact impossible.elim
  | finished id => exact storesOpen_finish stores id
  | offset id length =>
    refine storesOpen_of_streams stores _ (fun other => FiniteMap.lookup_adjust_map _ _ _ _) rfl ?_
    intro other stream
    split <;> exact ⟨rfl, rfl⟩
  | validated id value =>
    refine storesOpen_of_streams stores _ (fun other => FiniteMap.lookup_adjust_map _ _ _ _) rfl ?_
    intro other stream
    split <;> exact ⟨rfl, rfl⟩
  | expired now =>
    exact storesOpen_of_streams stores _ (fun other => lookup_streams_expire a now other) rfl
      fun _ _ => ⟨rfl, rfl⟩

/-! ## Runs -/

/-- A session that takes a request assigns an identifier under which nothing is stored. -/
def SubmitsUnderVacantId (w : World) (e : Effect) : Prop :=
  match e with
  | .startRequest d _ _ _ =>
    (w.clients d).requestsAwaitingResponse.lookup (w.clients d).nextStreamId = none
  | _ => True

instance (w : World) (e : Effect) : Decidable (SubmitsUnderVacantId w e) := by
  induction e using Effect.casesOn <;> dsimp only [SubmitsUnderVacantId] <;> infer_instance

/-- A request of which an HTTP/1 session sends a part was submitted with a payload that fits into one. -/
def SendsAtOnce (w : World) : Effect → Prop
  | .cutPayload c id _ => ∀ stream ∈ (w.clients c).streams.lookup id, ∀ request ∈ stream.submitted,
      request.content.reqPayload.length ≤ Client.chunk
  | _ => True

instance (w : World) (e : Effect) : Decidable (SendsAtOnce w e) := by
  induction e using Effect.casesOn <;> dsimp only [SendsAtOnce] <;> infer_instance

def CutsOverlong (w : World) : Effect → Prop
  | .cutPayload c id _ => w.Overlong c id
  | _ => True

theorem along_cutsOverlong {env : Env} {w : World} {events : List Event} {log : List Effect}
    (run : Run env w events log) : Along CutsOverlong w log := by
  refine along_of_run (fun {w e} tested => ?_) (fun {w e} lapses => ?_) (fun _ _ => trivial) (fun _ _ => trivial) run
  · cases e <;> first | exact tested | trivial
  · cases e <;> first | exact lapses.elim | trivial

/-- Only requests of no open stream are cut. -/
theorem storesOpen_cutPayload {w : World} {c : ClientId} {id : Nat} (count : Nat) (long : w.Overlong c id)
    (short : SendsAtOnce w (.cutPayload c id count)) (stores : (w.clients c).StoresOpen) :
    ((w.clients c).cutPayload id count).StoresOpen := by
  refine storesOpen_of_lookup stores _ _ (fun other => FiniteMap.lookup_adjust_map _ _ _ _)
    (fun other => FiniteMap.lookup_adjust_map _ _ _ _) (fun other stream => by split <;> rfl) ?_
  intro other stream request kept opened submitted found carried
  split
  · rename_i here
    obtain ⟨stored, there, exceeds⟩ := long
    rw [← here, found, Option.some.injEq] at there
    rw [← there, show kept.content = request.content by rw [carried]] at exceeds
    exact absurd (short stream (here ▸ opened) request submitted) (Nat.not_le.mpr exceeds)
  · exact carried

theorem openRequestsStored_apply (w : World) (e : Effect)
    (admitted : (SubmitsUnderVacantId w e ∧ SendsAtOnce w e) ∧ CutsOverlong w e)
    (holds : w.QueuedBuilt ∧ w.OpenRequestsStored) :
    (Machine.apply e w).QueuedBuilt ∧ (Machine.apply e w).OpenRequestsStored := by
  refine ⟨queuedBuilt_apply w e holds.1, ?_⟩
  by_cases cuts : ∃ c id count, e = .cutPayload c id count
  · obtain ⟨c, id, count, rfl⟩ := cuts
    intro d
    rw [clients_apply]
    simp only [Effect.act, World.clients_modifyClient]
    split
    · exact storesOpen_cutPayload count admitted.2 admitted.1.2 (holds.2 c)
    · exact holds.2 d
  · have changes : Changes w.supply Client.Vacant False w.config w.currentPhase w (e.act w) := by
      refine changes_act w e ?_ fun c id count same => cuts ⟨c, id, count, same⟩
      rintro d now stray offset rfl
      exact ⟨admitted.1.1, fun request member => (holds.1 d request member).reqPayloadCursor⟩
    exact changes.preserves storesOpen_change holds.2

/-- **The request stored for an open stream is the one submitted for it.** -/
theorem openRequestsStored_of_vacant (env : Env) (cfg : Config) (reqTodo nclients : Nat)
    (events : List Event) (log : List Effect) (run : Run env (World.initial cfg reqTodo nclients) events log)
    (admitted : Along (fun w e => SubmitsUnderVacantId w e ∧ SendsAtOnce w e)
      (World.initial cfg reqTodo nclients) log) :
    Throughout World.OpenRequestsStored (World.initial cfg reqTodo nclients) log := by
  have initial : (World.initial cfg reqTodo nclients).OpenRequestsStored :=
    fun c => storesOpen_of_no_streams rfl
  exact (throughout_of_invariant openRequestsStored_apply (admitted.and (along_cutsOverlong run))
    ⟨queuedBuilt_initial cfg reqTodo nclients, initial⟩).mono fun _ holds => holds.2

/-! ## A reconnect -/

/-- One scenario with one request, over HTTP/2, reconnecting when the connection is lost. -/
def reconnectingConfig : Config :=
  { scenarios := [oneRequest]
    maxConcurrentStreams := 2
    connectionRetryOnDisconnect := true
    hostAuthority := "host:80" }

/-- The first request asks for one path, later ones for another. -/
def reconnectingEnv : Env :=
  { assembly := fun tick _ => { assembled := { path := if tick < 10 then "/a" else "/b" } } }

/-- The connection breaks with the first requests on the way and comes back. -/
def reconnectingEvents : List Event :=
  [.createClient, .connected 0 (some .http2), .connectionError 0, .reconnectTimer 0,
    .connected 0 (some .http2)]

/-- The stream is open and stores another request than it submitted. -/
def Client.storesOther (client : Client) (id : Nat) : Bool :=
  match client.streams.lookup id, client.requestsAwaitingResponse.lookup id with
  | some stream, some stored => stream.submitted.any fun request => !decide (stream.Carries request stored)
  | _, _ => false

theorem not_storesOpen_of_storesOther (id : Nat) (other : client.storesOther id = true) :
    ¬ client.StoresOpen := by
  intro stores
  unfold Client.storesOther at other
  split at other
  · rename_i stream stored opened found
    cases submitted : stream.submitted with
    | none => simp [submitted] at other
    | some request =>
      obtain ⟨kept, here, carries⟩ := stores id stream request opened submitted
      rw [found] at here
      cases here
      simp [submitted, carries] at other
  · cases other

/-- **Refuting pole**: after the reconnect the first stream is open for one request and
the request of the lost connection is stored for it. -/
theorem reconnected_not_openRequestsStored :
    ¬ ∀ (env : Env) (cfg : Config) (reqTodo nclients : Nat) (events : List Event) (log : List Effect),
      Run env (World.initial cfg reqTodo nclients) events log →
        Throughout World.OpenRequestsStored (World.initial cfg reqTodo nclients) log := by
  intro always
  have stored := always reconnectingEnv reconnectingConfig 4 1 reconnectingEvents _ (run_of_isSome (by decide +kernel))
  exact not_storesOpen_of_storesOther 1 (by decide +kernel) (stored.last 0)

/-- One stream at a time, and the first has closed when the connection breaks. -/
def sequentialConfig : Config := { reconnectingConfig with maxConcurrentStreams := 1 }

def sequentialEvents : List Event :=
  [.createClient, .connected 0 (some .http2), .streamClose 0 1 true, .connectionError 0,
    .reconnectTimer 0, .connected 0 (some .http2)]

/-- **Satisfiable pole**: the identifier used after this reconnect is vacant. -/
theorem sequential_openRequestsStored :
    ∃ log, Run reconnectingEnv (World.initial sequentialConfig 3 1) sequentialEvents log ∧
      Throughout World.OpenRequestsStored (World.initial sequentialConfig 3 1) log := by
  exact ⟨_, run_of_isSome (by decide +kernel),
    openRequestsStored_of_vacant reconnectingEnv sequentialConfig 3 1 _ _ (run_of_isSome (by decide +kernel))
      (by decide +kernel)⟩

end H2LoadRunner.Load
