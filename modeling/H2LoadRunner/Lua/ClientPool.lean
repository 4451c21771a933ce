/-
# Lua.ClientPool -- how many connections a Lua worker has to one host

`_make_connection` keeps at most `number_of_client_to_same_host_in_one_worker` clients in
`client_pool[base_uri]`: a request that finds fewer creates a client and puts it into the
pool before it connects; any other request takes a client of the pool.  A client leaves
the pool whenever it disconnects and comes back when it is connected, so while it is
connecting again after an HTTP/1 response that closed the connection nobody counts it.  A
lookup that `stop` left pending connects a client that is idle, and nobody counts that
either.

The bound on the clients connecting or connected holds throughout a run exactly if no
event brings up one more client while the counted and the uncounted ones fill the places
(`within_limit_iff`); a worker allowed one connection can have two
(`reconnecting_not_counted`).
-/
import H2LoadRunner.Library.Transition

namespace H2LoadRunner.Lua.ClientPool

open Library.Transition (run Along along_iff_throughout exists_run)

set_option autoImplicit false

/-! ## The worker -/

inductive ClientState
  | idle
  | connecting
  | connected
deriving DecidableEq

/-- A client of a Lua worker; `U` are the base URIs. -/
structure Client (U : Type) where
  uri : U
  state : ClientState
  newConnectionRequested : Bool

structure Worker (U : Type) where
  /-- `number_of_client_to_same_host_in_one_worker`. -/
  clientsNeeded : Nat
  managedClients : Nat → Option (Client U)
  clientPool : U → Finset Nat
  nextClientId : Nat

inductive Fault
  /-- The event cannot happen in this state. -/
  | disabled

section

variable {U : Type} [DecidableEq U]

namespace Worker

def initial (clientsNeeded : Nat) : Worker U where
  clientsNeeded := clientsNeeded
  managedClients := fun _ => none
  clientPool := fun _ => ∅
  nextClientId := 0

def setClient (w : Worker U) (id : Nat) (client : Client U) : Worker U :=
  { w with managedClients := Function.update w.managedClients id (some client) }

def adjustClient (w : Worker U) (id : Nat) (change : Client U → Client U) : Worker U :=
  match w.managedClients id with
  | some client => w.setClient id (change client)
  | none => w

def insertIntoPool (w : Worker U) (uri : U) (id : Nat) : Worker U :=
  { w with clientPool := Function.update w.clientPool uri (insert id (w.clientPool uri)) }

def connectToHost (w : Worker U) (id : Nat) (uri : U) : Worker U :=
  w.adjustClient id fun client => { client with uri := uri, state := .connecting }

/-- `disconnect`, with the part of `cleanup_due_to_disconnect` seen here: the client leaves
every set of the pool. -/
def disconnect (w : Worker U) (id : Nat) : Worker U :=
  { w with clientPool := fun uri => (w.clientPool uri).erase id }.adjustClient id
    fun client => { client with state := .idle }

/-- `try_again_or_fail` and what `handle_connection_error` does after it.  A Lua client
never reconnects to another address; whether it has requests left is given. -/
def handleConnectionError (w : Worker U) (id : Nat) (reqLeft : Bool) : Worker U :=
  match w.managedClients id with
  | none => w
  | some client =>
    if client.newConnectionRequested then
      let w := (w.disconnect id).adjustClient id
        fun client => { client with newConnectionRequested := false }
      if reqLeft then w.connectToHost id client.uri else w.disconnect id
    else (w.disconnect id).disconnect id

def connectionMade (w : Worker U) (id : Nat) (client : Client U) : Worker U :=
  (w.insertIntoPool client.uri id).setClient id { client with state := .connected }

/-- `free_client`: the destructor disconnects. -/
def freeClient (w : Worker U) (id : Nat) : Worker U :=
  { w.disconnect id with
    managedClients := Function.update (w.disconnect id).managedClients id none }

def createClient (w : Worker U) (uri : U) : Worker U :=
  let id := w.nextClientId
  let created := { w with nextClientId := id + 1 }.setClient id ⟨uri, .idle, false⟩
  (created.insertIntoPool uri id).connectToHost id uri

end Worker

/-! ## Events -/

inductive Event (U : Type)
  /-- The task `_make_connection` posted runs; `pick` is the client it draws from a full
  pool. -/
  | makeConnection (uri : U) (pick : Nat)
  /-- A connection attempt succeeds.  `connected` tests no state, and `stop` does not cancel
  a lookup: the client may have been disconnected since. -/
  | connected (id : Nat)
  /-- An error on the connection, or a connection attempt that failed or timed out. -/
  | connectionError (id : Nat)
  /-- An HTTP/1 response that closes the connection is complete: `try_new_connection` is
  called if requests are left, and the paused parser makes the read handler report an
  error. -/
  | http1Close (id : Nat) (reqLeft : Bool)
  /-- `timeout`: the activity timer closes the connection. -/
  | timeout (id : Nat)
  /-- The posted `free_client` runs. -/
  | freeClient (id : Nat)

def step (w : Worker U) : Event U → Except Fault (Worker U)
  | .makeConnection uri pick =>
    if (w.clientPool uri).card < w.clientsNeeded then .ok (w.createClient uri)
    else if pick ∈ w.clientPool uri then
      match w.managedClients pick with
      | some client =>
        match client.state with
        | .idle => .ok (w.connectToHost pick uri)
        | .connecting | .connected => .ok w
      | none => .error .disabled
    else .error .disabled
  | .connected id =>
    match w.managedClients id with
    | some client => .ok (w.connectionMade id client)
    | none => .error .disabled
  | .connectionError id => .ok (w.handleConnectionError id true)
  | .http1Close id reqLeft =>
    match w.managedClients id with
    | some client =>
      if client.state = .connected then
        .ok ((w.setClient id { client with newConnectionRequested := reqLeft })
          |>.handleConnectionError id reqLeft)
      else .error .disabled
    | none => .error .disabled
  | .timeout id => .ok (w.disconnect id)
  | .freeClient id => .ok (w.freeClient id)

/-! ## Which clients count -/

namespace Worker

def Active (w : Worker U) (uri : U) (id : Nat) : Prop :=
  ∃ client ∈ w.managedClients id, client.uri = uri ∧ client.state ≠ .idle

instance (w : Worker U) (uri : U) (id : Nat) : Decidable (w.Active uri id) :=
  inferInstanceAs (Decidable (∃ client ∈ w.managedClients id, _))

def active (w : Worker U) (uri : U) : Finset Nat :=
  (Finset.range w.nextClientId).filter (w.Active uri)

def uncounted (w : Worker U) (uri : U) : Finset Nat := w.active uri \ w.clientPool uri

/-- At most the configured number of clients is connecting or connected to any base URI. -/
def WithinLimit (w : Worker U) : Prop := ∀ uri, (w.active uri).card ≤ w.clientsNeeded

/-- The client leaves the pool and is from now on as given. -/
def replaced (w : Worker U) (id : Nat) (client : Client U) : Worker U :=
  { w with
    clientPool := fun uri => (w.clientPool uri).erase id
    managedClients := Function.update w.managedClients id (some client) }

end Worker

end

section

variable {U : Type} {w : Worker U} {id : Nat} {client later : Client U}

theorem disconnect_eq (found : w.managedClients id = some client) :
    w.disconnect id = w.replaced id { client with state := .idle } := by
  simp only [Worker.disconnect, Worker.adjustClient, found]
  rfl

theorem adjustClient_replaced (w : Worker U) (id : Nat) (client : Client U) (change : Client U → Client U) :
    (w.replaced id client).adjustClient id change = w.replaced id (change client) := by
  have found : (w.replaced id client).managedClients id = some client := Function.update_self ..
  rw [Worker.adjustClient, found]
  simp only [Worker.setClient, Worker.replaced, Function.update_idem]

theorem disconnect_replaced (w : Worker U) (id : Nat) (client : Client U) :
    (w.replaced id client).disconnect id = w.replaced id { client with state := .idle } := by
  have found : (w.replaced id client).managedClients id = some client := Function.update_self ..
  rw [disconnect_eq found]
  simp only [Worker.replaced, Function.update_idem, Finset.erase_idem]

/-- What an error leaves of a client: one that asked for a new connection and has requests
left is connecting again, outside the pool. -/
theorem handleConnectionError_eq (found : w.managedClients id = some client) (reqLeft : Bool) :
    w.handleConnectionError id reqLeft = w.replaced id
      { client with
        state := if client.newConnectionRequested = true ∧ reqLeft = true then .connecting else .idle
        newConnectionRequested := false } := by
  obtain ⟨uri, state, requested⟩ := client
  simp only [Worker.handleConnectionError, found, disconnect_eq found, adjustClient_replaced,
    Worker.connectToHost, disconnect_replaced]
  cases requested <;> cases reqLeft <;> rfl

theorem active_replaced (w : Worker U) (id other : Nat) (later : Client U) (uri : U) :
    (w.replaced id later).Active uri other ↔
      if other = id then later.uri = uri ∧ later.state ≠ .idle else w.Active uri other := by
  simp only [Worker.Active, Worker.replaced, Function.update_apply]
  split
  · simp
  · rfl

/-! ## What every event keeps -/

structure Sound (w : Worker U) : Prop where
  /-- A client of the pool is connecting or connected. -/
  pooled : ∀ uri, ∀ id ∈ w.clientPool uri, w.Active uri id
  /-- Between two events no client has asked for a new connection. -/
  rested : ∀ id, ∀ client ∈ w.managedClients id, client.newConnectionRequested = false
  known : ∀ id, ∀ client ∈ w.managedClients id, id < w.nextClientId

/-- No client starts connecting that was not connecting or connected to the same URI. -/
structure NoneAdded (w v : Worker U) : Prop where
  limit : v.clientsNeeded = w.clientsNeeded
  created : v.nextClientId = w.nextClientId
  active : ∀ uri id, v.Active uri id → w.Active uri id

theorem sound_initial (clientsNeeded : Nat) : Sound (.initial clientsNeeded : Worker U) where
  pooled := fun _ _ member => absurd member (Finset.notMem_empty _)
  rested := nofun
  known := nofun

theorem forall_update {clients : Nat → Option (Client U)} {P : Nat → Client U → Prop} (now : P id later)
    (before : ∀ id, ∀ client ∈ clients id, P id client) :
    ∀ other, ∀ client ∈ Function.update clients id (some later) other, P other client :=
  (Function.forall_update_iff clients (p := fun id found => ∀ client ∈ found, P id client)).mpr
    ⟨by simpa using now, fun other _ => before other⟩

theorem Sound.replaced (sound : Sound w) (found : w.managedClients id = some client)
    (rested : later.newConnectionRequested = false)
    (same : later.state ≠ .idle → later.uri = client.uri ∧ client.state ≠ .idle) :
    Sound (w.replaced id later) ∧ NoneAdded w (w.replaced id later) := by
  refine ⟨⟨?_, forall_update rested sound.rested,
    forall_update (P := fun id _ => id < w.nextClientId) (sound.known id client found) sound.known⟩, ⟨rfl, rfl, ?_⟩⟩
  · intro uri other member
    obtain ⟨different, before⟩ := Finset.mem_erase.mp member
    rw [active_replaced, if_neg different]
    exact sound.pooled uri other before
  · intro uri other active
    rw [active_replaced] at active
    split at active
    · rename_i same_id
      obtain ⟨uri_eq, busy⟩ := same active.2
      rw [same_id]
      exact ⟨client, found, uri_eq ▸ active.1, busy⟩
    · exact active

theorem Sound.disconnect (sound : Sound w) (id : Nat) :
    Sound (w.disconnect id) ∧ NoneAdded w (w.disconnect id) := by
  cases found : w.managedClients id with
  | some client =>
    rw [disconnect_eq found]
    exact sound.replaced found (sound.rested id client found) fun busy => absurd rfl busy
  | none =>
    simp only [Worker.disconnect, Worker.adjustClient, found]
    refine ⟨⟨fun uri other member => ?_, sound.rested, sound.known⟩, rfl, rfl,
      fun _ _ active => active⟩
    exact sound.pooled uri other (Finset.mem_of_mem_erase member)

theorem notMem_pool_disconnect (w : Worker U) (id : Nat) (uri : U) : id ∉ (w.disconnect id).clientPool uri := by
  simp only [Worker.disconnect, Worker.adjustClient]
  split <;> exact Finset.notMem_erase id (w.clientPool uri)

theorem Sound.freeClient (sound : Sound w) (id : Nat) :
    Sound (w.freeClient id) ∧ NoneAdded w (w.freeClient id) := by
  obtain ⟨sound', none_added⟩ := sound.disconnect id
  have kept : ∀ other, ∀ client ∈ (w.freeClient id).managedClients other,
      client ∈ (w.disconnect id).managedClients other := by
    intro other client member
    simp only [Worker.freeClient, Function.update_apply] at member
    split at member
    · cases member
    · exact member
  refine ⟨⟨?_, fun other client member => sound'.rested other client (kept other client member),
    fun other client member => sound'.known other client (kept other client member)⟩,
    none_added.limit, none_added.created, ?_⟩
  · intro uri other member
    have different : other ≠ id := fun same => notMem_pool_disconnect w id uri (same ▸ member)
    obtain ⟨client, found, active⟩ := sound'.pooled uri other member
    refine ⟨client, ?_, active⟩
    simp only [Worker.freeClient, Function.update_apply, if_neg different]
    exact found
  · rintro uri other ⟨client, found, active⟩
    exact none_added.active uri other ⟨client, kept other client found, active⟩

theorem Sound.handleConnectionError (sound : Sound w) (id : Nat) (reqLeft : Bool) :
    Sound (w.handleConnectionError id reqLeft) ∧ NoneAdded w (w.handleConnectionError id reqLeft) := by
  cases found : w.managedClients id with
  | some client =>
    have rested := sound.rested id client found
    rw [handleConnectionError_eq found, rested]
    exact sound.replaced found rfl fun busy => absurd rfl busy
  | none =>
    simp only [Worker.handleConnectionError, found]
    exact ⟨sound, rfl, rfl, fun _ _ active => active⟩

theorem http1Close_eq (w : Worker U) (id : Nat) (client : Client U) (reqLeft : Bool) :
    (w.setClient id { client with newConnectionRequested := reqLeft }).handleConnectionError id
      reqLeft = w.replaced id
        { client with
          state := if reqLeft = true then .connecting else .idle
          newConnectionRequested := false } := by
  rw [handleConnectionError_eq (Function.update_self ..)]
  simp only [Worker.replaced, Worker.setClient, Function.update_idem, and_self]

end

section

variable {U : Type} [DecidableEq U] {w : Worker U} {id : Nat} {client : Client U}

theorem NoneAdded.withinLimit {w v : Worker U} (none_added : NoneAdded w v)
    (within : w.WithinLimit) : v.WithinLimit := by
  intro uri
  rw [none_added.limit]
  refine (Finset.card_le_card ?_).trans (within uri)
  intro id member
  obtain ⟨created, active⟩ := Finset.mem_filter.mp member
  exact Finset.mem_filter.mpr ⟨none_added.created ▸ created, none_added.active uri id active⟩

theorem active_connectionMade (w : Worker U) (id : Nat) (client : Client U) (uri : U) (other : Nat) :
    (w.connectionMade id client).Active uri other ↔
      if other = id then client.uri = uri else w.Active uri other := by
  simp only [Worker.Active, Worker.connectionMade, Worker.insertIntoPool, Worker.setClient,
    Function.update_apply]
  split
  · simp
  · rfl

theorem Sound.connectionMade (sound : Sound w) (found : w.managedClients id = some client) :
    Sound (w.connectionMade id client) := by
  refine ⟨?_, forall_update (sound.rested id client found) sound.rested,
    forall_update (P := fun id _ => id < w.nextClientId) (sound.known id client found) sound.known⟩
  intro uri other member
  simp only [Worker.connectionMade, Worker.insertIntoPool, Worker.setClient, Function.update_apply] at member
  rw [active_connectionMade]
  split
  · rename_i same
    split at member
    · rename_i here
      exact here.symm
    · obtain ⟨client', found', uri_eq, _⟩ := sound.pooled uri other member
      rw [same, found, Option.mem_some_iff] at found'
      rw [found']
      exact uri_eq
  · rename_i different
    split at member
    · rename_i here
      exact here ▸ sound.pooled client.uri other (Finset.mem_of_mem_insert_of_ne member different)
    · exact sound.pooled uri other member

theorem noneAdded_connectionMade (found : w.managedClients id = some client) (busy : client.state ≠ .idle) :
    NoneAdded w (w.connectionMade id client) := by
  refine ⟨rfl, rfl, fun uri other active => ?_⟩
  rw [active_connectionMade] at active
  split at active
  · rename_i same
    exact ⟨client, same ▸ found, active, busy⟩
  · exact active

/-! ## Creating a client -/

theorem createClient_eq (w : Worker U) (uri : U) :
    w.createClient uri =
      { w with
        nextClientId := w.nextClientId + 1
        clientPool := Function.update w.clientPool uri (insert w.nextClientId (w.clientPool uri))
        managedClients := Function.update w.managedClients w.nextClientId
          (some ⟨uri, .connecting, false⟩) } := by
  simp only [Worker.createClient, Worker.connectToHost, Worker.adjustClient, Worker.insertIntoPool,
    Worker.setClient, Function.update_self, Function.update_idem]

theorem active_createClient (w : Worker U) (uri other : U) (id : Nat) : (w.createClient uri).Active other id ↔
      if id = w.nextClientId then uri = other else w.Active other id := by
  simp only [createClient_eq, Worker.Active, Function.update_apply]
  split
  · simp
  · rfl

theorem Sound.createClient (sound : Sound w) (uri : U) : Sound (w.createClient uri) := by
  have older : ∀ other id, w.Active other id → id ≠ w.nextClientId := by
    rintro other id ⟨client, found, _⟩ same
    exact absurd (same ▸ sound.known id client found) (Nat.lt_irrefl _)
  refine ⟨?_, ?_, ?_⟩
  · intro other id member
    simp only [createClient_eq, Function.update_apply] at member
    rw [active_createClient]
    split at member
    · rename_i here
      rcases Finset.mem_insert.mp member with now | before
      · rw [if_pos now, here]
      · have active := sound.pooled uri id before
        rw [if_neg (older uri id active), here]
        exact active
    · have active := sound.pooled other id member
      rw [if_neg (older other id active)]
      exact active
  all_goals rw [createClient_eq]
  · exact forall_update rfl sound.rested
  · exact forall_update (P := fun id _ => id < w.nextClientId + 1) (Nat.lt_succ_self _)
      fun id now member => Nat.lt_succ_of_lt (sound.known id now member)

/-- One more client is connecting or connected, to the given URI. -/
structure Added (w v : Worker U) (uri : U) : Prop where
  limit : v.clientsNeeded = w.clientsNeeded
  card : ∀ other, (v.active other).card = (w.active other).card + if uri = other then 1 else 0

theorem Added.of_active {v : Worker U} {uri : U} (limit : v.clientsNeeded = w.clientsNeeded)
    (range : Finset.range v.nextClientId = insert id (Finset.range w.nextClientId))
    (active : ∀ other k, v.Active other k ↔ if k = id then uri = other else w.Active other k)
    (absent : ∀ other, ¬w.Active other id) : Added w v uri := by
  refine ⟨limit, fun other => ?_⟩
  have absent' : id ∉ w.active other := fun member => absent other (Finset.mem_filter.mp member).2
  have grown : v.active other = if uri = other then insert id (w.active other) else w.active other := by
    ext k
    by_cases same : k = id
    · subst same
      split <;> simp_all [Worker.active]
    · split <;> simp [Worker.active, range, active, same]
  rw [grown]
  split
  · rw [Finset.card_insert_of_notMem absent']
  · rfl

theorem added_createClient (sound : Sound w) (uri : U) : Added w (w.createClient uri) uri := by
  refine .of_active ?_ ?_ (active_createClient w uri) ?_
  · rw [createClient_eq]
  · rw [createClient_eq, Finset.range_add_one]
  · rintro other ⟨client, found, _⟩
    exact Nat.lt_irrefl _ (sound.known _ client found)

theorem added_connectionMade (sound : Sound w) (found : w.managedClients id = some client)
    (idle : client.state = .idle) : Added w (w.connectionMade id client) client.uri := by
  refine .of_active rfl ?_ (active_connectionMade w id client) ?_
  · exact (Finset.insert_eq_of_mem (Finset.mem_range.mpr (sound.known id client found))).symm
  · rintro other ⟨client', found', _, busy⟩
    rw [found, Option.mem_some_iff] at found'
    exact busy (found' ▸ idle)

end

/-! ## Runs -/

section

variable {U : Type} [DecidableEq U]

/-- The base URI to which an event brings up one more client: a request that creates one,
or a late success of an attempt of an idle client. -/
def starts (w : Worker U) : Event U → Option U
  | .makeConnection uri _ => if (w.clientPool uri).card < w.clientsNeeded then some uri else none
  | .connected id =>
    (w.managedClients id).bind fun client => if client.state = .idle then some client.uri else none
  | _ => none

theorem step_effect {w v : Worker U} {e : Event U} (sound : Sound w) (taken : step w e = .ok v) :
    Sound v ∧ ((starts w e = none ∧ NoneAdded w v) ∨ ∃ uri, starts w e = some uri ∧ Added w v uri) := by
  cases e with
  | makeConnection uri pick =>
    simp only [step] at taken
    split at taken
    · rename_i creates
      cases taken
      exact ⟨sound.createClient uri, .inr ⟨uri, if_pos creates, added_createClient sound uri⟩⟩
    · rename_i full
      split at taken
      · rename_i member
        -- a client of the pool is not idle
        obtain ⟨client, found, _, busy⟩ := sound.pooled uri pick member
        rw [Option.mem_def] at found
        simp only [found] at taken
        cases state : client.state with
        | idle => exact absurd state busy
        | connecting | connected =>
          simp only [state] at taken
          cases taken
          exact ⟨sound, .inl ⟨if_neg full, rfl, rfl, fun _ _ active => active⟩⟩
      · cases taken
  | connected id =>
    simp only [step] at taken
    split at taken <;> cases taken
    rename_i client found
    refine ⟨sound.connectionMade found, ?_⟩
    simp only [starts, found, Option.bind_some]
    split
    · rename_i idle
      exact .inr ⟨client.uri, rfl, added_connectionMade sound found idle⟩
    · rename_i busy
      exact .inl ⟨rfl, noneAdded_connectionMade found busy⟩
  | connectionError id =>
    cases taken
    exact (sound.handleConnectionError id true).imp_right fun none_added => .inl ⟨rfl, none_added⟩
  | http1Close id reqLeft =>
    simp only [step] at taken
    split at taken <;> try cases taken
    rename_i client found
    split at taken <;> cases taken
    rename_i connected
    rw [http1Close_eq]
    have busy : client.state ≠ .idle := by
      rw [connected]
      nofun
    suffices kept : Sound (w.replaced id _) ∧ NoneAdded w (w.replaced id _) from
      kept.imp_right fun none_added => .inl ⟨rfl, none_added⟩
    exact sound.replaced found rfl fun _ => ⟨rfl, busy⟩
  | timeout id =>
    cases taken
    exact (sound.disconnect id).imp_right fun none_added => .inl ⟨rfl, none_added⟩
  | freeClient id =>
    cases taken
    exact (sound.freeClient id).imp_right fun none_added => .inl ⟨rfl, none_added⟩

/-- An event that brings up a client finds fewer than the limit, those that the pool does
not hold counted. -/
def Room (w : Worker U) (e : Event U) : Prop :=
  ∀ uri ∈ starts w e, (w.clientPool uri).card + (w.uncounted uri).card < w.clientsNeeded

instance (w : Worker U) : DecidablePred (Room w) := fun e =>
  inferInstanceAs (Decidable (∀ uri ∈ starts w e, _ < _))

theorem card_active_eq {w : Worker U} (sound : Sound w) (uri : U) :
    (w.active uri).card = (w.clientPool uri).card + (w.uncounted uri).card := by
  have inside : w.clientPool uri ⊆ w.active uri := by
    intro id member
    have active := sound.pooled uri id member
    obtain ⟨client, found, _⟩ := active
    exact Finset.mem_filter.mpr
      ⟨Finset.mem_range.mpr (sound.known id client found), sound.pooled uri id member⟩
  rw [Worker.uncounted, Nat.add_comm, Finset.card_sdiff_add_card_eq_card inside]

/-- One event leads over the limit exactly when it brings up a client without room for it. -/
theorem withinLimit_step (w : Worker U) (e : Event U) (v : Worker U) (sound : Sound w)
    (within : w.WithinLimit) (taken : step w e = .ok v) : Sound v ∧ (v.WithinLimit ↔ Room w e) := by
  obtain ⟨sound', ⟨none_started, none_added⟩ | ⟨uri, started, added⟩⟩ := step_effect sound taken
  · refine ⟨sound', iff_of_true (none_added.withinLimit within) ?_⟩
    rw [Room, none_started]
    nofun
  · have counted := card_active_eq sound uri
    refine ⟨sound', fun later _ here => ?_, fun room other => ?_⟩
    · rw [started, Option.mem_some_iff] at here
      have grown := later uri
      rw [added.card, if_pos rfl, added.limit] at grown
      rw [← here]
      omega
    · rw [added.card, added.limit]
      have before := within other
      split
      · rename_i here
        subst here
        have fits := room uri started
        omega
      · exact before

/-- **The limit on connections to one host** holds throughout a run exactly when every event that brings
up a client finds room for it, the clients outside the pool counted. -/
theorem within_limit_iff (clientsNeeded : Nat) (events : List (Event U)) (w : Worker U)
    (ran : run step (.initial clientsNeeded) events = .ok w) :
    (∀ n v, run step (.initial clientsNeeded) (events.take n) = .ok v → v.WithinLimit) ↔
      Along step Room (.initial clientsNeeded) events :=
  (along_iff_throughout withinLimit_step ran (sound_initial clientsNeeded)
    fun _ => Nat.zero_le _).symm

end

/-- One connection is allowed; the client's connection is closed by an HTTP/1 response and
made again before the next request. -/
def reconnected : List (Event Nat) :=
  [.makeConnection 80 0, .connected 0, .http1Close 0 true, .connected 0, .makeConnection 80 0]

/-- **Satisfiable pole:** the second request finds the client back in the pool. -/
theorem reconnected_within_limit :
    ∃ w, run step (.initial 1) reconnected = .ok w ∧ w.active 80 = {0} ∧ w.WithinLimit := by
  obtain ⟨w, ran, one⟩ := exists_run step (.initial 1) reconnected (fun w => w.active 80 = {0})
    (by decide +kernel)
  refine ⟨w, ran, one, ?_⟩
  exact (within_limit_iff 1 reconnected w ran).mpr (by decide +kernel) reconnected.length w
    (by rw [List.take_length]; exact ran)

/-- **Refuting pole:** one connection is allowed; while the client connects again a request
creates a second one. -/
theorem reconnecting_not_counted : ∃ w : Worker Nat, run step (.initial 1)
      [.makeConnection 80 0, .connected 0, .http1Close 0 true, .makeConnection 80 0] = .ok w ∧
      w.clientsNeeded = 1 ∧ w.active 80 = {0, 1} :=
  exists_run step (.initial 1) _ (fun w => w.clientsNeeded = 1 ∧ w.active 80 = {0, 1})
    (by decide +kernel)

end H2LoadRunner.Lua.ClientPool
