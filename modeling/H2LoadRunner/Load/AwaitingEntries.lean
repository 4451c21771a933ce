/-
# Load.AwaitingEntries -- the iterators into the requests that await a response

`on_request_start` and `inc_status_counter_and_validate_response` look up the request of a stream in
`requests_awaiting_response`.  The first reads its timeout, and the second logs it where the response is
no success, without asking whether it was found.  Only a client of JSON scenarios stores its requests.

`iteratorsValid_of_scenarios`: in every run with scenarios both find what they read.  Without, the first
request that is started is read past the end of the map (`plainUri_not_iteratorsValid`).
-/
import H2LoadRunner.Load.Frames

namespace H2LoadRunner.Load

open Library Library.EffectLog

set_option autoImplicit false

/-- A session takes a request: the prepared one, or that at the front of the queue. -/
def World.takes (w : World) (d : ClientId) : Prop :=
  w.config.scenarios.isEmpty = true ∨ (w.clients d).requestsToSubmit ≠ []

/-- An eligible stream is left with `status_success == 0`. -/
def World.failsValidation (w : World) (c : ClientId) (id : Nat) (verdict : Bool) : Prop :=
  ((w.clients c).streams.lookup id).any Stream.statisticsEligible = true ∧
    ((((w.validateResponse w.config c id verdict).clients c).streams.lookup id).any
      fun stream => stream.statusSuccess == 0) = true

def IteratorsValid (w : World) (e : Effect) : Prop :=
  match e with
  | .startRequest d _ _ _ =>
    w.takes d → (w.clients d).nextStreamId ∈ ((e.act w).clients d).requestsAwaitingResponse
  | .closeStream c id _ verdict _ _ =>
    w.failsValidation c id verdict → id ∈ (w.clients c).requestsAwaitingResponse
  | _ => True

instance (w : World) (e : Effect) : Decidable (IteratorsValid w e) := by
  apply e.casesOn (motive := fun e => Decidable (IteratorsValid w e)) <;> intros <;>
    dsimp only [IteratorsValid, World.takes, World.failsValidation] <;> infer_instance

def Client.StoresEntries (client : Client) : Prop :=
  ∀ id ∈ client.streams, id ∈ client.requestsAwaitingResponse

variable {client : Client} {cfg : Config} {phase : Phase}

theorem mem_startRequest (scenarios : cfg.scenarios.isEmpty = false) (queued : client.requestsToSubmit ≠ [])
    (serial now stray : Nat) (offset : Int) (id : Nat) :
    id ∈ (client.startRequest cfg phase serial now stray offset).requestsAwaitingResponse ↔
      id = client.nextStreamId ∨ id ∈ client.requestsAwaitingResponse := by
  obtain ⟨request, rest, queue⟩ := List.exists_cons_of_ne_nil queued
  simp only [Client.startRequest, scenarios, queue, Bool.false_eq_true, if_false]
  exact FiniteMap.mem_emplace ..

theorem storesEntries_startRequest (scenarios : cfg.scenarios.isEmpty = false) (stores : client.StoresEntries)
    (serial now stray : Nat) (offset : Int) :
    (client.startRequest cfg phase serial now stray offset).StoresEntries := by
  cases queue : client.requestsToSubmit with
  | nil => simpa [Client.startRequest, scenarios, queue] using stores
  | cons request rest =>
    intro id opened
    rw [mem_startRequest scenarios (by simp [queue])]
    simp only [Client.startRequest, scenarios, queue, Bool.false_eq_true, if_false, Client.onRequestStart,
      AList.mem_insert, AList.mem_erase] at opened
    exact opened.imp_right fun old => stores id old.2

theorem storesEntries_change {source : RequestData → Prop} (a b : Client)
    (change : ClientChange source (fun _ => cfg.scenarios.isEmpty = false) True cfg phase a b) (stores : a.StoresEntries) :
    b.StoresEntries := by
  cases change with
  | keep same =>
    rw [Client.StoresEntries, same.streams, same.requestsAwaitingResponse]
    exact stores
  | fresh streams | disconnected streams => simp [Client.StoresEntries, streams]
  | start serial now stray offset scenarios => exact storesEntries_startRequest scenarios stores serial now stray offset
  | status id status =>
    simpa [Client.StoresEntries, Client.onStatusCode, FiniteMap.mem_adjust] using stores
  | read id length =>
    unfold Client.readPayload
    split
    · exact stores
    · simpa [Client.StoresEntries, FiniteMap.mem_adjust] using stores
  | cut id count => simpa [Client.StoresEntries, Client.cutPayload, FiniteMap.mem_adjust] using stores
  | offset id length => simpa [Client.StoresEntries, Client.advanceOffset, FiniteMap.mem_adjust] using stores
  | validated id value => simpa [Client.StoresEntries, World.setStatusSuccess, FiniteMap.mem_adjust] using stores
  | finished id =>
    intro other opened
    simp only [Client.finish, AList.mem_erase] at opened ⊢
    exact ⟨opened.1, stores other opened.2⟩
  | expired now =>
    intro id opened
    rw [← AList.lookup_isSome, lookup_streams_expire, Option.isSome_map, AList.lookup_isSome] at opened
    exact stores id opened

def World.StoresEntries (w : World) : Prop :=
  w.config.scenarios.isEmpty = false ∧ ∀ c, (w.clients c).StoresEntries

theorem storesEntries_apply (w : World) (e : Effect) (stores : w.StoresEntries) :
    (Machine.apply e w).StoresEntries := by
  have changes : Changes w.supply (fun _ => w.config.scenarios.isEmpty = false) True w.config w.currentPhase w
      (e.act w) := changes_act w e (fun _ _ _ _ _ => stores.1) fun _ _ _ _ => trivial
  exact ⟨(config_act w e).symm ▸ stores.1, changes.preserves storesEntries_change stores.2⟩

theorem iteratorsValid_of_storesEntries {w : World} (stores : w.StoresEntries) (e : Effect) : IteratorsValid w e := by
  cases e with
  | startRequest d now stray offset =>
    rintro (plain | queued)
    · rw [stores.1] at plain
      cases plain
    · have started : ((Effect.startRequest d now stray offset).act w).clients d =
          (w.clients d).startRequest w.config w.currentPhase w.ticks now stray offset :=
        Function.update_self ..
      rw [started, mem_startRequest stores.1 queued]
      exact .inl rfl
  | closeStream c id =>
    rintro ⟨eligible, -⟩
    refine stores.2 c id (AList.lookup_isSome.mp ?_)
    cases opened : (w.clients c).streams.lookup id with
    | none => simp [opened] at eligible
    | some stream => rfl
  | _ => trivial

/-- **No iterator past the end is read** in any log with scenarios, so in no run, whatever the responses. -/
theorem iteratorsValid_of_scenarios (cfg : Config) (reqTodo nclients : Nat) (log : List Effect)
    (scenarios : cfg.scenarios.isEmpty = false) :
    Along IteratorsValid (World.initial cfg reqTodo nclients) log :=
  along_of_invariant (C := fun _ _ => True) (fun w e _ => storesEntries_apply w e)
    (fun _ e _ stores => iteratorsValid_of_storesEntries stores e) (along_of_forall (fun _ _ _ => trivial) _)
    ⟨scenarios, fun _ => nofun⟩

/-- One request over HTTP/2, answered by an error status. -/
def refusedEvents : List Event :=
  [.createClient, .connected 0 (some .http2), .statusCode 0 1 500, .streamClose 0 1 true]

def calmEnv : Env := {}

def oneScenario : Config := { scenarios := [oneRequest] }

def plainUri : Config := {}

/-- **Satisfiable pole:** of a scenario. -/
theorem scenario_iteratorsValid : ∃ log, Run calmEnv (World.initial oneScenario 1 1) refusedEvents log ∧
      Along IteratorsValid (World.initial oneScenario 1 1) log := by
  obtain ⟨log, ran⟩ : ∃ log, Run calmEnv (World.initial oneScenario 1 1) refusedEvents log :=
    ⟨_, run_of_isSome (by decide +kernel)⟩
  exact ⟨log, ran, iteratorsValid_of_scenarios oneScenario 1 1 log (by decide)⟩

/-- **Refuting pole:** of a plain URI. -/
theorem plainUri_not_iteratorsValid :
    ¬ ∀ (env : Env) (cfg : Config) (reqTodo nclients : Nat) (events : List Event) (log : List Effect),
      Run env (World.initial cfg reqTodo nclients) events log →
        Along IteratorsValid (World.initial cfg reqTodo nclients) log := by
  intro always
  obtain ⟨log, ran, invalid⟩ : ∃ log, Run calmEnv (World.initial plainUri 1 1) refusedEvents log ∧
      ¬ Along IteratorsValid (World.initial plainUri 1 1) log := exists_run_of_runLog (by decide +kernel)
  exact invalid (always calmEnv plainUri 1 1 refusedEvents log ran)

end H2LoadRunner.Load
