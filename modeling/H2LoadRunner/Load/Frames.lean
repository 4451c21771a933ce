/-
# Load.Frames -- what an effect can do to a client

Most effects touch a counter, a queue or a connection field of one client and leave
its streams, its stored requests and its deadlines alone.  `ClientChange` lists what
can happen to those three, one constructor for each kind of change, and
`changes_act` says that an effect changes every client by a chain of them.  An
invariant of a client's streams, stored requests and deadlines is then proved for
the constructors and holds in every run (`clients_invariant`).
-/
import H2LoadRunner.Load.Touches

namespace H2LoadRunner.Load

open Library Library.EffectLog

set_option autoImplicit false

variable {a b : Client} {v w : World}

theorem Stream.iterate_countedAgain (stream : Stream) (n : Nat) :
    Stream.countedAgain^[n] stream =
      { stream with
        timedout := stream.timedout + if stream.statisticsEligible then n else 0 } := by
  induction n generalizing stream with
  | zero => simp
  | succ n ih =>
    rw [Function.iterate_succ_apply, ih]
    by_cases eligible : stream.statisticsEligible
    · simp [Stream.countedAgain, eligible, Nat.add_assoc, Nat.add_comm 1 n]
    · simp [Stream.countedAgain, eligible]

theorem lookup_streams_expire (client : Client) (now id : Nat) :
    (client.expire now).streams.lookup id =
      (client.streams.lookup id).map fun stream =>
        { stream with
          timedout := stream.timedout + if stream.statisticsEligible then
            (due now client.streamTimestamp).countP (fun entry => entry.2.id = id) else 0 } := by
  unfold Client.expire
  rw [FiniteMap.lookup_foldl_adjust (fun entry : Nat × Expiry => entry.2.id)]
  congr 1
  funext stream
  rw [Stream.iterate_countedAgain]

/-! ## Kinds of change -/

/-- Streams, stored requests and deadlines agree, and what is queued was queued before
or comes from `source`. -/
structure SameTraffic (source : RequestData → Prop) (a b : Client) : Prop where
  streams : b.streams = a.streams
  requestsAwaitingResponse : b.requestsAwaitingResponse = a.requestsAwaitingResponse
  streamTimestamp : b.streamTimestamp = a.streamTimestamp
  queued : ∀ request ∈ b.queued, request ∈ a.queued ∨ source request

/-- One kind of change to the streams, the stored requests and the deadlines of a client;
`cuts` says that parts of a stored payload may be cut off. -/
inductive ClientChange (source : RequestData → Prop) (admits : Client → Prop) (cuts : Prop) (cfg : Config)
    (phase : Phase) : Client → Client → Prop where
  | keep {a b : Client} (same : SameTraffic source a b) : ClientChange source admits cuts cfg phase a b
  | fresh {a b : Client} (streams : b.streams = ∅) (stored : b.requestsAwaitingResponse = ∅)
      (deadlines : b.streamTimestamp = []) (queued : b.queued = []) :
      ClientChange source admits cuts cfg phase a b
  | disconnected {a b : Client} (streams : b.streams = ∅)
      (stored : b.requestsAwaitingResponse = a.requestsAwaitingResponse)
      (deadlines : b.streamTimestamp = a.streamTimestamp)
      (queued : ∀ request ∈ b.queued, request ∈ a.queued) : ClientChange source admits cuts cfg phase a b
  | start (a : Client) (serial now stray : Nat) (offset : Int) (admitted : admits a) :
      ClientChange source admits cuts cfg phase a (a.startRequest cfg phase serial now stray offset)
  | status (a : Client) (id status : Nat) :
      ClientChange source admits cuts cfg phase a (a.onStatusCode id status)
  | read (a : Client) (id length : Nat) :
      ClientChange source admits cuts cfg phase a (a.readPayload id length)
  | cut (a : Client) (id count : Nat) (admitted : cuts) :
      ClientChange source admits cuts cfg phase a (a.cutPayload id count)
  | offset (a : Client) (id length : Nat) :
      ClientChange source admits cuts cfg phase a (a.advanceOffset cfg id length)
  | validated (a : Client) (id : Nat) (value : Int) :
      ClientChange source admits cuts cfg phase a (World.setStatusSuccess id value a)
  | finished (a : Client) (id : Nat) :
      ClientChange source admits cuts cfg phase a (a.finish id)
  | expired (a : Client) (now : Nat) : ClientChange source admits cuts cfg phase a (a.expire now)

section Changes

variable {source : RequestData → Prop} {admits : Client → Prop} {cuts : Prop} {cfg : Config} {phase : Phase}

theorem SameTraffic.of_eq (streams : b.streams = a.streams)
    (stored : b.requestsAwaitingResponse = a.requestsAwaitingResponse)
    (deadlines : b.streamTimestamp = a.streamTimestamp) (toSubmit : b.requestsToSubmit = a.requestsToSubmit)
    (delayed : b.delayedRequestsToSubmit = a.delayedRequestsToSubmit) : SameTraffic source a b where
  streams := streams
  requestsAwaitingResponse := stored
  streamTimestamp := deadlines
  queued request member := by
    simp only [Client.queued, toSubmit, delayed] at member
    exact .inl member

structure Changes (source : RequestData → Prop) (admits : Client → Prop) (cuts : Prop) (cfg : Config)
    (phase : Phase) (w v : World) : Prop where
  config : v.config = w.config
  clients : ∀ d, Relation.ReflTransGen (ClientChange source admits cuts cfg phase) (w.clients d)
    (v.clients d)

theorem ClientChange.of_touch {e : Effect} {d : ClientId} (touch : Touch w a e d b)
    (other : ∀ now stray offset, e ≠ .startRequest d now stray offset)
    (cut : ∀ id count, e = .cutPayload d id count → cuts) :
    ClientChange w.supply admits cuts w.config w.currentPhase a b := by
  cases touch with
  | create | createDest => exact .fresh rfl rfl rfl rfl
  | disconnect | timeout => exact .disconnected rfl rfl rfl fun _ => List.mem_append_right _
  | queue _ supplied => exact .keep ⟨rfl, rfl, rfl, supplied⟩
  | start => exact absurd rfl (other _ _ _)
  | expire c now => exact .expired _ now
  | status c id status => exact .status _ id status
  | read c shape => exact shape ▸ .read _ _ _
  | cut c id count => exact .cut _ id count (cut id count rfl)
  | offset c id length => exact .offset _ id length
  | validate _ value => exact .validated _ _ value
  | finish => exact .finished _ _
  | _ => exact .keep (.of_eq rfl rfl rfl rfl rfl)

theorem changes_act (w : World) (e : Effect)
    (admitted : ∀ d now stray offset, e = .startRequest d now stray offset → admits (w.clients d))
    (cut : ∀ d id count, e = .cutPayload d id count → cuts) :
    Changes w.supply admits cuts w.config w.currentPhase w (e.act w) := by
  refine ⟨config_act w e, fun d => ?_⟩
  by_cases starts : ∃ now stray offset, e = .startRequest d now stray offset
  · obtain ⟨now, stray, offset, rfl⟩ := starts
    have started : ((Effect.startRequest d now stray offset).act w).clients d =
        (w.clients d).startRequest w.config w.currentPhase w.ticks now stray offset :=
      Function.update_self ..
    rw [started]
    exact .single (.start _ _ now stray offset (admitted d now stray offset rfl))
  · refine Relation.ReflTransGen.mono (fun a b touch => ?_) _ _ ((touches_act w e).clients d)
    exact .of_touch touch (fun now stray offset same => starts ⟨now, stray, offset, same⟩) (cut d)

/-! ## Invariants -/

theorem Changes.preserves {P : Client → Prop}
    (step : ∀ a b, ClientChange source admits cuts cfg phase a b → P a → P b) {w v : World}
    (changes : Changes source admits cuts cfg phase w v) (holds : ∀ d, P (w.clients d)) (d : ClientId) :
    P (v.clients d) := by
  have chain := changes.clients d
  generalize v.clients d = after at chain ⊢
  induction chain with
  | refl => exact holds d
  | tail _ last ih => exact step _ _ last ih

theorem ClientChange.queued (change : ClientChange source admits cuts cfg phase a b) :
    ∀ request ∈ b.queued, request ∈ a.queued ∨ source request := by
  intro request member
  cases change with
  | keep same => exact same.queued request member
  | fresh _ _ _ queued => simp [queued] at member
  | disconnected _ _ _ queued => exact .inl (queued request member)
  | start serial now stray offset =>
    left
    unfold Client.startRequest at member
    dsimp only at member
    split at member
    · exact member
    · split at member
      · exact member
      · rename_i front
        simp only [Client.queued, Client.onRequestStart, front, List.cons_append,
          List.mem_cons] at member ⊢
        exact .inr member
  | read id length =>
    left
    unfold Client.readPayload at member
    split at member <;> exact member
  | status | cut | offset | validated | finished | expired =>
    exact .inl member

end Changes

/-! ## Where queued requests come from -/

namespace Built

variable {cfg : Config} {request : RequestData}

theorem exists_buildRequest (built : Built cfg request) :
    ∃ (link : Link) (scenario : Scenario) (template : RequestTemplate) (index : Nat)
      (owner : Option Nat) (content : Content),
      request = buildRequest link template request.scenarioIndex index owner content ∧
        cfg.scenario? request.scenarioIndex = some scenario ∧ index < scenario.requests.length := by
  cases built with
  | @first scenario scenarioIndex link owner assembly found =>
    exact ⟨_, scenario, _, _, _, _, rfl, found, List.length_pos_iff.mpr scenario.nonempty⟩
  | @next link finished request assembly made =>
    unfold nextRequest at made
    split at made
    · cases made
    · rename_i scenario found
      dsimp only at made
      split at made
      · cases made
      · split at made
        · cases made
        · split at made
          · cases made
          · cases made
            exact ⟨_, scenario, _, _, _, _, rfl, found,
              Nat.mod_lt _ (List.length_pos_iff.mpr scenario.nonempty)⟩

theorem reqPayloadCursor (built : Built cfg request) : request.reqPayloadCursor = 0 := by
  obtain ⟨link, scenario, template, index, owner, content, made, -⟩ := built.exists_buildRequest
  rw [made]
  rfl

theorem streamTimeoutInMs (built : Built cfg request) : request.streamTimeoutInMs = 0 := by
  obtain ⟨link, scenario, template, index, owner, content, made, -⟩ := built.exists_buildRequest
  rw [made]
  rfl

end Built

def World.QueuedBuilt (w : World) : Prop := ∀ c, ∀ request ∈ (w.clients c).queued, Built w.config request

theorem queuedBuilt_apply (w : World) (e : Effect) (queuedBuilt : w.QueuedBuilt) :
    (Machine.apply e w).QueuedBuilt := by
  intro c request
  rw [config_apply, config_act]
  have changes : Changes w.supply (fun _ => True) True w.config w.currentPhase w (e.act w) :=
    changes_act w e (fun _ _ _ _ _ => trivial) fun _ _ _ _ => trivial
  refine changes.preserves (P := fun client => ∀ request ∈ client.queued, Built w.config request)
    ?_ queuedBuilt c request
  intro a b change holds r member
  rcases change.queued r member with before | ⟨d, elsewhere⟩ | new
  · exact holds r before
  · exact queuedBuilt d r elsewhere
  · exact new

theorem queuedBuilt_initial (cfg : Config) (reqTodo nclients : Nat) :
    (World.initial cfg reqTodo nclients).QueuedBuilt := by
  intro c request member
  cases member

/-! ## A new instance -/

def World.drawnScenario (w : World) (env : Env) : Nat :=
  if env.nextScenario w.ticks < w.config.scenarios.length then env.nextScenario w.ticks else 0

theorem emits_prepareFirstRequest (env : Env) (p : ClientId) (w : World) :
    Emits (prepareFirstRequest env p) w fun _ es =>
      es = [.pushFirstRequest p (w.drawnScenario env) (env.clock w.ticks) (env.assembly w.ticks)] := by
  unfold prepareFirstRequest
  simp only [emits_bind, emits_world, List.nil_append, emits_ite, emits_perform, emits_fault]
  exact ⟨fun _ => trivial, fun _ => ⟨fun _ => trivial, fun _ => rfl⟩⟩

def oneRequest : Scenario := { requests := [{}] }

end H2LoadRunner.Load
