/-
# Load.Touches -- what an effect can do to a client

An effect changes clients step by step.  `Touch` lists the steps of every effect, one constructor for
each kind of change to one client, with all that later modules need to know about it, and `touches_act`
says that there are no others.  Whatever is read off clients is then followed through the effects by
cases on the steps: `read_act` for what stays the same, `follow_act` for what is related.
-/
import H2LoadRunner.Load.Program

namespace H2LoadRunner.Load

open Library Library.EffectLog

set_option autoImplicit false

/-! ## Projections of changed worlds -/

namespace World

variable (w : World) (c : ClientId) (change : Client → Client)

theorem clients_modifyClient (d : ClientId) :
    (w.modifyClient c change).clients d = if d = c then change (w.clients c) else w.clients d := by
  by_cases same : d = c
  · subst same
    simp [modifyClient]
  · simp [modifyClient, same]

end World

section

variable (e : Effect) (w : World)

@[simp] theorem clients_apply : (Machine.apply e w).clients = (e.act w).clients := rfl

@[simp] theorem config_apply : (Machine.apply e w).config = (e.act w).config := rfl

@[simp] theorem clientCount_apply : (Machine.apply e w).clientCount = (e.act w).clientCount := rfl

end

/-! ## Where queued requests come from -/

def Client.queued (client : Client) : List RequestData :=
  client.requestsToSubmit ++ client.delayedRequestsToSubmit.map Prod.snd

/-- A request the client makes itself. -/
inductive Built (cfg : Config) : RequestData → Prop where
  | first {scenario : Scenario} {scenarioIndex : Nat} (link : Link) (owner : Nat)
      (assembly : Assembly) (found : cfg.scenario? scenarioIndex = some scenario) :
      Built cfg (firstRequest link scenario scenarioIndex owner assembly)
  | next {link : Link} {finished request : RequestData} {assembly : Assembly}
      (made : nextRequest cfg link finished assembly = some request) : Built cfg request

/-- What an effect may put into a queue: requests queued somewhere and new ones. -/
def World.supply (w : World) (request : RequestData) : Prop :=
  (∃ c, request ∈ (w.clients c).queued) ∨ Built w.config request

theorem timedInsert_perm {α : Type} (time : Nat) (value : α) (queue : List (Nat × α)) :
    (timedInsert time value queue).Perm ((time, value) :: queue) := by
  induction queue with
  | nil => exact .refl _
  | cons entry rest ih =>
    simp only [timedInsert]
    split
    · exact (ih.cons entry).trans (.swap _ _ _)
    · exact .refl _

theorem queued_enqueueRequest_perm (client : Client) (now delay : Nat) (request : RequestData) :
    (client.enqueueRequest now delay request).queued.Perm (request :: client.queued) := by
  unfold Client.enqueueRequest Client.queued
  split
  · dsimp only
    rw [List.append_assoc]
    exact List.perm_middle
  · exact (((timedInsert_perm _ _ _).map Prod.snd).append_left _).trans List.perm_middle

/-! ## Steps -/

namespace Effect

/-- Requests are queued, moved or taken off. -/
def queues : Effect → Bool
  | .pushFirstRequest _ _ _ _ | .moveToDest _ _ | .requeueToParent _ | .resumeDelayed _ _ | .dropRequest _
  | .closeStream _ _ _ _ _ _ => true
  | _ => false

/-- The HTTP/1 session of `c` changes. -/
def speaks (c : ClientId) : Effect → Prop
  | .terminateSession d | .requestSent d | .responseReceived d | .alignRequestCounter d => d = c
  | _ => False

def closes (c : ClientId) (id : Nat) : Effect → Prop
  | .closeStream d other _ _ _ _ => d = c ∧ other = id
  | _ => False

end Effect

inductive Touch (w : World) (a : Client) : Effect → ClientId → Client → Prop where
  | create (candidates : List String) :
      Touch w a (.createClient candidates) w.clientCount (w.newController w.config candidates)
  | createDest (p : ClientId) (schema authority : String) :
      Touch w a (.createDestClient p schema authority) w.clientCount
        (w.newDestClient w.config p schema authority)
  | enlist (p : ClientId) (schema authority : String) :
      Touch w a (.createDestClient p schema authority) p
        (a.updateDestClientMap w.clientCount schema authority)
  | link (c : ClientId) (link : Link) : Touch w a (.setLink c link) c { a with link := link }
  | connect (c : ClientId) (link : Link) :
      Touch w a (.connecting c link) c { a with state := .connecting, link := link }
  | allocate (c : ClientId) (protocol : Protocol) :
      Touch w a (.allocateSession c protocol) c
        { a with session := some protocol.newSession, state := .connected }
  | relist (c : ClientId) (schema authority : String) :
      Touch w a (.updateThisInDestClientMap c) (w.controllerOf c) (a.updateDestClientMap c schema authority)
  | disconnect (c : ClientId) : Touch w a (.disconnect c) c a.disconnect
  | timeout (c : ClientId) (inflight : Nat) {left : Nat} (rest : left = a.reqLeft ∨ left = 0) :
      Touch w a (.timeout c) c { a.disconnect with reqInflight := inflight, reqLeft := left }
  | http1 {e : Effect} {c : ClientId} {session : Option Session} (speaks : e.speaks c)
      (kept : session.isSome = a.session.isSome) : Touch w a e c { a with session := session }
  | report (c : ClientId) : Touch w a (.freeClient c) c { a with reqTodo := a.reqDone }
  | unlist (c p : ClientId) (key : String) :
      Touch w a (.freeClient c) p { a with destClients := a.destClients.erase key }
  | free (c : ClientId) : Touch w a (.freeClient c) c { a with freed := true }
  | queue {e : Effect} {d : ClientId} {toSubmit : List RequestData} {delayed : List (Nat × RequestData)}
      (queues : e.queues = true)
      (supplied : ∀ request ∈ toSubmit ++ delayed.map Prod.snd, request ∈ a.queued ∨ w.supply request) :
      Touch w a e d { a with requestsToSubmit := toSubmit, delayedRequestsToSubmit := delayed }
  | start (d : ClientId) {now stray : Nat} {offset : Int} {session : Option Session} {reqidx : Nat}
      {toSubmit : List RequestData} {stored : FiniteMap Nat RequestData} {streams : FiniteMap Nat Stream}
      {deadlines : List (Nat × Expiry)} (kept : session.isSome = a.session.isSome) :
      Touch w a (.startRequest d now stray offset) d
        { a with
          session := session
          link := { a.link with reqidx := reqidx }
          requestsToSubmit := toSubmit
          requestsAwaitingResponse := stored
          streams := streams
          streamTimestamp := deadlines }
  | count (c : ClientId) (scenario request : Nat) :
      Touch w a (.countStart c scenario request) c
        { a with
          reqStarted := a.reqStarted + 1
          reqInflight := a.reqInflight + 1
          reqLeft := if w.config.timingBasedMode then a.reqLeft else decWrap a.reqLeft }
  | fail (c : ClientId) (exhausted : Bool) : Touch w a (.requestFailure c exhausted) c { a with reqLeft := 0 }
  | abandon (c : ClientId) {left : Nat} (rest : left = a.reqLeft ∨ left = 0) :
      Touch w a (.abandonStreams c) c { a with reqInflight := 0, reqLeft := left }
  | failInflight (c : ClientId) : Touch w a (.failInflight c) c { a with reqInflight := 0 }
  | expire (c : ClientId) (now : Nat) : Touch w a (.resetTimeoutRequests c now) c (a.expire now)
  | status (c : ClientId) (id status : Nat) :
      Touch w a (.onStatusCode c id status) c (a.onStatusCode id status)
  | read (c : ClientId) {id length : Nat} {stored : FiniteMap Nat RequestData}
      {streams : FiniteMap Nat Stream} (shape : a.readPayload id length =
        { a with requestsAwaitingResponse := stored, streams := streams }) :
      Touch w a (.readPayload c id length) c
        { a with requestsAwaitingResponse := stored, streams := streams }
  | cut (c : ClientId) (id count : Nat) : Touch w a (.cutPayload c id count) c (a.cutPayload id count)
  | offset (c : ClientId) (id length : Nat) :
      Touch w a (.advanceOffset c id length) c (a.advanceOffset w.config id length)
  | validate {e : Effect} {c : ClientId} {id : Nat} (closes : e.closes c id) (value : Int) :
      Touch w a e c (World.setStatusSuccess id value a)
  | release {e : Effect} {c : ClientId} {id : Nat} (closes : e.closes c id) :
      Touch w a e c (World.releaseInflight w.config a)
  | record {e : Effect} {c : ClientId} {id : Nat} (closes : e.closes c id) :
      Touch w a e c { a with reqDone := a.reqDone + 1 }
  | finish {e : Effect} {c : ClientId} {id : Nat} (closes : e.closes c id) : Touch w a e c (a.finish id)

def World.frame (w : World) : Phase × Nat × Nat × Nat :=
  (w.currentPhase, w.clientCount, w.nreqsPerClient, w.nreqsRem)

/-- Clients come into being, or the phase changes. -/
def Effect.reframes : Effect → Bool
  | .createClient _ | .createDestClient _ _ _ | .setPhase _ => true
  | _ => false

/-- The world `u` comes about by such steps. -/
structure Touches (w : World) (e : Effect) (u : World) : Prop where
  config : u.config = w.config
  frame : e.reframes = false → u.frame = w.frame
  nextInstance : w.nextInstance ≤ u.nextInstance
  clients : ∀ d, Relation.ReflTransGen (fun a b => Touch w a e d b) (w.clients d) (u.clients d)

namespace Touches

variable {w u v : World} {e : Effect} {c : ClientId} {b : Client}

theorem refl (w : World) (e : Effect) : Touches w e w := ⟨rfl, fun _ => rfl, Nat.le_refl _, fun _ => .refl⟩

theorem step (touches : Touches w e u) (clients : v.clients = Function.update u.clients c b)
    (config : v.config = u.config) (frame : e.reframes = false → v.frame = u.frame)
    (nextInstance : u.nextInstance ≤ v.nextInstance) (touch : Touch w (u.clients c) e c b) : Touches w e v where
  config := config.trans touches.config
  frame known := (frame known).trans (touches.frame known)
  nextInstance := touches.nextInstance.trans nextInstance
  clients d := by
    rw [clients]
    by_cases here : d = c
    · subst here
      rw [Function.update_self]
      exact (touches.clients d).tail touch
    · rw [Function.update_of_ne here]
      exact touches.clients d

theorem modify (touches : Touches w e u) {change : Client → Client}
    (touch : Touch w (u.clients c) e c (change (u.clients c))) : Touches w e (u.modifyClient c change) :=
  touches.step rfl rfl (fun _ => rfl) (Nat.le_refl _) touch

end Touches

theorem enqueueNext_eq (client : Client) (now delay : Nat) (next : Option RequestData) :
    ∃ toSubmit delayed, client.enqueueNext now delay next =
      { client with requestsToSubmit := toSubmit, delayedRequestsToSubmit := delayed } ∧
        (toSubmit ++ delayed.map Prod.snd).Perm (next.toList ++ client.queued) := by
  cases next with
  | none => exact ⟨_, _, rfl, .refl _⟩
  | some request =>
    have queued := queued_enqueueRequest_perm client now delay request
    simp only [Client.enqueueNext, Client.enqueueRequest] at queued ⊢
    split at queued
    · rename_i none
      rw [if_pos none]
      exact ⟨_, _, rfl, queued⟩
    · rename_i some
      rw [if_neg some]
      exact ⟨_, _, rfl, queued⟩

theorem queueFirst_eq (client : Client) (now : Nat) (first : RequestData) (more : List (Option RequestData)) :
    ∃ toSubmit delayed, client.queueFirst now first more =
      { client with requestsToSubmit := toSubmit, delayedRequestsToSubmit := delayed } ∧
        (toSubmit ++ delayed.map Prod.snd).Perm (first :: (more.filterMap id ++ client.queued)) := by
  have queued : ∃ toSubmit delayed, more.foldl
      (fun client next => client.enqueueNext now first.delayBeforeExecutingNext next) client =
        { client with requestsToSubmit := toSubmit, delayedRequestsToSubmit := delayed } ∧
          (toSubmit ++ delayed.map Prod.snd).Perm (more.filterMap id ++ client.queued) := by
    induction more generalizing client with
    | nil => exact ⟨_, _, rfl, .refl _⟩
    | cons next more ih =>
      obtain ⟨toSubmit, delayed, head, one⟩ := enqueueNext_eq client now first.delayBeforeExecutingNext next
      rw [List.foldl_cons, head]
      obtain ⟨later, delays, tail, all⟩ :=
        ih { client with requestsToSubmit := toSubmit, delayedRequestsToSubmit := delayed }
      refine ⟨later, delays, tail, all.trans ((one.append_left _).trans ?_)⟩
      cases next with
      | none => exact .refl _
      | some request => exact List.perm_middle
  obtain ⟨toSubmit, delayed, shape, all⟩ := queued
  refine ⟨_, _, by rw [Client.queueFirst, shape], ?_⟩
  rw [List.append_assoc]
  exact List.perm_middle.trans (all.cons first)

/-! ## Every effect -/

theorem touches_pushFirstRequest (w : World) (c : ClientId) (scenarioIndex now : Nat)
    (assemble : Nat → Assembly) : Touches w (.pushFirstRequest c scenarioIndex now assemble)
      (w.pushFirstRequest w.config c scenarioIndex now assemble) := by
  unfold World.pushFirstRequest
  split
  · exact .refl _ _
  · rename_i scenario found
    dsimp only
    refine (Touches.refl w _).step rfl rfl (fun _ => rfl) (Nat.le_succ _) ?_
    dsimp only
    generalize made : (if scenario.runRequestsInParallel = true then _ else _) = more
    obtain ⟨toSubmit, delayed, shape, all⟩ := queueFirst_eq (w.clients c) now
      (firstRequest (w.clients c).link scenario scenarioIndex w.nextInstance (assemble 0)) more
    rw [shape]
    refine .queue rfl fun request listed => ?_
    rcases List.mem_cons.mp (all.mem_iff.mp listed) with rfl | rest
    · exact .inr (.inr (.first _ _ _ found))
    rcases List.mem_append.mp rest with new | old
    · obtain ⟨_, further, rfl⟩ := List.mem_filterMap.mp new
      subst made
      split at further
      · obtain ⟨j, -, next⟩ := List.mem_map.mp further
        exact .inr (.inr (.next next))
      · cases further
    · exact .inl old

theorem Touches.handover {w : World} {e : Effect} (queues : e.queues = true) (c d : ClientId)
    {t g : List RequestData → List RequestData} {request : RequestData}
    (was : request ∈ (w.clients c).requestsToSubmit) (takes : ∀ queue, ∀ r ∈ t queue, r ∈ queue)
    (gives : ∀ queue, ∀ r ∈ g queue, r = request ∨ r ∈ queue) :
    Touches w e ((w.modifyClient c fun client =>
      { client with requestsToSubmit := t client.requestsToSubmit }).modifyClient d fun client =>
        { client with requestsToSubmit := g client.requestsToSubmit }) := by
  refine ((Touches.refl w e).modify (.queue queues fun r listed => ?_)).modify (.queue queues fun r listed => ?_)
  · exact .inl ((List.mem_append.mp listed).elim (fun now => List.mem_append_left _ (takes _ r now))
      (List.mem_append_right _))
  · rcases List.mem_append.mp listed with now | later
    · rcases gives _ r now with rfl | old
      · exact .inr (.inl ⟨c, List.mem_append_left _ was⟩)
      · exact .inl (List.mem_append_left _ old)
    · exact .inl (List.mem_append_right _ later)

theorem touches_freeClient (w : World) (c : ClientId) : Touches w (.freeClient c) (w.freeClient c) := by
  have reported : Touches w (.freeClient c) (w.reportDone c) := by
    unfold World.reportDone
    split
    · exact (Touches.refl w _).step rfl rfl (fun _ => rfl) (Nat.le_refl _) (.report c)
    · exact .refl _ _
  refine Touches.modify (c := c) ?_ (.free c)
  unfold World.leaveDestClientMap
  split
  · exact reported
  · rename_i parent _
    dsimp only
    by_cases listed : ((w.reportDone c).clients parent).destClients.lookup (destinationKey
        ((w.reportDone c).clients c).link.schema ((w.reportDone c).clients c).link.authority) = some c
    · refine reported.modify (c := parent) ?_
      rw [if_pos listed]
      exact .unlist c parent _
    · refine ⟨reported.config, reported.frame, reported.nextInstance, fun d => ?_⟩
      rw [World.clients_modifyClient, if_neg listed]
      split
      · rename_i here
        exact here ▸ reported.clients d
      · exact reported.clients d

theorem clients_timeout (w : World) (cfg : Config) (c : ClientId) :
    ∃ inflight left, (left = (w.clients c).reqLeft ∨ left = 0) ∧ (w.timeout cfg c).clients =
      Function.update w.clients c { (w.clients c).disconnect with reqInflight := inflight, reqLeft := left } := by
  have counted : ∃ streams, (w.countTimedout c).clients =
      Function.update w.clients c { w.clients c with streams := streams } := by
    unfold World.countTimedout
    split
    · exact ⟨_, (Function.update_eq_self c w.clients).symm⟩
    · exact ⟨_, rfl⟩
  have abandoned (u : World) : ∃ inflight left, (left = (u.clients c).reqLeft ∨ left = 0) ∧
      (u.processAbandonedStreams cfg c).clients =
        Function.update u.clients c { u.clients c with reqInflight := inflight, reqLeft := left } := by
    unfold World.processAbandonedStreams
    split
    · exact ⟨_, _, .inl rfl, (Function.update_eq_self c u.clients).symm⟩
    · split
      · exact ⟨0, _, .inl rfl, rfl⟩
      · exact ⟨0, 0, .inr rfl, rfl⟩
  obtain ⟨streams, once⟩ := counted
  obtain ⟨inflight, left, rest, twice⟩ := abandoned (w.countTimedout c)
  refine ⟨inflight, left, by simpa [once] using rest, ?_⟩
  show Function.update _ c _ = _
  simp [twice, once, Client.disconnect]

theorem touches_timeout (w : World) (c : ClientId) : Touches w (.timeout c) (w.timeout w.config c) := by
  obtain ⟨inflight, left, rest, clients⟩ := clients_timeout w w.config c
  have kept : (w.timeout w.config c).config = w.config ∧
      (w.timeout w.config c).frame = w.frame ∧
        (w.timeout w.config c).nextInstance = w.nextInstance := by
    simp only [World.timeout, World.processAbandonedStreams, World.countTimedout]
    split_ifs <;> exact ⟨rfl, rfl, rfl⟩
  exact (Touches.refl w _).step clients kept.1 (fun _ => kept.2.1) kept.2.2.ge (.timeout c inflight rest)

theorem touches_closeStream (w : World) (c : ClientId) (id : Nat) (success verdict : Bool) (now : Nat)
    (assembly : Assembly) : Touches w (.closeStream c id success verdict now assembly)
      (w.closeStream w.config c id success verdict now assembly) := by
  have closes : (Effect.closeStream c id success verdict now assembly).closes c id := ⟨rfl, rfl⟩
  have validated : Touches w (.closeStream c id success verdict now assembly)
      (w.validateResponse w.config c id verdict) := by
    unfold World.validateResponse
    dsimp only
    split
    · exact .refl _ _
    · split
      · exact (Touches.refl w _).modify (.validate closes _)
      · split <;> exact (Touches.refl w _).step rfl rfl (fun _ => rfl) (Nat.le_refl _) (.validate closes _)
  have finished {u : World} (touches : Touches w (.closeStream c id success verdict now assembly) u) :
      Touches w (.closeStream c id success verdict now assembly)
        (u.finishRequest w.config c id now assembly) := by
    suffices queued : Touches w (.closeStream c id success verdict now assembly)
        (u.modifyClient (u.controllerOf c) fun client => client.enqueueNext now
          ((u.clients c).followUpDelay id) ((u.clients c).followUp w.config id assembly)) from
      queued.step rfl rfl (fun _ => rfl) (Nat.le_refl _) (.finish closes)
    refine touches.modify ?_
    obtain ⟨toSubmit, delayed, shape, all⟩ := enqueueNext_eq (u.clients (u.controllerOf c)) now
      ((u.clients c).followUpDelay id) ((u.clients c).followUp w.config id assembly)
    rw [shape]
    refine .queue rfl fun request listed => ?_
    rcases List.mem_append.mp (all.mem_iff.mp listed) with new | old
    · have made := Option.mem_toList.mp new
      unfold Client.followUp at made
      split at made
      · cases made
      · split at made
        · cases made
        · exact .inr (.inr (.next made))
    · exact .inl old
  unfold World.closeStream
  dsimp only
  split
  · have released := validated.modify (c := c) (.release closes)
    split
    · exact released
    · refine finished ?_
      unfold World.recordOutcome
      dsimp only
      split
      · exact released
      · split <;> exact released.step rfl rfl (fun _ => rfl) (Nat.le_refl _) (.record closes)
  · exact finished validated

/-- **Every effect changes the clients by its steps.** -/
theorem touches_act (w : World) (e : Effect) : Touches w e (e.act w) := by
  have refl := Touches.refl w e
  have only {v : World} {c : ClientId} {b : Client} (same : (v.clients, v.config, v.frame, v.nextInstance) =
      (Function.update w.clients c b, w.config, w.frame, w.nextInstance)) (touch : Touch w (w.clients c) e c b) :
      Touches w e v := by
    simp only [Prod.mk.injEq] at same
    exact refl.step same.1 same.2.1 (fun _ => same.2.2.1) same.2.2.2.ge touch
  cases e with
  | createClient candidates => exact refl.step rfl rfl nofun (Nat.le_refl _) (.create candidates)
  | createDestClient p schema authority =>
    exact (refl.modify (.enlist p schema authority)).step rfl rfl nofun (Nat.le_refl _) (.createDest p schema authority)
  | listClient => exact ⟨rfl, fun _ => rfl, Nat.le_refl _, fun _ => .refl⟩
  | setPhase => exact ⟨rfl, nofun, Nat.le_refl _, fun _ => .refl⟩
  | setLink c link => exact only rfl (.link c link)
  | connecting c link => exact only rfl (.connect c link)
  | allocateSession c protocol => exact only rfl (.allocate c protocol)
  | updateThisInDestClientMap c => exact only rfl (.relist c _ _)
  | disconnect c => exact only rfl (.disconnect c)
  | terminateSession | requestSent | responseReceived | alignRequestCounter =>
    refine only rfl ?_
    dsimp only
    unfold Client.modifyHttp1
    split
    · rename_i session here
      exact .http1 (by exact rfl) (by simp [here])
    · exact .http1 (by exact rfl) rfl
  | freeClient c => exact touches_freeClient w c
  | pushFirstRequest c scenarioIndex now assemble => exact touches_pushFirstRequest w c scenarioIndex now assemble
  | moveToDest c d =>
    show Touches w _ (w.moveToDest c d)
    unfold World.moveToDest
    split
    · exact refl
    · rename_i request rest front
      refine Touches.handover (e := .moveToDest c d) (g := fun queue => queue ++ [request]) rfl c d
        (front ▸ List.mem_cons_self) (fun _ _ => List.mem_of_mem_tail) ?_
      simp [or_comm]
  | requeueToParent c =>
    show Touches w _ (w.requeueToParent c)
    unfold World.requeueToParent
    split
    · exact refl
    · rename_i request back
      exact Touches.handover (e := .requeueToParent c) rfl c _ (List.mem_of_getLast? back) (fun queue _ => List.mem_of_mem_dropLast)
        fun _ _ => List.mem_cons.mp
  | resumeDelayed c now =>
    refine only rfl (.queue rfl fun request listed => .inl ?_)
    simp only [Client.queued, List.mem_append, due, notDue, List.mem_map, List.mem_filter] at listed ⊢
    tauto
  | dropRequest d =>
    refine only rfl (.queue rfl fun request listed => .inl ?_)
    exact (List.mem_append.mp listed).elim (fun now => List.mem_append_left _ (List.mem_of_mem_tail now))
      (List.mem_append_right _)
  | startRequest d now stray offset =>
    refine only rfl ?_
    dsimp only
    unfold Client.startRequest
    dsimp only
    split
    · exact .start d (by simp)
    · split
      · exact .start d rfl
      · exact .start d (by simp)
  | countStart c scenario request => exact only rfl (.count c scenario request)
  | requestFailure c exhausted =>
    show Touches w _ (w.requestFailure w.config c exhausted)
    simp only [World.requestFailure]
    split_ifs
    iterate 3 exact ⟨rfl, fun _ => rfl, Nat.le_refl _, fun _ => .refl⟩
    exact only rfl (.fail c exhausted)
  | abandonStreams c =>
    show Touches w _ (w.processAbandonedStreams w.config c)
    unfold World.processAbandonedStreams
    split
    · exact refl
    · split
      · exact only rfl (.abandon c (.inl rfl))
      · exact only rfl (.abandon c (.inr rfl))
  | failInflight c =>
    show Touches w _ (w.failInflight c)
    unfold World.failInflight
    split
    · exact refl
    · exact only rfl (.failInflight c)
  | timeout c => exact touches_timeout w c
  | resetTimeoutRequests c now => exact only rfl (.expire c now)
  | onStatusCode c id status => exact only rfl (.status c id status)
  | readPayload c id length =>
    have shape : ∃ stored streams, (w.clients c).readPayload id length =
        { w.clients c with requestsAwaitingResponse := stored, streams := streams } := by
      unfold Client.readPayload
      split <;> exact ⟨_, _, rfl⟩
    obtain ⟨stored, streams, shape⟩ := shape
    refine only rfl ?_
    dsimp only
    rw [shape]
    exact .read c shape
  | cutPayload c id count => exact only rfl (.cut c id count)
  | advanceOffset c id length => exact only rfl (.offset c id length)
  | closeStream c id success verdict now assembly => exact touches_closeStream w c id success verdict now assembly

theorem config_act (w : World) (e : Effect) : (e.act w).config = w.config := (touches_act w e).config

theorem config_replay (w : World) (es : List Effect) : (replay w es).config = w.config :=
  replay_preserves (I := fun v => v.config = w.config)
    (fun v e same => (config_act v e).trans same) es rfl

theorem frame_act (w : World) (e : Effect) (same : e.reframes = false) : (e.act w).frame = w.frame :=
  (touches_act w e).frame same

/-- What relates a client before and after each step relates it before and after the effect. -/
theorem follow_act {R : Client → Client → Prop} (w : World) (e : Effect) (d : ClientId) (refl : ∀ a, R a a)
    (trans : ∀ {a b c}, R a b → R b c → R a c) (each : ∀ {a b}, Touch w a e d b → R a b) :
    R (w.clients d) ((e.act w).clients d) := by
  have chain := (touches_act w e).clients d
  generalize (e.act w).clients d = after at chain
  induction chain with
  | refl => exact refl _
  | tail _ last ih => exact trans ih (each last)

/-- What each step keeps. -/
theorem read_act {β : Type} (read : Client → β) (w : World) (e : Effect) (d : ClientId)
    (each : ∀ {a b}, Touch w a e d b → read b = read a) :
    read ((e.act w).clients d) = read (w.clients d) :=
  follow_act (R := fun a b => read b = read a) w e d (fun _ => rfl) (fun first second => second.trans first) each

end H2LoadRunner.Load
