/-
# Load.Loops -- what the worker does over and over

The loops of `Load.Program` and the functions that only pass on to others, under any conduct that
allows the effects no test stands before (`Light`) and that the functions passed on to meet:
`submit_request`, `on_stream_close` and what follows a connection error.  `Looping` is about the
clients `mine` that submissions work on.
-/
import H2LoadRunner.Library.Conduct
import H2LoadRunner.Library.Rotation
import H2LoadRunner.Load.Touches

namespace H2LoadRunner.Load

open Library Library.EffectLog

set_option autoImplicit false

/-- The end of `Http1Session::submit_request`, once it is known whether there is a body. -/
def http1Send (env : Env) (close : ClientId → Nat → Bool → Bool → M Unit) (d : ClientId) (bodyless : Bool) :
    M Int := do
  startRequest env d
  if bodyless then return 0
  match (← client d).session with
  | some (.http1 session) => http1OnWrite close d session
  | _ => Program.fault .nullSession

abbrev LoadConduct := Conduct World (E := Effect) Fault

variable {k : LoadConduct} {c d : ClientId} {w : World} {env : Env}

/-! ## Reading and changing a client -/

section Reading

variable {α : Type} {Q : α → World → Prop}

theorem meets_client {f : Client → M α} (rest : k.Meets (f (w.clients c)) w Q) :
    k.Meets (client c >>= f) w Q :=
  Conduct.Meets.bind (Q := fun here v => here = w.clients c ∧ v = w) (.reads (.pure ⟨rfl, rfl⟩)) (by
    rintro _ _ _ ⟨rfl, rfl⟩
    exact rest)

theorem meets_modifyLink {change : Link → Link} {Q : PUnit → World → Prop}
    (log : k.invariant w → k.log w [.setLink c (change (w.clients c).link)])
    (holds : Q ⟨⟩ (Machine.apply (.setLink c (change (w.clients c).link)) w)) :
    k.Meets (modifyLink c change) w Q :=
  meets_client (.perform log fun _ => holds)

theorem meets_modifyLink_bind {change : Link → Link} {f : PUnit → M α}
    (log : k.invariant w → k.log w [.setLink c (change (w.clients c).link)])
    (rest : k.Meets (f ⟨⟩) (Machine.apply (.setLink c (change (w.clients c).link)) w) Q) :
    k.Meets (modifyLink c change >>= f) w Q := by
  rw [modifyLink, Program.bind_assoc]
  exact meets_client (.performs log rest)

theorem meets_connectToHost {schema authority : String} {Q : PUnit → World → Prop}
    (log : k.invariant w → k.log w [.connecting c
      { (w.clients c).link with schema := schema, authority := authority, isClientStopped := false }])
    (holds : Q ⟨⟩ (Machine.apply (.connecting c
      { (w.clients c).link with schema := schema, authority := authority, isClientStopped := false }) w)) :
    k.Meets (connectToHost c schema authority) w Q :=
  meets_client (.perform log fun _ => holds)

end Reading

/-- The hosts of a connection, and the timer that retries them. -/
def Link.rotation (link : Link) : Rotation String where
  preferred := link.preferredAuthority
  current := link.authority
  candidates := link.candidateAddresses
  used := link.usedAddresses
  retrying := link.reconnectTimer
  again := link.newConnectionRequested

/-- Whether the same host is to be tried once more. -/
def Link.requesting (again : Bool) (link : Link) : Link := { link with newConnectionRequested := again }

/-- The requests that are pending, and the place in the timing script. -/
def Link.counts (link : Link) : Nat × Nat := (link.rpsReqPending, link.reqidx)

/-- Neither the hosts of a connection nor what it counts change. -/
structure Link.Akin (before after : Link) : Prop where
  rotation : after.rotation = before.rotation
  counts : after.counts = before.counts

/-! ## Effects without a test -/

/-- Effects of streams and sessions that the source makes without a test. -/
def Effect.light : Effect → Bool
  | .updateThisInDestClientMap _ | .terminateSession _ | .requeueToParent _ | .resetTimeoutRequests _ _
  | .readPayload _ _ _ | .advanceOffset _ _ _ | .requestSent _ | .responseReceived _
  | .alignRequestCounter _ | .closeStream _ _ _ _ _ _ => true
  | _ => false

/-- The payload stored for the stream is more than an HTTP/1 session sends at once. -/
def World.Overlong (w : World) (c : ClientId) (id : Nat) : Prop :=
  ∃ request, (w.clients c).requestsAwaitingResponse.lookup id = some request ∧
    Client.chunk < request.content.reqPayload.length

/-- A fault that may come of any function; an index out of range and a controller without a session
are those of few. -/
def Fault.common : Fault → Bool
  | .nullControllerSession | .outOfRange => false
  | _ => true

/-- A conduct that allows such effects, and changes of a connection that concern neither its hosts nor
what it counts. -/
structure Light (k : LoadConduct) : Prop where
  light : ∀ {w e}, k.invariant w → e.light = true → k.log w [e]
  cuts : ∀ {w c id}, k.invariant w → w.Overlong c id → k.log w [.cutPayload c id Client.chunk]
  links : ∀ {w c link}, k.invariant w → (w.clients c).link.Akin link → k.log w [.setLink c link]
  faults : ∀ f, f.common = true → k.allows f

namespace Light

variable (lights : Light k)

include lights

theorem perform {e : Effect} (is : e.light = true) (w : World) :
    k.Keeps (Program.perform e : M PUnit) w :=
  .perform (fun holds => lights.light holds is) fun _ => trivial

theorem fault {α : Type} {f : Fault} {Q : α → World → Prop} (common : f.common = true) :
    k.Meets (Program.fault f : M α) w Q :=
  .fault fun _ => lights.faults f common

theorem fault_bind {α β : Type} {f : Fault} {g : α → M β} {Q : β → World → Prop}
    (common : f.common = true) : k.Meets ((Program.fault f : M α) >>= g) w Q :=
  .fault_bind fun _ => lights.faults f common

theorem modifyLink {change : Link → Link} (akin : (w.clients c).link.Akin (change (w.clients c).link)) :
    k.Keeps (Load.modifyLink c change) w :=
  meets_modifyLink (fun holds => lights.links holds akin) trivial

theorem terminateSession (c : ClientId) (w : World) :
    k.Keeps (Load.terminateSession c) w :=
  meets_client (.ite (fun _ => lights.fault_bind rfl) fun _ => lights.perform rfl w)

theorem setupGracefulShutdown (c : ClientId) (w : World) :
    k.Keeps (Load.setupGracefulShutdown c) w :=
  lights.modifyLink ⟨rfl, rfl⟩

theorem gracefulRestartConnection (c : ClientId) (w : World) :
    k.Keeps (Load.gracefulRestartConnection c) w :=
  .bind (lights.modifyLink ⟨rfl, rfl⟩) fun _ _ _ _ => lights.terminateSession c _

theorem processRequestFailure (errCode : Int)
    (fails : ∀ exhausted, k.invariant w → w.currentPhase = .mainDuration →
      k.log w [.requestFailure c exhausted]) : k.Keeps (Load.processRequestFailure c errCode) w := by
  refine .reads (.unless fun main => ?_)
  refine .bind (Q := fun _ _ => True) (.perform (fun holds => fails _ holds (not_not.mp main)) fun _ => trivial)
    fun _ v _ _ => ?_
  refine .ite (fun _ => lights.gracefulRestartConnection c v) fun _ => ?_
  exact .when (fun _ => lights.terminateSession c v)

theorem stopClients (clients : List ClientId) (w : World) : k.Keeps (Load.stopClients clients) w := by
  induction clients generalizing w with
  | nil => exact .pure trivial
  | cons c rest ih =>
    refine meets_client (.ite (fun _ => ?_) fun _ => ih w)
    refine .bind (lights.setupGracefulShutdown c w) fun _ v _ _ => ?_
    exact .bind (lights.terminateSession c v) fun _ u _ _ => ih u

theorem resetTimeoutRequests (env : Env) (c : ClientId) (w : World) :
    k.Meets (Load.resetTimeoutRequests env c) w fun _ v => (v.clients c).session = (w.clients c).session := by
  refine .reads (.ite (fun _ => lights.fault_bind rfl) fun _ =>
    .perform (fun holds => lights.light holds rfl) fun _ => ?_)
  simp [Effect.act, World.resetTimeoutRequests, World.modifyStats, World.clients_modifyClient, Client.expire]

theorem dataRead (c : ClientId) (id length : Nat) (w : World) :
    k.Keeps (Load.dataRead c id length) w :=
  .reads (.ite (fun _ => lights.perform rfl w) fun _ =>
    .ite (fun _ => lights.fault rfl) fun _ => lights.perform rfl w)

/-! ## Responses -/

section Closing

variable {mine : World → ClientId → Prop} {close : ClientId → Nat → Bool → Bool → M Unit}
  (kept : ∀ {w v c}, k.Reached w v → mine w c → mine v c)
  (closes : ∀ {w c} (id : Nat) (success final : Bool), mine w c →
    k.Keeps (close c id success final) w)

section Written

include kept closes

theorem http1RequestSent (ours : mine w d) : k.Keeps (Load.http1RequestSent close d) w := by
  refine .bind (lights.perform rfl w) fun _ v reached _ => meets_client ?_
  split
  · exact .when (fun _ => closes _ _ _ (kept reached ours))
  · exact .pure trivial

theorem http1OnWrite (ours : mine w d) (session : Http1Session) :
    k.Meets (Load.http1OnWrite close d session) w fun result _ => result = 0 ∨ result = -1 := by
  refine .ite (fun _ => .pure (.inr rfl)) fun _ => .reads ?_
  dsimp only
  cases (w.clients d).streams.lookup session.streamReqCounter with
  | none => exact .pure (.inl rfl)
  | some stream =>
    refine .ite (fun _ => .ite (fun _ => ?_) fun _ => .pure (.inl rfl)) fun _ => ?_
    · refine .bind (lights.perform rfl w) fun _ v reached _ => .ite (fun _ => ?_) fun _ => .pure (.inl rfl)
      exact .bind (lights.http1RequestSent @kept @closes (kept reached ours)) fun _ _ _ _ => .pure (.inl rfl)
    · split
      · exact .ite (fun _ => .pure (.inl rfl)) fun _ => lights.fault rfl
      · rename_i found
        refine .ite (fun _ => .pure (.inl rfl)) fun _ => .ite (fun long => ?_) fun _ => ?_
        · exact .performs (fun holds => lights.cuts holds ⟨_, found, long⟩) (.pure (.inl rfl))
        · exact .bind (lights.http1RequestSent @kept @closes ours) fun _ _ _ _ => .pure (.inl rfl)

end Written

include kept

theorem writeSignal {env : Env} (closes : ∀ {w c} (id : Nat) (success final : Bool), mine w c →
      k.Keeps (closed env c id success final) w) (ours : (w.clients c).session.isSome = true → mine w c) :
    k.Keeps (Load.writeSignal env c) w := by
  refine meets_client ?_
  split
  · rename_i here
    exact .before (lights.http1OnWrite @kept @closes (ours (by rw [here]; rfl)) _)
  · exact lights.fault rfl

end Closing

theorem messageComplete {keepAlive : Bool}
    (closes : ∀ link id, (w.clients c).link.Akin link → (w.clients c).session.isSome = true →
      k.Keeps (closed env c id true (!keepAlive)) (Machine.apply (.setLink c link) w))
    (requests : ∀ {v}, k.invariant v → k.log v [.setLink c ((v.clients c).link.requesting true)])
    (errors : ∀ v, k.Keeps (handleConnectionError c) v) : k.Keeps (Load.messageComplete env c keepAlive) w := by
  have answered (v : World) : k.Keeps (do
      Program.perform (.responseReceived c)
      if !keepAlive then
        Program.perform (.alignRequestCounter c)
        if (← client c).reqLeft ≠ 0 then
          Load.modifyLink c fun link => { link with newConnectionRequested := true }
        handleConnectionError c) v := by
    refine .bind (lights.perform rfl v) fun _ u _ _ => .when (fun _ => ?_)
    refine .bind (lights.perform rfl u) fun _ t _ _ => meets_client ?_
    refine .ite (fun _ => ?_) fun _ => errors t
    exact meets_modifyLink_bind (fun holds => requests holds) (errors _)
  refine meets_modifyLink_bind (fun holds => lights.links holds ⟨rfl, rfl⟩) (.reads ?_)
  dsimp only
  split
  · rename_i here
    have session : (w.clients c).session.isSome = true := by
      simp only [clients_apply, Effect.act, World.clients_modifyClient, if_true] at here
      rw [here]
      rfl
    split
    · exact lights.fault rfl
    · exact .ite (fun _ => .bind (closes _ _ ⟨rfl, rfl⟩ session) fun _ u _ _ => answered u) fun _ => answered _
  · exact lights.fault rfl

theorem connected {protocol : Option Protocol} (errors : ∀ v, k.Keeps (handleConnectionError c) v)
    (made : ∀ link, k.Keeps (connectionMade env c protocol) (Machine.apply (.setLink c link) w)) :
    k.Keeps (Load.connected env c protocol) w :=
  meets_modifyLink_bind (fun holds => lights.links holds ⟨rfl, rfl⟩)
    (.bind (made _) fun _ u _ _ => .when fun _ => errors u)

end Light

/-! ## Submissions one after another -/

/-- A conduct in which what is pending changes, and the clients it is about stay the same. -/
structure Looping (k : LoadConduct) (mine : World → ClientId → Prop) : Prop extends Light k where
  kept : ∀ {w v c}, k.Reached w v → mine w c → mine v c
  controllers : ∀ {w c}, k.invariant w → mine w c → mine w (w.controllerOf c)
  relinks : ∀ {w c link}, k.invariant w → link.rotation = (w.clients c).link.rotation →
    k.log w [.setLink c link]

namespace Looping

variable {mine : World → ClientId → Prop} (looping : Looping k mine)

include looping

theorem modifyLink {change : Link → Link}
    (same : (change (w.clients c).link).rotation = (w.clients c).link.rotation) :
    k.Keeps (Load.modifyLink c change) w :=
  meets_modifyLink (fun holds => looping.relinks holds same) trivial

theorem onStreamClose (env : Env) {submit : ClientId → M Int}
    (submitted : ∀ {w c}, mine w c → k.Keeps (submit c) w) (id : Nat) (success final : Bool) (ours : mine w c) :
    k.Keeps (Load.onStreamClose env submit c id success final) w := by
  refine .reads (.bind (looping.perform rfl w) fun _ v reached _ => ?_)
  have still := looping.kept reached ours
  refine .unless fun _ => meets_client ?_
  refine .ite (fun _ => ?_) fun _ => .when (fun _ => ?_)
  · exact .bind (looping.setupGracefulShutdown c v) fun _ _ _ _ => looping.terminateSession c _
  · refine .unless fun _ => .ite (fun _ => ?_) fun _ => .when (fun _ => ?_)
    · exact .before (submitted still)
    · refine .bind (submitted still) fun _ _ _ _ => .when (fun _ => ?_)
      exact looping.modifyLink (by simp only [Link.rotation])

section Submitting

variable (submitted : ∀ {w c}, mine w c → k.Keeps (submit env c) w)

include submitted

theorem submitUpTo (count : Nat) (ours : mine w c) : k.Keeps (Load.submitUpTo env count c) w := by
  induction count generalizing w with
  | zero => exact .pure trivial
  | succ count ih =>
    refine .bind (submitted ours) fun _ v reached _ => .unless fun _ => ?_
    exact ih (looping.kept reached ours)

theorem replayQueue (fuel : Nat) (ours : mine w c) : k.Keeps (Load.replayQueue env fuel c) w := by
  induction fuel generalizing w with
  | zero => exact looping.fault rfl
  | succ fuel ih =>
    refine .assume fun holds => .reads (.unless fun _ => ?_)
    refine .bind (looping.perform rfl w) fun _ v reached _ => ?_
    have still := looping.kept reached ours
    have controller := looping.kept reached (looping.controllers holds ours)
    refine .ite (fun _ => ?_) fun _ => ih still
    refine .bind (submitted controller) fun _ u further _ => .unless fun _ => ?_
    exact ih (looping.kept further still)

theorem timingConnectLoop (range : k.allows .outOfRange) (timings : List Nat) (fuel : Nat)
    (ours : mine w c) : k.Keeps (Load.timingConnectLoop env timings fuel c) w := by
  induction fuel generalizing w with
  | zero => exact looping.fault rfl
  | succ fuel ih =>
    refine .bind (submitted ours) fun _ v reached _ => .unless fun _ => ?_
    refine meets_client (.unless fun _ => ?_)
    split
    · exact .fault fun _ => range
    · exact .when (fun _ => ih (looping.kept reached ours))

theorem rpsLoop (count : Nat) (ours : mine w c) : k.Keeps (Load.rpsLoop env count c) w := by
  induction count generalizing w with
  | zero => exact .pure trivial
  | succ count ih =>
    refine .bind (submitted ours) fun _ v reached _ => .unless fun _ => ?_
    refine .bind (looping.modifyLink (by simp only [Link.rotation])) fun _ u further _ => ?_
    exact ih (looping.kept further (looping.kept reached ours))

theorem onRpsTimer (n : Nat) (ours : (w.clients c).session.isSome = true → mine w c) :
    k.Keeps (Load.onRpsTimer env c n) w := by
  refine .bind (looping.resetTimeoutRequests env c w) fun _ v reached session => .reads ?_
  refine .ite (fun _ => looping.fault_bind rfl) fun _ => ?_
  refine .unless fun _ => .unless fun _ => ?_
  refine .bind (looping.modifyLink rfl) fun _ u further _ => .unless fun _ => ?_
  split
  · exact looping.fault rfl
  · rename_i here
    have still := looping.kept reached (ours (by rw [← session, here]; rfl))
    exact .unless fun _ => looping.rpsLoop submitted _ (looping.kept further still)

theorem timingScriptLoop (range : k.allows .outOfRange) (timings : List Nat) (fuel : Nat)
    (ours : mine w c) : k.Keeps (Load.timingScriptLoop env timings fuel c) w := by
  induction fuel generalizing w with
  | zero => exact looping.fault rfl
  | succ fuel ih =>
    refine meets_client (.ite (fun _ => .fault_bind fun _ => range) fun _ => ?_)
    split
    · refine .unless fun _ => ?_
      refine .bind (submitted ours) fun _ v reached _ => .unless fun _ => ?_
      exact meets_client (.unless fun _ => ih (looping.kept reached ours))
    · exact .fault fun _ => range

theorem timingScriptTimeoutHandler (range : k.allows .outOfRange) (ours : mine w c) :
    k.Keeps (Load.timingScriptTimeoutHandler env c) w := by
  refine .bind (looping.resetTimeoutRequests env c w) fun _ v reached _ => .reads ?_
  have still := looping.kept reached ours
  refine .unless fun _ => .bind (submitted still) fun _ u further _ => ?_
  refine .unless fun _ => meets_client (.unless fun _ => ?_)
  exact looping.timingScriptLoop submitted range _ _ (looping.kept further still)

theorem connectionMade (range : k.allows .outOfRange) {l : LoadConduct} (allows : Conduct.Allows k l)
    {protocol : Protocol} (allocated : l.invariant w → l.log w [.allocateSession c protocol])
    (ready : mine (Machine.apply (.allocateSession c protocol) w) c) :
    l.Keeps (Load.connectionMade env c (some protocol)) w := by
  refine .performs allocated (Conduct.Meets.weaken ?_ allows)
  refine .bind (looping.perform rfl _) fun _ u reached _ => .reads ?_
  have still := looping.kept reached ready
  dsimp only
  refine .ite (fun _ => ?_) fun _ => .ite (fun _ => .ite (fun _ => looping.fault_bind rfl) fun _ => ?_)
    fun _ => ?_
  · exact .before (looping.replayQueue submitted _ still)
  · refine .bind (looping.modifyLink rfl) fun _ t further _ => ?_
    exact .before (submitted (looping.kept further still))
  · split
    · exact .before (looping.submitUpTo submitted _ still)
    · split
      · exact .fault_bind fun _ => range
      · refine .when (fun _ => ?_)
        exact .before (looping.timingConnectLoop submitted range _ _ still)

end Submitting

end Looping

end H2LoadRunner.Load
