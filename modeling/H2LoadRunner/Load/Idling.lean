/-
# Load.Idling -- what the worker does besides submitting

One lemma for each function of `Load.Program` that submits nothing and is not in `Load.Loops`, about
any conduct that has room for the effects under the tests the source makes for them (`Alone`, `Idle`)
and for a loss that is accounted for.  `opens` says which clients may connect: `connect` and
`reconnect_to_alt_addr` ask before whether the test is over, the events of `World.opener` ask nothing,
so there it has to be known.  `permits` says which clients may drop their connection without
accounting for it, as the events of `World.drops` do.
-/
import H2LoadRunner.Load.Groups
import H2LoadRunner.Load.Standing

namespace H2LoadRunner.Load

open Library Library.EffectLog

set_option autoImplicit false

variable {c : ClientId} {w : World}

/-- The tests before an effect that submits nothing, opens no sub-client and allocates no session. -/
def Idle (env : Env) (opens : World → ClientId → Prop) (w : World) : Effect → Prop
  | .startRequest _ _ _ _ | .countStart _ _ _ | .requestFailure _ _ | .createDestClient _ _ _
  | .allocateSession _ _ => False
  | .setLink c link => (w.clients c).link.Akin link
  | .connecting c link =>
    opens w c ∧ (w.clients c).state ≠ .connected ∧ (w.clients c).link.Akin link
  | .abandonStreams c => (w.clients c).state = .idle
  | .createClient candidates => candidates = env.shuffle w.ticks (World.otherHosts w.config w.clientCount)
  | .listClient c => c < w.clientCount
  | .cutPayload c id _ => w.Overlong c id
  | _ => True

/-- A conduct that such effects and losses meet. -/
structure Idling (env : Env) (opens : World → ClientId → Prop) (permits : Ledger → ClientId → Prop)
    (k : LoadConduct) : Prop where
  idle : ∀ {w e}, k.invariant w → Alone permits w e → Idle env opens w e → k.log w [e]
  lost : ∀ {w c} (link : Option Link) {account : Effect}, k.invariant w →
    (∀ l ∈ link, l = ((Machine.apply (.disconnect c) w).clients c).link.requesting false) →
      account = .failInflight c ∨ account = .abandonStreams c →
        k.log w (.disconnect c :: (link.toList.map (Effect.setLink c) ++ [account]))
  links : ∀ {w c} (d : ClientId) (link : Link), opens w c → opens (Machine.apply (.setLink d link) w) c
  drops : ∀ {w c} (d : ClientId), opens w c → opens (Machine.apply (.disconnect d) w) c
  faults : ∀ f, f.common = true → k.allows f

/-! ## The state of a connection -/

theorem state_disconnect (w : World) (c : ClientId) :
    ((Machine.apply (Effect.disconnect c) w).clients c).state = .idle :=
  (congrArg Standing.state (standing_act w (.disconnect c) c)).trans (congrArg Standing.state (if_pos rfl))

theorem state_setLink (w : World) (c : ClientId) (link : Link) (d : ClientId) :
    ((Machine.apply (Effect.setLink c link) w).clients d).state = (w.clients d).state := by
  refine (congrArg Standing.state (standing_act w (.setLink c link) d)).trans ?_
  simp only [Effect.restands]
  split
  · rename_i here
    rw [here]
    rfl
  · rfl

theorem state_failInflight (w : World) (c d : ClientId) :
    ((Machine.apply (Effect.failInflight c) w).clients d).state = (w.clients d).state :=
  congrArg Standing.state (standing_act w (.failInflight c) d)

variable {k : LoadConduct} {env : Env} {opens : World → ClientId → Prop}
  {permits : Ledger → ClientId → Prop} {event : Event}

theorem lost_of_each (quits : ∀ {w}, k.invariant w → k.log w [.disconnect c])
    (settles : ∀ {w}, k.invariant w → k.log w [.setLink c ((w.clients c).link.requesting false)])
    (accounts : ∀ {w} {account : Effect}, k.invariant w → (w.clients c).state = .idle →
      account = .failInflight c ∨ account = .abandonStreams c → k.log w [account])
    (link : Option Link) {account : Effect} (holds : k.invariant w)
    (same : ∀ l ∈ link, l = ((Machine.apply (.disconnect c) w).clients c).link.requesting false)
    (which : account = .failInflight c ∨ account = .abandonStreams c) :
    k.log w (.disconnect c :: (link.toList.map (Effect.setLink c) ++ [account])) := by
  refine k.append w [_] _ (quits holds) ?_
  have dropped := k.stable w [_] (quits holds) holds
  cases link with
  | none => exact accounts dropped (state_disconnect w c) which
  | some link =>
    have linked : k.log (replay w [.disconnect c]) [.setLink c link] := by
      rw [same link rfl]
      exact settles dropped
    refine k.append _ [_] _ linked (accounts (k.stable _ [_] linked dropped) ?_ which)
    exact (state_setLink _ c link c).trans (state_disconnect w c)

theorem reqLeft_failInflight (w : World) (c : ClientId) (link : Link) :
    ((replay w [Effect.setLink c link, .failInflight c]).clients c).reqLeft = (w.clients c).reqLeft := by
  have linked : ((Machine.apply (Effect.setLink c link) w).clients c).reqLeft =
      (w.clients c).reqLeft :=
    congrArg (fun ledger => (ledger.accounts c).reqLeft) (ledger_of_silent w (.setLink c link) rfl)
  refine Eq.trans ?_ linked
  rw [replay_cons]
  generalize Machine.apply (Effect.setLink c link) w = v
  show ((v.failInflight c).ledger.accounts c).reqLeft = (v.ledger.accounts c).reqLeft
  rw [ledger_failInflight, Ledger.abandon]
  split
  · rfl
  · simp [Ledger.addFailed]

theorem over_of_isTestFinished (left : (w.clients c).reqLeft ≠ 0)
    (finished : w.isTestFinished c = true) : w.currentPhase ≠ .mainDuration := by
  rw [World.isTestFinished, Bool.or_eq_true, beq_iff_eq] at finished
  rcases finished with none | past
  · exact absurd none left
  · intro main
    rw [main] at past
    cases past

def World.Dropped (w : World) (c : ClientId) : Prop :=
  (w.clients c).state = .idle ∧ (w.clients c).link.reconnectTimer = false

theorem dropped_abandonStreams (dropped : w.Dropped c) :
    (Machine.apply (Effect.abandonStreams c) w).Dropped c := by
  obtain ⟨state, timer⟩ := dropped
  simp only [World.Dropped, clients_apply, Effect.act, World.processAbandonedStreams]
  split
  · exact ⟨state, timer⟩
  · split <;> simp [World.clients_modifyClient, World.addFailed, World.modifyStats, state, timer]

theorem eligible_abandonStreams (w : World) (c : ClientId) :
    ((replay w [Effect.disconnect c, .abandonStreams c]).ledger.accounts c).eligible = 0 := by
  have abandoned := ledger_processAbandonedStreams (Machine.apply (Effect.disconnect c) w)
    (Machine.apply (Effect.disconnect c) w).config c
  refine (congrArg (fun ledger => (ledger.accounts c).eligible) abandoned).trans ?_
  rw [Ledger.accounts_abandon, Ledger.accounts_write, if_pos rfl, Account.eligible_abandoned]
  have dropped : (Machine.apply (Effect.disconnect c) w).ledger = _ := ledger_disconnect w c
  rw [dropped, Ledger.accounts_write, if_pos rfl]

/-- The functions that move a client to another host. -/
structure Turns (env : Env) (k : LoadConduct) (w : World) (event : Event) : Prop where
  alternates : ∀ {w c}, w.Dropped c → k.Keeps (reconnectToAltAddr c) w
  retries : ∀ c, event = .reconnectTimer c → k.Keeps (react env (.reconnectTimer c)) w
  switches : ∀ c, event = .preferredHostUp c → k.Keeps (onPreferedHostUp c) w

namespace Idling

variable (idling : Idling env opens permits k)

include idling

theorem lights : Light k where
  light {w e} holds is := by
    cases e with
    | updateThisInDestClientMap | terminateSession | requeueToParent | resetTimeoutRequests | readPayload
    | advanceOffset | requestSent | responseReceived | alignRequestCounter
    | closeStream => exact idling.idle holds trivial trivial
    | _ => cases is
  cuts holds long := idling.idle holds trivial long
  links holds akin := idling.idle holds trivial akin
  faults := idling.faults

theorem perform {e : Effect} (alone : Alone permits w e) (idle : Idle env opens w e) :
    k.Keeps (Program.perform e : M PUnit) w :=
  .perform (fun holds => idling.idle holds alone idle) fun _ => trivial

/-! ## Connections -/

theorem connectToHost (allowed : opens w c) (away : (w.clients c).state ≠ .connected)
    {schema authority : String} (same : authority = (w.clients c).link.authority) :
    k.Keeps (Load.connectToHost c schema authority) w := by
  refine meets_connectToHost (fun holds => idling.idle holds trivial ⟨allowed, away, ?_, rfl⟩) trivial
  rw [same]
  rfl

theorem connect (opening : ∀ {v : World}, v.isTestFinished c = false → opens v c)
    (away : (w.clients c).state ≠ .connected) : k.Meets (Load.connect c) w
      fun result v => result ≠ 0 → v = w ∧ w.isTestFinished c = true := by
  refine .reads (.ite (fun finished => .pure fun _ => ⟨rfl, finished⟩) fun runs => ?_)
  have connects {v : World} (same : v.clients = w.clients)
      (still : v.isTestFinished c = w.isTestFinished c) : k.Meets (do
      Load.connectToHost c (w.clients c).link.schema (w.clients c).link.authority
      return (0 : Int)) v fun result v => result ≠ 0 → v = w ∧ w.isTestFinished c = true := by
    refine .bind (idling.connectToHost (opening ?_) (by rw [same]; exact away) (by rw [same]))
      fun _ _ _ _ => .pure nofun
    rw [still]
    exact Bool.eq_false_iff.mpr runs
  refine .ite (fun begins => ?_) fun _ => connects rfl rfl
  refine .performs (fun holds => idling.idle holds (.inl ⟨rfl, begins.2⟩) trivial) (connects rfl ?_)
  simp only [World.isTestFinished, begins.2]
  rfl

theorem disconnect (permitted : permits w.ledger c) :
    k.Keeps (Load.disconnect c) w :=
  idling.perform permitted trivial

theorem tryAgainOrFail (opening : ∀ {v : World}, v.isTestFinished c = false → opens v c) (w : World) :
    k.Keeps (Load.tryAgainOrFail c) w := by
  have abandons (link : Option Link)
      (same : ∀ l ∈ link, l = ((Machine.apply (.disconnect c) w).clients c).link.requesting false) :
      k.Follows (.disconnect c :: link.toList.map (Effect.setLink c)) (do
        Program.perform (.abandonStreams c)
        return (-1 : Int)) w fun _ _ => True :=
    .perform (.complete (fun holds => idling.lost link holds same (.inr rfl)) (.pure trivial))
  refine Conduct.Follows.meets (.perform (.bind [] rfl (.ite (fun _ => ?_) fun _ => abandons none nofun)))
  have cleared : ∀ l ∈ some (((Machine.apply (.disconnect c) w).clients c).link.requesting false),
      l = ((Machine.apply (.disconnect c) w).clients c).link.requesting false := by
    rintro _ ⟨⟩
    rfl
  refine .bind [_] rfl (.ite (fun left => ?_) fun _ => abandons _ cleared)
  refine .perform (.complete (fun holds => idling.lost _ holds cleared (.inl rfl)) ?_)
  have idle (v : World) (dropped : (v.clients c).state = .idle) (link : Link) :
      ((replay v [.setLink c link, .failInflight c]).clients c).state = .idle :=
    (state_failInflight _ c c).trans ((state_setLink v c link c).trans dropped)
  have lost := idle _ (state_disconnect w c)
  refine .bind (idling.connect opening fun connected => nomatch (lost _).symm.trans connected) fun result v _ refused => ?_
  refine .unless fun failed => ?_
  obtain ⟨rfl, finished⟩ := refused failed
  refine .before (idling.perform ?_ (lost _))
  exact over_of_isTestFinished ((reqLeft_failInflight _ c _).trans_ne left) finished

theorem fail (c : ClientId) (w : World) :
    k.Meets (Load.fail c) w fun _ v => v.Dropped c ∧ (v.ledger.accounts c).eligible = 0 := by
  have dropped : (Machine.apply (Effect.disconnect c) w).Dropped c := by
    simp [World.Dropped, Effect.act, World.clients_modifyClient, Client.disconnect]
  refine Conduct.Follows.meets (.perform fun holds => ?_)
  exact ⟨idling.lost none holds (by simp) (.inr rfl), dropped_abandonStreams dropped, eligible_abandonStreams w c⟩

theorem timeout (c : ClientId) (w : World) : k.Keeps (Load.timeout c) w := by
  refine .reads (.unless fun stays => idling.perform ?_ trivial)
  simpa [Alone] using stays

theorem handleConnectionError (again : k.Keeps (Load.tryAgainOrFail c) w)
    (alternates : ∀ {w}, w.Dropped c → k.Keeps (reconnectToAltAddr c) w) :
    k.Keeps (Load.handleConnectionError c) w := by
  refine .bind again fun _ v _ _ => .unless fun _ => ?_
  refine .bind (idling.fail c v) fun _ u _ failed => .bind (alternates failed.1) fun _ t _ _ => ?_
  exact .ite (fun _ => idling.lights.modifyLink ⟨rfl, rfl⟩) fun _ => idling.lights.modifyLink ⟨rfl, rfl⟩

theorem writeComplete (allowed : (w.clients c).link.writeClearCallback = some .restart → opens w c)
    (permitted : (w.clients c).link.writeClearCallback.isSome → permits w.ledger c) :
    k.Keeps (Load.writeComplete c) w := by
  refine meets_client ?_
  split
  · exact .pure trivial
  · rename_i callback waiting
    refine meets_modifyLink_bind (fun holds => idling.idle holds trivial ⟨rfl, rfl⟩)
      (.performs (fun holds => idling.idle holds ?_ trivial) ?_)
    · show permits (Effect.act (.setLink c _) w).ledger c
      rw [ledger_of_silent w _ rfl]
      exact permitted (by rw [waiting]; rfl)
    cases callback with
    | shutdown => exact idling.lights.modifyLink ⟨rfl, rfl⟩
    | restart =>
      refine idling.connectToHost (idling.drops c (idling.links c _ (allowed waiting))) ?_ ?_
      · exact fun connected => nomatch (state_disconnect _ c).symm.trans connected
      · simp [Effect.act, World.clients_modifyClient, Client.disconnect]

/-! ## Sessions, timers and the worker -/

theorem freeClient (permitted : permits w.ledger c) :
    k.Keeps (Load.freeClient c) w :=
  .bind (idling.disconnect permitted) fun _ _ _ _ => idling.perform trivial trivial

theorem createClient (opening : ∀ {v : World}, v.isTestFinished w.clientCount = false → opens v w.clientCount)
    (free : ∀ ledger c, (ledger.accounts c).eligible = 0 → permits ledger c) (room : w.nconnsMade < w.nclients) : k.Keeps (Load.createClient env) w := by
  have fresh (candidates : List String) :
      ((Machine.apply (Effect.createClient candidates) w).clients w.clientCount).state ≠ .connected := by
    have standing := (standing_act w (.createClient candidates) w.clientCount).trans (if_pos rfl)
    exact (congrArg Standing.state standing).trans_ne nofun
  refine .reads (.performs (fun holds => idling.idle holds room rfl) ?_)
  refine .bind (idling.connect opening (fresh _)) fun _ u reached _ => .ite (fun _ => ?_) fun _ =>
    .when (fun timing => ?_)
  · refine .bind (idling.fail _ u) fun _ t _ failed => .when (fun _ => ?_)
    exact idling.freeClient (free _ _ failed.2)
  · obtain ⟨es, -, rfl⟩ := reached
    refine idling.perform ?_ (Nat.lt_of_lt_of_le ?_ (clientCount_le_replay _ es))
    · exact (congrArg Config.timingBasedMode (config_replay _ es)).trans timing
    · exact Nat.lt_succ_self _

theorem warmupTimeoutHandler (phase : w.currentPhase = .warmUp) :
    k.Keeps Load.warmupTimeoutHandler w :=
  .reads (.ite (fun _ => idling.lights.fault_bind rfl) fun _ =>
    idling.perform (.inr (.inl ⟨rfl, phase⟩)) trivial)

theorem durationTimeoutHandler (w : World) :
    k.Keeps Load.durationTimeoutHandler w :=
  .reads (.ite (fun _ => idling.perform (.inr (.inr rfl)) trivial) fun _ =>
    .bind (idling.perform (.inr (.inr rfl)) trivial) fun _ v _ _ => idling.lights.stopClients _ v)

end Idling

/-- A conduct that does not care which host a client connects to. -/
structure Relinking (env : Env) (opens : World → ClientId → Prop) (permits : Ledger → ClientId → Prop)
    (k : LoadConduct) : Prop extends Idling env opens permits k where
  unfinished : ∀ {w c}, w.isTestFinished c = false → opens w c
  relinks : ∀ {w c link}, k.invariant w → link.counts = (w.clients c).link.counts →
    k.log w [.setLink c link]
  connects : ∀ {w c link}, k.invariant w → opens w c → (w.clients c).state ≠ .connected →
    link.counts = (w.clients c).link.counts → k.log w [.connecting c link]

namespace Relinking

variable (relinking : Relinking env opens permits k)

include relinking

theorem relinked (allowed : opens w c) (away : (w.clients c).state ≠ .connected)
    {change : Link → Link} (same : ∀ link, (change link).counts = link.counts) (schema authority : String) :
    k.Keeps (do
      modifyLink c change
      connectToHost c schema authority) w := by
  refine meets_modifyLink_bind (fun holds => relinking.relinks holds (same _)) ?_
  refine meets_connectToHost (fun holds => relinking.connects holds (relinking.links c _ allowed) ?_ rfl) trivial
  exact (state_setLink w c _ c).trans_ne away

theorem reconnectToAltAddr (c : ClientId) (w : World) : k.Keeps (Load.reconnectToAltAddr c) w := by
  refine .reads ?_
  dsimp only
  refine .unless fun away => .unless fun retries => ?_
  have allowed : opens w c := by
    refine relinking.unfinished (Bool.eq_false_iff.mpr fun finished => retries ?_)
    rw [World.shouldReconnectOnDisconnect, finished]
    rfl
  have connects {change : Link → Link} (same : ∀ link, (change link).counts = link.counts)
      (schema authority : String) : k.Keeps (do
        modifyLink c change
        connectToHost c schema authority
        return true) w := by
    rw [← Program.bind_assoc]
    exact .before (relinking.relinked allowed away same schema authority)
  refine .ite (fun _ => connects (fun _ => by rfl) _ _) fun _ => ?_
  split
  · exact connects (fun _ => by rfl) _ _
  · exact meets_modifyLink_bind (fun holds => relinking.relinks holds rfl) (.pure trivial)

theorem reconnectTimer (allowed : (w.clients c).state ≠ .connected → opens w c) :
    k.Keeps (react env (.reconnectTimer c)) w := by
  refine meets_modifyLink_bind (fun holds => relinking.relinks holds rfl) (meets_client (.unless fun away => ?_))
  have opened := allowed ((state_setLink w c _ c).symm.trans_ne away)
  split
  · exact relinking.relinked (relinking.links c _ opened) away (fun _ => by rfl) _ _
  · exact meets_connectToHost
      (fun holds => relinking.connects holds (relinking.links c _ opened) away rfl) trivial

theorem onPreferedHostUp (allowed : (w.clients c).link.authority ≠ (w.clients c).link.preferredAuthority ∧
      (w.clients c).state = .connected → opens w c ∧ permits w.ledger c) :
    k.Keeps (Load.onPreferedHostUp c) w := by
  refine meets_client (.when (fun switches => ?_))
  refine .performs (fun holds => relinking.idle holds (allowed switches).2 trivial) ?_
  refine relinking.relinked (relinking.drops c (allowed switches).1) ?_ (fun _ => by rfl) _ _
  exact fun connected => nomatch (state_disconnect w c).symm.trans connected

end Relinking

/-! ## Events -/

/-- The client that the event makes connect, perhaps, to the host it names already. -/
def World.reopener (w : World) : Event → Option ClientId
  | .createClient => some w.clientCount
  | .connected c _ | .connectionError c | .messageComplete c _ => some c
  | _ => none

/-- The client that the event makes connect without asking whether the test is over. -/
def World.opener (w : World) : Event → Option ClientId
  | .reconnectTimer c => if (w.clients c).state ≠ .connected then some c else none
  | .preferredHostUp c =>
    if (w.clients c).link.authority ≠ (w.clients c).link.preferredAuthority ∧
      (w.clients c).state = .connected then some c else none
  | .writeComplete c => if (w.clients c).link.writeClearCallback = some .restart then some c else none
  | _ => none

def World.drops (w : World) : Event → Option ClientId
  | .preferredHostUp c =>
    if (w.clients c).link.authority ≠ (w.clients c).link.preferredAuthority ∧
      (w.clients c).state = .connected then some c else none
  | .writeComplete c => if (w.clients c).link.writeClearCallback.isSome then some c else none
  | .freeClient c | .connected c none => some c
  | _ => none

theorem Relinking.turns (relinking : Relinking env opens permits k)
    (allowed : ∀ c, w.opener event = some c → opens w c)
    (permitted : ∀ c, w.drops event = some c → permits w.ledger c) : Turns env k w event where
  alternates _ := relinking.reconnectToAltAddr _ _
  retries c same := by
    subst same
    exact relinking.reconnectTimer fun away => allowed c (if_pos away)
  switches c same := by
    subst same
    exact relinking.onPreferedHostUp fun switches =>
      ⟨allowed c (by simp [World.opener, switches]), permitted c (by simp [World.drops, switches])⟩

theorem meets_handle (disabled : k.allows .disabled)
    (reacts : event.enabled w = true → k.Keeps (react env event) w) :
    k.Keeps (handle env event) w :=
  .reads (.ite reacts fun _ => .fault fun _ => disabled)

/-- **What happens to the worker meets the conduct**, if it does where requests are submitted. -/
theorem Idling.react (idling : Idling env opens permits k) (turns : Turns env k w event)
    (enabled : event.enabled w = true)
    (opening : ∀ c, w.reopener event = some c → ∀ {v : World}, v.isTestFinished c = false → opens v c)
    (requests : ∀ c keepAlive, event = .messageComplete c keepAlive → ∀ {v}, k.invariant v →
      k.log v [.setLink c ((v.clients c).link.requesting true)])
    (free : ∀ ledger c, (ledger.accounts c).eligible = 0 → permits ledger c)
    (allowed : ∀ c, w.opener event = some c → opens w c)
    (permitted : ∀ c, w.drops event = some c → permits w.ledger c)
    (closes : ∀ c id success, event = .streamClose c id success → (w.clients c).session.isSome = true →
      k.Keeps (closed env c id success false) w)
    (completes : ∀ c keepAlive link id, event = .messageComplete c keepAlive →
      (w.clients c).link.Akin link → (w.clients c).session.isSome = true →
        k.Keeps (closed env c id true (!keepAlive)) (Machine.apply (.setLink c link) w))
    (writes : ∀ c, event = .writeSignal c → k.Keeps (writeSignal env c) w)
    (made : ∀ c protocol link, event = .connected c (some protocol) →
      k.Keeps (connectionMade env c (some protocol)) (Machine.apply (.setLink c link) w))
    (rpsTimer : ∀ c n, event = .rpsTimer c n → k.Keeps (onRpsTimer env c n) w)
    (timingScriptTimer : ∀ c, event = .timingScriptTimer c → k.Keeps (timingScriptTimeoutHandler env c) w) :
    k.Keeps (Load.react env event) w := by
  have lights := idling.lights
  have errors (c : ClientId) (opens : w.reopener event = some c) (v : World) :=
    idling.handleConnectionError (idling.tryAgainOrFail (opening c opens) v) turns.alternates
  cases event with
  | createClient => exact idling.createClient (opening _ rfl) free (of_decide_eq_true enabled)
  | connected c protocol =>
    refine lights.connected (errors c rfl) fun link => ?_
    cases protocol with
    | some protocol => exact made c protocol link rfl
    | none =>
      refine .before (idling.disconnect ?_)
      have ledger : (Machine.apply (.setLink c link) w).ledger = w.ledger :=
        ledger_of_silent w (.setLink c link) rfl
      rw [ledger]
      exact permitted c rfl
  | connectionError c => exact errors c rfl w
  | streamClose c id success =>
    refine closes c id success rfl ?_
    simp only [Event.enabled, World.http2Open] at enabled
    split at enabled
    · rename_i here
      rw [here]
      rfl
    · cases enabled
  | statusCode c id status => exact idling.perform trivial trivial
  | messageComplete c keepAlive =>
    exact lights.messageComplete (fun link id => completes c keepAlive link id rfl)
      (requests c keepAlive rfl) (errors c rfl)
  | writeSignal c => exact writes c rfl
  | dataRead c id length => exact lights.dataRead c id length w
  | writeComplete c =>
    exact idling.writeComplete (fun restarts => allowed c (by simp [World.opener, restarts]))
      fun waiting => permitted c (by simp [World.drops, waiting])
  | rpsTimer c n => exact rpsTimer c n rfl
  | streamTimeoutTimer c => exact (lights.resetTimeoutRequests env c w).any
  | delayTimer c => exact .reads (idling.perform trivial trivial)
  | timingScriptTimer c => exact timingScriptTimer c rfl
  | connActivityTimer c => exact idling.timeout c w
  | reconnectTimer c => exact turns.retries c rfl
  | preferredHostUp c => exact turns.switches c rfl
  | freeClient c => exact idling.freeClient (permitted c rfl)
  | warmupTimer => exact idling.warmupTimeoutHandler (by simpa [Event.enabled] using enabled)
  | durationTimer => exact idling.durationTimeoutHandler w

/-- The same where streams may close in any world. -/
theorem Relinking.handle (relinking : Relinking env opens permits k)
    (free : ∀ ledger c, (ledger.accounts c).eligible = 0 → permits ledger c)
    (allowed : ∀ c, w.opener event = some c → opens w c)
    (permitted : ∀ c, w.drops event = some c → permits w.ledger c)
    (closes : ∀ w c id success final, k.Keeps (closed env c id success final) w)
    (made : ∀ c protocol link, event = .connected c (some protocol) → c < w.clientCount →
      k.Keeps (connectionMade env c (some protocol)) (Machine.apply (.setLink c link) w))
    (rpsTimer : ∀ c n, event = .rpsTimer c n → (w.clients c).isController = true →
      k.Keeps (onRpsTimer env c n) w)
    (timingScriptTimer : ∀ c, event = .timingScriptTimer c → w.config.timingScript.isSome = true →
      k.Keeps (timingScriptTimeoutHandler env c) w) : k.Keeps (Load.handle env event) w := by
  refine meets_handle (relinking.faults _ rfl) fun enabled =>
    relinking.react (relinking.turns allowed permitted) enabled (fun _ _ => relinking.unfinished)
      (fun _ _ _ _ holds => relinking.relinks holds rfl) free allowed permitted
      (fun c id success _ _ => closes w c id success false)
      (fun c keepAlive link id _ _ _ => closes _ c id true (!keepAlive)) ?_ ?_ ?_ ?_
  · intro c _
    exact relinking.lights.writeSignal (fun _ _ => True.intro)
      (fun id success final _ => closes _ _ id success final) fun _ => trivial
  · rintro c protocol link rfl
    simp only [Event.enabled, World.live, Bool.and_eq_true, decide_eq_true_eq] at enabled
    exact made c protocol link rfl enabled.1.1
  · rintro c n rfl
    simp only [Event.enabled, World.timersRun, Bool.and_eq_true] at enabled
    exact rpsTimer c n rfl enabled.1.2
  · rintro c rfl
    simp only [Event.enabled, Bool.and_eq_true] at enabled
    exact timingScriptTimer c rfl enabled.2

end H2LoadRunner.Load
