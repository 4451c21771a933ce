/-
# Load.Handling -- what the worker does with an event, under any conduct

One lemma for each function of `Load.Program` that submits: it meets every conduct that allows the
effects under the tests the source makes for them (`Tested`) and the faults the function can have.
With the tests before the other effects (`Lapses`) that is so of every event, by `Load.Idling`.

A conduct may be narrower while requests are submitted than over a whole event: `Submitting` is
about the former, about the clients `mine` the submission works on and about their controllers,
`chief` (`Submission` has the tests in more detail); `Handling` is about the latter.
-/
import H2LoadRunner.Load.Idling

namespace H2LoadRunner.Load

open Library Library.EffectLog

set_option autoImplicit false

variable {c d p : ClientId}

/-! ## Tests -/

def Tested (chief : World → ClientId → Prop) (w : World) : Effect → Prop
  | .createDestClient p _ _ => chief w p
  | .setLink c link | .connecting c link => link.rotation = (w.clients c).link.rotation
  | .startRequest d _ _ _ => (w.clients d).session.isSome = true
  | .countStart _ _ _ | .requestFailure _ _ => w.currentPhase = .mainDuration
  | .cutPayload c id _ => w.Overlong c id
  | .createClient _ | .listClient _ | .setPhase _ | .allocateSession _ _ | .disconnect _
  | .freeClient _ | .abandonStreams _ | .failInflight _ | .timeout _ => False
  | _ => True

/-- The tests it makes before the others. -/
def Lapses (env : Env) (w : World) : Effect → Prop
  | .createClient candidates => w.nconnsMade < w.nclients ∧
      candidates = env.shuffle w.ticks (World.otherHosts w.config w.clientCount)
  | .setPhase phase =>
    (phase = .warmUp ∧ w.currentPhase = .initialIdle) ∨
      (phase = .mainDuration ∧ w.currentPhase = .warmUp) ∨ phase.afterMain = true
  | .listClient c => c < w.clientCount
  | .allocateSession _ _ | .disconnect _ | .freeClient _ | .abandonStreams _ | .failInflight _
  | .timeout _ => True
  | .setLink c link => ∃ again, link = (w.clients c).link.requesting again
  | _ => False

/-- The tests of a submission in more detail: only a new sub-client connects, and requests are counted
for one of `chief` and fail on clients of `mine`. -/
def Warranted (mine chief : World → ClientId → Prop) (w : World) : Effect → Prop
  | .connecting c link =>
    link.rotation = (w.clients c).link.rotation ∧ (w.clients c).parentClient.isSome = true ∧
      (w.clients c).state = .idle
  | .countStart c _ _ => w.currentPhase = .mainDuration ∧ chief w c
  | .requestFailure c _ => w.currentPhase = .mainDuration ∧ mine w c
  | e => Tested chief w e

variable {mine chief : World → ClientId → Prop} {w : World}

theorem tested_of_warranted {e : Effect} (warranted : Warranted mine chief w e) : Tested chief w e := by
  cases e with
  | connecting | countStart | requestFailure => exact warranted.1
  | _ => exact warranted

/-- The clients `mine` that submissions work on, and their controllers, `chief`. -/
structure Submitters (k : LoadConduct) (mine chief : World → ClientId → Prop) : Prop where
  controller : ∀ {w c}, k.invariant w → mine w c → chief w (w.controllerOf c)
  own : ∀ {w p}, k.invariant w → chief w p → mine w p
  listed : ∀ {w p d key}, k.invariant w → chief w p →
    (w.clients p).destClients.lookup key = some d → mine w d
  kept : ∀ {w v c}, k.Reached w v → mine w c → mine v c
  heads : ∀ {w v p}, k.Reached w v → chief w p → chief v p
  session : ∀ {w p}, k.invariant w → chief w p → (w.clients p).session = none →
    k.allows .nullControllerSession
  faults : ∀ f, f ≠ .nullControllerSession → k.allows f

structure Submitting (k : LoadConduct) (mine chief : World → ClientId → Prop) : Prop
    extends Submitters k mine chief where
  tested : ∀ {w e}, k.invariant w → Tested chief w e → k.log w [e]

/-- The same by the tests in detail. -/
structure Submission (k : LoadConduct) (mine chief : World → ClientId → Prop) : Prop
    extends Submitters k mine chief where
  warranted : ∀ {w e}, k.invariant w → Warranted mine chief w e → k.log w [e]

theorem Submitting.submission {k : LoadConduct} (submits : Submitting k mine chief) :
    Submission k mine chief where
  toSubmitters := submits.toSubmitters
  warranted holds warranted := submits.tested holds (tested_of_warranted warranted)

/-! ## Submissions -/

namespace Submission

variable {k : LoadConduct} {mine chief : World → ClientId → Prop}
  (submits : Submission k mine chief) (env : Env)

include submits

variable {w : World} {close : ClientId → Nat → Bool → Bool → M Unit}

theorem perform {e : Effect} (warranted : Warranted mine chief w e) :
    k.Keeps (Program.perform e : M PUnit) w :=
  .perform (fun holds => submits.warranted holds warranted) fun _ => trivial

theorem looping : Looping k mine where
  light {w e} holds is := by
    refine submits.warranted holds ?_
    cases e with
    | updateThisInDestClientMap | terminateSession | requeueToParent | resetTimeoutRequests | readPayload
    | advanceOffset | requestSent | responseReceived | alignRequestCounter
    | closeStream => trivial
    | _ => cases is
  cuts holds long := submits.warranted holds long
  links holds akin := submits.warranted holds akin.rotation
  faults f common := submits.faults f (by rintro rfl; cases common)
  kept := submits.kept
  controllers holds ours := submits.own holds (submits.controller holds ours)
  relinks holds same := submits.warranted holds same

theorem fault {α : Type} {f : Fault} {Q : α → World → Prop} (other : f ≠ .nullControllerSession) :
    k.Meets (Program.fault f : M α) w Q :=
  .fault fun _ => submits.faults f other

theorem fault_bind {α β : Type} {f : Fault} {g : α → M β} {Q : β → World → Prop}
    (other : f ≠ .nullControllerSession) : k.Meets ((Program.fault f : M α) >>= g) w Q :=
  .fault_bind fun _ => submits.faults f other

theorem processRequestFailure (ours : mine w c) (errCode : Int) :
    k.Keeps (Load.processRequestFailure c errCode) w :=
  submits.looping.processRequestFailure errCode fun _ holds main => submits.warranted holds ⟨main, ours⟩

theorem findOrCreateDestClient (heads : chief w p) (request : RequestData) :
    k.Meets (Load.findOrCreateDestClient p request) w
      fun d v => (v.clients d).state = .connected → mine v d := by
  refine .assume fun holds => .reads ?_
  dsimp only
  split
  · rename_i d found
    exact .pure fun _ => submits.listed holds heads found
  · refine .bind (Q := fun _ v => (v.clients w.clientCount).parentClient.isSome = true ∧
      (v.clients w.clientCount).state = .idle)
      (.perform (fun holds => submits.warranted holds heads) fun _ => ?_) fun _ v _ fresh => meets_client ?_
    · simp [Effect.act, World.createDestClient, World.newDestClient]
    have same : { (v.clients w.clientCount).link with isClientStopped := false }.rotation =
        (v.clients w.clientCount).link.rotation := rfl
    refine .bind (meets_connectToHost (Q := fun _ v => (v.clients w.clientCount).state = .connecting)
      (fun holds => submits.warranted holds ⟨same, fresh⟩) ?_) fun _ v _ connecting => ?_
    · simp [Effect.act, World.clients_modifyClient]
    · exact .pure fun connected => absurd (connecting.symm.trans connected) (by decide)

theorem startRequest (session : (w.clients d).session.isSome = true) :
    k.Keeps (Load.startRequest env d) w :=
  .reads (submits.perform session)

theorem http2SubmitRequest {session : Http2Session} (here : (w.clients d).session = some (.http2 session)) :
    k.Keeps (Load.http2SubmitRequest env d session) w := by
  have connected : (w.clients d).session.isSome = true := by rw [here]; rfl
  refine .reads (.unless fun _ => .ite (fun _ => .ite (fun _ => ?_) fun _ => ?_)
    fun _ => .unless fun _ => .ite (fun _ => ?_) fun _ => .ite (fun _ => ?_) fun _ => ?_)
  · exact .before (submits.looping.modifyLink rfl)
  · exact .before (submits.startRequest env connected)
  · exact submits.fault_bind (by decide)
  · exact .before (submits.perform trivial)
  · exact .before (submits.startRequest env connected)

section Closing

variable {close : ClientId → Nat → Bool → Bool → M Unit}
  (closes : ∀ {w c} (id : Nat) (success final : Bool), mine w c →
    k.Keeps (close c id success final) w)

include closes

theorem http1SubmitRequest {w : World} (ours : mine w d) (connected : (w.clients d).session.isSome = true) :
    k.Keeps (Load.http1SubmitRequest env close d) w := by
  have taken (bodyless : Bool) : k.Keeps (http1Send env close d bodyless) w := by
    refine .bind (submits.startRequest env connected) fun _ v reached _ => ?_
    refine .unless fun _ => meets_client ?_
    split
    · exact (submits.looping.http1OnWrite @submits.kept @closes (submits.kept reached ours) _).any
    · exact submits.fault (by decide)
  have after (bodyless : Bool) : k.Keeps (Pure.pure bodyless >>= http1Send env close d) w :=
    .bind (Q := fun _ v => v = w) (.pure rfl) fun value v _ same => by
      rw [same]
      exact taken value
  refine .reads ?_
  dsimp only
  refine .ite (fun _ => after _) fun _ => ?_
  split
  · exact submits.fault_bind (by decide)
  · exact after _

theorem sessionSubmitRequest {w : World} (ours : mine w d) :
    k.Keeps (Load.sessionSubmitRequest env close d) w := by
  refine meets_client ?_
  split
  · exact submits.fault (by decide)
  · rename_i here
    exact submits.http2SubmitRequest env here
  · rename_i here
    exact submits.http1SubmitRequest env closes ours (by rw [here]; rfl)

end Closing

theorem prepareFirstRequest (p : ClientId) (w : World) : k.Keeps (Load.prepareFirstRequest env p) w := by
  refine .reads ?_
  dsimp only
  refine .ite (fun _ => ?_) fun _ => .ite (fun _ => ?_) fun _ => submits.perform trivial
  · exact submits.fault_bind (by decide)
  · exact submits.fault_bind (by decide)

theorem destinationClient (heads : chief w p) :
    k.Meets (Load.destinationClient p) w fun d v => (v.clients d).state = .connected → mine v d := by
  refine .assume fun holds => .reads (.ite (fun _ => .pure fun _ => submits.own holds heads) fun _ => ?_)
  split
  · exact submits.fault (by decide)
  · refine .bind (submits.findOrCreateDestClient heads _) fun d v _ found => .ite (fun _ => ?_) fun _ => .pure found
    have moved : k.Meets (Program.perform (.moveToDest p d) : M PUnit) v
        fun _ u => (u.clients d).state = .connected → mine u d := by
      refine .perform (fun holds => submits.warranted holds trivial) fun reached connected => ?_
      refine submits.kept reached (found ?_)
      rw [← connected]
      simp only [clients_apply, Effect.act, World.moveToDest]
      split
      · rfl
      · rw [World.clients_modifyClient, if_pos rfl]
        simp only [World.clients_modifyClient]
        split
        · rename_i same
          rw [same]
          rfl
        · rfl
    exact moved.bind fun _ _ _ later => .pure later

theorem submitTo (closes : ∀ {w c} (id : Nat) (success final : Bool), mine w c →
      k.Keeps (close c id success final) w)
    (ours : (w.clients d).state = .connected → mine w d) (heads : chief w p) :
    k.Keeps (Load.submitTo env close p d) w := by
  refine meets_client (.unless fun connected => ?_)
  have mine := ours (not_not.mp connected)
  refine .bind (submits.sessionSubmitRequest env closes mine) fun result v reached _ => ?_
  refine .ite (fun _ => ?_) fun _ => .reads (.unless fun main => ?_)
  · exact .before (submits.processRequestFailure (submits.kept reached mine) result)
  · exact .before (submits.perform ⟨not_not.mp main, submits.heads reached heads⟩)

theorem submitAsController (closes : ∀ {w c} (id : Nat) (success final : Bool), mine w c →
      k.Keeps (close c id success final) w) (heads : chief w p) :
    k.Keeps (Load.submitAsController env close p) w := by
  have handedOver {v : World} (heads : chief v p) : k.Keeps (do
      let d ← Load.destinationClient p
      Load.submitTo env close p d) v :=
    .bind (submits.destinationClient heads) fun d u reached found =>
      submits.submitTo env closes found (submits.heads reached heads)
  refine .reads (.unless fun _ => ?_)
  dsimp only
  split
  · rename_i none
    exact .fault fun holds => submits.session holds heads none
  · refine .unless fun _ => .unless fun _ => .ite (fun _ => ?_)
      fun _ => handedOver heads
    exact .bind (submits.prepareFirstRequest env p w) fun _ v reached _ =>
      handedOver (submits.heads reached heads)

theorem submitWith (closes : ∀ {w c} (id : Nat) (success final : Bool), mine w c →
      k.Keeps (close c id success final) w) (ours : mine w c) : k.Keeps (Load.submitWith env close c) w := by
  refine .assume fun holds => .reads (.unless fun _ => ?_)
  exact submits.submitAsController env closes (submits.controller holds ours)

theorem submitRequest (fuel : Nat) (ours : mine w c) : k.Keeps (Load.submitRequest env fuel c) w := by
  induction fuel generalizing c w with
  | zero => exact submits.fault (by decide)
  | succ fuel ih =>
    exact submits.submitWith env (fun id success final ours =>
      submits.looping.onStreamClose env (fun ours => ih ours) id success final ours) ours

theorem submit (ours : mine w c) : k.Keeps (Load.submit env c) w :=
  .reads (submits.submitRequest env _ ours)

theorem closed (id : Nat) (success final : Bool) (ours : mine w c) :
    k.Keeps (Load.closed env c id success final) w :=
  submits.looping.onStreamClose env (fun ours => submits.submit env ours) id success final ours

end Submission

/-! ## Events -/

/-- A conduct that events meet: over a whole event it allows at least what `narrow` does. -/
structure Handling (env : Env) (narrow k : LoadConduct) (mine chief : World → ClientId → Prop) :
    Prop where
  submits : Submitting narrow mine chief
  allows : Conduct.Allows narrow k
  lapses : ∀ {w e}, k.invariant w → Lapses env w e → k.log w [e]

namespace Handling

variable {env : Env} {narrow k : LoadConduct} {mine chief : World → ClientId → Prop}
  (handles : Handling env narrow k mine chief)

include handles

theorem submission : Submission narrow mine chief := handles.submits.submission

theorem quiet {α : Type} {p : M α} {w : World} {Q : α → World → Prop} (meets : narrow.Meets p w Q) :
    k.Meets p w Q :=
  meets.weaken handles.allows

theorem tested {w : World} {e : Effect} (holds : k.invariant w) (tested : Tested chief w e) : k.log w [e] :=
  handles.allows.log w [e] holds (handles.submits.tested (handles.allows.invariant w holds) tested)

theorem idling : Idling env (fun _ _ => True) (fun _ _ => True) k where
  idle {w e} holds alone idle := by
    cases e with
    | startRequest | countStart | requestFailure | createDestClient | allocateSession => exact idle.elim
    | setLink | connecting => exact handles.tested holds (by first | exact idle.rotation | exact idle.2.2.rotation)
    | createClient => exact handles.lapses holds ⟨alone, idle⟩
    | setPhase => exact handles.lapses holds alone
    | listClient => exact handles.lapses holds idle
    | cutPayload => exact handles.tested holds idle
    | disconnect | freeClient | abandonStreams | failInflight | timeout => exact handles.lapses holds trivial
    | _ => exact handles.tested holds trivial
  lost link := by
    refine lost_of_each (fun holds => handles.lapses holds trivial)
      (fun holds => handles.lapses holds ⟨false, rfl⟩) (fun holds _ which => handles.lapses holds ?_) link
    rcases which with rfl | rfl <;> trivial
  links _ _ _ := trivial
  drops _ _ := trivial
  faults f common := handles.allows.faults f (handles.submits.faults f (by rintro rfl; cases common))

theorem relinking (links : ∀ {w} (c : ClientId) (link : Link), k.invariant w → k.log w [.setLink c link])
    (connects : ∀ {w} (c : ClientId) (link : Link), k.invariant w → k.log w [.connecting c link]) :
    Relinking env (fun _ _ => True) (fun _ _ => True) k where
  toIdling := handles.idling
  unfinished _ := trivial
  relinks holds _ := links _ _ holds
  connects holds _ _ _ := connects _ _ holds

end Handling

def Event.submitter : Event → Option ClientId
  | .streamClose c _ _ | .messageComplete c _ | .writeSignal c | .rpsTimer c _ | .timingScriptTimer c =>
    some c
  | _ => none

/-- A tick of the timing script submits without looking for a session. -/
def Event.scripted : Event → Bool
  | .timingScriptTimer _ => true
  | _ => false

theorem live_of_submitter {event : Event} (enabled : event.enabled w = true)
    (submits : event.submitter = some c) : w.live c = true := by
  cases event with
  | streamClose d id success =>
    cases submits
    simp only [Event.enabled, World.http2Open] at enabled
    split at enabled
    · exact (Bool.and_eq_true_iff.mp enabled).1
    · cases enabled
  | messageComplete | writeSignal =>
    cases submits
    exact enabled
  | rpsTimer | timingScriptTimer =>
    cases submits
    simp only [Event.enabled, World.timersRun, Bool.and_eq_true] at enabled
    simp only [enabled]
  | _ => cases submits

/-- **Every event meets the conduct**, where submissions may work on the client it is about if that
client is connected or the event does not ask. -/
theorem Handling.handle {env : Env} {narrow k : LoadConduct}
    (handles : Handling env narrow k mine chief) {event : Event} (turns : Turns env k w event)
    (ours : event.enabled w = true → ∀ c, event.submitter = some c →
      event.scripted = true ∨ (w.clients c).session.isSome = true → mine w c)
    (ready : event.enabled w = true → ∀ c negotiated link, event = .connected c (some negotiated) →
      mine (Machine.apply (.allocateSession c negotiated) (Machine.apply (.setLink c link) w)) c) :
    k.Keeps (Load.handle env event) w := by
  have submits := handles.submission
  have range : narrow.allows .outOfRange := submits.faults _ nofun
  refine .assume fun holds => meets_handle (handles.idling.faults _ rfl) fun enabled =>
    handles.idling.react turns enabled (fun _ _ _ _ => trivial)
      (fun _ _ _ _ holds => handles.lapses holds ⟨true, rfl⟩) (fun _ _ _ => trivial) (fun _ _ => trivial)
      (fun _ _ => trivial)
      ?_ ?_ ?_ ?_ ?_ ?_
  all_goals replace ours := ours enabled
  · rintro c id success rfl session
    exact handles.quiet (submits.closed env id success false (ours c rfl (.inr session)))
  · rintro c keepAlive link id rfl akin session
    have linked : narrow.log w [.setLink c link] :=
      handles.submits.tested (handles.allows.invariant w holds) akin.rotation
    exact handles.quiet (submits.closed env id true _ (submits.kept ⟨_, linked, rfl⟩ (ours c rfl (.inr session))))
  · rintro c rfl
    exact handles.quiet (submits.looping.writeSignal @submits.kept
      (fun id success final ours => submits.closed env id success final ours) fun session => ours c rfl (.inr session))
  · rintro c protocol link rfl
    exact submits.looping.connectionMade (submits.submit env) range handles.allows
      (fun holds => handles.lapses holds trivial) (ready enabled c protocol link rfl)
  · rintro c n rfl
    exact handles.quiet (submits.looping.onRpsTimer (submits.submit env) n fun session => ours c rfl (.inr session))
  · rintro c rfl
    exact handles.quiet (submits.looping.timingScriptTimeoutHandler (submits.submit env) range
      (ours c rfl (.inl rfl)))

/-- **Every effect of a run passed the tests of the source**, as far as a property of single steps
can tell. -/
theorem along_of_run {env : Env} {P : World → Effect → Prop}
    (tested : ∀ {w e}, Tested (fun _ _ => True) w e → P w e)
    (lapses : ∀ {w e}, Lapses env w e → P w e)
    (links : ∀ {w} (c : ClientId) (link : Link), P w (.setLink c link))
    (connects : ∀ {w} (c : ClientId) (link : Link), P w (.connecting c link)) {events : List Event}
    {log : List Effect} (run : Run env w events log) : Along P w log := by
  let k : LoadConduct := .along (fun _ => True) P (fun _ => True) fun _ _ _ _ => trivial
  have handles : Handling env k k (fun _ _ => True) fun _ _ => True :=
    { submits :=
        { controller := fun _ _ => trivial
          own := fun _ _ => trivial
          listed := fun _ _ _ => trivial
          kept := fun _ _ => trivial
          heads := fun _ _ => trivial
          tested := fun _ passed => ⟨tested passed, trivial⟩
          session := fun _ _ _ => trivial
          faults := fun _ _ => trivial }
      allows :=
        { invariant := fun _ holds => holds
          log := fun _ _ _ along => along
          faults := fun _ allowed => allowed }
      lapses := fun _ passed => ⟨lapses passed, trivial⟩ }
  have turns (v : World) (event : Event) : Turns env k v event :=
    (handles.relinking (fun c link _ => ⟨links c link, trivial⟩) fun c link _ => ⟨connects c link, trivial⟩).turns
      (fun _ _ => trivial) fun _ _ => trivial
  have each (v : World) (event : Event) (_ : True) : k.Keeps (handle env event) v :=
    handles.handle (turns v event) (fun _ _ _ _ => trivial) fun _ _ _ _ _ => trivial
  exact ((Conduct.meets_runAll each (eventsAlong_of_forall fun _ _ => trivial)).log trivial run).1

end H2LoadRunner.Load
