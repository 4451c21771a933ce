/-
# Load.ControllerSession -- a controller between connections

`submit_request` of a controller asks its session for `max_concurrent_streams` without looking
whether there is one.  Sub-clients call `submit_request` of their controller from their own events, and
go on while the controller reconnects; so does a tick of a timing script that was queued when the
connection was lost.

* `submits_with_session`: in every state a run reaches, an event that finds the controller connected
  where it has to be (`Hosted`) never gets as far as that without a session.
* `streamClose_without_session`: a stream that closes on a sub-client of a disconnected controller
  does, for every closed-loop configuration.
-/
import H2LoadRunner.Load.Lineage
import H2LoadRunner.Load.PendingStreams

namespace H2LoadRunner.Load

open Library Library.EffectLog

set_option autoImplicit false

def Event.origin : Event → Option ClientId
  | .connected c (some _) => some c
  | event => event.submitter

/-- An event of a sub-client, or a tick of a timing script, finds the controller connected. -/
def Hosted (w : World) (event : Event) : Prop :=
  ∀ c, event.origin = some c → event.scripted = true ∨ (w.clients c).parentClient.isSome = true →
    (w.clients (w.controllerOf c)).session.isSome = true

instance (w : World) (event : Event) : Decidable (Hosted w event) := by
  cases origin : event.origin with
  | none => exact isTrue fun c there => nomatch origin.symm.trans there
  | some c =>
    refine decidable_of_iff (event.scripted = true ∨ (w.clients c).parentClient.isSome = true →
      (w.clients (w.controllerOf c)).session.isSome = true) ⟨fun hosted d there => ?_, fun hosted => ?_⟩
    · cases origin.symm.trans there
      exact hosted
    · exact hosted c origin

structure World.Hosts (w : World) (p : ClientId) : Prop where
  heads : w.Heads p
  session : (w.clients p).session.isSome = true

theorem hosts_apply {w : World} {e : Effect} {p : ClientId} (stays : e.releases = false)
    (hosts : w.Hosts p) : (Machine.apply e w).Hosts p :=
  ⟨heads_apply stays hosts.heads, hasSession_apply stays hosts.heads.known hosts.session⟩

theorem World.Lineage.under_hosts {w : World} (lineage : w.Lineage) {c : ClientId}
    (live : w.live c = true) (session : (w.clients (w.controllerOf c)).session.isSome = true) :
    w.Under World.Hosts c := by
  obtain ⟨known, heads⟩ := lineage.under_of_live live
  exact ⟨known, heads, session⟩

theorem meets_hosted (env : Env) (event : Event) (w : World) (hosted : Hosted w event) :
    (lineal (· ≠ .nullControllerSession)).Keeps (handle env event) w := by
  have submits : Submitting (adopting (· ≠ .nullControllerSession)) (World.Under World.Hosts) World.Hosts :=
    submitting_adopting World.Hosts.heads hosts_apply
      (fun hosts none => nomatch (none ▸ hosts.session)) fun _ other => other
  refine .assume fun lineage => (handling_lineal env submits).handle
    (turns_lineal (handling_lineal env submits) event)
    (fun enabled c submitter seen => ?_) fun enabled c negotiated link up => ?_
  · have origin : event.origin = some c := by
      cases event with
      | connected => cases submitter
      | _ => exact submitter
    refine lineage.under_hosts (live_of_submitter enabled submitter) ?_
    rcases seen with scripted | session
    · exact hosted c origin (.inl scripted)
    · cases parent : (w.clients c).parentClient with
      | none =>
        rw [World.controllerOf_root parent]
        exact session
      | some p => exact hosted c origin (.inr (by rw [parent]; rfl))
  · subst up
    have under := lineage.under_of_live enabled
    have kept (e : Effect) (stays : e.releases = false) (v : World) (under : v.Under World.Heads c) :=
      under_apply (e := e) (fun _ heads => heads_apply stays heads) under
    have linked := kept (.setLink c link) rfl w under
    obtain ⟨known, heads⟩ := kept (.allocateSession c negotiated) rfl _ linked
    refine ⟨known, heads, ?_⟩
    have same := (parentClient_apply (.allocateSession c negotiated) linked.1).trans
      (parentClient_apply (.setLink c link) under.1)
    -- A controller has the session it is given; the one of a sub-client's controller was there.
    cases parent : (w.clients c).parentClient with
    | none =>
      rw [World.controllerOf_root (same.trans parent)]
      exact congrArg Standing.hasSession
        ((standing_act _ (.allocateSession c negotiated) c).trans (if_pos rfl))
    | some p =>
      have session := hosted c rfl (.inr (by rw [parent]; rfl))
      obtain ⟨older, -⟩ := lineage.roots c p parent
      rw [World.controllerOf_child parent] at session
      rw [World.controllerOf_child (same.trans parent)]
      exact hasSession_apply rfl (older.trans_le (clientCount_le_apply w _))
        (hasSession_apply rfl older session)

/-- **A submission that finds its controller connected finds its session.** -/
theorem submits_with_session (env : Env) (cfg : Config) (reqTodo nclients : Nat) (events : List Event)
    (log : List Effect) (run : Run env (World.initial cfg reqTodo nclients) events log) (event : Event)
    (hosted : Hosted (replay (World.initial cfg reqTodo nclients) log) event) :
    handle env event (replay (World.initial cfg reqTodo nclients) log) ≠ .error .nullControllerSession :=
  fun ends => (meets_hosted env event _ hosted).allows (lineage_of_run run) ends rfl

/-- **Satisfiable pole:** a stream closes on a sub-client, its controller connected. -/
theorem hosted_submits_with_session : ∃ log, Run fanOutEnv (World.initial fanOutConfig 4 1)
        [.createClient, .connected 0 (some .http2), .connected 1 (some .http2)] log ∧
      Hosted (replay (World.initial fanOutConfig 4 1) log) (.streamClose 1 1 true) ∧
      handle fanOutEnv (.streamClose 1 1 true) (replay (World.initial fanOutConfig 4 1) log) ≠
        .error .nullControllerSession := by
  exact ⟨_, run_of_isSome (by decide +kernel), by decide +kernel,
    submits_with_session fanOutEnv fanOutConfig 4 1 _ _ (run_of_isSome (by decide +kernel)) _ (by decide +kernel)⟩

/-! ## Sub-clients of a disconnected controller -/

/-- Ends in the fault. -/
def doomed : LoadConduct :=
  .along (fun _ => True) (fun _ _ => True) (· = .nullControllerSession) fun _ _ _ _ => trivial

theorem doomed_submit (env : Env) {c : ClientId} {w : World} (set : w.config.nullDestination = false)
    (gone : (w.clients (w.controllerOf c)).session = none) :
    doomed.Meets (submit env c) w fun _ _ => False := by
  refine .reads (.reads (.ite (fun unset => ?_) fun _ => .reads (.ite (fun unset => ?_) fun _ => ?_)))
  · simp [set] at unset
  · simp [set] at unset
  · dsimp only
    rw [gone]
    exact .fault fun _ => rfl

/-- **A sub-client submits to its controller whether or not that has a session.** -/
theorem streamClose_without_session (env : Env) {w : World} {c : ClientId} {id : Nat} {success : Bool}
    (enabled : (Event.streamClose c id success).enabled w = true)
    (set : w.config.nullDestination = false) (untimed : w.config.timingScript = none)
    (closedLoop : w.config.rpsMode = false) (left : 0 < (w.clients c).reqLeft)
    (gone : (w.clients (w.controllerOf c)).session = none) :
    handle env (.streamClose c id success) w = .error .nullControllerSession := by
  have opened : ((w.clients c).streams.lookup id).isSome = true := by
    simp only [Event.enabled, World.http2Open] at enabled
    split at enabled
    · exact (Bool.and_eq_true_iff.mp enabled).2
    · cases enabled
  have meets : doomed.Meets (handle env (.streamClose c id success)) w fun _ _ => False := by
    refine .reads (.ite (fun _ => ?_) fun disabled => absurd enabled disabled)
    refine .reads (.bind (Q := fun _ v => v = Machine.apply (.closeStream c id success
      (env.verdict w.ticks) (env.clock w.ticks) (env.assembly w.ticks 0)) w)
      (.perform (fun _ => ⟨trivial, trivial⟩) fun _ => rfl) ?_)
    rintro _ v _ closed
    have kept (d : ClientId) : (v.clients d).reqLeft = (w.clients d).reqLeft ∧
        (v.clients d).parentClient = (w.clients d).parentClient ∧
          (v.clients d).session = (w.clients d).session := by
      have same := read_act (fun client => (client.reqLeft, client.parentClient, client.session)) w
        (.closeStream c id success (env.verdict w.ticks) (env.clock w.ticks) (env.assembly w.ticks 0)) d <| by
          intro a b touch
          cases touch with
          | http1 speaks => cases speaks
          | _ => rfl
      simp only [Prod.mk.injEq] at same
      exact closed ▸ same
    have left' : 0 < (v.clients c).reqLeft := left.trans_eq (kept c).1.symm
    have gone' : (v.clients (v.controllerOf c)).session = none := by
      have same : v.controllerOf c = w.controllerOf c := by
        unfold World.controllerOf
        rw [(kept c).2.1]
      rw [same, (kept _).2.2, gone]
    have set' : v.config.nullDestination = false := by
      rw [closed, config_apply, config_act, set]
    refine .ite (fun missing => ?_) fun _ => meets_client (.ite (fun spent => ?_) fun _ =>
      .ite (fun _ => .ite (fun timed => ?_) fun _ => .ite (fun _ => ?_) fun paced => ?_) fun final => ?_)
    · simp [missing.2] at opened
    · exact absurd spent.1 (Nat.ne_of_gt left')
    · simp [untimed] at timed
    · exact .bind (doomed_submit env set' gone') fun _ _ _ impossible => impossible.elim
    · simp [closedLoop] at paced
    · simp [left'] at final
  have outcome := meets trivial
  cases ends : handle env (.streamClose c id success) w with
  | error f =>
    rw [ends] at outcome
    exact congrArg _ outcome
  | ok result =>
    rw [ends] at outcome
    exact outcome.2.elim

/-! ## Poles -/

/-- Requests for the controller itself and for its sub-client, and then the controller loses its
connection. -/
def orphaningEvents : List Event :=
  [.createClient, .connected 0 (some .http2), .connected 1 (some .http2), .connectionError 0]

/-- **Refuting pole:** the controller is about to reconnect, and a stream closes on its sub-client. -/
theorem reconnecting_submits_without_session :
    ¬ ∀ (env : Env) (cfg : Config) (reqTodo nclients : Nat) (events : List Event) (log : List Effect),
      Run env (World.initial cfg reqTodo nclients) events log → ∀ event : Event,
        handle env event (replay (World.initial cfg reqTodo nclients) log) ≠ .error .nullControllerSession := by
  intro always
  obtain ⟨log, run, enabled, left, gone⟩ :
      ∃ log, Run fanOutEnv (World.initial fanOutConfig 4 1) orphaningEvents log ∧
        (Event.streamClose 1 1 true).enabled (replay (World.initial fanOutConfig 4 1) log) = true ∧
        0 < ((replay (World.initial fanOutConfig 4 1) log).clients 1).reqLeft ∧
        ((replay (World.initial fanOutConfig 4 1) log).clients
          ((replay (World.initial fanOutConfig 4 1) log).controllerOf 1)).session = none :=
    exists_run_of_runLog (by decide +kernel)
  have config : (replay (World.initial fanOutConfig 4 1) log).config = fanOutConfig :=
    config_replay _ log
  refine always _ _ _ _ _ log run (.streamClose 1 1 true) ?_
  refine streamClose_without_session fanOutEnv enabled ?_ ?_ ?_ left gone
  · rw [config]
    rfl
  · rw [config]
    rfl
  · rw [config]
    rfl

end H2LoadRunner.Load
