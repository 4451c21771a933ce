/-
# Load.Failover -- the hosts a controller rotates over

`init_connection_targert` gives a controller its preferred host and the other hosts as
candidates, in random order.  When a connection is lost, `reconnect_to_alt_addr` goes back to
the preferred host, or on to the next candidate; when no candidate is left, a timer leads to
`reconnect_to_used_host`; `on_prefered_host_up` leaves a substitute for the preferred host.

* `rotation_of_run`: in every state of a run whose delayed retries are punctual, the hosts of every
  controller are the configured ones, and each waits in one place if they are distinct.
* `secondWait_loses_host`: a timer armed anew while its expiry is queued is waited for twice, and the
  second retry takes the place of a host that is being tried.
-/
import H2LoadRunner.Load.Handling

namespace H2LoadRunner.Load

open Library Library.EffectLog

set_option autoImplicit false

/-! ## The hosts of a new controller -/

theorem map_getD_eq_rotate (hosts : List String) (start : Nat) :
    (List.range hosts.length).map (fun count => hosts.getD ((start + count) % hosts.length) "") =
      hosts.rotate start := by
  refine List.ext_getElem (by simp) fun count inside _ => ?_
  have below : count < hosts.length := by simpa using inside
  have within : (start + count) % hosts.length < hosts.length := Nat.mod_lt _ (by omega)
  simp [List.getElem_rotate, List.getElem?_eq_getElem within, Nat.add_comm]

theorem hosts_perm (cfg : Config) (this : ClientId) (candidates : List String) :
    ((World.controllerLink cfg this candidates).authority :: World.otherHosts cfg this).Perm
      (World.hosts cfg) := by
  by_cases empty : cfg.loadShareHosts.isEmpty = true
  · have none : cfg.loadShareHosts = [] := List.isEmpty_iff.mp empty
    simp [World.controllerLink, World.otherHosts, World.hosts, none]
  · simp only [World.controllerLink, World.otherHosts, if_neg empty]
    generalize shape : World.hosts cfg = hosts
    have some : hosts ≠ [] := by
      rintro rfl
      unfold World.hosts at shape
      split at shape
      · exact empty (List.isEmpty_iff.mpr shape)
      · simp at shape
    obtain ⟨size, length⟩ : ∃ size, hosts.length = size + 1 :=
      ⟨hosts.length - 1, by have := List.length_pos_iff.mpr some; omega⟩
    have around := map_getD_eq_rotate hosts (this % hosts.length)
    rw [length, List.range_succ_eq_map, List.map_cons, List.map_map, Nat.add_zero, Nat.mod_mod] at around
    rw [length]
    have shifted : ((fun count => hosts.getD ((this % (size + 1) + count) % (size + 1)) "") ∘ Nat.succ) =
        fun count => hosts.getD ((this % (size + 1) + 1 + count) % (size + 1)) "" := by
      funext count
      simp [Nat.add_assoc, Nat.add_comm 1]
    rw [shifted] at around
    rw [Nat.add_sub_cancel, around]
    exact List.rotate_perm _ _

/-! ## The invariant -/

structure Rotates (cfg : Config) (w : World) : Prop where
  config : w.config = cfg
  covers : ∀ c < w.clientCount, (w.clients c).standing.parentClient = none →
    Rotation.Covers (World.hosts cfg) (w.clients c).standing.rotation

variable {cfg : Config} {env : Env} {w : World} {e : Effect}

theorem Rotates.act (rotates : Rotates cfg w)
    (covers : ∀ c after, e.restands w = some (c, after) → c < (e.act w).clientCount →
      after.parentClient = none → Rotation.Covers (World.hosts cfg) after.rotation) :
    Rotates cfg (Machine.apply e w) where
  config := (config_act w e).trans rotates.config
  covers d known controller := by
    have existed (other : ∀ after, e.restands w ≠ some (d, after)) : d < w.clientCount := by
      have count := clientCount_act w e
      cases e with
      | createClient | createDestClient =>
        refine Nat.lt_of_le_of_ne (Nat.le_of_lt_succ (known.trans_eq count)) ?_
        rintro rfl
        exact other _ rfl
      | _ => exact known.trans_eq count
    rw [clients_apply, standing_act] at controller ⊢
    cases stands : e.restands w with
    | none =>
      rw [stands] at controller
      exact rotates.covers d (existed (by simp [stands])) controller
    | some changed =>
      obtain ⟨c, after⟩ := changed
      rw [stands] at controller
      dsimp only at controller ⊢
      split at controller
      · rename_i here
        subst here
        rw [if_pos rfl]
        exact covers d after stands known controller
      · rename_i away
        rw [if_neg away]
        refine rotates.covers d (existed fun other same => away ?_) controller
        rw [stands] at same
        cases same
        rfl

theorem rotates_tested (rotates : Rotates cfg w) (tested : Tested (fun _ _ => True) w e) :
    Rotates cfg (Machine.apply e w) := by
  refine rotates.act fun c after stands known controller => ?_
  cases e with
  | setLink | connecting =>
    cases stands
    exact tested ▸ rotates.covers c known controller
  | createDestClient =>
    cases stands
    cases controller
  | createClient | allocateSession | disconnect | timeout | freeClient => exact tested.elim
  | _ => cases stands

section Events

variable (shuffles : ∀ tick hosts, (env.shuffle tick hosts).Perm hosts)

include shuffles

theorem rotates_lapses (rotates : Rotates cfg w) (lapses : Lapses env w e) :
    Rotates cfg (Machine.apply e w) := by
  refine rotates.act fun c after stands known controller => ?_
  cases e with
  | createClient candidates =>
    cases stands
    obtain ⟨-, rfl⟩ := lapses
    rw [← rotates.config]
    have all := hosts_perm w.config w.clientCount
      (env.shuffle w.ticks (World.otherHosts w.config w.clientCount))
    exact Rotation.covers_fresh (((shuffles _ _).cons _).trans all)
  | setLink =>
    cases stands
    obtain ⟨again, rfl⟩ := lapses
    exact (Rotation.Step.ask again).covers (rotates.covers c known controller)
  | allocateSession | freeClient =>
    cases stands
    exact rotates.covers c (known.trans_eq (clientCount_act w _)) controller
  | disconnect | timeout =>
    cases stands
    exact Rotation.Step.calm.covers (rotates.covers c (known.trans_eq (clientCount_act w _)) controller)
  | createDestClient | connecting => exact lapses.elim
  | _ => cases stands

end Events

/-! ## Changes of host -/

theorem relinked (w : World) (c : ClientId) (links : List Link) (link : Link) :
    let v := replay w (links.map (Effect.setLink c) ++ [.connecting c link])
    v.config = w.config ∧ v.clientCount = w.clientCount ∧
      ∀ d, (v.clients d).standing = ((Effect.act (.connecting c link) w).clients d).standing := by
  induction links generalizing w with
  | nil => exact ⟨rfl, rfl, fun _ => rfl⟩
  | cons first links ih =>
    obtain ⟨config, clientCount, standing⟩ := ih (Machine.apply (.setLink c first) w)
    refine ⟨config, clientCount, fun d => (standing d).trans ?_⟩
    simp only [clients_apply, standing_act, Effect.restands, if_true]
    split <;> rfl

theorem Rotates.relinks {w : World} (rotates : Rotates cfg w) {c : ClientId} (links : List Link)
    {link : Link} (moves : Rotation.Covers (World.hosts cfg) (w.clients c).link.rotation →
      Rotation.Covers (World.hosts cfg) link.rotation) :
    Rotates cfg (replay w (links.map (Effect.setLink c) ++ [.connecting c link])) := by
  obtain ⟨config, clientCount, standing⟩ := relinked w c links link
  have after : Rotates cfg (Machine.apply (.connecting c link) w) := rotates.act <| by
    rintro _ _ ⟨⟩ known controller
    exact moves (rotates.covers c known controller)
  refine ⟨config.trans rotates.config, fun d known controller => ?_⟩
  rw [standing] at controller ⊢
  exact after.covers d (known.trans_eq clientCount) controller

theorem Rotates.relink {w : World} (rotates : Rotates cfg w) {c : ClientId} {link : Link}
    (step : Rotation.Step (w.clients c).link.rotation link.rotation) :
    Rotates cfg (Machine.apply (.setLink c link) w) := rotates.act <| by
  rintro _ _ ⟨⟩ known controller
  exact step.covers (rotates.covers c known controller)

theorem clients_setLink (w : World) (c : ClientId) (link : Link) :
    (Machine.apply (Effect.setLink c link) w).clients c = { w.clients c with link := link } := by
  simp [Effect.act, World.clients_modifyClient]

/-- A move that ends in a new connection, where what is known of a client that waits may be assumed. -/
def Link.Turns (before after : Link) : Prop :=
  (before.reconnectTimer = true →
    before.authority = before.preferredAuthority ∧ before.candidateAddresses = []) →
      Rotation.Attempt before.rotation after.rotation

/-- A delayed retry is one that was waited for since the client lost its connection. -/
def Punctual (w : World) : Event → Prop
  | .reconnectTimer c => (w.clients c).link.reconnectTimer = true ∨ (w.clients c).state = .connected
  | _ => True

instance (w : World) (event : Event) : Decidable (Punctual w event) := by
  cases event <;> unfold Punctual <;> infer_instance

structure Moving (k : LoadConduct) (c : ClientId) : Prop where
  attempts : ∀ {w} (links : List Link) (link : Link), k.invariant w → (w.clients c).link.Turns link →
    k.log w (links.map (Effect.setLink c) ++ [.connecting c link])
  waits : ∀ {w}, k.invariant w → (w.clients c).link.authority = (w.clients c).link.preferredAuthority →
    (w.clients c).link.candidateAddresses = [] →
      k.log w [.setLink c { (w.clients c).link with reconnectTimer := true }]
  calms : ∀ {w}, k.invariant w → k.log w [.setLink c { (w.clients c).link with reconnectTimer := false }]

namespace Moving

variable {k : LoadConduct} {c : ClientId} (moving : Moving k c) {w : World}

include moving

theorem relinks {change : Link → Link} {schema authority : String} (turns : (w.clients c).link.Turns
      { (change (w.clients c).link) with schema := schema, authority := authority, isClientStopped := false }) :
    k.Keeps (do modifyLink c change; connectToHost c schema authority) w := by
  refine Conduct.Follows.meets (.bind [_] rfl fun holds => ⟨?_, trivial⟩)
  have log := moving.attempts [change (w.clients c).link] _ holds turns
  simp only [replay_cons, replay_nil, List.nil_append, clients_setLink]
  exact log

theorem reconnectToAltAddr (dropped : w.Dropped c) : k.Keeps (Load.reconnectToAltAddr c) w := by
  refine .reads ?_
  dsimp only
  refine .unless fun _ => .unless fun _ =>
    .ite (fun away => ?_) fun home => ?_
  · rw [← Program.bind_assoc]
    exact .before (moving.relinks fun _ => .fallBack away)
  · split
    · rename_i address rest front
      rw [← Program.bind_assoc]
      exact .before (moving.relinks fun _ => .advance (not_not.mp home) dropped.2 front)
    · rename_i empty
      exact meets_modifyLink_bind (fun holds => moving.waits holds (not_not.mp home) empty) (.pure trivial)

/-- The timer is armed at the preferred host only, so no substitute is overwritten. -/
theorem reconnectTimer (env : Env) (punctual : Punctual w (.reconnectTimer c)) :
    k.Keeps (react env (.reconnectTimer c)) w := by
  refine Conduct.Follows.meets (.bind [_] rfl (.bind [] rfl (.ite (fun _ => ?_) fun away => ?_)))
  · exact .complete (fun holds => moving.calms holds) (.pure trivial)
  · have armed := punctual.resolve_right fun up => away ((state_setLink w c _ c).trans up)
    split
    · rename_i address rest front
      simp only [replay_cons, replay_nil, List.nil_append, clients_setLink] at front
      refine .bind [_] rfl fun holds => ⟨?_, trivial⟩
      have log := moving.attempts [{ (w.clients c).link with reconnectTimer := false },
        { (w.clients c).link with reconnectTimer := false, usedAddresses := rest }]
          { (w.clients c).link with
            reconnectTimer := false, usedAddresses := rest, authority := address, isClientStopped := false }
          holds (fun known => .retry (known armed).1 (known armed).2 front)
      simpa [clients_setLink] using log
    · rename_i none
      simp only [replay_cons, replay_nil, List.nil_append, clients_setLink] at none
      refine fun holds => ⟨?_, trivial⟩
      have log := moving.attempts [{ (w.clients c).link with reconnectTimer := false }]
        { (w.clients c).link with reconnectTimer := false, isClientStopped := false } holds
          (fun known => .stay (known armed).1 (known armed).2 none)
      simpa [clients_setLink] using log

end Moving

abbrev rotating (cfg : Config) : LoadConduct := .keeping (Rotates cfg)

theorem moving_rotating (cfg : Config) (c : ClientId) : Moving (rotating cfg) c where
  attempts links _ _ turns rotates := rotates.relinks links fun covers => (turns covers.retrying).covers covers
  waits _ home empty rotates := rotates.relink (.wait home empty)
  calms _ rotates := rotates.relink .calm

section Runs

variable (shuffles : ∀ tick hosts, (env.shuffle tick hosts).Perm hosts)

include shuffles

theorem meets_onPreferedHostUp (w : World) (c : ClientId) : (rotating cfg).Keeps (onPreferedHostUp c) w := by
  refine meets_client (.when (fun drops => ?_))
  obtain ⟨away, -⟩ := drops
  refine .bind (Q := fun _ v => (v.clients c).link = { (w.clients c).link with
    isClientStopped := true, reconnectTimer := false }) (.perform (fun _ rotates => ?_) fun _ => ?_)
      fun _ v _ same => Conduct.Follows.meets (.bind [_] rfl fun _ => ⟨fun rotates => ?_, trivial⟩)
  · exact rotates_lapses shuffles rotates trivial
  · simp [Effect.act, World.clients_modifyClient, Client.disconnect]
  · simp only [replay_cons, replay_nil, List.nil_append, clients_setLink]
    refine rotates.relinks [_] fun covers => ?_
    rw [same] at covers ⊢
    exact (Rotation.Step.switchBack away).covers covers

theorem turns_rotating (w : World) {event : Event} (punctual : Punctual w event) :
    Turns env (rotating cfg) w event where
  alternates dropped := (moving_rotating cfg _).reconnectToAltAddr dropped
  retries c same := (moving_rotating cfg c).reconnectTimer env (same ▸ punctual)
  switches c _ := meets_onPreferedHostUp shuffles w c

theorem handling_rotating : Handling env (rotating cfg) (rotating cfg) (fun _ _ => True) fun _ _ => True where
  submits :=
    { controller := fun _ _ => trivial
      own := fun _ _ => trivial
      listed := fun _ _ _ => trivial
      kept := fun _ _ => trivial
      heads := fun _ _ => trivial
      tested := fun _ tested rotates => rotates_tested rotates tested
      session := fun _ _ _ => trivial
      faults := fun _ _ => trivial }
  allows := .refl _
  lapses _ lapses rotates := rotates_lapses shuffles rotates lapses

theorem rotates_of_run {reqTodo nclients : Nat} {events : List Event} {log : List Effect}
    (run : Run env (World.initial cfg reqTodo nclients) events log)
    (punctual : EventsAlong Punctual (handle env) (World.initial cfg reqTodo nclients) events) :
    Rotates cfg (replay (World.initial cfg reqTodo nclients) log) := by
  have each (w : World) (event : Event) (punctual : Punctual w event) :
      (rotating cfg).Keeps (handle env event) w :=
    (handling_rotating shuffles).handle (turns_rotating shuffles w punctual) (fun _ _ _ _ => trivial)
      fun _ _ _ _ _ => trivial
  have initial : Rotates cfg (World.initial cfg reqTodo nclients) :=
    ⟨rfl, fun _ known => absurd known (Nat.not_lt_zero _)⟩
  exact ((Conduct.meets_runAll each punctual).log initial run).1 initial

end Runs

theorem nodup_hosts (distinct : cfg.loadShareHosts.Nodup) : (World.hosts cfg).Nodup := by
  unfold World.hosts
  split
  · exact distinct
  · rename_i missing
    refine List.Nodup.append distinct (List.nodup_singleton _) ?_
    simpa using missing

/-- **Failover neither loses nor duplicates a host**, whatever else happens to the worker. -/
theorem rotation_of_run (env : Env) (shuffles : ∀ tick hosts, (env.shuffle tick hosts).Perm hosts)
    (cfg : Config) (reqTodo nclients : Nat) (events : List Event) (log : List Effect)
    (run : Run env (World.initial cfg reqTodo nclients) events log)
    (punctual : EventsAlong Punctual (handle env) (World.initial cfg reqTodo nclients) events) (c : ClientId)
    (known : c < (replay (World.initial cfg reqTodo nclients) log).clientCount)
    (controller : ((replay (World.initial cfg reqTodo nclients) log).clients c).parentClient = none) :
    let link := ((replay (World.initial cfg reqTodo nclients) log).clients c).link
    link.rotation.members = (World.hosts cfg).toFinset ∧
      (cfg.loadShareHosts.Nodup → link.rotation.parked.Nodup) := by
  have covers := (rotates_of_run shuffles run punctual).covers c known controller
  exact ⟨covers.members, fun distinct => (covers.nodup_cons (nodup_hosts distinct)).of_cons⟩

def shareConfig : Config :=
  { loadShareHosts := ["a:1", "b:1"], hostAuthority := "c:1", connectionRetryOnDisconnect := true }

/-- Every host is tried, a used one again after a while, and the preferred one comes back. -/
def failoverEvents : List Event :=
  [.createClient, .connectionError 0, .connectionError 0, .connectionError 0, .connectionError 0,
    .connectionError 0, .reconnectTimer 0, .connected 0 (some .http2), .preferredHostUp 0]

/-- **Satisfiable pole:** through all moves the controller keeps its three hosts. -/
theorem failover_rotation : ∃ log, Run {} (World.initial shareConfig 1 1) failoverEvents log ∧
      let link := ((replay (World.initial shareConfig 1 1) log).clients 0).link
      link.rotation.members = (World.hosts shareConfig).toFinset ∧
        (shareConfig.loadShareHosts.Nodup → link.rotation.parked.Nodup) := by
  exact ⟨_, run_of_isSome (by decide +kernel),
    rotation_of_run {} (fun _ _ => .refl _) shareConfig 1 1 _ _ (run_of_isSome (by decide +kernel))
      (by decide +kernel) 0 (by decide +kernel) (by decide +kernel)⟩

/-- All hosts have failed, and a lookup that was given up ends in a refused connection while the expiry of
the timer is queued: the timer is armed anew, and both waits come to an end. -/
def secondWaitEvents : List Event :=
  [.createClient, .connectionError 0, .connectionError 0, .connectionError 0, .connectionError 0,
    .connectionError 0, .connectionError 0, .reconnectTimer 0, .reconnectTimer 0]

/-- **Refuting pole:** the host that the first retry went to is lost. -/
theorem secondWait_loses_host : ∃ log, Run {} (World.initial shareConfig 1 1) secondWaitEvents log ∧
      ((replay (World.initial shareConfig 1 1) log).clients 0).link.rotation.members ≠
        (World.hosts shareConfig).toFinset :=
  exists_run_of_runLog (by decide +kernel)

end H2LoadRunner.Load
