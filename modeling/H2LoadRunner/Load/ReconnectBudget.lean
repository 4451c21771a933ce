/-
# Load.ReconnectBudget -- a controller that comes up with nothing left

At a fixed rate `connection_made` of a controller asserts that requests are left.  `connect` and
`reconnect_to_alt_addr` ask whether the test is over before they connect; the delayed reconnect
timer, the switch back to the preferred host and the restart once everything is written
(`World.opener`) do not.  Nor does anything end the lookup of a client that is stopped.

* `provided_iff_funded`: in a run every controller that is connecting has requests left, in every
  state reached, exactly when the events that connect without asking find requests left; then every
  connection that comes up as it is awaited finds requests left.
-/
import H2LoadRunner.Load.Lineage

namespace H2LoadRunner.Load

open Library Library.EffectLog

set_option autoImplicit false

variable {c : ClientId} {e : Effect} {w : World}

/-- Every controller that is connecting has requests left. -/
def World.Provided (w : World) : Prop :=
  ∀ c, w.live c = true → (w.clients c).parentClient = none → (w.clients c).state = .connecting →
    0 < (w.clients c).reqLeft

/-- A connection that comes up is not one whose client was stopped in the meantime. -/
def Awaited (w : World) : Event → Prop
  | .connected c (some _) => (w.clients c).state = .connecting
  | _ => True

instance (w : World) (event : Event) : Decidable (Awaited w event) := by
  unfold Awaited
  split <;> infer_instance

/-- A controller on which `connection_made` is entered has requests left. -/
def Supplied (w : World) : Event → Prop
  | .connected c (some _) => w.live c = true → (w.clients c).parentClient = none → 0 < (w.clients c).reqLeft
  | _ => True

/-- A controller that the event makes connect without asking has requests left. -/
def Funded (w : World) (event : Event) : Prop :=
  ∀ c, w.opener event = some c → (w.clients c).parentClient = none → 0 < (w.clients c).reqLeft

instance (w : World) (event : Event) : Decidable (Funded w event) := by
  cases opener : w.opener event with
  | none => exact isTrue fun c opens => nomatch opener.symm.trans opens
  | some c =>
    refine decidable_of_iff ((w.clients c).parentClient = none → 0 < (w.clients c).reqLeft)
      ⟨fun funded d opens => ?_, fun funded => funded c opener⟩
    cases opener.symm.trans opens
    exact funded

/-! ## Budgets -/

def World.charged (w : World) : Effect → Option ClientId
  | .createClient _ | .createDestClient _ _ _ => some w.clientCount
  | .countStart c _ _ | .requestFailure c _ | .abandonStreams c | .timeout c => some c
  | _ => none

theorem reqLeft_act (w : World) (e : Effect) (d : ClientId) (spared : w.charged e ≠ some d) :
    ((e.act w).clients d).reqLeft = (w.clients d).reqLeft := by
  refine read_act Client.reqLeft w e d ?_
  intro a b touch
  cases touch with
  | create | createDest | timeout | count | fail | abandon => exact absurd rfl spared
  | _ => rfl

/-! ## What stays -/

/-- A client with a session is connected, and a controller that is connecting has requests left. -/
structure World.Awaiting (w : World) : Prop where
  lineage : w.Lineage
  seated : ∀ c, (w.clients c).session.isSome = true →
    c < w.clientCount ∧ (w.clients c).state = .connected
  provided : ∀ c, (w.clients c).parentClient = none → (w.clients c).state = .connecting →
    0 < (w.clients c).reqLeft

def Sustains (w : World) : Effect → Prop
  | .createDestClient p _ _ => p < w.clientCount ∧ (w.clients p).parentClient = none
  | .connecting c _ => (w.clients c).state ≠ .connected ∧
      ((w.clients c).parentClient = none → 0 < (w.clients c).reqLeft)
  | .allocateSession c _ => c < w.clientCount
  | .countStart c _ _ | .requestFailure c _ | .abandonStreams c =>
    (w.clients c).parentClient = none → (w.clients c).state ≠ .connecting
  | _ => True

def World.moved (w : World) : Effect → Option ClientId
  | .createClient _ | .createDestClient _ _ _ => some w.clientCount
  | .connecting c _ | .allocateSession c _ | .disconnect c | .timeout c => some c
  | _ => none

def Standing.post (standing : Standing) : Option ClientId × ClientState × Bool :=
  (standing.parentClient, standing.state, standing.hasSession)

theorem post_act (w : World) (e : Effect) (d : ClientId) (stays : w.moved e ≠ some d) :
    ((e.act w).clients d).standing.post = (w.clients d).standing.post := by
  refine read_act (fun client => client.standing.post) w e d ?_
  intro a b touch
  cases touch with
  | create | createDest | connect | allocate | disconnect | timeout => exact absurd rfl stays
  | http1 _ kept | start _ kept => simp only [Standing.post, Client.standing, kept]
  | _ => rfl

theorem post_of_moved {d : ClientId} (moved : w.moved e = some d) :
    (∃ link, e = .connecting d link) ∨ (∃ protocol, e = .allocateSession d protocol) ∨
      ((e.act w).clients d).standing.post.2 = (.idle, false) := by
  cases e with
  | connecting c link =>
    cases moved
    exact .inl ⟨link, rfl⟩
  | allocateSession c protocol =>
    cases moved
    exact .inr (.inl ⟨protocol, rfl⟩)
  | createClient | createDestClient | disconnect | timeout =>
    cases moved
    simp only [standing_act, Effect.restands, ↓reduceIte]
    exact .inr (.inr rfl)
  | _ => cases moved

theorem awaiting_apply (w : World) (e : Effect) (sustains : Sustains w e) (awaiting : w.Awaiting) :
    (Machine.apply e w).Awaiting where
  lineage := by
    refine lineage_apply_of_root w e ?_ awaiting.lineage
    rintro p schema authority rfl
    exact sustains
  seated d session := by
    have stands : ((e.act w).clients d).standing.hasSession = true := session
    have later := clientCount_le_apply w e
    by_cases moved : w.moved e = some d
    · rcases post_of_moved moved with ⟨link, rfl⟩ | ⟨protocol, rfl⟩ | idle
      · rw [(standing_act w (.connecting d link) d).trans (if_pos rfl)] at stands
        exact absurd (awaiting.seated _ stands).2 sustains.1
      · have up := (standing_act w (.allocateSession d protocol) d).trans (if_pos rfl)
        exact ⟨sustains.trans_le later, congrArg Standing.state up⟩
      · exact nomatch stands.symm.trans (congrArg Prod.snd idle)
    · have post := post_act w e d moved
      have before := awaiting.seated d ((congrArg (fun post => post.2.2) post).symm.trans stands)
      exact ⟨before.1.trans_le later, (congrArg (fun post => post.2.1) post).trans before.2⟩
  provided d root connecting := by
    have stands : ((e.act w).clients d).standing.state = .connecting := connecting
    by_cases moved : w.moved e = some d
    · rcases post_of_moved moved with ⟨link, rfl⟩ | ⟨protocol, rfl⟩ | idle
      · have parent : ((Effect.act (.connecting d link) w).clients d).parentClient =
          (w.clients d).parentClient := parentClient_act w _ d
        have left := reqLeft_act w (.connecting d link) d nofun
        exact (sustains.2 (parent.symm.trans root)).trans_eq left.symm
      · rw [(standing_act w (.allocateSession d protocol) d).trans (if_pos rfl)] at stands
        cases stands
      · exact nomatch stands.symm.trans (congrArg Prod.fst idle)
    · have post := post_act w e d moved
      have root' := (congrArg (fun post => post.1) post).symm.trans root
      have connecting' := (congrArg (fun post => post.2.1) post).symm.trans stands
      refine (awaiting.provided d root' connecting').trans_eq (reqLeft_act w e d fun charged => ?_).symm
      cases e with
      | createClient | createDestClient | timeout => exact moved charged
      | countStart | requestFailure | abandonStreams =>
        cases charged
        exact sustains root' connecting'
      | _ => cases charged

theorem World.Provided.supplied (provided : w.Provided) {event : Event} (awaited : Awaited w event) :
    Supplied w event := by
  unfold Supplied
  split
  · exact fun live root => provided _ live root awaited
  · trivial

theorem awaiting_initial (cfg : Config) (reqTodo nclients : Nat) :
    (World.initial cfg reqTodo nclients).Awaiting :=
  ⟨lineage_initial cfg reqTodo nclients, nofun, nofun⟩

/-! ## Submissions -/

structure World.Seats (w : World) (p : ClientId) : Prop where
  known : p < w.clientCount
  root : (w.clients p).parentClient = none
  session : (w.clients p).session.isSome = true

theorem seats_apply (stays : e.releases = false) {p : ClientId} (seats : w.Seats p) :
    (Machine.apply e w).Seats p where
  known := seats.known.trans_le (clientCount_le_apply w e)
  root := (parentClient_apply e seats.known).trans seats.root
  session := hasSession_apply stays seats.known seats.session

def awaits : LoadConduct :=
  .along World.Awaiting (fun w e => Sustains w e ∧ e.releases = false) (fun _ => True)
    fun w e fits awaiting => awaiting_apply w e fits.1 awaiting

theorem submission_awaits : Submission awaits (World.Under World.Seats) World.Seats where
  controller _ under := under.2
  own _ seats := ⟨seats.known, (World.controllerOf_root seats.root).symm ▸ seats⟩
  listed awaiting seats found :=
    World.Lineage.under_listed (World.Awaiting.lineage awaiting) seats.known seats.root seats found
  kept {w v c} reached under := by
    refine reached.holds (P := (World.Under World.Seats · c)) (fun _ _ fits under => ?_) under
    exact under_apply (fun _ seats => seats_apply fits.2 seats) under
  heads {w v p} reached seats :=
    reached.holds (P := (World.Seats · p)) (fun _ _ fits seats => seats_apply fits.2 seats) seats
  warranted {w e} awaiting warranted := by
    refine ⟨?_, trivial⟩
    have up {p : ClientId} (seats : w.Seats p) : (w.clients p).state ≠ .connecting :=
      ((World.Awaiting.seated awaiting p seats.session).2).trans_ne nofun
    cases e with
    | createDestClient => exact ⟨⟨warranted.known, warranted.root⟩, rfl⟩
    | connecting c link =>
      obtain ⟨-, parent, idle⟩ := warranted
      refine ⟨⟨idle.trans_ne nofun, fun root => ?_⟩, rfl⟩
      rw [root] at parent
      cases parent
    | countStart => exact ⟨fun _ => up warranted.2, rfl⟩
    | requestFailure c exhausted =>
      refine ⟨fun root => up ?_, rfl⟩
      exact World.controllerOf_root root ▸ warranted.2.2
    | allocateSession | abandonStreams | freeClient | disconnect | timeout => exact warranted.elim
    | _ => exact ⟨trivial, rfl⟩
  session _ _ _ := trivial
  faults _ _ := trivial

abbrev holding : LoadConduct := .keeping World.Awaiting

theorem holds_of_sustains (sustains : Sustains w e) : holding.log w [e] :=
  fun awaiting => awaiting_apply w e sustains awaiting

theorem submit_of_unseated (env : Env) (gone : (w.clients (w.controllerOf c)).session = none) :
    Emits (submit env c) w fun _ es => es = [] := by
  unfold submit
  simp only [emits_bind Program.world, emits_world, replay_nil, List.nil_append]
  show Emits (submitWith env _ c) w _
  unfold submitWith
  simp only [emits_bind Program.world, emits_world, replay_nil, List.nil_append, emits_ite, emits_pure]
  refine ⟨fun _ => trivial, fun _ => ?_⟩
  unfold submitAsController
  simp only [emits_bind Program.world, emits_world, replay_nil, List.nil_append, emits_ite, emits_pure, gone]
  exact ⟨fun _ => trivial, fun _ => emits_fault _ _ _⟩

theorem holding_submit (env : Env) {w : World} {c : ClientId} (_ : True) : holding.Keeps (submit env c) w := by
  refine Conduct.meets_of_outcomes (fun awaiting result es submits => ⟨fun _ => ?_, trivial⟩) fun _ _ _ => trivial
  cases session : (w.clients (w.controllerOf c)).session with
  | none =>
    rw [submit_of_unseated env session result es submits]
    exact awaiting
  | some there =>
    have up : (w.clients (w.controllerOf c)).session.isSome = true := by rw [session]; rfl
    have known := (awaiting.seated _ up).1
    have under : w.Under World.Seats c := by
      cases parent : (w.clients c).parentClient with
      | none =>
        have own := World.controllerOf_root parent
        exact ⟨own ▸ known, known, own.symm ▸ parent, up⟩
      | some p =>
        have child := World.controllerOf_child parent
        refine ⟨?_, known, ?_, up⟩
        · by_contra beyond
          exact nomatch parent.symm.trans
            (awaiting.lineage.listed.unborn c (Nat.le_of_not_lt beyond))
        · rw [child]
          exact (awaiting.lineage.roots c p parent).2
    obtain ⟨log, -⟩ := (submission_awaits.submit env under).log awaiting submits
    exact awaits.stable w es log awaiting

/-! ## Events -/

theorem relinking_holding (env : Env) :
    Relinking env (fun w c => (w.clients c).parentClient = none → 0 < (w.clients c).reqLeft)
      (fun _ _ => True) holding where
  idle {w e} _ _ idle := by
    refine holds_of_sustains ?_
    cases e with
    | createDestClient | allocateSession | countStart | requestFailure => exact idle.elim
    | connecting => exact ⟨idle.2.1, idle.1⟩
    | abandonStreams => exact fun _ => idle.trans_ne nofun
    | _ => trivial
  lost link := by
    refine lost_of_each (k := holding) (fun _ => holds_of_sustains trivial)
      (fun _ => holds_of_sustains trivial) (fun _ idle which => holds_of_sustains ?_) link
    rcases which with rfl | rfl
    · trivial
    · exact fun _ => idle.trans_ne nofun
  unfinished {w c} runs _ := by
    simp only [World.isTestFinished, Bool.or_eq_false_iff, beq_eq_false_iff_ne] at runs
    exact Nat.pos_of_ne_zero runs.1
  links {w c} d link opens root := by
    have left := reqLeft_act w (.setLink d link) c nofun
    have parent : ((Effect.act (.setLink d link) w).clients c).parentClient =
      (w.clients c).parentClient := parentClient_act w _ c
    exact (opens (parent.symm.trans root)).trans_eq left.symm
  drops {w c} d opens root := by
    have left := reqLeft_act w (.disconnect d) c nofun
    have parent : ((Effect.act (.disconnect d) w).clients c).parentClient =
      (w.clients c).parentClient := parentClient_act w _ c
    exact (opens (parent.symm.trans root)).trans_eq left.symm
  faults _ _ := trivial
  relinks _ _ := holds_of_sustains trivial
  connects _ opens away _ := holds_of_sustains ⟨away, opens⟩

theorem looping_holding (env : Env) : Looping holding fun _ _ => True where
  toLight := (relinking_holding env).lights
  kept _ _ := trivial
  controllers _ _ := trivial
  relinks _ _ := holds_of_sustains trivial

theorem holding_handle (env : Env) {event : Event} (funded : Funded w event) :
    holding.Keeps (handle env event) w := by
  have looping := looping_holding env
  refine (relinking_holding env).handle (fun _ _ _ => trivial) funded (fun _ _ => trivial)
    (fun _ _ id success final => looping.onStreamClose env (holding_submit env) id success final trivial) ?_
    (fun c n _ _ => looping.onRpsTimer (holding_submit env) n fun _ => trivial)
    fun c _ _ => looping.timingScriptTimeoutHandler (holding_submit env) trivial trivial
  rintro c protocol link rfl known
  refine looping.connectionMade (holding_submit env) trivial (.refl _) (fun _ => holds_of_sustains ?_) trivial
  exact known.trans_le (clientCount_le_apply w _)

/-! ## Events that do not ask -/

/-- The connection of `c` changes. -/
def Effect.relinks (c : ClientId) : Effect → Prop
  | .setLink d _ | .connecting d _ | .disconnect d => d = c
  | _ => False

/-- The connection of `c` changes, and in the end it connects. -/
def Reopens (c : ClientId) (es : List Effect) : Prop :=
  ∃ before link, es = before ++ [.connecting c link] ∧ ∀ e ∈ before, e.relinks c

theorem reopens_handle (env : Env) {event : Event} (opener : w.opener event = some c) :
    Emits (handle env event) w fun _ es => w.live c = true ∧ Reopens c es := by
  unfold handle
  simp only [emits_bind, emits_world, replay_nil, List.nil_append, emits_ite, emits_fault]
  refine ⟨fun enabled => ?_, fun _ => trivial⟩
  cases event with
  | reconnectTimer d =>
    simp only [World.opener, Option.ite_none_right_eq_some, Option.some.injEq] at opener
    obtain ⟨away, rfl⟩ := opener
    simp only [Event.enabled, Bool.and_eq_true] at enabled
    have live := enabled.1
    have away' (link : Link) :
        ((Machine.apply (Effect.setLink d link) w).clients d).state ≠ .connected :=
      (state_setLink w d link d).trans_ne away
    simp only [react, reconnectToUsedHost, emits_bind, emits_modifyLink, emits_client, replay_cons,
      replay_nil, List.nil_append, emits_ite, emits_pure]
    refine ⟨fun connected => absurd connected (away' _), fun _ => ?_⟩
    split
    · simp only [emits_bind, emits_modifyLink, emits_connectToHost]
      exact ⟨live, [_, _], _, rfl, by simp [Effect.relinks]⟩
    · simp only [emits_connectToHost]
      exact ⟨live, [_], _, rfl, by simp [Effect.relinks]⟩
  | preferredHostUp d =>
    simp only [World.opener, Option.ite_none_right_eq_some, Option.some.injEq] at opener
    obtain ⟨switches, rfl⟩ := opener
    simp only [react, onPreferedHostUp, disconnect, emits_bind, emits_modifyLink, emits_client,
      emits_perform, replay_nil, List.nil_append, emits_ite, emits_pure, emits_connectToHost]
    refine ⟨fun _ => ⟨enabled, [_, _], _, rfl, by simp [Effect.relinks]⟩, fun stays => ?_⟩
    exact absurd switches stays
  | writeComplete d =>
    simp only [World.opener, Option.ite_none_right_eq_some, Option.some.injEq] at opener
    obtain ⟨restarts, rfl⟩ := opener
    simp only [react, writeComplete, disconnect, emits_bind, emits_client, replay_nil,
      List.nil_append, restarts, emits_modifyLink, emits_perform, emits_connectToHost]
    exact ⟨enabled, [_, _], _, rfl, by simp [Effect.relinks]⟩
  | _ => cases opener

/-- What the changes of a connection leave. -/
structure SameController (c : ClientId) (w v : World) : Prop where
  clientCount : v.clientCount = w.clientCount
  freed : (v.clients c).freed = (w.clients c).freed
  parentClient : (v.clients c).parentClient = (w.clients c).parentClient
  reqLeft : (v.clients c).reqLeft = (w.clients c).reqLeft

theorem sameController_replay {es : List Effect} (relinks : ∀ e ∈ es, e.relinks c) :
    SameController c w (replay w es) := by
  induction es generalizing w with
  | nil => exact ⟨rfl, rfl, rfl, rfl⟩
  | cons e es ih =>
    obtain ⟨count, freed, parent, left⟩ := ih (w := Machine.apply e w)
      fun f member => relinks f (List.mem_cons_of_mem _ member)
    have first := relinks e List.mem_cons_self
    have count' := clientCount_act w e
    have freed' := freed_act w e c
    have parent' := parentClient_act w e c
    have left' : w.charged e ≠ some c → _ := reqLeft_act w e c
    cases e with
    | setLink | connecting | disconnect =>
      exact ⟨count.trans count', freed.trans freed', parent.trans parent', left.trans (left' nofun)⟩
    | _ => exact first.elim

/-- A controller that is connecting with nothing left. -/
theorem reopens_unprovided {es : List Effect} (live : w.live c = true)
    (root : (w.clients c).parentClient = none) (spent : (w.clients c).reqLeft = 0)
    (reopens : Reopens c es) : ¬ (replay w es).Provided := by
  intro provided
  obtain ⟨before, link, rfl, relinks⟩ := reopens
  have all : ∀ e ∈ before ++ [.connecting c link], e.relinks c := by
    intro e member
    rcases List.mem_append.mp member with early | last
    · exact relinks e early
    · rw [List.mem_singleton.mp last]
      rfl
  obtain ⟨count, freed, parent, left⟩ := sameController_replay (w := w) all
  have connecting : ((replay w (before ++ [.connecting c link])).clients c).state = .connecting := by
    rw [replay_append]
    exact congrArg Standing.state ((standing_act (replay w before) (.connecting c link) c).trans (if_pos rfl))
  have root' := parent.trans root
  have live' : (replay w (before ++ [.connecting c link])).live c = true := by
    simp only [World.live, World.controllerOf_root root] at live
    simp only [World.live, World.controllerOf_root root', count, freed, live]
  exact Nat.ne_of_gt (provided c live' root' connecting) (left.trans spent)

theorem funded_of_provided (env : Env) (w : World) (event : Event) :
    Emits (handle env event) w fun _ es => (replay w es).Provided → Funded w event := by
  intro a es handled provided c opener root
  obtain ⟨live, reopens⟩ := reopens_handle env opener a es handled
  by_contra none
  exact reopens_unprovided live root (Nat.eq_zero_of_not_pos none) reopens provided

/-- **A controller connects with requests left exactly when no event connects it without, and comes up with
requests left if it is then awaited.** -/
theorem provided_iff_funded (env : Env) (cfg : Config) (reqTodo nclients : Nat) (events : List Event)
    (log : List Effect) (run : Run env (World.initial cfg reqTodo nclients) events log) :
    (WorldsAlong World.Provided (handle env) (World.initial cfg reqTodo nclients) events ↔
      EventsAlong Funded (handle env) (World.initial cfg reqTodo nclients) events) ∧
    (EventsAlong (fun w event => Funded w event ∧ Awaited w event) (handle env)
        (World.initial cfg reqTodo nclients) events →
      EventsAlong Supplied (handle env) (World.initial cfg reqTodo nclients) events) := by
  have exact := worldsAlong_iff (fun _ awaiting c _ => World.Awaiting.provided awaiting c)
    (fun _ _ funded _ _ ends awaiting => ((holding_handle env funded).log awaiting ends).1 awaiting)
    (funded_of_provided env) run (awaiting_initial cfg reqTodo nclients)
  refine ⟨exact, fun met => ?_⟩
  have provided := exact.mpr (met.mono fun _ _ both => both.1)
  exact provided.eventsAlong (fun _ _ provided awaited => provided.supplied awaited) (met.mono fun _ _ both => both.2)

/-! ## Poles -/

def sharedHostsConfig : Config :=
  { rps := 1
    maxConcurrentStreams := 1
    connectionRetryOnDisconnect := true
    loadShareHosts := ["first:80", "second:80"] }

/-- The preferred host cannot be reached, the other one can, and then the preferred one is up. -/
def switchedBackEvents : List Event :=
  [.createClient, .connectionError 0, .connected 0 (some .http2), .preferredHostUp 0]

/-- **Satisfiable pole:** with a request left the controller comes up again on the preferred host. -/
theorem failover_provided : ∃ log, Run {} (World.initial sharedHostsConfig 2 1)
        (switchedBackEvents ++ [.connected 0 (some .http2)]) log ∧
      ((replay (World.initial sharedHostsConfig 2 1) log).clients 0).link.authority = "first:80" ∧
      EventsAlong Supplied (handle {}) (World.initial sharedHostsConfig 2 1)
        (switchedBackEvents ++ [.connected 0 (some .http2)]) := by
  exact ⟨_, run_of_isSome (by decide +kernel), by decide +kernel,
    (provided_iff_funded {} sharedHostsConfig 2 1 _ _ (run_of_isSome (by decide +kernel))).2 (by decide +kernel)⟩

/-- **Refuting pole:** the one request of the budget is out on the other host when the controller switches
back; and a connection that was given up with the requests comes up after all. -/
theorem switchedBack_without_requests :
    (∃ log, Run {} (World.initial sharedHostsConfig 1 1) switchedBackEvents log ∧
      handle {} (.connected 0 (some .http2)) (replay (World.initial sharedHostsConfig 1 1) log) =
        .error .assertion) ∧
    ∃ log, Run {} (World.initial { rps := 1 } 1 1) [.createClient, .connActivityTimer 0] log ∧
      handle {} (.connected 0 (some .http2)) (replay (World.initial { rps := 1 } 1 1) log) = .error .assertion :=
  ⟨exists_run_of_runLog (by decide +kernel), exists_run_of_runLog (by decide +kernel)⟩

end H2LoadRunner.Load
