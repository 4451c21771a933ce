/-
# Load.RpsPacing -- the rate a controller keeps

A tick of `on_rps_timer` counts the requests that have become due since `rps_duration_started`,
rounds, and moves `rps_duration_started` forward by exactly the time they stand for, so that what
rounding leaves is not lost.  The model of the worker takes the number that is due as given; here
it is computed, in exact arithmetic, from the instants at which things happen, and `Pace` keeps
count for each client since its connection was made.

* `keepsPace_of_run`: if every connection is made with nothing pending, and the requests of every
  HTTP/1 session are taken in turn, every run keeps the pace: what was allotted is the rounded
  product of rate and time, and no more is submitted than was allotted.
* `leftover_outruns`: `connection_made` starts the clock again but not the count of what is
  pending, so streams of the new connection submit what was allotted to the old one.
-/
import H2LoadRunner.Library.Transition
import H2LoadRunner.Load.Pending

namespace H2LoadRunner.Load

open Library Library.EffectLog

set_option autoImplicit false

/-! ## Rounding -/

def roundHalfAway (q : Rat) : Int := if 0 ≤ q then ⌊q + 1 / 2⌋ else ⌈q - 1 / 2⌉

variable {q : Rat}

theorem roundHalfAway_of_nonneg (nonneg : 0 ≤ q) : roundHalfAway q = ⌊q + 1 / 2⌋ := if_pos nonneg

theorem roundHalfAway_nonneg (nonneg : 0 ≤ q) : 0 ≤ roundHalfAway q := by
  rw [roundHalfAway_of_nonneg nonneg]
  exact Int.floor_nonneg.mpr (by linarith)

theorem roundHalfAway_le (nonneg : 0 ≤ q) : (roundHalfAway q : Rat) ≤ q + 1 / 2 := by
  rw [roundHalfAway_of_nonneg nonneg]
  exact Int.floor_le _

theorem roundHalfAway_sub {n : Int} (nonneg : 0 ≤ q) (below : (n : Rat) ≤ q) :
    roundHalfAway (q - n) = roundHalfAway q - n := by
  rw [roundHalfAway_of_nonneg nonneg, roundHalfAway_of_nonneg (sub_nonneg.mpr below), sub_add_eq_add_sub,
    Int.floor_sub_intCast]

/-- **What rounding leaves is carried over**: the next count, from the instant up to which `total`
requests stand, completes it to the rounded product. -/
theorem total_add_due {rate made now : Rat} {total : Int} (positive : 0 < rate) (nonneg : 0 ≤ total)
    (late : made + total / rate ≤ now) :
    total + roundHalfAway ((now - (made + total / rate)) * rate) = roundHalfAway ((now - made) * rate) := by
  have shifted : (now - (made + total / rate)) * rate = (now - made) * rate - total := by
    field_simp
    ring
  have ahead : 0 ≤ (now - (made + total / rate)) * rate := mul_nonneg (sub_nonneg.mpr late) positive.le
  rw [shifted] at ahead ⊢
  have whole : (0 : Rat) ≤ total := by exact_mod_cast nonneg
  rw [roundHalfAway_sub (by linarith) (by linarith)]
  omega

/-! ## Instants -/

/-- What is counted for a client since its connection was made. -/
structure Pace where
  /-- `rps_duration_started`. -/
  started : Rat := 0
  /-- When the connection was made. -/
  made : Rat := 0
  /-- Requests that ticks have allotted, and those of the latest one. -/
  allotted : Int := 0
  granted : Int := 0
  /-- Requests `connection_made` has submitted, and those of ticks and of streams that closed. -/
  first : Int := 0
  submitted : Int := 0
  /-- The latest tick that allotted requests. -/
  ticked : Option Rat := none

structure Paced where
  world : World
  pace : ClientId → Pace := fun _ => {}

inductive Moment where
  | tick (c : ClientId) (now : Rat)
  | happens (event : Event) (now : Rat)

namespace Paced

def due (s : Paced) (c : ClientId) (now : Rat) : Int :=
  roundHalfAway ((now - (s.pace c).started) * s.world.config.rps)

/-- What the worker sees of the moment.  A tick before its time only resets the requests that have
timed out. -/
def event (s : Paced) : Moment → Option Event
  | .tick c now =>
    if now < (s.pace c).started then some (.streamTimeoutTimer c)
    else some (.rpsTimer c (s.due c now).toNat)
  | .happens (.rpsTimer _ _) _ => none
  | .happens event _ => some event

def reaction (env : Env) (s : Paced) (moment : Moment) : Except Fault (List Effect) :=
  match s.event moment with
  | none => .error .disabled
  | some event => (handle env event s.world).map Prod.snd

/-- The pace of a client after it, where `took` requests were taken for the client. -/
def nextPace (s : Paced) (c : ClientId) (took : Int) : Moment → Pace
  | .tick d now =>
    if d = c ∧ ¬ now < (s.pace c).started ∧ s.world.allots c = true then
      { s.pace c with
        started := (s.pace c).started + s.due c now / s.world.config.rps
        allotted := (s.pace c).allotted + s.due c now
        granted := s.due c now
        submitted := (s.pace c).submitted + took
        ticked := some now }
    else { s.pace c with submitted := (s.pace c).submitted + took }
  | .happens (.connected d (some _)) now =>
    if d = c ∧ (s.world.clients c).isController = true then { started := now, made := now, first := took }
    else { s.pace c with submitted := (s.pace c).submitted + took }
  | .happens _ _ => { s.pace c with submitted := (s.pace c).submitted + took }

def step (env : Env) (s : Paced) (moment : Moment) : Except Fault Paced :=
  (s.reaction env moment).map fun log =>
    { world := replay s.world log
      pace := fun c => s.nextPace c (taken c s.world log) moment }

abbrev run (env : Env) : Paced → List Moment → Except Fault Paced := Transition.run (step env)

def initial (cfg : Config) (reqTodo nclients : Nat) : Paced where
  world := World.initial cfg reqTodo nclients

/-- The controller keeps the rate: what was allotted is the product of rate and time, rounded;
ticks and streams that close submit no more than that; `connection_made` submits one request at
most, so that no more than a constant is ever submitted beyond the rate; and what is pending never
wraps below zero, past what was granted. -/
structure KeepsPace (s : Paced) (c : ClientId) : Prop where
  allotted : ∀ t, (s.pace c).ticked = some t →
    (s.pace c).allotted = roundHalfAway ((t - (s.pace c).made) * s.world.config.rps)
  submitted : (s.pace c).submitted ≤ (s.pace c).allotted
  first : (s.pace c).first ≤ 1
  rate : ∀ now, (s.pace c).made ≤ now → (∀ t, (s.pace c).ticked = some t → t ≤ now) →
    ((s.pace c).first + (s.pace c).submitted : Rat) ≤
      (now - (s.pace c).made) * s.world.config.rps + 3 / 2
  pending : (s.world.pending c : Int) ≤ (s.pace c).granted

/-- A controller connects with nothing pending, and what is due at a tick is a `size_t`. -/
def Starts (s : Paced) : Moment → Prop
  | .tick c now => s.due c now < sizeMax
  | .happens (.connected c (some _)) _ =>
    (s.world.clients c).isController = true → s.world.pending c = 0
  | .happens _ _ => True

/-- The requests of HTTP/1 sessions are taken in turn. -/
def InTurn (env : Env) (s : Paced) (moment : Moment) : Prop :=
  match s.reaction env moment with
  | .ok log => Along TakesInTurn s.world log
  | .error _ => True

def Orderly (env : Env) (s : Paced) (moment : Moment) : Prop := s.Starts moment ∧ s.InTurn env moment

instance (s : Paced) (moment : Moment) : Decidable (s.Starts moment) := by
  unfold Starts
  split <;> infer_instance

instance (env : Env) (s : Paced) (moment : Moment) : Decidable (s.Orderly env moment) := by
  unfold Orderly InTurn
  split <;> infer_instance

/-! ## One moment -/

/-- The books of a client: the clock stands where what was allotted ends, and what is submitted or
pending was allotted. -/
structure Even (s : Paced) (c : ClientId) : Prop where
  started : (s.pace c).started = (s.pace c).made + (s.pace c).allotted / s.world.config.rps
  nonneg : 0 ≤ (s.pace c).allotted
  unticked : (s.pace c).ticked = none → (s.pace c).allotted = 0
  ticked : ∀ t, (s.pace c).ticked = some t → (s.pace c).made ≤ t ∧
    (s.pace c).allotted = roundHalfAway ((t - (s.pace c).made) * s.world.config.rps)
  spent : (s.pace c).submitted + s.world.pending c ≤ (s.pace c).allotted
  granted : (s.world.pending c : Int) ≤ (s.pace c).granted
  first : (s.pace c).first ≤ 1

namespace Even

variable {s t : Paced} {c : ClientId} {took : Int}

theorem keepsPace (even : s.Even c) (positive : 0 < s.world.config.rps) : s.KeepsPace c where
  allotted t ticked := (even.ticked t ticked).2
  submitted := by
    have spent := even.spent
    omega
  first := even.first
  rate now later latest := by
    have spent : (s.pace c).submitted ≤ (s.pace c).allotted := by
      have := even.spent
      omega
    have first : ((s.pace c).first : Rat) ≤ 1 := by exact_mod_cast even.first
    have submitted : ((s.pace c).submitted : Rat) ≤ (s.pace c).allotted := by exact_mod_cast spent
    cases ticked : (s.pace c).ticked with
    | none =>
      have none : ((s.pace c).allotted : Rat) = 0 := by exact_mod_cast even.unticked ticked
      have elapsed : 0 ≤ (now - (s.pace c).made) * s.world.config.rps :=
        mul_nonneg (sub_nonneg.mpr later) positive.le
      linarith
    | some t =>
      obtain ⟨after, allotted⟩ := even.ticked t ticked
      have most := roundHalfAway_le (mul_nonneg (sub_nonneg.mpr after) positive.le)
      rw [← allotted] at most
      have earlier : (t - (s.pace c).made) * s.world.config.rps ≤
          (now - (s.pace c).made) * s.world.config.rps :=
        mul_le_mul_of_nonneg_right (by linarith [latest t ticked]) positive.le
      linarith
  pending := even.granted

theorem spend (even : s.Even c) (config : t.world.config = s.world.config)
    (pace : t.pace c = { s.pace c with submitted := (s.pace c).submitted + took }) (nonneg : 0 ≤ took)
    (bound : took + t.world.pending c ≤ s.world.pending c) : t.Even c := by
  obtain ⟨started, allotted, unticked, ticked, spent, granted, first⟩ := even
  constructor
  all_goals rw [pace]
  · rwa [config]
  · exact allotted
  · exact unticked
  · rwa [config]
  · dsimp only
    omega
  · dsimp only
    omega
  · exact first

theorem allot {now : Rat} (even : s.Even c) (positive : 0 < s.world.config.rps)
    (config : t.world.config = s.world.config) (late : ¬ now < (s.pace c).started)
    (pace : t.pace c =
      { s.pace c with
        started := (s.pace c).started + s.due c now / s.world.config.rps
        allotted := (s.pace c).allotted + s.due c now
        granted := s.due c now
        submitted := (s.pace c).submitted + took
        ticked := some now }) (nonneg : 0 ≤ took)
    (bound : took + t.world.pending c ≤ s.due c now) : t.Even c := by
  obtain ⟨started, allotted, -, -, spent, -, first⟩ := even
  have after : (s.pace c).made + (s.pace c).allotted / s.world.config.rps ≤ now := started ▸ not_lt.mp late
  have due : 0 ≤ s.due c now :=
    roundHalfAway_nonneg (mul_nonneg (sub_nonneg.mpr (not_lt.mp late)) positive.le)
  have total := total_add_due positive allotted after
  rw [← started] at total
  constructor
  all_goals rw [pace]
  · rw [config, started]
    push_cast
    ring
  · dsimp only
    omega
  · nofun
  · rintro t ⟨⟩
    rw [config]
    refine ⟨le_trans ?_ after, total⟩
    have whole : (0 : Rat) ≤ (s.pace c).allotted := by exact_mod_cast allotted
    exact le_add_of_nonneg_right (div_nonneg whole positive.le)
  · dsimp only
    omega
  · dsimp only
    omega
  · exact first

theorem make {now : Rat} (pace : t.pace c = { started := now, made := now, first := took })
    (most : took ≤ 1) (pending : t.world.pending c = 0) : t.Even c where
  started := by simp [pace]
  nonneg := by simp [pace]
  unticked _ := by simp [pace]
  ticked t ticked := by
    rw [pace] at ticked
    cases ticked
  spent := by simp [pace, pending]
  granted := by simp [pace, pending]
  first := by simpa [pace] using most

end Even

theorem nextPace_other {s : Paced} {c : ClientId} {took : Int} {event : Event} {now : Rat}
    (settled : ∀ d protocol, event ≠ .connected d (some protocol)) :
    s.nextPace c took (.happens event now) = { s.pace c with submitted := (s.pace c).submitted + took } := by
  cases event with
  | connected d protocol =>
    cases protocol with
    | none => rfl
    | some protocol => exact absurd rfl (settled d protocol)
  | _ => rfl

/-- The worker paces, and the books of its controllers are even. -/
structure Sound (s : Paced) : Prop where
  paces : s.world.Paces
  even : ∀ c, (s.world.clients c).parentClient = none → s.Even c

end Paced

theorem taken_nonneg (p : ClientId) (w : World) (es : List Effect) : 0 ≤ taken p w es := by
  induction es generalizing w with
  | nil => exact le_rfl
  | cons e es ih =>
    have rest := ih (Machine.apply e w)
    rw [taken_cons]
    split <;> omega

theorem root_of_replay {w : World} (rooted : w.Rooted) {es : List Effect} {c : ClientId}
    (root : ((replay w es).clients c).parentClient = none) : (w.clients c).parentClient = none := by
  by_cases known : c < w.clientCount
  · exact (parentClient_replay es known).symm.trans root
  · exact rooted.listed.unborn c (Nat.le_of_not_lt known)

theorem react_of_handle {env : Env} {event : Event} {w : World} {log : List Effect}
    (ends : handle env event w = .ok ((), log)) :
    event.enabled w = true ∧ react env event w = .ok ((), log) := by
  have emits : Emits (handle env event) w fun a es => event.enabled w = true ∧
      react env event w = .ok (a, es) := by
    unfold handle
    simp only [emits_bind, emits_world, replay_nil, List.nil_append, emits_ite, emits_fault]
    exact ⟨fun enabled a es reacts => ⟨enabled, reacts⟩, fun _ => trivial⟩
  exact emits () log ends

namespace Paced

variable {env : Env} {s t : Paced}

variable {moment : Moment} {log : List Effect}

theorem reaction_of_event {event : Event} (sees : s.event moment = some event)
    (reacts : s.reaction env moment = .ok log) : handle env event s.world = .ok ((), log) := by
  unfold reaction at reacts
  rw [sees] at reacts
  dsimp only at reacts
  cases ends : handle env event s.world with
  | error fault =>
    rw [ends] at reacts
    cases reacts
  | ok outcome =>
    rw [ends] at reacts
    cases reacts
    rfl

/-- What the moment leaves, by what is spent: all that was pending, what is due at a tick, or
nothing where a connection is made. -/
theorem sound_of_spends (sound : s.Sound) (spends : Spends s.world log)
    (paces : (replay s.world log).Paces) (quiet : ∀ c took, s.nextPace c took moment =
      { s.pace c with submitted := (s.pace c).submitted + took }) :
    Sound { world := replay s.world log, pace := fun c => s.nextPace c (taken c s.world log) moment } := by
  refine ⟨paces, fun c root => ?_⟩
  exact (sound.even c (root_of_replay sound.paces.rooted root)).spend (config_replay s.world log)
    (quiet c _) (taken_nonneg c s.world log) (spends c)

theorem sound_tick {c : ClientId} {now : Rat} (sound : s.Sound) (fits : s.due c now < sizeMax)
    (reacts : s.reaction env (.tick c now) = .ok log) (inTurn : Along TakesInTurn s.world log) : Sound
      { world := replay s.world log
        pace := fun d => s.nextPace d (taken d s.world log) (.tick c now) } := by
  by_cases early : now < (s.pace c).started
  · have sees : s.event (.tick c now) = some (.streamTimeoutTimer c) := if_pos early
    have ends := reaction_of_event sees reacts
    obtain ⟨spends, paces⟩ := frugal_handle env (fun _ _ => by nofun) (fun _ _ => by nofun) _ log ends
      sound.paces inTurn
    refine sound_of_spends sound spends paces fun d took => if_neg ?_
    rintro ⟨rfl, late, -⟩
    exact late early
  · have positive := sound.paces.positive
    have sees : s.event (.tick c now) = some (.rpsTimer c (s.due c now).toNat) := if_neg early
    obtain ⟨enabled, ends⟩ := react_of_handle (reaction_of_event sees reacts)
    simp only [Event.enabled, World.timersRun, World.live, Client.isController, Bool.and_eq_true,
      decide_eq_true_eq, Option.isNone_iff_eq_none] at enabled
    have due : ((s.due c now).toNat : Int) = s.due c now := Int.toNat_of_nonneg
      (roundHalfAway_nonneg (mul_nonneg (sub_nonneg.mpr (not_lt.mp early)) positive.le))
    have small : (s.due c now).toNat < sizeMax := by omega
    obtain ⟨paces, bound⟩ := allots_onRpsTimer env small enabled.1.1.1.1.1 enabled.1.2 _ log ends sound.paces
      inTurn
    refine ⟨paces, fun d root => ?_⟩
    have even := sound.even d (root_of_replay sound.paces.rooted root)
    have most := bound d
    by_cases allots : d = c ∧ s.world.allots c = true
    · obtain ⟨rfl, yes⟩ := allots
      rw [if_pos ⟨rfl, yes⟩, due] at most
      exact even.allot positive (config_replay s.world log) early (if_pos ⟨rfl, early, yes⟩)
        (taken_nonneg d s.world log) most
    · rw [if_neg allots] at most
      refine even.spend (config_replay s.world log) (if_neg ?_) (taken_nonneg d s.world log) most
      rintro ⟨rfl, -, yes⟩
      exact allots ⟨rfl, yes⟩

theorem sound_made {c : ClientId} {protocol : Protocol} {now : Rat} (sound : s.Sound)
    (clear : (s.world.clients c).isController = true → s.world.pending c = 0)
    (reacts : s.reaction env (.happens (.connected c (some protocol)) now) = .ok log)
    (inTurn : Along TakesInTurn s.world log) : Sound
      { world := replay s.world log
        pace := fun d => s.nextPace d (taken d s.world log) (.happens (.connected c (some protocol)) now) } := by
  have sees : s.event (.happens (.connected c (some protocol)) now) = some (.connected c (some protocol)) := rfl
  obtain ⟨enabled, ends⟩ := react_of_handle (reaction_of_event sees reacts)
  simp only [Event.enabled, World.live, Bool.and_eq_true, decide_eq_true_eq] at enabled
  obtain ⟨draws, paces⟩ := opens_connected env enabled.1.1 protocol _ log ends sound.paces inTurn
  have left := pending_replay draws.leaves sound.paces.thrifty
  refine ⟨paces, fun d root => ?_⟩
  have before := root_of_replay sound.paces.rooted root
  have most := draws.takes d
  by_cases here : d = c
  · subst here
    have controls : (s.world.clients d).isController = true := by simp [Client.isController, before]
    rw [if_pos rfl] at most
    exact .make (if_pos ⟨rfl, controls⟩) most ((left d).trans (clear controls))
  · rw [if_neg here] at most
    refine (sound.even d before).spend (config_replay s.world log) (if_neg ?_) (taken_nonneg d s.world log) ?_
    · rintro ⟨rfl, -⟩
      exact here rfl
    · show taken d s.world log + (replay s.world log).pending d ≤ s.world.pending d
      rw [left d]
      omega

/-- **One moment keeps the books even.** -/
theorem sound_step (sound : s.Sound) (orderly : s.Orderly env moment) (steps : s.step env moment = .ok t) :
    t.Sound := by
  obtain ⟨starts, inTurn⟩ := orderly
  unfold step at steps
  cases reacts : s.reaction env moment with
  | error fault =>
    rw [reacts] at steps
    cases steps
  | ok log =>
    rw [reacts] at steps
    cases steps
    have turns : Along TakesInTurn s.world log := by
      unfold InTurn at inTurn
      rwa [reacts] at inTurn
    cases moment with
    | tick c now => exact sound_tick sound starts reacts turns
    | happens event now =>
      by_cases made : ∃ c protocol, event = .connected c (some protocol)
      · obtain ⟨c, protocol, rfl⟩ := made
        exact sound_made sound starts reacts turns
      · have settled (c : ClientId) (protocol : Protocol) : event ≠ .connected c (some protocol) :=
          fun same => made ⟨c, protocol, same⟩
        cases event with
        | rpsTimer c n => cases reacts
        | _ =>
          have ends := reaction_of_event rfl reacts
          obtain ⟨spends, paces⟩ := frugal_handle env (fun _ _ => by nofun) settled _ log ends sound.paces
            turns
          exact sound_of_spends sound spends paces fun _ _ => nextPace_other settled

/-! ## Runs -/

theorem sound_initial {cfg : Config} (rpsMode : 0 < cfg.rps) (unscripted : cfg.timingScript = none)
    (reqTodo nclients : Nat) : (initial cfg reqTodo nclients).Sound where
  paces := ⟨rooted_initial cfg reqTodo nclients, fun _ some => absurd rfl some, decide_eq_true rpsMode,
    unscripted⟩
  even _ _ := .make rfl (by decide) rfl

/-- **Every run keeps the pace** of every controller. -/
theorem keepsPace_of_run {cfg : Config} (rpsMode : 0 < cfg.rps) (unscripted : cfg.timingScript = none)
    {reqTodo nclients : Nat} {moments : List Moment}
    (runs : run env (initial cfg reqTodo nclients) moments = .ok s)
    (orderly : Transition.Along (step env) (Orderly env) (initial cfg reqTodo nclients) moments)
    {c : ClientId} (controller : (s.world.clients c).isController = true) : s.KeepsPace c := by
  have sound : s.Sound := Transition.run_invariant (fun _ _ _ now sound => sound_step sound now) orderly runs
    (sound_initial rpsMode unscripted reqTodo nclients)
  refine (sound.even c ?_).keepsPace sound.paces.positive
  simpa [Client.isController] using controller

/-- One request a second, one stream at a time; a connection that is lost is made again. -/
def steadyConfig : Config := { rps := 1, maxConcurrentStreams := 1, connectionRetryOnDisconnect := true }

/-- **Satisfiable pole:** one and a half seconds make two requests, and half a second more none. -/
theorem steady_keepsPace : ∃ s, run {} (initial steadyConfig 5 1)
      [.happens .createClient 0, .happens (.connected 0 (some .http2)) 0, .tick 0 (3 / 2),
        .happens (.streamClose 0 1 true) (7 / 4), .tick 0 2] = .ok s ∧
      (s.pace 0).ticked = some 2 ∧ (s.pace 0).allotted = 2 ∧ (s.pace 0).submitted = 1 ∧ s.KeepsPace 0 := by
  obtain ⟨s, runs, controller, ticked, allotted, submitted⟩ := Transition.exists_run (step {})
    (initial steadyConfig 5 1)
    [.happens .createClient 0, .happens (.connected 0 (some .http2)) 0, .tick 0 (3 / 2),
      .happens (.streamClose 0 1 true) (7 / 4), .tick 0 2]
    (fun s => (s.world.clients 0).isController = true ∧ (s.pace 0).ticked = some 2 ∧
      (s.pace 0).allotted = 2 ∧ (s.pace 0).submitted = 1) (by decide +kernel)
  exact ⟨s, runs, ticked, allotted, submitted,
    keepsPace_of_run (by decide) rfl runs (by decide +kernel) controller⟩

/-- **Refuting pole:** two requests become due while the stream of the connection is open; the
connection is lost; on the new one a stream closes before the first tick, and submits one of them. -/
theorem leftover_outruns : ∃ s, run {} (initial steadyConfig 5 1)
      [.happens .createClient 0, .happens (.connected 0 (some .http2)) 0, .tick 0 2,
        .happens (.connectionError 0) 3, .happens (.reconnectTimer 0) 4,
        .happens (.connected 0 (some .http2)) 5, .happens (.streamClose 0 1 true) 6] = .ok s ∧
      (s.world.clients 0).isController = true ∧ ¬ s.KeepsPace 0 := by
  obtain ⟨s, runs, controller, outruns⟩ := Transition.exists_run (step {}) (initial steadyConfig 5 1)
    [.happens .createClient 0, .happens (.connected 0 (some .http2)) 0, .tick 0 2,
      .happens (.connectionError 0) 3, .happens (.reconnectTimer 0) 4,
      .happens (.connected 0 (some .http2)) 5, .happens (.streamClose 0 1 true) 6]
    (fun s => (s.world.clients 0).isController = true ∧ (s.pace 0).allotted < (s.pace 0).submitted)
    (by decide +kernel)
  exact ⟨s, runs, controller, fun keeps => not_le.mpr outruns keeps.submitted⟩

end Paced

end H2LoadRunner.Load
