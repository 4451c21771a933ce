/-
# Lua.TestGroups -- when the scripts of all groups have run

Each script is run by a bootstrap coroutine.  `setup_parallel_test` gives it up for as many
coroutines as it is asked for, and `register_service_handler` gives the group workers of its
own for the handlers.  `is_test_finished` compares, for each group, the number of coroutines
that have finished with a number that starts at one, for the bootstrap coroutine, and that
both functions set when they are the first to configure the group: the one to the number of
coroutines it creates, the other to zero.  The bootstrap coroutine that registers a handler
goes on, however, and counts when it finishes; and so does a coroutine that a script made
itself and that ended after a call of this library had resumed it.

While a group registers handlers only after it was set up for parallel coroutines, stops only
servers of its own, and leaves no coroutines of its own to the library, the comparison says
what it should in every state (`finished_agrees`).
A bootstrap coroutine that is the first to configure its group by registering a handler goes
on to a state where it does not: it has finished, no server runs, and the test never ends
(`handlerFirst_disagrees`).

What a script does between its calls is left out, and so are the clients and the workers'
event loops: coroutines call and finish in any order.
-/
import H2LoadRunner.Library.Transition

namespace H2LoadRunner.Lua.TestGroups

open Library.Transition (run Along ok_of_bind run_invariant run_append_of_ok exists_run)

set_option autoImplicit false

/-! ## Groups -/

/-- The coroutine that runs the script first. -/
inductive Bootstrap where
  | running
  /-- It yielded in `setup_parallel_test`; nothing resumes it. -/
  | parked
  | finished
  deriving DecidableEq

structure Group where
  numberOfParallelLuaCoroutines : Nat := 1
  numberOfFinishedCoroutins : Nat := 0
  /-- Also the size of `data_per_worker_thread`. -/
  numberOfWorkers : Nat := 1
  configInitialized : Bool := false
  serverRunning : Bool := false
  /-- `set_passive` of the main states; their coroutines share it. -/
  passive : Bool := false
  bootstrap : Bootstrap := .running
  /-- The coroutines of `setup_test_group`, by `unique_id_within_group`: which have finished. -/
  coroutines : List Bool := []

/-- All groups, and the servers that run, each with the group that started it. -/
structure World (n : Nat) (H : Type) where
  groups : Fin n → Group
  servers : List (H × Fin n)

/-- A coroutine that calls: those of service handlers have no identifier of their own. -/
inductive Caller where
  | bootstrap
  | coroutine (uniqueId : Nat)
  | handler
  /-- Made by a script itself, in the state of the bootstrap coroutine or of a worker.
  `lua_state_data` has nothing of it, and reads as the identifier 0. -/
  | nested (bootstraps : Bool)
  deriving DecidableEq

def Caller.isNested : Caller → Bool
  | .nested _ => true
  | _ => false

inductive Call (H : Type) where
  | setupParallelTest (numberOfWorkers numberOfCoroutines : Nat)
  /-- `named`: both names are given.  `threads`: those of the server.  `stops`: the calls of
  `stop_server` when the script is run again in the main state of each worker. -/
  | registerServiceHandler (named : Bool) (threads : Nat) (stops : List (Option H))
  | startServer (serverId : H)
  | stopServer (serverId : Option H)

inductive Event (n : Nat) (H : Type) where
  | call (group : Fin n) (caller : Caller) (call : Call H)
  | finish (group : Fin n) (caller : Caller)

inductive Fault where
  /-- The event cannot happen in this state. -/
  | disabled
  /-- `i % number_of_workers` without workers. -/
  | divisionByZero
  /-- `data_per_worker_thread` is empty. -/
  | outOfRange

namespace Group

/-- The coroutine is there and has not finished. -/
def Enabled (g : Group) : Caller → Prop
  | .bootstrap => g.bootstrap = .running
  | .coroutine uniqueId => g.coroutines[uniqueId]? = some false
  | .handler => g.configInitialized = true
  | .nested bootstraps => bootstraps = true ∨ g.configInitialized = true

instance (g : Group) : (caller : Caller) → Decidable (g.Enabled caller)
  | .bootstrap | .coroutine _ | .handler => inferInstanceAs (Decidable (_ = _))
  | .nested _ => inferInstanceAs (Decidable (_ ∨ _))

/-- `is_passive`; the bootstrap coroutine has a state of its own. -/
def isPassive (g : Group) : Caller → Bool
  | .bootstrap | .nested true => false
  | _ => g.passive

def setupTestGroup (g : Group) : Except Fault Group :=
  if 0 < g.numberOfParallelLuaCoroutines ∧ g.numberOfWorkers = 0 then .error .divisionByZero
  else .ok { g with coroutines := List.replicate g.numberOfParallelLuaCoroutines false }

def setupParallelTest (g : Group) (caller : Caller) (numberOfWorkers numberOfCoroutines : Nat) :
    Except Fault Group :=
  if 0 < numberOfCoroutines ∧ g.configInitialized = false then do
    let g ← setupTestGroup
      { g with
        configInitialized := true
        numberOfParallelLuaCoroutines := numberOfCoroutines
        numberOfWorkers := numberOfWorkers }
    -- The caller yields for good; one that the script made itself yields to the script.
    return if caller = .bootstrap then { g with bootstrap := .parked } else g
  else if g.numberOfWorkers = 0 then .error .outOfRange
  else .ok g

/-- The part of `register_service_handler` that configures the group. -/
def configureHandlers (g : Group) (threads : Nat) : Except Fault Group := do
  let g ← setupTestGroup
    { g with
      configInitialized := true
      numberOfParallelLuaCoroutines := 0
      numberOfWorkers := threads }
  return { g with passive := true }

/-- The end of `lua_resume_wrapper` for a coroutine that is done. -/
def finish (g : Group) (caller : Caller) : Except Fault Group :=
  if g.numberOfWorkers = 0 then .error .outOfRange
  else
    match caller with
    | .bootstrap =>
      .ok
        { g with
          bootstrap := .finished
          numberOfFinishedCoroutins := g.numberOfFinishedCoroutins + 1 }
    | .coroutine uniqueId =>
      .ok
        { g with
          coroutines := g.coroutines.set uniqueId true
          numberOfFinishedCoroutins := g.numberOfFinishedCoroutins + 1 }
    | .nested _ => .ok { g with numberOfFinishedCoroutins := g.numberOfFinishedCoroutins + 1 }
    -- Without an identifier of its own it is not counted.
    | .handler => .ok g

/-- Every coroutine that runs the script has finished, or gave it up for others. -/
def AllFinished (g : Group) : Prop :=
  g.bootstrap ≠ .running ∧ ∀ finished ∈ g.coroutines, finished = true

instance (g : Group) : Decidable g.AllFinished := inferInstanceAs (Decidable (_ ∧ _))

end Group

/-! ## The functions a script calls -/

section

variable {n : Nat} {H : Type}

namespace World

def initial (n : Nat) (H : Type) : World n H where
  groups := fun _ => {}
  servers := []

def setGroup (w : World n H) (i : Fin n) (g : Group) : World n H :=
  { w with groups := Function.update w.groups i g }

def isTestFinished (w : World n H) : Bool :=
  decide (∀ i, (w.groups i).numberOfParallelLuaCoroutines = (w.groups i).numberOfFinishedCoroutins ∧
    (w.groups i).serverRunning = false)

/-- `start_server`, once the server is ready. -/
def startServer (w : World n H) (i : Fin n) (caller : Caller) (serverId : H) : World n H :=
  if (w.groups i).isPassive caller then w
  else
    { w.setGroup i { w.groups i with serverRunning := true } with
      servers := (serverId, i) :: w.servers }

variable [DecidableEq H]

/-- `stop_server`: whatever it is given, the group has no running server afterwards. -/
def stopServer (w : World n H) (i : Fin n) (serverId : Option H) : World n H :=
  { w.setGroup i { w.groups i with serverRunning := false } with
    servers := w.servers.filter fun server => some server.1 ≠ serverId }

/-- `register_service_handler`; the callbacks it installs are left out. -/
def registerServiceHandler (w : World n H) (i : Fin n) (caller : Caller) (named : Bool)
    (threads : Nat) (stops : List (Option H)) : Except Fault (World n H) :=
  if (w.groups i).isPassive caller || !named then .ok w
  else if (w.groups i).configInitialized = false then do
    let g ← (w.groups i).configureHandlers threads
    return stops.foldl (fun w serverId => w.stopServer i serverId) (w.setGroup i g)
  else .ok w

def perform (w : World n H) (i : Fin n) (caller : Caller) : Call H → Except Fault (World n H)
  | .setupParallelTest workers coroutines => do
    let g ← (w.groups i).setupParallelTest caller workers coroutines
    return w.setGroup i g
  | .registerServiceHandler named threads stops => w.registerServiceHandler i caller named threads stops
  | .startServer serverId => .ok (w.startServer i caller serverId)
  | .stopServer serverId => .ok (w.stopServer i serverId)

def step (w : World n H) : Event n H → Except Fault (World n H)
  | .call i caller call =>
    if (w.groups i).Enabled caller then w.perform i caller call else .error .disabled
  | .finish i caller =>
    if (w.groups i).Enabled caller then do
      let g ← (w.groups i).finish caller
      return w.setGroup i g
    else .error .disabled

/-! ## What is stated -/

/-- The test is over when it should be, and not while a coroutine has not finished. -/
structure Agrees (w : World n H) : Prop where
  ends : (∀ i, (w.groups i).AllFinished) → w.servers = [] → w.isTestFinished = true
  waits : w.isTestFinished = true → ∀ i, (w.groups i).AllFinished

/-- A group registers handlers only after `setup_parallel_test` has configured it, and stops no
server of another group; coroutines that its script made do not configure it, and do not end where
the library has resumed them. -/
def Orderly (w : World n H) : Event n H → Prop
  | .call i caller (.setupParallelTest _ coroutines) =>
    caller.isNested = true → 0 < coroutines → (w.groups i).configInitialized = true
  | .call i _ (.registerServiceHandler named _ _) =>
    named = true → (w.groups i).configInitialized = true
  | .call i _ (.stopServer serverId) => ∀ server ∈ w.servers, some server.1 = serverId → server.2 = i
  | .call _ _ (.startServer _) => True
  | .finish _ caller => caller.isNested = false

instance (w : World n H) : (event : Event n H) → Decidable (w.Orderly event)
  | .call _ _ (.setupParallelTest _ _) => inferInstanceAs (Decidable (_ → _))
  | .call _ _ (.registerServiceHandler _ _ _) => inferInstanceAs (Decidable (_ → _))
  | .call _ _ (.stopServer _) => inferInstanceAs (Decidable (∀ server ∈ _, _))
  | .call _ _ (.startServer _) => isTrue trivial
  | .finish _ _ => inferInstanceAs (Decidable (_ = _))

end World

/-! ## One group -/

namespace Group

/-- The count and its target are those of the coroutines that run the script. -/
inductive Counted (g : Group) : Prop
  | fresh (unset : g.configInitialized = false) (none : g.coroutines = [])
      (target : g.numberOfParallelLuaCoroutines = 1)
      (count : g.bootstrap = .running ∧ g.numberOfFinishedCoroutins = 0 ∨
        g.bootstrap = .finished ∧ g.numberOfFinishedCoroutins = 1)
  | parallel (set : g.configInitialized = true) (parked : g.bootstrap = .parked)
      (target : g.numberOfParallelLuaCoroutines = g.coroutines.length)
      (count : g.numberOfFinishedCoroutins = g.coroutines.count true)

theorem Counted.finished_iff {g : Group} (counted : g.Counted) :
    g.numberOfParallelLuaCoroutines = g.numberOfFinishedCoroutins ↔ g.AllFinished := by
  cases counted with
  | fresh unset none target count =>
    rcases count with ⟨running, zero⟩ | ⟨finished, one⟩
    · simp [AllFinished, target, zero, running]
    · simp [AllFinished, target, one, finished, none]
  | parallel set parked target count =>
    have all : g.coroutines.length = g.coroutines.count true ↔
        ∀ finished ∈ g.coroutines, finished = true := by
      rw [eq_comm, List.count_eq_length]
      exact forall₂_congr fun _ _ => eq_comm
    simp [AllFinished, target, count, parked, all]

/-- In a group that is not configured no coroutine of the library but the bootstrap one can call. -/
theorem Counted.bootstrap_of_enabled {g : Group} (counted : g.Counted) {caller : Caller}
    (enabled : g.Enabled caller) (unset : g.configInitialized = false) (own : caller.isNested = false) :
    caller = .bootstrap ∧ g.numberOfFinishedCoroutins = 0 := by
  cases counted with
  | parallel set parked target count =>
    rw [set] at unset
    cases unset
  | fresh _ none target count =>
    cases caller with
    | bootstrap =>
      rcases count with ⟨-, zero⟩ | ⟨finished, -⟩
      · exact ⟨rfl, zero⟩
      · rw [Enabled, finished] at enabled
        cases enabled
    | coroutine uniqueId => simp [Enabled, none] at enabled
    | handler =>
      rw [Enabled, unset] at enabled
      cases enabled
    | nested bootstraps => cases own

theorem setupParallelTest_ok {g after : Group} {caller : Caller} {workers coroutines : Nat}
    (called : g.setupParallelTest caller workers coroutines = .ok after) :
    after = g ∨ 0 < coroutines ∧ g.configInitialized = false ∧ after =
      { g with
        configInitialized := true
        numberOfParallelLuaCoroutines := coroutines
        numberOfWorkers := workers
        coroutines := List.replicate coroutines false
        bootstrap := if caller = .bootstrap then .parked else g.bootstrap } := by
  rw [setupParallelTest] at called
  split at called
  · rename_i first
    obtain ⟨made, ready, returned⟩ := ok_of_bind called
    rw [setupTestGroup] at ready
    split at ready
    · cases ready
    · rw [← Except.ok.inj ready] at returned
      refine .inr ⟨first.1, first.2, (Except.ok.inj returned).symm.trans ?_⟩
      split <;> rfl
  · split at called
    · cases called
    · exact .inl (Except.ok.inj called).symm

theorem Counted.setupParallelTest {g after : Group} (counted : g.Counted) {caller : Caller}
    (enabled : g.Enabled caller) {workers coroutines : Nat}
    (orderly : caller.isNested = true → 0 < coroutines → g.configInitialized = true)
    (called : g.setupParallelTest caller workers coroutines = .ok after) :
    after.Counted ∧ after.serverRunning = g.serverRunning := by
  rcases setupParallelTest_ok called with rfl | ⟨some, unset, rfl⟩
  · exact ⟨counted, rfl⟩
  · have own : caller.isNested = false := by
      by_contra nested
      rw [orderly (by simpa using nested) some] at unset
      cases unset
    obtain ⟨rfl, none⟩ := counted.bootstrap_of_enabled enabled unset own
    exact ⟨.parallel rfl rfl (by simp) (by simp [none, List.count_replicate]), rfl⟩

theorem Counted.setServer {g : Group} (counted : g.Counted) (runs : Bool) :
    Group.Counted { g with serverRunning := runs } := by
  cases counted with
  | fresh unset none target count => exact .fresh unset none target count
  | parallel set parked target count => exact .parallel set parked target count

theorem Counted.finish {g after : Group} (counted : g.Counted) {caller : Caller}
    (enabled : g.Enabled caller) (own : caller.isNested = false) (done : g.finish caller = .ok after) :
    after.Counted ∧ after.serverRunning = g.serverRunning := by
  unfold Group.finish at done
  split at done
  · cases done
  · cases caller with
    | bootstrap =>
      cases done
      cases counted with
      | parallel set parked target count =>
        rw [Enabled, parked] at enabled
        cases enabled
      | fresh unset none target count =>
        refine ⟨.fresh unset none target (.inr ⟨rfl, ?_⟩), rfl⟩
        rcases count with ⟨-, zero⟩ | ⟨finished, -⟩
        · simp [zero]
        · rw [Enabled, finished] at enabled
          cases enabled
    | coroutine uniqueId =>
      cases done
      cases counted with
      | fresh unset none target count => simp [Enabled, none] at enabled
      | parallel set parked target count =>
        obtain ⟨inside, unfinished⟩ := List.getElem?_eq_some_iff.mp enabled
        refine ⟨.parallel set parked (by simp [target]) ?_, rfl⟩
        simp [List.count_set inside, unfinished, count]
    | handler =>
      cases done
      exact ⟨counted, rfl⟩
    | nested bootstraps => cases own

end Group

/-! ## All groups -/

namespace World

/-- Every group is counted, and a group that says it runs a server does. -/
structure Sound (w : World n H) : Prop where
  counted : ∀ i, (w.groups i).Counted
  running : ∀ i, (w.groups i).serverRunning = true → ∃ serverId, (serverId, i) ∈ w.servers

theorem sound_initial : (initial n H).Sound where
  counted := fun _ => .fresh rfl rfl rfl (.inl ⟨rfl, rfl⟩)
  running := by simp [initial]

theorem Sound.agrees {w : World n H} (sound : w.Sound) : w.Agrees where
  ends := by
    intro finished none
    rw [isTestFinished, decide_eq_true_iff]
    intro i
    refine ⟨(sound.counted i).finished_iff.mpr (finished i), ?_⟩
    by_contra runs
    obtain ⟨serverId, held⟩ := sound.running i (by simpa using runs)
    rw [none] at held
    cases held
  waits := by
    intro ended i
    rw [isTestFinished, decide_eq_true_iff] at ended
    exact (sound.counted i).finished_iff.mp (ended i).1

theorem setGroup_self (w : World n H) (i : Fin n) (g : Group) : (w.setGroup i g).groups i = g := by
  simp [setGroup]

theorem setGroup_of_ne (w : World n H) {i j : Fin n} (apart : j ≠ i) (g : Group) :
    (w.setGroup i g).groups j = w.groups j := by
  simp [setGroup, apart]

theorem Sound.change {w : World n H} (sound : w.Sound) {i : Fin n} {g : Group}
    {servers : List (H × Fin n)} (counted : g.Counted)
    (runs : g.serverRunning = true → ∃ serverId, (serverId, i) ∈ servers)
    (others : ∀ server ∈ w.servers, server.2 ≠ i → server ∈ servers) :
    Sound { w.setGroup i g with servers := servers } where
  counted := by
    intro j
    by_cases here : j = i
    · subst here
      exact (w.setGroup_self j g).symm ▸ counted
    · exact (w.setGroup_of_ne here g).symm ▸ sound.counted j
  running := by
    intro j
    by_cases here : j = i
    · subst here
      exact (w.setGroup_self j g).symm ▸ runs
    · intro set
      have before : (w.groups j).serverRunning = true := (w.setGroup_of_ne here g) ▸ set
      obtain ⟨serverId, held⟩ := sound.running j before
      exact ⟨serverId, others _ held here⟩

theorem Sound.setGroup {w : World n H} (sound : w.Sound) {i : Fin n} {g : Group}
    (kept : g.Counted ∧ g.serverRunning = (w.groups i).serverRunning) : (w.setGroup i g).Sound :=
  sound.change kept.1 (fun set => sound.running i (kept.2 ▸ set)) fun _ member _ => member

theorem Sound.startServer {w : World n H} (sound : w.Sound) (i : Fin n) (caller : Caller)
    (serverId : H) : (w.startServer i caller serverId).Sound := by
  rw [World.startServer]
  split
  · exact sound
  · exact sound.change ((sound.counted i).setServer true) (fun _ => ⟨serverId, List.mem_cons_self⟩)
      fun _ member _ => List.mem_cons_of_mem _ member

variable [DecidableEq H]

theorem Sound.stopServer {w : World n H} (sound : w.Sound) (i : Fin n) {serverId : Option H}
    (own : ∀ server ∈ w.servers, some server.1 = serverId → server.2 = i) :
    (w.stopServer i serverId).Sound := by
  refine sound.change ((sound.counted i).setServer false) (by simp) ?_
  intro server member other
  refine List.mem_filter.mpr ⟨member, ?_⟩
  simpa using fun same => other (own server member same)

theorem Sound.step {w after : World n H} {event : Event n H} (orderly : w.Orderly event)
    (sound : w.Sound) (taken : w.step event = .ok after) : after.Sound := by
  cases event with
  | call i caller call =>
    rw [World.step] at taken
    split at taken
    · rename_i enabled
      cases call with
      | setupParallelTest workers coroutines =>
        obtain ⟨g, called, returned⟩ := ok_of_bind taken
        cases returned
        exact sound.setGroup ((sound.counted i).setupParallelTest enabled orderly called)
      | registerServiceHandler named threads stops =>
        rw [perform, registerServiceHandler] at taken
        split at taken
        · cases taken
          exact sound
        · rename_i active
          have named : named = true := by
            cases named <;> simp_all
          rw [if_neg (by simp [orderly named])] at taken
          cases taken
          exact sound
      | startServer serverId =>
        cases taken
        exact sound.startServer i caller serverId
      | stopServer serverId =>
        cases taken
        exact sound.stopServer i orderly
    · cases taken
  | finish i caller =>
    rw [World.step] at taken
    split at taken
    · rename_i enabled
      obtain ⟨g, done, returned⟩ := ok_of_bind taken
      cases returned
      exact sound.setGroup ((sound.counted i).finish enabled orderly done)
    · cases taken

/-- **The test ends when the scripts have run**, in every state of every run in which groups
register handlers only after `setup_parallel_test`, stop their own servers only, and do not leave it to
the library to end coroutines they made. -/
theorem finished_agrees {events : List (Event n H)} {w : World n H}
    (orderly : Along World.step Orderly (initial n H) events)
    (ends : run World.step (initial n H) events = .ok w) : w.Agrees :=
  (run_invariant (fun _ _ _ => Sound.step) orderly ends sound_initial).agrees

/-! ## Poles -/

/-- A script that runs a server, registers a handler with it, stops it and ends. -/
def handlerFirst : List (Event 1 String) :=
  [.call 0 .bootstrap (.startServer "s"), .call 0 .bootstrap (.registerServiceHandler true 1 []),
    .call 0 .bootstrap (.stopServer (some "s")), .finish 0 .bootstrap]

/-- The same by two coroutines that are set up first; one of them runs the server. -/
def parallelFirst : List (Event 1 String) :=
  [.call 0 .bootstrap (.setupParallelTest 1 2), .call 0 (.coroutine 1) (.startServer "s"),
    .call 0 (.coroutine 1) (.registerServiceHandler true 1 []), .finish 0 .handler,
    .finish 0 (.coroutine 0), .call 0 (.coroutine 1) (.stopServer (some "s")),
    .finish 0 (.coroutine 1)]

/-- **Satisfiable pole:** the test of two coroutines ends when both have. -/
theorem parallelFirst_agrees : ∃ w, run World.step (initial 1 String) parallelFirst = .ok w ∧ w.Agrees ∧
      w.isTestFinished = true := by
  obtain ⟨w, ends, ended⟩ := exists_run World.step (initial 1 String) parallelFirst
    (fun w => w.isTestFinished = true) (by decide +kernel)
  exact ⟨w, ends, finished_agrees (by decide +kernel) ends, ended⟩

/-- **Refuting pole:** the script has run and its server is stopped, but the test is not
finished; and it was said to be while the script was still running. -/
theorem handlerFirst_disagrees : (∃ w, run World.step (initial 1 String) handlerFirst = .ok w ∧
        (∀ i, (w.groups i).AllFinished) ∧ w.servers = [] ∧ w.isTestFinished = false) ∧
      ∃ w, run World.step (initial 1 String) (handlerFirst.take 3) = .ok w ∧
        w.isTestFinished = true ∧ ¬ ∀ i, (w.groups i).AllFinished :=
  ⟨exists_run World.step (initial 1 String) handlerFirst
      (fun w => (∀ i, (w.groups i).AllFinished) ∧ w.servers = [] ∧ w.isTestFinished = false)
      (by decide +kernel),
    exists_run World.step (initial 1 String) (handlerFirst.take 3)
      (fun w => w.isTestFinished = true ∧ ¬ ∀ i, (w.groups i).AllFinished) (by decide +kernel)⟩

end World

end

end H2LoadRunner.Lua.TestGroups
