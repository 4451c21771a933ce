/-
# Lua.GroupWorkers -- the workers and the clients a group of coroutines is given

`setup_parallel_test` takes the numbers of workers, of clients for each host and of coroutines, and
looks only at the last; `register_service_handler` takes the number of workers from the server, and
leaves its caller without one if the server has no thread.
`setup_test_group` runs two loops over an `int`, the second of them divides by the number of workers,
and `init_workers` creates none if the script has already made it create one.  `_make_connection`
draws a client from a distribution up to the number of clients less one, in 64 bits.

`groupRuns_iff` gives the numbers for which all of that is defined.  No worker is the first triple to
be accepted without (`noWorker_not_groupRuns`).
-/
import Mathlib

namespace H2LoadRunner.Lua.GroupWorkers

set_option autoImplicit false

/-! ## A group -/

/-- The numbers of `Lua_Group_Config`, each a `size_t`. -/
structure Group where
  numberOfWorkers : Nat
  numberOfClient : Nat
  numberOfCoroutines : Nat
  /-- `get_worker` was called, and created one worker, before the group was configured. -/
  started : Bool := false

inductive Fault where
  | divisionByZero
  | signedOverflow
  /-- An index past the end of `workers` or of `data_per_worker_thread`. -/
  | outOfRange

def sizeT (n : Int) : Nat := (n % 2 ^ 64).toNat

def intLimit : Nat := 2 ^ 31

/-- `for (int i = 0; i < bound; i++)`, from `i` on. -/
def forInt {α : Type} (body : Nat → Except Fault α) : (remaining i : Nat) → Except Fault (List α)
  | 0, _ => .ok []
  | remaining + 1, i => do
    let a ← body i
    if i + 1 < intLimit then return a :: (← forInt body remaining (i + 1)) else .error .signedOverflow

namespace Group

def workers (g : Group) : Nat := if g.started then 1 else g.numberOfWorkers

/-- `setup_test_group`, with the worker of each coroutine. -/
def setupTestGroup (g : Group) : Except Fault (List Nat) := do
  let _ ← forInt (fun _ => .ok ()) g.numberOfWorkers 0
  forInt (fun i => if g.numberOfWorkers = 0 then .error .divisionByZero else .ok (i % g.numberOfWorkers))
    g.numberOfCoroutines 0

/-- `workers` and `data_per_worker_thread` at the indices of coroutines. -/
def useWorkers (g : Group) (indices : List Nat) : Except Fault Unit :=
  if ∀ index ∈ indices, index < g.workers ∧ index < g.numberOfWorkers then .ok () else .error .outOfRange

/-- `setup_parallel_test`, where it accepts its arguments, with `start_test_group`. -/
def setupParallelTest (g : Group) : Except Fault (List Nat) := do
  let assigned ← g.setupTestGroup
  g.useWorkers assigned
  return assigned

/-- `register_service_handler`, where it configures the group, with the end of its caller. -/
def registerServiceHandler (g : Group) : Except Fault Unit := do
  let _ ← { g with numberOfCoroutines := 0 }.setupTestGroup
  -- The caller has the index of a coroutine that no group has set up.
  g.useWorkers (0 :: List.range g.numberOfWorkers)

/-- The last number of `uniform_int_distribution<uint64_t>(0, clients_needed - 1)`. -/
def lastIndex (clientsNeeded : Nat) : Nat := (clientsNeeded + (2 ^ 64 - 1)) % 2 ^ 64

/-- Where a client is drawn from a pool, it is there.  The distribution of a thread stays as it was
created, possibly for the one client of a group that was not yet configured. -/
def DrawsClients (g : Group) : Prop :=
  ∀ poolSize, ¬ poolSize < g.numberOfClient →
    ∀ created, created = g.numberOfClient ∨ g.started ∧ created = 1 →
    ∀ index ≤ lastIndex created, index < poolSize

/-- Every coroutine has a worker, `i` that of number `i` modulo the workers, so their loads differ by
one at most, and every client that is drawn is there. -/
structure Runs (g : Group) : Prop where
  parallel : ∃ assigned, g.setupParallelTest = .ok assigned ∧ assigned.length = g.numberOfCoroutines ∧
    (∀ i (inside : i < assigned.length), assigned[i] = i % g.numberOfWorkers ∧ assigned[i] < g.workers) ∧
    ∀ a < g.numberOfWorkers, ∀ b < g.numberOfWorkers, assigned.count a ≤ assigned.count b + 1
  draws : g.DrawsClients

end Group

/-! ## The loops -/

theorem forInt_ok {α : Type} (f : Nat → α) {i : Nat} (inside : i < intLimit) (n : Nat) :
    forInt (fun i => .ok (f i)) n i =
      if i + n < intLimit then .ok ((List.range' i n).map f) else .error .signedOverflow := by
  induction n generalizing i with
  | zero => simp [forInt, inside]
  | succ n ih =>
    by_cases next : i + 1 < intLimit
    · simp only [forInt, if_pos next, ih next, show i + 1 + n = i + (n + 1) by omega]
      split <;> simp [bind, Except.bind, pure, Except.pure, List.range'_succ]
    · rw [if_neg (by omega), forInt]
      exact if_neg next

variable {g : Group} {assigned : List Nat}

theorem setupTestGroup_eq_ok_iff :
    g.setupTestGroup = .ok assigned ↔ g.numberOfWorkers < intLimit ∧ g.numberOfCoroutines < intLimit ∧
      (0 < g.numberOfWorkers ∨ g.numberOfCoroutines = 0) ∧
      assigned = (List.range g.numberOfCoroutines).map (· % g.numberOfWorkers) := by
  have start : 0 < intLimit := by decide
  rw [Group.setupTestGroup, forInt_ok (fun _ => ()) start, Nat.zero_add]
  by_cases small : g.numberOfWorkers < intLimit
  · by_cases none : g.numberOfWorkers = 0
    · cases g.numberOfCoroutines <;> simp [none, start, forInt, bind, Except.bind, eq_comm]
    · simp only [small, if_true, none, if_false, forInt_ok (· % g.numberOfWorkers) start,
        bind, Except.bind, List.range_eq_range', Nat.zero_add, true_and, Nat.pos_of_ne_zero none, true_or]
      split <;> simp_all [eq_comm]
  · simp [small, bind, Except.bind]

theorem useWorkers_eq_ok_iff (indices : List Nat) :
    g.useWorkers indices = .ok () ↔ ∀ index ∈ indices, index < g.workers ∧ index < g.numberOfWorkers := by
  rw [Group.useWorkers]
  split <;> simp_all

theorem ok_of_do {α : Type} {first : Except Fault α} {check : α → Except Fault Unit} {a : α} :
    (do let a ← first; check a; return a) = Except.ok a ↔ first = .ok a ∧ check a = .ok () := by
  cases first with
  | error fault => simp [bind, Except.bind]
  | ok value => cases verdict : check value <;> simp_all [bind, Except.bind, pure, Except.pure] <;> grind

theorem count_assigned_le {workers : Nat} (coroutines : Nat) {a b : Nat} (known : a < workers) (other : b < workers) :
    ((List.range coroutines).map (· % workers)).count a ≤ ((List.range coroutines).map (· % workers)).count b + 1 := by
  have share {a : Nat} (known : a < workers) : ((List.range coroutines).map (· % workers)).count a =
      coroutines / workers + if a < coroutines % workers then 1 else 0 := by
    have modulo := Nat.count_modEq_card (Nat.zero_lt_of_lt known) (b := coroutines) a
    rw [Nat.mod_eq_of_lt known] at modulo
    rw [← modulo, List.count, List.countP_map, Nat.count]
    refine List.countP_congr fun i _ => ?_
    simp [Nat.ModEq, Nat.mod_eq_of_lt known]
  rw [share known, share other]
  split_ifs <;> omega

/-! ## The numbers a group runs with -/

theorem drawsClients_iff (small : g.numberOfClient < 2 ^ 64) : g.DrawsClients ↔ 0 < g.numberOfClient := by
  constructor
  · intro draws
    by_contra none
    exact Nat.lt_irrefl 0 (draws 0 none _ (.inl rfl) 0 (Nat.zero_le _))
  · intro some poolSize full created which index drawn
    have last : Group.lastIndex created = created - 1 := by
      rw [Group.lastIndex]
      omega
    omega

namespace Group

/-- The numbers `setup_parallel_test` should have looked at. -/
structure Sized (g : Group) : Prop where
  workers : 0 < g.numberOfWorkers ∧ g.numberOfWorkers < intLimit
  coroutines : g.numberOfCoroutines < intLimit
  client : 0 < g.numberOfClient
  notStarted : g.started = true → g.numberOfWorkers ≤ 1 ∨ g.numberOfCoroutines ≤ 1

end Group

theorem lt_workers_iff (some : 0 < g.numberOfWorkers) :
    (∀ i < g.numberOfCoroutines, i % g.numberOfWorkers < g.workers) ↔
      (g.started = true → g.numberOfWorkers ≤ 1 ∨ g.numberOfCoroutines ≤ 1) := by
  rw [Group.workers]
  split_ifs with started
  · simp only [started, true_imp_iff]
    constructor
    · intro first
      by_contra more
      have second := first 1 (by omega)
      rw [Nat.mod_eq_of_lt (by omega)] at second
      omega
    · rintro (one | one) i inside
      · exact (Nat.mod_lt i some).trans_le one
      · rw [show i = 0 by omega, Nat.zero_mod]
        exact Nat.one_pos
  · simp [started, Nat.mod_lt _ some]

theorem runs_iff (accepted : 0 < g.numberOfCoroutines) (small : g.numberOfClient < 2 ^ 64) :
    g.Runs ↔ g.Sized := by
  constructor
  · rintro ⟨⟨assigned, setup, -⟩, draws⟩
    obtain ⟨setup, used⟩ := ok_of_do.mp setup
    obtain ⟨workers, coroutines, some, rfl⟩ := setupTestGroup_eq_ok_iff.mp setup
    have some : 0 < g.numberOfWorkers := by omega
    rw [useWorkers_eq_ok_iff] at used
    exact ⟨⟨some, workers⟩, coroutines, (drawsClients_iff small).mp draws,
      (lt_workers_iff some).mp fun i inside => (used _ (List.mem_map_of_mem (List.mem_range.mpr inside))).1⟩
  · rintro ⟨⟨some, workers⟩, coroutines, client, notStarted⟩
    have used := (lt_workers_iff some).mpr notStarted
    refine ⟨⟨_, ok_of_do.mpr ⟨setupTestGroup_eq_ok_iff.mpr ⟨workers, coroutines, .inl some, rfl⟩,
      (useWorkers_eq_ok_iff _).mpr (by simpa [Nat.mod_lt _ some] using used)⟩, by simp, fun i inside => ?_,
      fun a known b other => count_assigned_le _ known other⟩, (drawsClients_iff small).mpr client⟩
    simp only [List.length_map, List.length_range] at inside
    simpa using used i inside

theorem registerServiceHandler_iff :
    g.registerServiceHandler = .ok () ↔
      (0 < g.numberOfWorkers ∧ g.numberOfWorkers < intLimit) ∧ (g.started = true → g.numberOfWorkers ≤ 1) := by
  have setup (assigned : List Nat) : { g with numberOfCoroutines := 0 }.setupTestGroup = .ok assigned ↔
      g.numberOfWorkers < intLimit ∧ assigned = [] := by
    rw [setupTestGroup_eq_ok_iff]
    simp [intLimit]
  have used : g.useWorkers (0 :: List.range g.numberOfWorkers) = .ok () ↔
      0 < g.numberOfWorkers ∧ (g.started = true → g.numberOfWorkers ≤ 1) := by
    rw [useWorkers_eq_ok_iff, Group.workers]
    split_ifs with started
    · simp only [List.mem_cons, List.mem_range, started, true_imp_iff]
      refine ⟨fun inside => ⟨(inside 0 (.inl rfl)).2, ?_⟩, fun known index inside => by omega⟩
      by_contra more
      exact absurd (inside 1 (.inr (by omega))).1 (Nat.lt_irrefl 1)
    · simp only [List.mem_cons, List.mem_range, started]
      exact ⟨fun inside => ⟨(inside 0 (.inl rfl)).2, nofun⟩, fun known index inside => by have := known.1; omega⟩
  by_cases small : g.numberOfWorkers < intLimit
  · rw [Group.registerServiceHandler, (setup []).mpr ⟨small, rfl⟩]
    exact used.trans (by simp [small])
  · cases result : { g with numberOfCoroutines := 0 }.setupTestGroup with
    | error fault => simp [Group.registerServiceHandler, result, small, bind, Except.bind]
    | ok assigned => exact absurd ((setup assigned).mp result).1 small

/-- **A group runs as it should** exactly when its numbers are in range: for every triple that
`setup_parallel_test` accepts, and for every number of server threads. -/
theorem groupRuns_iff (workers clients coroutines : Int) (threads : Nat) (started : Bool)
    (accepted : 0 < sizeT coroutines) :
    ((Group.mk (sizeT workers) (sizeT clients) (sizeT coroutines) started).Runs ↔
        (Group.mk (sizeT workers) (sizeT clients) (sizeT coroutines) started).Sized) ∧
      ((Group.mk threads (sizeT clients) 0 started).registerServiceHandler = .ok () ∧
          (Group.mk threads (sizeT clients) 0 started).DrawsClients ↔
        (0 < threads ∧ threads < intLimit) ∧ (started = true → threads ≤ 1) ∧ 0 < sizeT clients) := by
  have small : sizeT clients < 2 ^ 64 := by
    rw [sizeT]
    omega
  rw [runs_iff accepted small, drawsClients_iff small, registerServiceHandler_iff, and_assoc]
  exact ⟨Iff.rfl, Iff.rfl⟩

/-- **Satisfiable pole:** five coroutines on two workers. -/
theorem fiveOnTwo_runs : (Group.mk 2 1 5 false).Runs :=
  (groupRuns_iff 2 1 5 1 false (by decide)).1.mpr ⟨by decide, by decide, by decide, nofun⟩

/-- **Refuting pole:** `setup_parallel_test(0, 1, 1)` divides by zero. -/
theorem noWorker_not_groupRuns : ¬ ∀ workers clients coroutines : Int, 0 < sizeT coroutines →
      (Group.mk (sizeT workers) (sizeT clients) (sizeT coroutines) false).Runs := by
  intro always
  obtain ⟨_, setup, -⟩ := (always 0 1 1 (by decide)).parallel
  exact absurd setup nofun

end H2LoadRunner.Lua.GroupWorkers
