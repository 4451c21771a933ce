/-
# Load.DelayedScenarios -- scenarios that wait before they start

A scenario with `interval_to_wait_before_start` is to have the weight zero until the interval is
over.  `process_delayed_scenario` sets the weights to zero and starts a thread that restores them
and counts every restoration in a sequence number.  Each worker thread chooses scenarios from a map
of its own, built from the weights when it chooses for the first time and built again when the
sequence number has changed.  `main` releases the workers before that call.

* `patient_of_ready`: in every interleaving in which each worker chooses for the first time after
  the weights have been set to zero, a scenario that is the only one is not delayed, and the first
  scenario is not delayed where the weighted total overflows, no scenario is chosen before the step
  that restores its weight.
-/
import H2LoadRunner.Library.Lots
import H2LoadRunner.Library.Transition
import H2LoadRunner.Load.Effects

namespace H2LoadRunner.Load.DelayedScenarios

open Library Library.Transition
open Library.Lots (assign upperBound mem_of_upperBound upperBound_ne_none exists_lt_of_lt_foldl_max)

set_option autoImplicit false

variable {map : List (Nat × Nat)} {index number : Nat}

/-! ## Choosing a scenario -/

/-- What is read of a scenario; `requests` is the number of its requests. -/
structure Scenario where
  weight : Nat
  intervalToWaitBeforeStart : Nat
  requests : Nat

inductive Fault where
  | disabled
  | divisionByZero
  /-- "all scenarios have weight of 0, cannot continue" -/
  | allWeightsZero
  deriving DecidableEq

/-- One turn of the loop of `find_common_multiple`: values that divide one of the set are left out. -/
def addMaximal (finalSet : List Nat) (val : Nat) : Except Fault (List Nat) :=
  if finalSet = [] then .ok [val]
  else if val = 0 then .error .divisionByZero
  else if finalSet.any fun inSet => decide (1 ≤ inSet / val) && inSet % val == 0 then .ok finalSet
  else .ok (val :: finalSet)

def findCommonMultiple (input : List Nat) : Except Fault Nat := do
  let finalSet ← (input.dedup.insertionSort (· ≥ ·)).foldlM addMaximal []
  return finalSet.foldl (fun product val => product * val % sizeMax) 1

def initScheduleMap (commonMultiple : Nat) :
    Nat → Nat → List (Nat × Nat) → List Scenario → Except Fault (List (Nat × Nat))
  | _, _, map, [] => if map = [] then .error .allWeightsZero else .ok map
  | index, total, map, scenario :: rest =>
    if 0 < scenario.weight then
      if scenario.requests = 0 then .error .divisionByZero
      else
        let total := (total + scenario.weight * commonMultiple % sizeMax / scenario.requests) % sizeMax
        initScheduleMap commonMultiple (index + 1) total (assign total index map) rest
    else initScheduleMap commonMultiple (index + 1) total map rest

structure Schedule where
  seqNo : Nat
  scheduleMap : List (Nat × Nat)
  deriving DecidableEq

def Schedule.totalWeight (schedule : Schedule) : Nat :=
  schedule.scheduleMap.foldl (fun most entry => max most entry.1) 0

def buildSchedule (scenarios : List Scenario) (sequence : Nat) : Except Fault Schedule := do
  let commonMultiple ← findCommonMultiple (scenarios.map Scenario.requests)
  let scheduleMap ← initScheduleMap commonMultiple 0 0 [] scenarios
  return ⟨sequence, scheduleMap⟩

/-- The low half of `total_weight - 1`, of which the distribution makes its upper end, an `int`. -/
def Schedule.bound (schedule : Schedule) : Nat := (schedule.totalWeight + sizeMax - 1) % 2 ^ 32

/-- The upper end is not negative: the bounds of the distribution are in order. -/
def Schedule.ordered (schedule : Schedule) : Bool := decide (schedule.bound < 2 ^ 31)

/-- The numbers the distribution gives.  With a negative upper end libstdc++ gives any `int`, and a
negative one becomes a `uint64_t` near the largest. -/
def Schedule.draws (schedule : Schedule) (number : Nat) : Bool :=
  if schedule.ordered then decide (number ≤ schedule.bound)
  else decide (number < 2 ^ 31 ∨ sizeMax - 2 ^ 31 ≤ number ∧ number < sizeMax)

/-- The schedule the worker chooses from: its own, or a new one. -/
def currentSchedule (scenarios : List Scenario) (sequence : Nat) : Option Schedule → Except Fault Schedule
  | none => buildSchedule scenarios sequence
  | some schedule =>
    if schedule.seqNo = sequence then .ok schedule else buildSchedule scenarios sequence

/-- `get_index_of_next_scenario_to_run`, where `number` is what the generator gives. -/
def getIndexOfNextScenarioToRun (scenarios : List Scenario) (sequence : Nat)
    (own : Option Schedule) (number : Nat) : Except Fault (Nat × Option Schedule) :=
  if scenarios.length ≤ 1 then .ok (0, own)
  else do
    let schedule ← currentSchedule scenarios sequence own
    if schedule.draws number then return ((upperBound schedule.scheduleMap number).getD 0, some schedule)
    else .error .disabled

/-! ## The threads -/

/-- The thread that restores the weights. -/
inductive Updater where
  | unborn
  | sleeping
  /-- In `update_scenario`, with the entries still to look at. -/
  | passing (elapsed : Nat) (rest : List Nat)
  /-- A weight is restored, the sequence number not yet incremented. -/
  | announcing (elapsed : Nat) (rest : List Nat)
  | done
  deriving DecidableEq

/-- An entry of `delayed_scenarios`. -/
structure Delayed where
  index : Nat
  interval : Nat
  weight : Nat

structure Process where
  scenarios : List Scenario
  /-- `config_update_sequence_number` -/
  sequence : Nat := 0
  /-- The scenario the loop of `process_delayed_scenario` is at. -/
  next : Nat := 0
  delayed : List Delayed := []
  updater : Updater := .unborn
  /-- The schedules of the worker threads. -/
  schedules : Nat → Option Schedule := fun _ => none
  /-- Ghost: the scenarios whose weight was restored. -/
  restored : List Nat := []

def setWeight (weight : Nat) (scenario : Scenario) : Scenario := { scenario with weight := weight }

inductive Step where
  /-- One turn of the loop of `process_delayed_scenario`. -/
  | zero
  /-- What follows that loop. -/
  | spawn
  /-- The update thread begins to look through its entries, so many milliseconds after the start. -/
  | wake (elapsed : Nat)
  | examine
  | announce
  | finish
  /-- A worker thread chooses a scenario. -/
  | select (worker number : Nat)

namespace Process

/-- The loop body for the scenario at `next`. -/
def zero (p : Process) (scenario : Scenario) : Process :=
  if scenario.intervalToWaitBeforeStart ≠ 0 then
    { p with
      next := p.next + 1
      delayed := p.delayed ++ [⟨p.next, scenario.intervalToWaitBeforeStart, scenario.weight⟩]
      scenarios := p.scenarios.modify p.next (setWeight 0) }
  else { p with next := p.next + 1 }

def restore (p : Process) (entry : Delayed) (elapsed : Nat) (rest : List Nat) : Process :=
  { p with
    scenarios := p.scenarios.modify entry.index (setWeight entry.weight)
    delayed := p.delayed.filter (·.index ≠ entry.index)
    updater := .announcing elapsed rest
    restored := entry.index :: p.restored }

end Process

def step (p : Process) : Step → Except Fault Process
  | .zero =>
    match p.scenarios[p.next]? with
    | none => .error .disabled
    | some scenario => if p.updater = .unborn then .ok (p.zero scenario) else .error .disabled
  | .spawn =>
    if p.updater = .unborn ∧ p.next = p.scenarios.length then
      .ok { p with updater := if p.delayed = [] then .done else .sleeping }
    else .error .disabled
  | .wake elapsed =>
    if p.updater = .sleeping then .ok { p with updater := .passing elapsed (p.delayed.map Delayed.index) }
    else .error .disabled
  | .examine =>
    match p.updater with
    | .passing elapsed (index :: rest) =>
      match p.delayed.find? (·.index = index) with
      | none => .error .disabled
      | some entry =>
        if entry.interval ≤ elapsed then .ok (p.restore entry elapsed rest)
        else .ok { p with updater := .passing elapsed rest }
    | _ => .error .disabled
  | .announce =>
    match p.updater with
    | .announcing elapsed rest =>
      .ok { p with sequence := p.sequence + 1, updater := .passing elapsed rest }
    | _ => .error .disabled
  | .finish =>
    match p.updater with
    | .passing _ [] => .ok { p with updater := if p.delayed = [] then .done else .sleeping }
    | _ => .error .disabled
  | .select worker number => do
    let (_, schedule) ← getIndexOfNextScenarioToRun p.scenarios p.sequence (p.schedules worker) number
    return { p with schedules := Function.update p.schedules worker schedule }

def Process.start (scenarios : List Scenario) : Process := { scenarios := scenarios }

/-! ## What is stated -/

/-- The scenario waits for the step that restores its weight. -/
def Process.Waits (p : Process) (index : Nat) : Prop :=
  index ∉ p.restored ∧ ∃ scenario, p.scenarios[index]? = some scenario ∧
    scenario.intervalToWaitBeforeStart ≠ 0

/-- No scenario is chosen that waits. -/
def Patient (p : Process) : Step → Prop
  | .select worker number => ∀ index schedule,
      getIndexOfNextScenarioToRun p.scenarios p.sequence (p.schedules worker) number =
        .ok (index, schedule) → ¬ p.Waits index
  | _ => True

/-- A worker chooses for the first time after the loop has passed every scenario that waits with a
weight; a scenario that is the only one does not wait; and the first one waits only where the bounds
of the distribution are in order. -/
def Ready (p : Process) : Step → Prop
  | .select worker _ =>
    if p.scenarios.length ≤ 1 then ¬ p.Waits 0
    else
      (p.schedules worker = none → ∀ index scenario, p.scenarios[index]? = some scenario →
        scenario.intervalToWaitBeforeStart ≠ 0 → scenario.weight ≠ 0 →
          index < p.next ∨ index ∈ p.restored) ∧
      (p.Waits 0 → ∀ schedule, currentSchedule p.scenarios p.sequence (p.schedules worker) = .ok schedule →
        schedule.ordered = true)
  | _ => True

/-! ## What a worker chooses -/

variable {schedule : Schedule} {scenarios : List Scenario} {sequence : Nat} {p : Process}

theorem Schedule.lt_totalWeight (ordered : schedule.ordered = true) (drawn : schedule.draws number = true) :
    number < schedule.totalWeight := by
  rw [Schedule.draws, if_pos ordered, decide_eq_true_iff, Schedule.bound, sizeMax] at drawn
  rw [Schedule.ordered, decide_eq_true_iff, Schedule.bound, sizeMax] at ordered
  omega

/-- What a worker chooses among several scenarios is an entry of the schedule it uses, or the first
scenario where the bounds of the distribution are not in order. -/
theorem getIndexOfNextScenarioToRun_ok {own after : Option Schedule} (several : ¬ scenarios.length ≤ 1)
    (chosen : getIndexOfNextScenarioToRun scenarios sequence own number = .ok (index, after)) :
    ∃ schedule, currentSchedule scenarios sequence own = .ok schedule ∧ after = some schedule ∧
      ((∃ key, (key, index) ∈ schedule.scheduleMap) ∨ index = 0 ∧ schedule.ordered = false) := by
  rw [getIndexOfNextScenarioToRun, if_neg several] at chosen
  obtain ⟨schedule, used, chosen⟩ := ok_of_bind chosen
  split at chosen <;> cases chosen
  rename_i drawn
  refine ⟨schedule, used, rfl, ?_⟩
  cases behind : upperBound schedule.scheduleMap number with
  | some found => exact .inl (mem_of_upperBound behind)
  | none =>
    refine .inr ⟨rfl, Bool.eq_false_iff.mpr fun ordered => ?_⟩
    have below : number < schedule.totalWeight := schedule.lt_totalWeight ordered drawn
    rw [Schedule.totalWeight] at below
    obtain impossible | ⟨entry, listed, below⟩ := exists_lt_of_lt_foldl_max below
    · exact absurd impossible (Nat.not_lt_zero _)
    · exact upperBound_ne_none listed below behind

theorem initScheduleMap_listed {P : Nat → Prop} {commonMultiple first total : Nat} {result : List (Nat × Nat)}
    (built : initScheduleMap commonMultiple first total map scenarios = .ok result)
    (before : ∀ entry ∈ map, P entry.2)
    (added : ∀ offset scenario, scenarios[offset]? = some scenario → 0 < scenario.weight →
      P (first + offset)) : ∀ entry ∈ result, P entry.2 := by
  induction scenarios generalizing first total map with
  | nil =>
    rw [initScheduleMap] at built
    split at built <;> cases built
    exact before
  | cons scenario rest ih =>
    have later : ∀ offset scenario, rest[offset]? = some scenario → 0 < scenario.weight →
        P (first + 1 + offset) := by
      intro offset other found weighs
      have := added (offset + 1) other found weighs
      rwa [Nat.add_comm offset, ← Nat.add_assoc] at this
    rw [initScheduleMap] at built
    split at built
    · rename_i weighs
      split at built
      · cases built
      · refine ih built (fun entry listed => ?_) later
        rcases List.mem_cons.mp listed with rfl | old
        · exact added 0 scenario rfl weighs
        · exact before entry (List.mem_filter.mp old).1
    · exact ih built before later

theorem buildSchedule_ok (built : buildSchedule scenarios sequence = .ok schedule) :
    schedule.seqNo = sequence ∧ ∀ entry ∈ schedule.scheduleMap,
      ∃ scenario, scenarios[entry.2]? = some scenario ∧ 0 < scenario.weight := by
  rw [buildSchedule] at built
  obtain ⟨commonMultiple, -, built⟩ := ok_of_bind built
  obtain ⟨scheduleMap, map, built⟩ := ok_of_bind built
  cases built
  refine ⟨rfl, initScheduleMap_listed
    (P := fun index => ∃ scenario, scenarios[index]? = some scenario ∧ 0 < scenario.weight)
    map (by simp) fun offset scenario found weighs => ⟨scenario, ?_, weighs⟩⟩
  rwa [Nat.zero_add]

/-! ## The invariant -/

/-- What holds while every step is ready. -/
structure Process.Careful (p : Process) : Prop where
  /-- What the loop has passed and the update thread has not restored has no weight. -/
  cleared : ∀ index scenario, p.scenarios[index]? = some scenario →
    scenario.intervalToWaitBeforeStart ≠ 0 → index < p.next → index ∉ p.restored →
      scenario.weight = 0
  /-- The update thread is started behind the loop. -/
  passed : p.updater ≠ .unborn → p.next = p.scenarios.length
  /-- Nothing but the update thread changes the sequence number. -/
  counted : p.updater = .unborn → p.sequence = 0
  dated : ∀ worker schedule, p.schedules worker = some schedule → p.updater = .unborn →
    schedule.seqNo = 0
  /-- No worker has a scenario in its schedule that waits. -/
  unlisted : ∀ worker schedule, p.schedules worker = some schedule →
    ∀ entry ∈ schedule.scheduleMap, ¬ p.Waits entry.2

theorem careful_start (scenarios : List Scenario) : (Process.start scenarios).Careful where
  cleared _ _ _ _ impossible := absurd impossible (Nat.not_lt_zero _)
  passed born := absurd rfl born
  counted _ := rfl
  dated _ _ none := by cases none
  unlisted _ _ none := by cases none

theorem Process.Careful.currentSchedule_unlisted (careful : p.Careful) {worker : Nat}
    (ready : Ready p (.select worker number)) (several : ¬ p.scenarios.length ≤ 1)
    (used : currentSchedule p.scenarios p.sequence (p.schedules worker) = .ok schedule) :
    ∀ entry ∈ schedule.scheduleMap, ¬ p.Waits entry.2 := by
  rw [Ready, if_neg several] at ready
  -- A schedule built now lists what has a weight now, so it is enough that the loop has passed it.
  have fresh : buildSchedule p.scenarios p.sequence = .ok schedule →
      (∀ index scenario, p.scenarios[index]? = some scenario →
        scenario.intervalToWaitBeforeStart ≠ 0 → scenario.weight ≠ 0 →
          index < p.next ∨ index ∈ p.restored) →
      ∀ entry ∈ schedule.scheduleMap, ¬ p.Waits entry.2 := by
    rintro built reached entry listed ⟨waiting, scenario, found, delays⟩
    obtain ⟨other, same, weighs⟩ := (buildSchedule_ok built).2 entry listed
    rw [found] at same
    cases same
    rcases reached entry.2 scenario found delays (by omega) with passed | restored
    · have := careful.cleared entry.2 scenario found delays passed waiting
      omega
    · exact waiting restored
  cases own : p.schedules worker with
  | none =>
    rw [own] at used
    exact fresh used (ready.1 own)
  | some old =>
    rw [own, currentSchedule] at used
    split at used
    · cases used
      exact careful.unlisted worker _ own
    · rename_i changed
      have born : p.updater ≠ .unborn := by
        intro unborn
        exact changed ((careful.dated worker old own unborn).trans (careful.counted unborn).symm)
      refine fresh used fun index scenario found _ _ => .inl ?_
      rw [careful.passed born]
      exact (List.getElem?_eq_some_iff.mp found).1

theorem currentSchedule_seqNo {own : Option Schedule}
    (used : currentSchedule scenarios sequence own = .ok schedule) : schedule.seqNo = sequence := by
  cases own with
  | none => exact (buildSchedule_ok used).1
  | some old =>
    rw [currentSchedule] at used
    split at used
    · cases used
      assumption
    · exact (buildSchedule_ok used).1

theorem Process.Careful.patient (careful : p.Careful) {e : Step} (ready : Ready p e) : Patient p e := by
  cases e with
  | select worker number =>
    intro index schedule chosen
    by_cases several : p.scenarios.length ≤ 1
    · rw [getIndexOfNextScenarioToRun, if_pos several] at chosen
      cases chosen
      rwa [Ready, if_pos several] at ready
    · obtain ⟨inUse, used, -, ⟨key, listed⟩ | ⟨rfl, disordered⟩⟩ :=
        getIndexOfNextScenarioToRun_ok several chosen
      · exact careful.currentSchedule_unlisted ready several used (key, index) listed
      · rw [Ready, if_neg several] at ready
        exact fun waits => Bool.eq_false_iff.mp disordered (ready.2 waits inUse used)
  | _ => trivial

theorem getElem?_modify_setWeight {place weight : Nat} {scenario : Scenario}
    (found : (scenarios.modify place (setWeight weight))[index]? = some scenario) :
    ∃ old, scenarios[index]? = some old ∧ old.intervalToWaitBeforeStart = scenario.intervalToWaitBeforeStart ∧
      scenario.weight = if place = index then weight else old.weight := by
  rw [List.getElem?_modify] at found
  obtain ⟨old, there, rfl⟩ := Option.map_eq_some_iff.mp found
  refine ⟨old, there, ?_, ?_⟩ <;> split <;> rfl

theorem Process.waits_of_modify {q : Process} {place weight : Nat}
    (scenarios : q.scenarios = p.scenarios.modify place (setWeight weight))
    (restored : p.restored ⊆ q.restored) (waits : q.Waits index) : p.Waits index := by
  obtain ⟨waiting, scenario, found, delays⟩ := waits
  rw [scenarios] at found
  obtain ⟨old, there, same, -⟩ := getElem?_modify_setWeight found
  exact ⟨fun before => waiting (restored before), old, there, by rwa [same]⟩

theorem Process.Careful.zero (careful : p.Careful) {scenario : Scenario}
    (found : p.scenarios[p.next]? = some scenario) (unborn : p.updater = .unborn) :
    (p.zero scenario).Careful := by
  rw [Process.zero]
  split
  · refine ⟨?_, fun born => absurd unborn born, careful.counted, careful.dated, ?_⟩
    · intro index cleared there delays passed waiting
      obtain ⟨old, before, same, weight⟩ := getElem?_modify_setWeight there
      rw [weight]
      split
      · rfl
      · rename_i elsewhere
        have earlier : index < p.next := by
          have : index < p.next + 1 := passed
          omega
        exact careful.cleared index old before (by rwa [same]) earlier waiting
    · intro worker schedule own entry listed waits
      have waited : p.Waits entry.2 :=
        Process.waits_of_modify (q := { p with scenarios := p.scenarios.modify p.next (setWeight 0) })
          rfl (List.Subset.refl _) waits
      exact careful.unlisted worker schedule own entry listed waited
  · rename_i undelayed
    refine { careful with cleared := ?_, passed := fun born => absurd unborn born }
    intro index other there delays passed waiting
    have within : index < p.next + 1 := passed
    rcases Nat.lt_succ_iff_lt_or_eq.mp within with earlier | rfl
    · exact careful.cleared index other there delays earlier waiting
    · cases found.symm.trans there
      exact absurd delays undelayed

theorem Process.Careful.advance (careful : p.Careful) (passed : p.next = p.scenarios.length)
    {updater : Updater} (born : updater ≠ .unborn) (sequence : Nat) :
    { p with updater := updater, sequence := sequence }.Careful where
  cleared := careful.cleared
  passed _ := passed
  counted unborn := absurd unborn born
  dated _ _ _ unborn := absurd unborn born
  unlisted := careful.unlisted

theorem Process.Careful.restore (careful : p.Careful) (passed : p.next = p.scenarios.length)
    (entry : Delayed) (elapsed : Nat) (rest : List Nat) : (p.restore entry elapsed rest).Careful where
  cleared index scenario found delays within waiting := by
    obtain ⟨old, there, same, weight⟩ := getElem?_modify_setWeight found
    have other : entry.index ≠ index := by
      rintro rfl
      exact waiting List.mem_cons_self
    rw [weight, if_neg other]
    exact careful.cleared index old there (by rwa [same]) within
      fun before => waiting (List.mem_cons_of_mem _ before)
  passed _ := passed.trans (List.length_modify _ _ _).symm
  counted unborn := nomatch unborn
  dated _ _ _ unborn := nomatch unborn
  unlisted worker schedule own listed member waits :=
    careful.unlisted worker schedule own listed member
      (Process.waits_of_modify rfl (List.subset_cons_self _ _) waits)

theorem Process.Careful.select (careful : p.Careful) {worker : Nat} {schedule : Option Schedule}
    (ready : Ready p (.select worker number))
    (chosen : getIndexOfNextScenarioToRun p.scenarios p.sequence (p.schedules worker) number =
      .ok (index, schedule)) : { p with schedules := Function.update p.schedules worker schedule }.Careful := by
  have kept : ∀ other, schedule = some other →
      (p.updater = .unborn → other.seqNo = 0) ∧ ∀ entry ∈ other.scheduleMap, ¬ p.Waits entry.2 := by
    rintro other rfl
    by_cases several : p.scenarios.length ≤ 1
    · rw [getIndexOfNextScenarioToRun, if_pos several] at chosen
      have own : p.schedules worker = some other := (Prod.mk.inj (Except.ok.inj chosen)).2
      exact ⟨careful.dated worker other own, careful.unlisted worker other own⟩
    · obtain ⟨inUse, used, same, -⟩ := getIndexOfNextScenarioToRun_ok several chosen
      cases same
      refine ⟨fun unborn => ?_, careful.currentSchedule_unlisted ready several used⟩
      rw [currentSchedule_seqNo used, careful.counted unborn]
  have each : ∀ other own, Function.update p.schedules worker schedule other = some own →
      (p.updater = .unborn → own.seqNo = 0) ∧ ∀ entry ∈ own.scheduleMap, ¬ p.Waits entry.2 := by
    intro other own found
    by_cases same : other = worker
    · rw [same, Function.update_self] at found
      exact kept own found
    · rw [Function.update_of_ne same] at found
      exact ⟨careful.dated other own found, careful.unlisted other own found⟩
  exact { careful with
    dated := fun other own found => (each other own found).1
    unlisted := fun other own found => (each other own found).2 }

theorem careful_step {q : Process} {e : Step} (ready : Ready p e) (careful : p.Careful)
    (taken : step p e = .ok q) : q.Careful := by
  cases e with
  | zero =>
    rw [step] at taken
    split at taken
    · cases taken
    · rename_i scenario found
      split at taken <;> cases taken
      exact careful.zero found ‹_›
  | spawn =>
    rw [step] at taken
    split at taken <;> cases taken
    rename_i at_end
    exact careful.advance at_end.2 (by split <;> simp) p.sequence
  | wake elapsed =>
    rw [step] at taken
    split at taken <;> cases taken
    rename_i sleeping
    exact careful.advance (careful.passed (by simp [sleeping])) (by simp) p.sequence
  | examine =>
    rw [step] at taken
    split at taken
    · rename_i elapsed index rest passing
      have behind := careful.passed (by simp [passing])
      split at taken
      · cases taken
      · rename_i entry _
        split at taken <;> cases taken
        · exact careful.restore behind entry elapsed rest
        · exact careful.advance behind (by simp) p.sequence
    · cases taken
  | announce =>
    rw [step] at taken
    split at taken <;> cases taken
    rename_i elapsed rest announcing
    exact careful.advance (careful.passed (by simp [announcing])) (by simp) (p.sequence + 1)
  | finish =>
    rw [step] at taken
    split at taken <;> cases taken
    rename_i elapsed passing
    exact careful.advance (careful.passed (by simp [passing])) (by split <;> simp) p.sequence
  | select worker number =>
    obtain ⟨⟨index, schedule⟩, chosen, taken⟩ := ok_of_bind taken
    cases taken
    exact careful.select ready chosen

/-! ## Every interleaving -/

/-- **No scenario is chosen before its weight is restored, if every step is ready.** -/
theorem patient_of_ready (scenarios : List Scenario) (steps : List Step)
    (ready : Along step Ready (Process.start scenarios) steps) :
    Along step Patient (Process.start scenarios) steps :=
  ready.of_invariant (fun _ _ _ ready careful => careful_step ready careful)
    (fun _ _ careful ready => careful.patient ready) (careful_start scenarios)

def laterScenarios : List Scenario := [⟨100, 0, 1⟩, ⟨100, 1000, 1⟩]

/-- **Satisfiable pole:** the loop passes both scenarios, a worker chooses, the second scenario is
restored, and the worker chooses again. -/
theorem laterScenarios_patient : Along step Patient (Process.start laterScenarios)
      [.zero, .zero, .select 0 50, .spawn, .wake 1000, .examine, .announce, .select 0 150] := by
  refine patient_of_ready _ _ ?_
  have first (p : Process) (found : p.scenarios[0]? = some ⟨100, 0, 1⟩) : ¬ p.Waits 0 := by
    rintro ⟨-, scenario, other, delays⟩
    cases found.symm.trans other
    exact absurd rfl delays
  refine ⟨trivial, trivial, ⟨?_, fun waits => absurd waits (first _ rfl)⟩, trivial, trivial, trivial, trivial,
    ⟨nofun, fun waits => absurd waits (first _ rfl)⟩, trivial⟩
  intro _ index scenario found _ _
  exact .inl (List.getElem?_eq_some_iff.mp found).1

/-- **Refuting pole:** a worker chooses before the loop has passed the second scenario, and a scenario
that is the only one is chosen in any case. -/
theorem earlyWorker_not_patient : ¬ Along step Patient (Process.start laterScenarios) [.zero, .select 0 150] ∧
      ¬ Along step Patient (Process.start [⟨100, 1000, 1⟩]) [.zero, .spawn, .select 0 0] := by
  constructor
  · rintro ⟨-, patient, -⟩
    exact patient 1 (some ⟨0, [(200, 1), (100, 0)]⟩) (by decide +kernel)
      ⟨List.not_mem_nil, ⟨100, 1000, 1⟩, rfl, by decide⟩
  · rintro ⟨-, -, patient, -⟩
    exact patient 0 none rfl ⟨List.not_mem_nil, ⟨0, 1000, 1⟩, rfl, by decide⟩

end H2LoadRunner.Load.DelayedScenarios
